import Mathlib.Data.List.Perm.Basic
import Mathlib.Tactic.FinCases
import SpidevProxy.Facts

set_option relaxedAutoImplicit false
set_option autoImplicit false

/-!
# The requests of a run

Every datagram of a run has its own number. A request that is queued or being executed was received
under that number, no other one has it, and what the history says about the number is about this
request.

## Main definitions

* `Spid.Abs.live` — the requests that are queued or being executed.
* `Spid.Known` — the request was received.
* `Spid.Ledger` — what the history tells about the live requests.
* `Spid.Confined` — a property of all the requests that are at work from some point on.

## Main results

* `Spid.Step.live` — how each transition changes the live requests.
* `Spid.Run.ledger` — the ledger is kept along every run.
* `Spid.Run.no_access_before`, `Spid.Run.no_access_after` — the accesses for a request lie between
  its dispatch and its answer.
-/

namespace Spid

open History

/-! ## Live requests -/

/-- The request at work. -/
def Activity.reqs : Activity → List Req
  | .exec r _ => [r]
  | _ => []

/-- The request at work. -/
@[simp] lemma Activity.reqs_exec (r : Req) (p : Progress) : (Activity.exec r p).reqs = [r] := rfl

/-- When nothing is done there is none, -/
@[simp] lemma Activity.reqs_idle : Activity.idle.reqs = [] := rfl

/-- nor when a datagram has been received, -/
@[simp] lemma Activity.reqs_received (rid : ℕ) (c : Slot) (msg : List UInt8) :
    (Activity.received rid c msg).reqs = [] := rfl

/-- nor when a claim is cleaned up. -/
@[simp] lemma Activity.reqs_cleaning (rid : ℕ) (c : Slot) (todo : List Op) :
    (Activity.cleaning rid c todo).reqs = [] := rfl

/-- The requests being executed: the one at work and those whose mailbox calls wait. -/
def Abs.executing (a : Abs) : List Req := a.act.reqs ++ a.waiting

/-- The requests that are being executed or queued. -/
def Abs.live (a : Abs) : List Req := a.executing ++ a.queued

/-- The requests being executed. -/
lemma Abs.mem_executing {a : Abs} {r : Req} : r ∈ a.executing ↔ a.Executing r := by
  unfold Abs.executing Abs.Executing
  rw [List.mem_append, or_comm]
  refine or_congr_right ?_
  cases a.act <;> simp [Activity.reqs, eq_comm]

/-- An access for a request is made while the request is being executed. -/
lemma Step.executing_of_access {rst : Bool} {a a' : Abs} {x : Access} {rid : ℕ} {c : Slot}
    (h : Step rst a (.access x) a') (hb : Basics a) (hag : x.agent = .request rid c) :
    ∃ r ∈ a.executing, r.touches = true ∧ r.rid = rid ∧ r.c = c := by
  obtain ⟨-, -, ⟨_, _, _, _, -, hcl⟩ | ⟨r, hex, ht, hr⟩⟩ := h.access_inv hb
  · rw [hag] at hcl
    exact absurd hcl (by simp)
  · rw [hag, Req.agent, Agent.request.injEq] at hr
    exact ⟨r, Abs.mem_executing.mpr hex, ht, hr.1.symm, hr.2.symm⟩

/-- The requests in the queues. -/
lemma Abs.mem_queued {a : Abs} {r : Req} : r ∈ a.queued ↔ ∃ q, r ∈ a.queue q := by
  simp only [Abs.queued, List.mem_append]
  constructor
  · rintro ((h | h) | h)
    · exact ⟨0, h⟩
    · exact ⟨1, h⟩
    · exact ⟨2, h⟩
  · rintro ⟨q, h⟩
    fin_cases q
    · exact Or.inl (Or.inl h)
    · exact Or.inl (Or.inr h)
    · exact Or.inr h

/-- What the replacement of one queue means for all the queued requests. -/
lemma queued_update (a : Abs) (q : Fin 3) {l l' m : List Req} (h : (a.queue q ++ l).Perm (l' ++ m)) :
    (a.queued ++ l).Perm (Abs.queued { a with queue := Function.update a.queue q l' } ++ m) := by
  rw [List.perm_iff_count] at h ⊢
  intro r
  have hr := h r
  fin_cases q <;> simp [Abs.queued, List.count_append] at hr ⊢ <;> omega

/-- What an event does to the live requests. -/
def LiveStep (a : Abs) (e : Event) (a' : Abs) : Prop :=
  match e with
  | .enqueue en body _ => a'.live.Perm (⟨en, body⟩ :: a.live)
  | .send rid c _ type _ seq _ =>
    (∃ r : Req, r.rid = rid ∧ r.c = c ∧ r.hdr.seq = seq ∧ r.hdr.type ||| respBit = type ∧
      a.live.Perm (r :: a'.live)) ∨
    ∃ msg, a.act = .received rid c msg ∧ (frameHdr msg).seq = seq ∧
      (frameHdr msg).type ||| respBit = type ∧ a'.live = a.live
  | .disconnect c _ => a'.live = a.live.filter fun r => !decide (r.c = c)
  | _ => a'.live.Perm a.live

/-- Cleaning up a claim leaves the queues alone, -/
@[simp] lemma Abs.cleaning_queue (a : Abs) (rid : ℕ) (c : Slot) (todo : List Op) :
    (a.cleaning rid c todo).queue = a.queue := by
  cases todo <;> rfl

/-- the calls that wait, -/
@[simp] lemma Abs.cleaning_waiting (a : Abs) (rid : ℕ) (c : Slot) (todo : List Op) :
    (a.cleaning rid c todo).waiting = a.waiting := by
  cases todo <;> rfl

/-- and the connections. -/
@[simp] lemma Abs.cleaning_conn (a : Abs) (rid : ℕ) (c : Slot) (todo : List Op) :
    (a.cleaning rid c todo).conn = a.conn := by
  cases todo <;> rfl

/-- No request is at work then, -/
@[simp] lemma Abs.cleaning_reqs (a : Abs) (rid : ℕ) (c : Slot) (todo : List Op) :
    (a.cleaning rid c todo).act.reqs = [] := by
  cases todo <;> rfl

/-- whatever its progress. -/
lemma Abs.cleaning_notExec (a : Abs) (rid : ℕ) (c : Slot) (todo : List Op) (r : Req)
    (p : Progress) : (a.cleaning rid c todo).act ≠ .exec r p := by
  cases todo <;> simp [Abs.cleaning]

/-- The live requests stay. -/
lemma live_cleaning (a : Abs) (rid : ℕ) (c : Slot) (todo : List Op) (h : a.act.reqs = []) :
    (a.cleaning rid c todo).live = a.live := by
  simp [Abs.live, Abs.executing, Abs.queued, h]

/-- **How each transition changes the live requests**: an enqueued one comes in, an answered one
goes out, a disconnect drops those of its client; otherwise they stay.

**Proof sketch.** Case analysis of the step. Enqueueing adds to one queue and dispatching takes
from one (`queued_update`); the doorbell and waking move a request between two parts of the list;
the rest is by computation. -/
lemma Step.live {rst : Bool} {a a' : Abs} {e : Event} (h : Step rst a e a') : LiveStep a e a' := by
  cases h with
  | note hn =>
    cases e <;> simp [Event.isNote] at hn <;> exact List.Perm.refl _
  | connect _ _ _ => exact List.Perm.refl _
  | disconnect hact hw _ _ =>
    simp [LiveStep, Abs.live, Abs.executing, hact, hw, Abs.queued]
  | recv hact _ _ _ => simp [LiveStep, Abs.live, Abs.executing, hact, Abs.queued]
  | @reject rid c msg fd st hact _ _ =>
    exact Or.inr ⟨msg, hact, rfl, rfl, by
      simp [Abs.live, Abs.executing, hact, Abs.queued]⟩
  | @enqueue rid c msg hact _ =>
    have hp : (a.queue (Hdr.decode msg).prio ++ [frameReq rid c msg]).Perm
        (a.queue (Hdr.decode msg).prio ++ [frameReq rid c msg] ++ []) := by simp
    have hq := queued_update a (Hdr.decode msg).prio hp
    rw [List.append_nil] at hq
    simp only [LiveStep, Abs.live, Abs.executing, hact, Activity.reqs_idle, Activity.reqs_received,
      List.nil_append]
    refine (List.Perm.append_left a.waiting hq.symm).trans ?_
    rw [← List.append_assoc]
    exact List.perm_append_singleton _ _
  | claimEnd hact _ _ _ =>
    simp only [LiveStep]
    rw [live_cleaning _ _ _ _ (by simp [hact])]
  | cleanupAccess hact _ _ =>
    simp only [LiveStep]
    rw [live_cleaning _ _ _ _ (by simp [hact])]
  | cleanupRefused hact _ =>
    simp only [LiveStep]
    rw [live_cleaning _ _ _ _ (by simp [hact])]
  | @dispatch q pre post r hact hq _ _ _ =>
    have hp : (a.queue q ++ []).Perm (pre ++ post ++ [r]) := by
      rw [hq, List.append_nil]
      refine List.perm_middle.trans ?_
      exact (List.perm_append_singleton _ _).symm
    have hq' := queued_update a q hp
    rw [List.append_nil] at hq'
    simp only [LiveStep, Abs.live, Abs.executing, hact, Activity.reqs_idle, Activity.reqs_exec,
      List.nil_append]
    refine List.Perm.trans ?_ (List.Perm.append_left a.waiting hq'.symm)
    rw [← List.append_assoc]
    exact (List.perm_append_singleton _ _).symm
  | access hact _ => simp [LiveStep, Abs.live, Abs.executing, hact, Abs.queued]
  | doorbell hact => simp [LiveStep, Abs.live, Abs.executing, hact, Abs.queued]
  | poll _ _ _ => exact List.Perm.refl _
  | wake hact hw _ => simp [LiveStep, Abs.live, Abs.executing, hact, hw, Abs.queued]
  | refused hact _ _ _ _ =>
    simp [LiveStep, Abs.live, Abs.executing, hact, Abs.queued]
  | mbSet hact => simp [LiveStep, Abs.live, Abs.executing, hact, Abs.queued]
  | mbClear hact => simp [LiveStep, Abs.live, Abs.executing, hact, Abs.queued]
  | grant hact _ _ _ => simp [LiveStep, Abs.live, Abs.executing, hact, Abs.queued]
  | release hact _ _ => simp [LiveStep, Abs.live, Abs.executing, hact, Abs.queued]
  | reset hact _ _ _ => simp [LiveStep, Abs.live, Abs.executing, hact, Abs.queued]
  | @send r p st body fd hact _ _ =>
    exact Or.inl ⟨r, rfl, rfl, rfl, rfl, by
      simp [Abs.live, Abs.executing, hact, Abs.queued]⟩

/-- A queued request was queued before, or has just been enqueued.

**Proof sketch.** Case analysis of the step. A disconnect filters the queues, a dispatch takes one
request out, enqueueing adds the one of the event, and the others leave the queues alone. -/
lemma Step.queued_sub {rst : Bool} {a a' : Abs} {e : Event} (h : Step rst a e a') {r : Req}
    (hr : r ∈ a'.queued) : r ∈ a.queued ∨ ∃ o, e = .enqueue r.toEntry r.body o := by
  cases h with
  | disconnect =>
    left
    rw [Abs.mem_queued] at hr ⊢
    obtain ⟨q, hq⟩ := hr
    exact ⟨q, (List.mem_filter.mp hq).1⟩
  | @enqueue rid c msg hact hok =>
    rw [Abs.mem_queued] at hr
    obtain ⟨q, hq⟩ := hr
    dsimp only at hq
    by_cases hqq : q = (Hdr.decode msg).prio
    · subst hqq
      rw [Function.update_self] at hq
      rcases List.mem_append.mp hq with hq | hq
      · exact Or.inl (Abs.mem_queued.mpr ⟨_, hq⟩)
      · obtain rfl := List.mem_singleton.mp hq
        exact Or.inr ⟨_, rfl⟩
    · rw [Function.update_of_ne hqq] at hq
      exact Or.inl (Abs.mem_queued.mpr ⟨q, hq⟩)
  | @dispatch q pre post r' hact hq _ _ _ =>
    left
    rw [Abs.mem_queued] at hr ⊢
    obtain ⟨q', hq'⟩ := hr
    dsimp only at hq'
    by_cases hqq : q' = q
    · subst hqq
      refine ⟨q', ?_⟩
      rw [Function.update_self] at hq'
      rw [hq]
      rcases List.mem_append.mp hq' with hq' | hq'
      · exact List.mem_append_left _ hq'
      · exact List.mem_append_right _ (List.mem_cons_of_mem _ hq')
    · rw [Function.update_of_ne hqq] at hq'
      exact ⟨q', hq'⟩
  | @claimEnd c how =>
    rw [Abs.queued, Abs.cleaning_queue] at hr
    exact Or.inl hr
  | cleanupAccess =>
    rw [Abs.queued, Abs.cleaning_queue] at hr
    exact Or.inl hr
  | cleanupRefused =>
    rw [Abs.queued, Abs.cleaning_queue] at hr
    exact Or.inl hr
  | _ => exact Or.inl hr

/-- A request being executed was so before, or has just been picked. -/
lemma Step.executing_sub {rst : Bool} {a a' : Abs} {e : Event} (h : Step rst a e a') {r : Req}
    (hr : r ∈ a'.executing) :
    r ∈ a.executing ∨ r ∈ a.queued ∧ ∃ o w q, e = .dispatch r.toEntry r.body o w q := by
  cases h with
  | @dispatch q pre post r' hact hq _ _ _ =>
    simp only [Abs.executing, Activity.reqs_exec, List.singleton_append, List.mem_cons] at hr
    rcases hr with rfl | hr
    · exact Or.inr ⟨Abs.mem_queued.mpr ⟨q, by rw [hq]; simp⟩, _, _, _, rfl⟩
    · exact Or.inl (List.mem_append_right _ hr)
  | claimEnd hact => simp_all [Abs.executing]
  | cleanupAccess hact => simp_all [Abs.executing]
  | cleanupRefused hact => simp_all [Abs.executing]
  | note _ => exact Or.inl hr
  | _ => simp_all [Abs.executing]

/-- A request is enqueued while none is being executed. -/
lemma Step.executing_of_enqueue {rst : Bool} {a a' : Abs} {en : Entry} {body : List UInt8}
    {o : Option Slot} (h : Step rst a (.enqueue en body o) a') (hb : Basics a) : a.executing = [] := by
  cases h with
  | note hn => simp [Event.isNote] at hn
  | enqueue hact _ =>
    rw [Abs.executing, hact, (hb.received _ _ _ hact).1]
    rfl

/-- A mailbox call that waits was being executed before. -/
lemma Step.waiting_sub {rst : Bool} {a a' : Abs} {e : Event} (h : Step rst a e a') {r : Req}
    (hr : r ∈ a'.waiting) : r ∈ a.executing := by
  cases h with
  | claimEnd =>
    rw [Abs.cleaning_waiting] at hr
    exact List.mem_append_right _ hr
  | cleanupAccess =>
    rw [Abs.cleaning_waiting] at hr
    exact List.mem_append_right _ hr
  | cleanupRefused =>
    rw [Abs.cleaning_waiting] at hr
    exact List.mem_append_right _ hr
  | doorbell hact =>
    rw [Abs.executing, hact]
    exact hr
  | wake hact hw hk =>
    rw [Abs.executing, hw]
    exact List.mem_append_right _ (List.mem_cons_of_mem _ hr)
  | _ => exact List.mem_append_right _ hr

/-- The owner of the claim changes when the claim ends or is granted. -/
lemma Step.owner_inv {rst : Bool} {a a' : Abs} {e : Event} (h : Step rst a e a') :
    a'.claim.owner = a.claim.owner ∨ a'.claim.owner = none ∨
      ∃ r, a.act = .exec r (.ops [] .ok) ∧ r.kind = some .claim ∧ r.sized = true ∧
        (a.claim.owner = none ∨ a.claim.owner = some r.c) ∧ a'.claim.owner = some r.c := by
  have hclean : ∀ rid c todo, (a.cleaning rid c todo).claim.owner = a.claim.owner ∨
      (a.cleaning rid c todo).claim.owner = none := by
    intro rid c todo
    cases todo with
    | nil => exact Or.inr rfl
    | cons op todo => exact Or.inl rfl
  cases h with
  | claimEnd => exact (hclean _ _ _).imp_right Or.inl
  | cleanupAccess => exact (hclean _ _ _).imp_right Or.inl
  | cleanupRefused => exact (hclean _ _ _).imp_right Or.inl
  | release => exact Or.inr (Or.inl rfl)
  | grant hact hk hs ho => exact Or.inr (Or.inr ⟨_, hact, hk, hs, ho, rfl⟩)
  | _ => exact Or.inl rfl

/-! ## What single events tell -/

section

variable {rst : Bool} {a a' : Abs} {e : Event}

/-- The number of datagrams only grows. -/
lemma Step.nRecv_le (h : Step rst a e a') : a.nRecv ≤ a'.nRecv := by
  cases h with
  | recv => exact Nat.le_succ _
  | @claimEnd c how => cases a.claim.cleanup <;> exact le_rfl
  | @cleanupAccess rid c op todo => cases todo <;> exact le_rfl
  | @cleanupRefused rid c op todo => cases todo <;> exact le_rfl
  | _ => exact le_rfl

/-- A datagram gets the next number. -/
lemma Step.recv_inv {rid : ℕ} {c : Slot} {fd : ℕ} {msg : List UInt8}
    (h : Step rst a (.recv rid c fd msg) a') :
    rid = a.nRecv ∧ a'.nRecv = a.nRecv + 1 ∧ a.conn c = some fd ∧ a'.act = .received rid c msg := by
  cases h with
  | note hn => simp [Event.isNote] at hn
  | recv _ _ hc _ => exact ⟨rfl, rfl, hc, rfl⟩

/-- The framing of a datagram follows its reception at once. -/
lemma Step.received_inv {rid : ℕ} {c : Slot} {msg : List UInt8} (h : Step rst a e a')
    (hact' : a'.act = .received rid c msg) :
    a' = a ∧ e.isNote = true ∨ ∃ fd, e = .recv rid c fd msg ∧ rid = a.nRecv := by
  cases h with
  | note hn => exact Or.inl ⟨rfl, hn⟩
  | connect hact _ _ => simp [hact] at hact'
  | disconnect hact _ _ _ => simp [hact] at hact'
  | recv _ _ _ _ =>
    simp only [Activity.received.injEq] at hact'
    obtain ⟨rfl, rfl, rfl⟩ := hact'
    exact Or.inr ⟨_, rfl, rfl⟩
  | @claimEnd c how => cases hc : a.claim.cleanup <;> simp [Abs.cleaning, hc] at hact'
  | @cleanupAccess rid c op todo => cases todo <;> simp [Abs.cleaning] at hact'
  | @cleanupRefused rid c op todo => cases todo <;> simp [Abs.cleaning] at hact'
  | poll hact _ _ => simp [hact] at hact'
  | _ => simp at hact'

/-- What is enqueued is the request in the datagram just received. -/
lemma Step.enqueue_inv {en : Entry} {body : List UInt8} {o : Option Slot}
    (h : Step rst a (.enqueue en body o) a') :
    ∃ msg, a.act = .received en.rid en.c msg ∧ frameOk msg = true ∧ o = a.claim.owner ∧
      (⟨en, body⟩ : Req) = frameReq en.rid en.c msg := by
  cases h with
  | note hn => simp [Event.isNote] at hn
  | enqueue hact hok => exact ⟨_, hact, hok, rfl, rfl⟩

/-- What is picked was queued. -/
lemma Step.dispatch_inv {en : Entry} {body : List UInt8} {o : Option Slot} {w q : List Entry}
    (h : Step rst a (.dispatch en body o w q) a') :
    a.act = .idle ∧ (⟨en, body⟩ : Req) ∈ a.queued ∧ a'.act = .exec ⟨en, body⟩ (.ops [] .ok) ∧
      a'.waiting = a.waiting ∧ o = a.claim.owner ∧ a'.claim = a.claim ∧
      w = a.waiting.map Req.toEntry ∧ q = a'.queued.map Req.toEntry := by
  cases h with
  | note hn => simp [Event.isNote] at hn
  | @dispatch q pre post r hact hq _ _ _ =>
    exact ⟨hact, Abs.mem_queued.mpr ⟨q, by rw [hq]; simp⟩, rfl, rfl, rfl, rfl, rfl, rfl⟩

/-- A request is at its start because it has just been picked. -/
lemma Step.start_inv {r : Req} (h : Step rst a e a')
    (hact' : a'.act = .exec r (.ops [] .ok)) :
    a' = a ∧ e.isNote = true ∨ r ∈ a.queued ∧ ∃ o w q, e = .dispatch r.toEntry r.body o w q := by
  cases h with
  | note hn => exact Or.inl ⟨rfl, hn⟩
  | connect hact _ _ => simp [hact] at hact'
  | disconnect hact _ _ _ => simp [hact] at hact'
  | claimEnd => exact absurd hact' (Abs.cleaning_notExec _ _ _ _ _ _)
  | cleanupAccess => exact absurd hact' (Abs.cleaning_notExec _ _ _ _ _ _)
  | cleanupRefused => exact absurd hact' (Abs.cleaning_notExec _ _ _ _ _ _)
  | @dispatch q pre post r' hact hq _ _ _ =>
    simp only [Activity.exec.injEq, and_true] at hact'
    subst hact'
    exact Or.inr ⟨Abs.mem_queued.mpr ⟨q, by rw [hq]; simp⟩, _, _, _, rfl⟩
  | access hact ht => exact absurd (Activity.exec.inj hact').2 ht.ne_start
  | poll hact _ _ => simp [hact] at hact'
  | wake _ _ hk => exact absurd (Activity.exec.inj hact').2 hk.ne_start
  | _ => simp at hact'

/-- What gets a claim is a `CLAIM` at its start. -/
lemma Step.grant_inv {en : Entry} {d : UInt64} {ops : List Op}
    (h : Step rst a (.grant en d ops) a') :
    ∃ body, a.act = .exec ⟨en, body⟩ (.ops [] .ok) ∧ en.kind = some .claim ∧
      ops = Req.cleanup ⟨en, body⟩ := by
  cases h with
  | note hn => simp [Event.isNote] at hn
  | @grant r d hact hk _ _ => exact ⟨r.body, hact, hk, rfl⟩

/-- What is answered is the datagram being framed or the request at work. -/
lemma Step.send_inv {rid : ℕ} {c : Slot} {fd : ℕ} {type : UInt8} {st : Status} {seq : UInt32}
    {body : List UInt8} (h : Step rst a (.send rid c fd type st seq body) a') :
    a.conn c = some fd ∧
      ((∃ msg, a.act = .received rid c msg ∧ (st = if frameOk msg then .ebusy else .einval) ∧
        type = (frameHdr msg).type ||| respBit ∧ seq = (frameHdr msg).seq ∧ body = []) ∨
      ∃ r p, a.act = .exec r p ∧ r.rid = rid ∧ r.c = c ∧ type = r.hdr.type ||| respBit ∧
        seq = r.hdr.seq ∧ Answer rst a.claim.owner r p st body) := by
  cases h with
  | note hn => simp [Event.isNote] at hn
  | @reject _ _ msg _ _ hact hc hst => exact ⟨hc, Or.inl ⟨msg, hact, hst, rfl, rfl, rfl⟩⟩
  | @send r p _ _ _ hact hc ha => exact ⟨hc, Or.inr ⟨r, p, hact, rfl, rfl, rfl, rfl, ha⟩⟩

end

/-! ## The ledger -/

/-- The request was received in the course of the history. -/
def Known (es : List Event) (r : Req) : Prop :=
  ∃ fd msg, Event.recv r.rid r.c fd msg ∈ es ∧ frameOk msg = true ∧ r = frameReq r.rid r.c msg

/-- A request that was received stays received. -/
lemma Known.mono {es es' : List Event} {r : Req} (h : Known es r) : Known (es ++ es') r := by
  obtain ⟨fd, msg, hm, h⟩ := h
  exact ⟨fd, msg, List.mem_append_left _ hm, h⟩

/-- A request that was received has the length that its header says. -/
lemma Known.length_body {es : List Event} {r : Req} (h : Known es r) : r.body.length = r.len := by
  obtain ⟨fd, msg, -, hok, hr⟩ := h
  rw [hr]
  exact (frameOk_len hok).1.symm

/-- What the history tells about the requests that are live: numbers are given once, every live
request was enqueued, no two have the same number, every one being executed was picked, and what
was picked is not queued any more. -/
structure Ledger (es : List Event) (a : Abs) : Prop where
  recv_lt : ∀ {rid c fd msg}, Event.recv rid c fd msg ∈ es → rid < a.nRecv
  recv_unique : ∀ {rid c fd msg c' fd' msg'}, Event.recv rid c fd msg ∈ es →
    Event.recv rid c' fd' msg' ∈ es → c = c' ∧ fd = fd' ∧ msg = msg'
  received : ∀ {rid c msg}, a.act = .received rid c msg →
    (∃ fd, Event.recv rid c fd msg ∈ es) ∧
      ∀ {en body o}, Event.enqueue en body o ∈ es → en.rid ≠ rid
  enqueued : ∀ {en body o}, Event.enqueue en body o ∈ es → Known es ⟨en, body⟩
  live : ∀ r ∈ a.live, ∃ o, Event.enqueue r.toEntry r.body o ∈ es
  nodup : (a.live.map fun r => r.rid).Nodup
  dispatched : ∀ {en body o w q}, Event.dispatch en body o w q ∈ es →
    (∃ o', Event.enqueue en body o' ∈ es) ∧ ∀ r ∈ a.queued, r.rid ≠ en.rid
  executing : ∀ r ∈ a.executing, ∃ o w q, Event.dispatch r.toEntry r.body o w q ∈ es
  access : ∀ {x rid c}, Event.access x ∈ es → x.agent = .request rid c →
    ∃ r o w q, r.touches = true ∧ r.rid = rid ∧ r.c = c ∧
      Event.dispatch (Req.toEntry r) r.body o w q ∈ es

namespace Ledger

variable {rst : Bool} {es : List Event} {a a' : Abs} {e : Event}

/-- At the start. -/
lemma init : Ledger [] Abs.init := by
  constructor <;> simp [Abs.init, Abs.live, Abs.executing, Abs.queued]

/-- A request is determined by its number. -/
lemma known_unique (h : Ledger es a) {r r' : Req} (hr : Known es r) (hr' : Known es r')
    (he : r.rid = r'.rid) : r = r' := by
  obtain ⟨fd, msg, hm, -, hreq⟩ := hr
  obtain ⟨fd', msg', hm', -, hreq'⟩ := hr'
  rw [he] at hm
  obtain ⟨hc, -, rfl⟩ := h.recv_unique hm hm'
  rw [hreq, hreq', he, hc]

/-- A request that was picked is determined by its number. -/
lemma dispatch_unique (h : Ledger es a) {r r' : Req} {o o' : Option Slot} {w w' q q' : List Entry}
    (hr : Event.dispatch r.toEntry r.body o w q ∈ es)
    (hr' : Event.dispatch r'.toEntry r'.body o' w' q' ∈ es) (he : r.rid = r'.rid) : r = r' := by
  obtain ⟨⟨o₁, he₁⟩, -⟩ := h.dispatched hr
  obtain ⟨⟨o₂, he₂⟩, -⟩ := h.dispatched hr'
  exact h.known_unique (h.enqueued he₁) (h.enqueued he₂) he

/-- Every live request was received. -/
lemma known (h : Ledger es a) {r : Req} (hr : r ∈ a.live) : Known es r := by
  obtain ⟨o, ho⟩ := h.live r hr
  exact h.enqueued ho

/-- No two live requests have the same number. -/
lemma live_inj (h : Ledger es a) {r r' : Req} (hr : r ∈ a.live) (hr' : r' ∈ a.live)
    (he : r.rid = r'.rid) : r = r' :=
  List.inj_on_of_nodup_map h.nodup hr hr' he

/-- The request at work does not wait as well. -/
lemma notMem_waiting (h : Ledger es a) {r : Req} {p : Progress} (hact : a.act = .exec r p) :
    r ∉ a.waiting := by
  intro hm
  have hnd := h.nodup
  rw [Abs.live, Abs.executing, hact] at hnd
  simp only [Activity.reqs_exec, List.cons_append, List.map_cons, List.nodup_cons] at hnd
  exact hnd.1 (List.mem_map_of_mem (List.mem_append_left _ hm))

/-- A request that was received has a number below that of the next datagram. -/
lemma known_lt (h : Ledger es a) {r : Req} (hr : Known es r) : r.rid < a.nRecv := by
  obtain ⟨fd, msg, hm, -⟩ := hr
  exact h.recv_lt hm

/-- The datagram being framed has a number of its own. -/
lemma received_fresh (h : Ledger es a) {rid : ℕ} {c : Slot} {msg : List UInt8}
    (hact : a.act = .received rid c msg) : ∀ r ∈ a.live, r.rid ≠ rid := by
  intro r hr
  obtain ⟨o, ho⟩ := h.live r hr
  exact (h.received hact).2 ho

/-- Numbers stay different.

**Proof sketch.** By `Step.live` the live requests are permuted, get the request just received,
whose number is new, or lose some. -/
lemma nodup_step (h : Ledger es a) (hs : Step rst a e a') :
    (a'.live.map fun r => r.rid).Nodup := by
  have hl := hs.live
  have hperm : a'.live.Perm a.live → (a'.live.map fun r => r.rid).Nodup := fun hp =>
    (hp.map _).nodup_iff.mpr h.nodup
  cases e with
  | enqueue en body o =>
    obtain ⟨msg, hact, -, -, -⟩ := hs.enqueue_inv
    refine (List.Perm.map _ hl).nodup_iff.mpr ?_
    rw [List.map_cons, List.nodup_cons]
    refine ⟨fun hm => ?_, h.nodup⟩
    obtain ⟨r, hr, he⟩ := List.mem_map.mp hm
    exact h.received_fresh hact r hr he
  | send rid c fd type st seq body =>
    rcases hl with ⟨r, -, -, -, -, hp⟩ | ⟨msg, -, -, -, he⟩
    · have hn := (List.Perm.map (fun r => r.rid) hp).nodup_iff.mp h.nodup
      rw [List.map_cons, List.nodup_cons] at hn
      exact hn.2
    · rw [he]
      exact h.nodup
  | disconnect c fd =>
    have he : a'.live = a.live.filter fun r => !decide (r.c = c) := hl
    rw [he]
    exact h.nodup.sublist (List.Sublist.map _ List.filter_sublist)
  | connect c fd => exact hperm hl
  | recv rid c fd msg => exact hperm hl
  | dispatch en body o w q => exact hperm hl
  | access x => exact hperm hl
  | refused agent op st => exact hperm hl
  | grant en d ops => exact hperm hl
  | claimEnd rid c how => exact hperm hl
  | mbSet rid c was => exact hperm hl
  | mbClear rid c => exact hperm hl
  | reset en o w x y => exact hperm hl
  | opLine agent line => exact hperm hl
  | warn w => exact hperm hl

/-- A live request was live, or has just been enqueued. -/
lemma live_sub (hs : Step rst a e a') {r : Req} (hr : r ∈ a'.live) :
    r ∈ a.live ∨ ∃ o, e = .enqueue r.toEntry r.body o := by
  rcases List.mem_append.mp hr with hr | hr
  · rcases hs.executing_sub hr with hr | ⟨hr, -⟩
    · exact Or.inl (List.mem_append_left _ hr)
    · exact Or.inl (List.mem_append_right _ hr)
  · rcases hs.queued_sub hr with hr | hr
    · exact Or.inl (List.mem_append_right _ hr)
    · exact Or.inr hr

/-- **Every transition keeps the ledger.**

**Proof sketch.** One field at a time. Each distinguishes the events before from the new one: a
datagram has the next number, an enqueued request goes back to the datagram just received, a
dispatched one was in a queue, and an access is made for a request at work, which was dispatched. -/
lemma step (h : Ledger es a) (hb : Basics a) (hs : Step rst a e a') : Ledger (es ++ [e]) a' := by
  have hnd := h.nodup_step hs
  -- the one datagram that this event may bring has the next number
  have hnew : ∀ {rid c fd msg}, Event.recv rid c fd msg ∈ [e] → rid = a.nRecv := by
    intro rid c fd msg hm
    obtain rfl := List.mem_singleton.mp hm
    exact hs.recv_inv.1
  constructor
  case recv_lt =>
    intro rid c fd msg hm
    rcases List.mem_append.mp hm with hm | hm
    · exact (h.recv_lt hm).trans_le hs.nRecv_le
    · obtain rfl := List.mem_singleton.mp hm
      obtain ⟨hrid, hn, -⟩ := hs.recv_inv
      omega
  case recv_unique =>
    intro rid c fd msg c' fd' msg' hm hm'
    rcases List.mem_append.mp hm with h₁ | h₁ <;> rcases List.mem_append.mp hm' with h₂ | h₂
    · exact h.recv_unique h₁ h₂
    · exact absurd (h.recv_lt h₁) (by rw [hnew h₂]; exact lt_irrefl _)
    · exact absurd (h.recv_lt h₂) (by rw [hnew h₁]; exact lt_irrefl _)
    · have he := (List.mem_singleton.mp h₁).trans (List.mem_singleton.mp h₂).symm
      simp only [Event.recv.injEq, true_and] at he
      exact he
  case received =>
    intro rid c msg hact
    rcases hs.received_inv hact with ⟨rfl, hn⟩ | ⟨fd, rfl, hrid⟩
    · obtain ⟨⟨fd, hfd⟩, hf⟩ := h.received hact
      refine ⟨⟨fd, List.mem_append_left _ hfd⟩, fun hm => ?_⟩
      rcases List.mem_append.mp hm with hm | hm
      · exact hf hm
      · obtain rfl := List.mem_singleton.mp hm
        simp [Event.isNote] at hn
    · refine ⟨⟨fd, List.mem_append_right _ (List.mem_singleton_self _)⟩, fun hm => ?_⟩
      rcases List.mem_append.mp hm with hm | hm
      · have hlt := h.known_lt (h.enqueued hm)
        rw [hrid]
        exact hlt.ne
      · simp at hm
  case enqueued =>
    intro en body o hm
    rcases List.mem_append.mp hm with hm | hm
    · exact (h.enqueued hm).mono
    · obtain rfl := List.mem_singleton.mp hm
      obtain ⟨msg, hact, hok, -, hreq⟩ := hs.enqueue_inv
      obtain ⟨⟨fd, hfd⟩, -⟩ := h.received hact
      exact ⟨fd, msg, List.mem_append_left _ hfd, hok, hreq⟩
  case live =>
    intro r hr
    rcases live_sub hs hr with hr | ⟨o, rfl⟩
    · obtain ⟨o, ho⟩ := h.live r hr
      exact ⟨o, List.mem_append_left _ ho⟩
    · exact ⟨o, List.mem_append_right _ (List.mem_singleton_self _)⟩
  case nodup => exact hnd
  case dispatched =>
    intro en body o w q hm
    rcases List.mem_append.mp hm with hm | hm
    · obtain ⟨⟨o', ho'⟩, hq⟩ := h.dispatched hm
      refine ⟨⟨o', List.mem_append_left _ ho'⟩, fun r hr => ?_⟩
      rcases hs.queued_sub hr with hr | ⟨o'', rfl⟩
      · exact hq r hr
      · obtain ⟨msg, hact, -⟩ := hs.enqueue_inv
        exact ((h.received hact).2 ho').symm
    · obtain rfl := List.mem_singleton.mp hm
      obtain ⟨-, hmem, hact', -⟩ := hs.dispatch_inv
      obtain ⟨o', ho'⟩ := h.live _ (List.mem_append_right _ hmem)
      refine ⟨⟨o', List.mem_append_left _ ho'⟩, fun r hr he => ?_⟩
      -- the picked request is being executed, so no queued one has its number
      rw [Abs.live, Abs.executing, hact', List.map_append, List.nodup_append] at hnd
      exact hnd.2.2 en.rid (by simp) r.rid (List.mem_map_of_mem hr) he.symm
  case executing =>
    intro r hr
    rcases hs.executing_sub hr with hr | ⟨-, o, w, q, rfl⟩
    · obtain ⟨o, w, q, hd⟩ := h.executing r hr
      exact ⟨o, w, q, List.mem_append_left _ hd⟩
    · exact ⟨o, w, q, List.mem_append_right _ (List.mem_singleton_self _)⟩
  case access =>
    intro x rid c hm hag
    rcases List.mem_append.mp hm with hm | hm
    · obtain ⟨r, o, w, q, ht, hr, hc, hd⟩ := h.access hm hag
      exact ⟨r, o, w, q, ht, hr, hc, List.mem_append_left _ hd⟩
    · obtain rfl := List.mem_singleton.mp hm
      obtain ⟨r, hex, ht, hr, hc⟩ := hs.executing_of_access hb hag
      obtain ⟨o, w, q, hd⟩ := h.executing r hex
      exact ⟨r, o, w, q, ht, hr, hc, List.mem_append_left _ hd⟩

end Ledger

/-- **The ledger is kept** along every run. -/
theorem Run.ledger {rst : Bool} {es : List Event} {a : Abs} (h : Run rst es a) : Ledger es a :=
  Steps.invariant (P := Ledger) Ledger.init (fun _ _ _ _ hr hl hs => hl.step (Run.basics hr) hs) h

/-! ## From some point on -/

/-- From a point on at which the next number was at least `n`: what is framed, live, picked or
accesses registers has the property `K` of the number and the client. -/
structure Confined (K : ℕ → Slot → Prop) (n : ℕ) (es : List Event) (a : Abs) : Prop where
  le : n ≤ a.nRecv
  received : ∀ {rid c msg}, a.act = .received rid c msg → K rid c
  live : ∀ r ∈ a.live, K r.rid r.c
  dispatched : ∀ {en body o w q}, Event.dispatch en body o w q ∈ es → K en.rid en.c
  access : ∀ {x rid c}, Event.access x ∈ es → x.agent = .request rid c → K rid c

namespace Confined

variable {rst : Bool} {K : ℕ → Slot → Prop} {n : ℕ} {es : List Event} {a a' : Abs} {e : Event}

/-- If all datagrams to come have the property, no transition brings a request without it.

**Proof sketch.** One field at a time. A datagram that comes now has a number of at least `n`;
everything else is for a request that was received, queued or at work before. -/
lemma step (h : Confined K n es a) (hK : ∀ rid c, n ≤ rid → K rid c) (hb : Basics a)
    (hs : Step rst a e a') : Confined K n (es ++ [e]) a' := by
  constructor
  case le => exact h.le.trans hs.nRecv_le
  case received =>
    intro rid c msg hact
    rcases hs.received_inv hact with ⟨rfl, -⟩ | ⟨fd, -, hrid⟩
    · exact h.received hact
    · exact hK rid c (hrid ▸ h.le)
  case live =>
    intro r hr
    rcases Ledger.live_sub hs hr with hr | ⟨o, rfl⟩
    · exact h.live r hr
    · obtain ⟨msg, hact, -⟩ := hs.enqueue_inv
      exact h.received hact
  case dispatched =>
    intro en body o w q hm
    rcases List.mem_append.mp hm with hm | hm
    · exact h.dispatched hm
    · obtain rfl := List.mem_singleton.mp hm
      obtain ⟨-, hq, -⟩ := hs.dispatch_inv
      exact h.live _ (List.mem_append_right _ hq)
  case access =>
    intro x rid c hm hag
    rcases List.mem_append.mp hm with hm | hm
    · exact h.access hm hag
    · obtain rfl := List.mem_singleton.mp hm
      obtain ⟨r, hex, -, rfl, rfl⟩ := hs.executing_of_access hb hag
      exact h.live r (List.mem_append_left _ hex)

/-- What holds at some point of a run holds from there on. -/
lemma run {pre : List Event} {t u : Abs} (h₀ : Run rst pre t) (h : Confined K n [] t)
    (hK : ∀ rid c, n ≤ rid → K rid c) (h₁ : Steps (Step rst) t es u) : Confined K n es u :=
  Steps.invariant (P := Confined K n) h
    (fun _ _ _ _ hr hi hs => hi.step hK (Run.basics (h₀.trans hr)) hs) h₁

end Confined

/-- **After the answer** to a request nothing happens for it.

**Proof sketch.** The request that is answered was live, or just received, and no other live one
has its number; so right after the answer no live request has it, and the datagrams to come have
greater numbers. -/
lemma Run.confined_after {rst : Bool} {pre post : List Event} {u : Abs} {rid : ℕ} {c : Slot}
    {fd : ℕ} {type : UInt8} {st : Status} {seq : UInt32} {body : List UInt8}
    (h : Run rst (pre ++ .send rid c fd type st seq body :: post) u) :
    Confined (fun rid' _ => rid' ≠ rid) (rid + 1) post u := by
  obtain ⟨t, t', h₀, hs, h₁⟩ := h.split_cons
  have hL := Run.ledger h₀
  have hrun : Run rst _ t' := h₀.snoc hs
  -- the answered request was live, and no other live one has its number
  have hgone : (∀ r ∈ t'.live, r.rid ≠ rid) ∧ rid < t.nRecv ∧ t'.act = .idle := by
    cases hs with
    | note hn => simp [Event.isNote] at hn
    | @reject _ _ msg _ _ hact _ _ =>
      obtain ⟨⟨fd', hm⟩, -⟩ := hL.received hact
      refine ⟨fun r hr => hL.received_fresh hact r ?_, hL.recv_lt hm, rfl⟩
      have he : Abs.live { t with act := .idle } = t.live := by
        simp [Abs.live, Abs.executing, hact, Abs.queued]
      rwa [he] at hr
    | @send r p _ _ _ hact _ _ =>
      have hmem : r ∈ t.live :=
        List.mem_append_left _ (Abs.mem_executing.mpr (Or.inr ⟨p, hact⟩))
      have hp : t.live.Perm (r :: Abs.live { t with act := .idle }) := by
        simp [Abs.live, Abs.executing, hact, Abs.queued]
      have hnd := (hp.map fun r => r.rid).nodup_iff.mp hL.nodup
      rw [List.map_cons, List.nodup_cons] at hnd
      refine ⟨fun r' hr' he => hnd.1 ?_, hL.known_lt (hL.known hmem), rfl⟩
      rw [← he]
      exact List.mem_map_of_mem hr'
  obtain ⟨hlive, hlt, hact⟩ := hgone
  have hnil : Confined (fun rid' _ => rid' ≠ rid) (rid + 1) [] t' :=
    ⟨hlt.trans_le hs.nRecv_le, fun hr => by simp [hact] at hr, hlive, by simp, by simp⟩
  exact hnil.run hrun (fun rid' _ hn => by omega) h₁

/-- After the answer to a request no register is accessed for it. -/
lemma Run.no_access_after {rst : Bool} {pre post : List Event} {u : Abs} {rid : ℕ} {c : Slot}
    {fd : ℕ} {type : UInt8} {st : Status} {seq : UInt32} {body : List UInt8}
    (h : Run rst (pre ++ .send rid c fd type st seq body :: post) u) {x : Access} {c' : Slot}
    (hx : Event.access x ∈ post) : x.agent ≠ .request rid c' :=
  fun hag => (Run.confined_after h).access hx hag rfl

/-- An access for a request comes after the dispatch of that request. -/
lemma Run.dispatch_of_access {rst : Bool} {pre post : List Event} {u : Abs} {x : Access} {rid : ℕ}
    {c : Slot} (h : Run rst (pre ++ .access x :: post) u) (hag : x.agent = .request rid c) :
    ∃ r o w q, r.rid = rid ∧ Event.dispatch (Req.toEntry r) r.body o w q ∈ pre := by
  obtain ⟨t, t', h₀, hs, -⟩ := h.split_cons
  obtain ⟨r, hex, -, hr, -⟩ := hs.executing_of_access (Run.basics h₀) hag
  obtain ⟨o, w, q, hd⟩ := (Run.ledger h₀).executing r hex
  exact ⟨r, o, w, q, hr, hd⟩

/-- **Before it is picked** no register is accessed for a request. -/
lemma Run.no_access_before {rst : Bool} {pre post : List Event} {u : Abs} {en : Entry}
    {body : List UInt8} {o : Option Slot} {w q : List Entry}
    (h : Run rst (pre ++ .dispatch en body o w q :: post) u) {x : Access} {c : Slot}
    (hx : Event.access x ∈ pre) : x.agent ≠ .request en.rid c := by
  intro hag
  obtain ⟨t, t', h₀, hs, -⟩ := h.split_cons
  obtain ⟨r, o', w', q', -, hrid, -, hd⟩ := (Run.ledger h₀).access hx hag
  obtain ⟨-, hq, -⟩ := hs.dispatch_inv
  exact ((Run.ledger h₀).dispatched hd).2 _ hq hrid.symm

end Spid

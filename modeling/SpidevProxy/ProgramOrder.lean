import SpidevProxy.InFlight

set_option relaxedAutoImplicit false
set_option autoImplicit false

/-!
# Program order

The queue of a priority class is in the order of arrival, and a request that accesses registers is
picked only when no earlier one of the same client is in the queue: either both are eligible or
neither is. What is left of an earlier request when a later one is picked is a mailbox call that
waits; then the later request overtakes it. Nothing is received during such a wait, so this happens
only to a request that was already queued behind the `MAILBOX` when that was picked.

## Main definitions

* `Spid.Fifo` — the queues are in the order of arrival.
* `Spid.notBehind` — a request is not yet queued when another one is picked.

## Main results

* `Spid.Run.first_of_class` — the request picked is the first of its client in its class.
* `Spid.Run.queued_of_executing` — what is queued was queued when the request at work was picked.
* `Spid.program_order` — the accesses for an earlier request precede those for a later one.
-/

namespace Spid

open History

/-! ## The queues -/

/-- A queue only loses requests, except that an enqueued one comes last.

**Proof sketch.** Case analysis of the step. Only a disconnect, a dispatch and an enqueue change a
queue: the first two take requests out, the third adds one at the end. -/
lemma Step.queue_inv {rst : Bool} {a a' : Abs} {e : Event} (h : Step rst a e a') (q : Fin 3) :
    (a'.queue q).Sublist (a.queue q) ∨
      ∃ r o, e = .enqueue r.toEntry r.body o ∧ r.hdr.prio = q ∧ a'.queue q = a.queue q ++ [r] := by
  cases h with
  | disconnect => exact Or.inl List.filter_sublist
  | @enqueue rid c msg hact hok =>
    by_cases hq : q = (Hdr.decode msg).prio
    · subst hq
      exact Or.inr ⟨frameReq rid c msg, _, rfl, rfl, Function.update_self _ _ _⟩
    · left
      dsimp only
      rw [Function.update_of_ne hq]
  | @dispatch q' pre post r hact hq' _ _ _ =>
    left
    dsimp only
    by_cases hq : q = q'
    · subst hq
      rw [Function.update_self, hq']
      exact (List.sublist_cons_self r post).append_left pre
    · rw [Function.update_of_ne hq]
  | claimEnd =>
    rw [Abs.cleaning_queue]
    exact Or.inl (List.Sublist.refl _)
  | cleanupAccess =>
    rw [Abs.cleaning_queue]
    exact Or.inl (List.Sublist.refl _)
  | cleanupRefused =>
    rw [Abs.cleaning_queue]
    exact Or.inl (List.Sublist.refl _)
  | _ => exact Or.inl (List.Sublist.refl _)

/-- The queues are in the order of arrival, each holds the requests of its class, and the datagram
being framed is the last one received. -/
structure Fifo (a : Abs) : Prop where
  sorted : ∀ q, (a.queue q).Pairwise fun r r' => r.rid < r'.rid
  prio : ∀ q, ∀ r ∈ a.queue q, r.hdr.prio = q
  last : ∀ {rid c msg}, a.act = .received rid c msg → a.nRecv = rid + 1

namespace Fifo

variable {rst : Bool} {es : List Event} {a a' : Abs} {e : Event}

/-- At the start. -/
lemma init : Fifo Abs.init := by
  constructor <;> simp [Abs.init]

/-- What was enqueued came before the datagram being framed. -/
lemma lt_of_enqueue (h : Fifo a) (hl : Ledger es a) {rid : ℕ} {c : Slot} {msg : List UInt8}
    (hact : a.act = .received rid c msg) {en : Entry} {body : List UInt8} {o : Option Slot}
    (hm : Event.enqueue en body o ∈ es) : en.rid < rid := by
  have hlt : en.rid < a.nRecv := hl.known_lt (hl.enqueued hm)
  have hne := (hl.received hact).2 hm
  rw [h.last hact] at hlt
  omega

/-- Every transition keeps the order. -/
lemma step (h : Fifo a) (hl : Ledger es a) (hs : Step rst a e a') : Fifo a' := by
  constructor
  case sorted =>
    intro q
    rcases hs.queue_inv q with hsub | ⟨r, o, rfl, -, hq⟩
    · exact (h.sorted q).sublist hsub
    · rw [hq, List.pairwise_append]
      refine ⟨h.sorted q, List.pairwise_singleton _ _, fun r₁ h₁ r₂ h₂ => ?_⟩
      obtain rfl := List.mem_singleton.mp h₂
      obtain ⟨msg, hact, -⟩ := hs.enqueue_inv
      have hlive : r₁ ∈ a.live := List.mem_append_right _ (Abs.mem_queued.mpr ⟨q, h₁⟩)
      obtain ⟨o₁, ho₁⟩ := hl.live r₁ hlive
      exact h.lt_of_enqueue hl hact ho₁
  case prio =>
    intro q r hr
    rcases hs.queue_inv q with hsub | ⟨r', o, rfl, hp, hq⟩
    · exact h.prio q r (hsub.subset hr)
    · rw [hq] at hr
      rcases List.mem_append.mp hr with hr | hr
      · exact h.prio q r hr
      · rw [List.mem_singleton.mp hr]
        exact hp
  case last =>
    intro rid c msg hact
    rcases hs.received_inv hact with ⟨rfl, -⟩ | ⟨fd, rfl, hrid⟩
    · exact h.last hact
    · rw [hs.recv_inv.2.1, hrid]

end Fifo

/-- The queues are in the order of arrival after every run. -/
theorem Run.fifo {rst : Bool} {es : List Event} {a : Abs} (h : Run rst es a) : Fifo a :=
  Steps.invariant (P := fun _ a => Fifo a) Fifo.init
    (fun _ _ _ _ hr hf hs => hf.step (Run.ledger hr) hs) h

/-- Requests are numbered in the order in which they are enqueued. -/
lemma Run.rid_lt {rst : Bool} {pre post : List Event} {u : Abs} {e₁ e₂ : Entry}
    {b₁ b₂ : List UInt8} {o₁ o₂ : Option Slot} (h : Run rst (pre ++ .enqueue e₂ b₂ o₂ :: post) u)
    (hm : Event.enqueue e₁ b₁ o₁ ∈ pre) : e₁.rid < e₂.rid := by
  obtain ⟨t, t', h₀, hs, -⟩ := h.split_cons
  obtain ⟨msg, hact, -⟩ := hs.enqueue_inv
  exact (Run.fifo h₀).lt_of_enqueue (Run.ledger h₀) hact hm

/-! ## Picking in order -/

/-- For requests that access registers, eligibility depends on the client only. -/
lemma eligible_of_touches {owner : Option Slot} {e e' : Entry} (h : eligible owner e = true)
    (ht : e.touches = true) (hc : e'.c = e.c) : eligible owner e' = true := by
  cases owner with
  | none => simp [eligible]
  | some c =>
    have he := client_eq_of_eligible h ht
    simp [eligible, hc, he]

/-- **The request picked is the first of its client in its class**, among those that access
registers. -/
lemma Run.first_of_class {rst : Bool} {pre : List Event} {t t' : Abs} {en : Entry}
    {body : List UInt8} {o : Option Slot} {w q : List Entry} (h : Run rst pre t)
    (hs : Step rst t (.dispatch en body o w q) t') (ht : en.touches = true) {r : Req}
    (hr : r ∈ t.queued) (hc : r.c = en.c) (hp : r.hdr.prio = en.hdr.prio) : en.rid ≤ r.rid := by
  have hf := Run.fifo h
  cases hs with
  | note hn => simp [Event.isNote] at hn
  | @dispatch q' before after r₀ hact hq hr₀ hpre _ =>
    obtain ⟨q₁, hr⟩ := Abs.mem_queued.mp hr
    -- both requests are in the queue of their class
    have hq₀ : r₀.hdr.prio = q' := hf.prio q' r₀ (by rw [hq]; simp)
    obtain rfl : q' = q₁ := by
      rw [← hq₀, ← hf.prio q₁ r hr]
      exact hp.symm
    have hsorted := hf.sorted q'
    rw [hq] at hr hsorted
    rcases List.mem_append.mp hr with hr | hr
    · -- an earlier one would have been picked
      have hel := eligible_of_touches hr₀ ht hc
      rw [hpre r hr] at hel
      exact absurd hel (by decide)
    · rcases List.mem_cons.mp hr with rfl | hr
      · exact le_rfl
      · have hcons := (List.pairwise_append.mp hsorted).2.1
        exact ((List.pairwise_cons.mp hcons).1 r hr).le

/-- **What is queued while a request is being executed was queued when it was picked.**

**Proof sketch.** A datagram is received, and so a request enqueued, only while nothing is being
executed; every other transition keeps the queues or takes something out of them. -/
lemma Run.queued_of_executing {rst : Bool} {es : List Event} {a : Abs} (h : Run rst es a) {r : Req}
    (hr : r ∈ a.executing) {o : Option Slot} {w q : List Entry}
    (hd : Event.dispatch r.toEntry r.body o w q ∈ es) : ∀ r' ∈ a.queued, r'.toEntry ∈ q := by
  refine Steps.invariant (P := fun es a => ∀ r ∈ a.executing, ∀ o w q,
    Event.dispatch r.toEntry r.body o w q ∈ es → ∀ r' ∈ a.queued, r'.toEntry ∈ q) ?_ ?_ h r hr o w q hd
  · simp [Abs.init, Abs.executing]
  intro es a e a' hrun ih hs r hr o w q hd r' hr'
  rcases List.mem_append.mp hd with hd | hd
  · -- picked before: it is still being executed, and nothing has been enqueued
    have hex : r ∈ a.executing :=
      (hs.executing_sub hr).resolve_right fun hq => ((Run.ledger hrun).dispatched hd).2 r hq.1 rfl
    rcases hs.queued_sub hr' with hq | ⟨o', rfl⟩
    · exact ih r hex o w q hd r' hq
    · rw [hs.executing_of_enqueue (Run.basics hrun)] at hex
      exact absurd hex List.not_mem_nil
  · -- picked just now
    obtain rfl := List.mem_singleton.mp hd
    obtain ⟨-, -, -, -, -, -, -, hq⟩ := hs.dispatch_inv
    exact hq ▸ List.mem_map_of_mem hr'

/-- The request `e₂` is not yet queued when `e₁` is picked. -/
def notBehind (e₁ e₂ : Entry) : Event → Bool
  | .dispatch e _ _ _ queued => e.rid ≠ e₁.rid || queued.all fun m => m.rid ≠ e₂.rid
  | _ => true

/-- A mailbox call that `r₂` was not behind when it was picked does not wait while `r₂` is queued: nothing
is enqueued while a call is being executed. -/
lemma Run.not_waiting_of_notBehind {rst : Bool} {es : List Event} {a : Abs} (h : Run rst es a)
    {r₁ r₂ : Req} (hq : r₂ ∈ a.queued)
    (hw : r₁.kind = some .mailbox → ∀ e ∈ es, notBehind r₁.toEntry r₂.toEntry e = true) :
    r₁ ∉ a.waiting := by
  intro hr
  have hex : r₁ ∈ a.executing := List.mem_append_right _ hr
  obtain ⟨o, w, q, hd⟩ := (Run.ledger h).executing r₁ hex
  have hbehind := h.queued_of_executing hex hd r₂ hq
  have hno := hw ((Run.basics h).waiting r₁ hr).kind _ hd
  simp only [notBehind, ne_eq, not_true_eq_false, decide_false, Bool.false_or, List.all_eq_true,
    decide_eq_true_eq] at hno
  exact hno _ hbehind rfl

/-- When a request is picked, no earlier one of its client and class is left but a mailbox call that
waits. -/
lemma Run.not_live_of_dispatch {rst : Bool} {pre : List Event} {t t' : Abs} {en : Entry}
    {body : List UInt8} {o : Option Slot} {w q : List Entry} (h : Run rst pre t)
    (hs : Step rst t (.dispatch en body o w q) t') (ht : en.touches = true) {r : Req}
    (hr : r ∈ t.live) (hw : ∀ m ∈ w, m.rid ≠ r.rid) (hc : r.c = en.c)
    (hp : r.hdr.prio = en.hdr.prio) : en.rid ≤ r.rid := by
  obtain ⟨hact, -, -, -, -, -, rfl, -⟩ := hs.dispatch_inv
  rw [Abs.live, Abs.executing, hact] at hr
  rcases List.mem_append.mp hr with hr | hr
  · exact absurd rfl (hw r.toEntry (List.mem_map_of_mem hr))
  · exact h.first_of_class hs ht hr hc hp

/-- **Program order.** Of two requests of a client in one priority class that access registers, every
register access made for the earlier one precedes every register access made for the later one,
unless the earlier one is a `MAILBOX` and the later one has arrived before it is picked.

**Proof sketch.** Look at the moment when the later request is picked. The earlier one is not
queued then, as it would have been picked first, it is not at work, as the daemon is idle, and its
call does not wait, as the later one was not behind it when it was picked. So it is over, and
nothing happens for it any more (`Confined.run`). -/
theorem program_order {env : Env} {cfg : Config} {g : Daemon} (h : Reachable env cfg g)
    {pre post : List Event} {e₁ e₂ : Entry} {b₁ b₂ : List UInt8} {o₁ o₂ : Option Slot}
    (he : g.evs = pre ++ .enqueue e₂ b₂ o₂ :: post) (hm : Event.enqueue e₁ b₁ o₁ ∈ pre)
    (hc : e₁.c = e₂.c) (hp : e₁.hdr.prio = e₂.hdr.prio) (ht : e₂.touches = true)
    (hw : e₁.kind = some .mailbox → ∀ e ∈ g.evs, notBehind e₁ e₂ e = true)
    {pre' post' : List Event} {x₁ x₂ : Access} (hx : g.evs = pre' ++ .access x₂ :: post')
    (hx₂ : x₂.agent = .request e₂.rid e₂.c) (hx₁ : Event.access x₁ ∈ post') :
    x₁.agent ≠ .request e₁.rid e₁.c := by
  have hrun := h.good.run
  have hL := hrun.ledger
  have hlt : e₁.rid < e₂.rid := by
    rw [he] at hrun
    exact hrun.rid_lt hm
  have hk₁ : Known g.evs ⟨e₁, b₁⟩ := hL.enqueued (he ▸ List.mem_append_left _ hm)
  have hk₂ : Known g.evs ⟨e₂, b₂⟩ :=
    hL.enqueued (he ▸ List.mem_append_right _ List.mem_cons_self)
  -- the later request was picked before its access
  obtain ⟨r, o, w, q, hrid, hd⟩ := (hx ▸ hrun).dispatch_of_access hx₂
  obtain ⟨⟨o', hen⟩, -⟩ := hL.dispatched (hx ▸ List.mem_append_left _ hd)
  obtain rfl : r = ⟨e₂, b₂⟩ := hL.known_unique (hL.enqueued hen) hk₂ hrid
  obtain ⟨p₁, p₂, rfl⟩ := List.append_of_mem hd
  have hevs : g.evs = p₁ ++ .dispatch e₂ b₂ o w q :: (p₂ ++ .access x₂ :: post') := by
    rw [hx, List.append_assoc, List.cons_append]
  rw [hevs] at hrun
  obtain ⟨s, hs₀, hrest⟩ := hrun.split
  obtain ⟨s', hpick, -⟩ := hrest.cons_inv
  obtain ⟨hact, hq, -, -, -, -, hwait, -⟩ := hpick.dispatch_inv
  have hsame : ∀ r' ∈ s.live, r'.rid = e₁.rid → r' = ⟨e₁, b₁⟩ := fun r' hr' hrid =>
    hL.known_unique (hevs ▸ ((Run.ledger hs₀).known hr').mono) hk₁ hrid
  -- at that moment the call of the earlier one does not wait
  have hover : ∀ m ∈ w, m.rid ≠ e₁.rid := by
    intro m hm hrid
    rw [hwait] at hm
    obtain ⟨r', hr', rfl⟩ := List.mem_map.mp hm
    obtain rfl := hsame r' (List.mem_append_left _ (List.mem_append_right _ hr')) hrid
    exact Run.not_waiting_of_notBehind hs₀ hq
      (fun hk e he => hw hk e (hevs ▸ List.mem_append_left _ he)) hr'
  -- and nothing else of the earlier one is left
  have hgone : ∀ r' ∈ s.live, r'.rid ≠ e₁.rid := by
    intro r' hr' hrid
    obtain rfl := hsame r' hr' hrid
    have hle := Run.not_live_of_dispatch hs₀ hpick ht hr' hover hc hp
    exact absurd hlt (Nat.not_lt_of_le hle)
  have hnRecv : e₂.rid < s.nRecv :=
    (Run.ledger hs₀).known_lt ((Run.ledger hs₀).known (List.mem_append_right _ hq))
  have hnil : Confined (fun rid _ => rid ≠ e₁.rid) (e₁.rid + 1) [] s :=
    ⟨by omega, fun hr => by simp [hact] at hr, hgone, by simp, by simp⟩
  intro hag₁
  refine (hnil.run hs₀ (fun rid _ hn => by omega) hrest).access ?_ hag₁ rfl
  exact List.mem_cons_of_mem _ (List.mem_append_right _ (List.mem_cons_of_mem _ hx₁))

/-- The request in a datagram as number `rid` of a run, from client 0. -/
def entry (rid : ℕ) (msg : List UInt8) : Entry := ⟨rid, 0, Hdr.decode msg⟩

/-- A `MAILBOX` for slice 0 with this timeout. -/
def waitMsg (timeout : List UInt8) : List UInt8 := datagram .mailbox 0 1 ([0, 5, 0, 0] ++ timeout)

/-- A `READ` of register 0. -/
def readMsg : List UInt8 := datagram .read 0 2 [0, 0, 0x1e, 0, 0, 0, 0, 0, 0, 0, 0, 0]

/-- Client 0 sends a `MAILBOX` with a short timeout, and a `READ` after the answer. -/
def mailboxThenRead : Daemon :=
  run Env.ticking Config.plain
    (connects [(7, ['a'])] ++
      [⟨[.client 0 (waitMsg [1, 0, 0, 0])], 64⟩, .none, .none, .none, .none, .none,
      ⟨[.client 0 readMsg], 64⟩, .none, .none])

/-- The theorem at a run in which the `READ` comes after the answer to the `MAILBOX`. -/
theorem program_order_afterAnswer :
    (∀ e ∈ mailboxThenRead.evs, notBehind (entry 0 (waitMsg [1, 0, 0, 0])) (entry 1 readMsg) e = true) ∧
      ∃ pre x₂ post, mailboxThenRead.evs = pre ++ .access x₂ :: post ∧ x₂.agent = .request 1 0 ∧
        ∀ x₁, Event.access x₁ ∈ post → x₁.agent ≠ .request 0 0 := by
  have hw : ∀ e ∈ mailboxThenRead.evs,
      notBehind (entry 0 (waitMsg [1, 0, 0, 0])) (entry 1 readMsg) e = true := by decide +kernel
  have hr : Reachable Env.ticking Config.plain mailboxThenRead := Reachable.run _ _ _
  have he : mailboxThenRead.evs = mailboxThenRead.evs.take 16 ++
      .enqueue (entry 1 readMsg) (readMsg.drop hdrSize) none :: mailboxThenRead.evs.drop 17 := by
    decide +kernel
  have hm : Event.enqueue (entry 0 (waitMsg [1, 0, 0, 0])) ((waitMsg [1, 0, 0, 0]).drop hdrSize)
      none ∈ mailboxThenRead.evs.take 16 := by decide +kernel
  have hx : mailboxThenRead.evs = mailboxThenRead.evs.take 18 ++
      .access ⟨.request 1 0, false, 0, 0x1e, 0, 0, true, none, false⟩ ::
        mailboxThenRead.evs.drop 19 := by decide +kernel
  refine ⟨hw, _, _, _, hx, rfl, fun x₁ hx₁ => ?_⟩
  exact program_order hr he hm rfl (by decide) (by decide) (fun _ => hw) hx rfl hx₁

/-- While client 1 holds the claim, client 0 sends a `MAILBOX` with a long timeout and then a `READ`;
both are held back. Then client 1 releases the claim. -/
def readDuringMailbox : Daemon :=
  run Env.ticking Config.plain
    (connects [(7, ['a']), (8, ['b'])] ++
      [⟨[.client 1 (datagram .claim 0 1 [0xff, 0xff, 0xff, 0, 0, 0, 0, 0])], 64⟩, .none, .none,
      ⟨[.client 0 (waitMsg [0xff, 0xff, 0xff, 0xff])], 64⟩, .none, ⟨[.client 0 readMsg], 64⟩, .none,
      ⟨[.client 1 (datagram .release 0 2 [])], 64⟩, .none, .none, .none, .none, .none, .none])

/-- **Program order fails** without the condition: the `READ` of client 0 is executed inside the wait
of its own earlier `MAILBOX`, which then goes on polling. -/
theorem program_order_broken :
    Reachable Env.ticking Config.plain readDuringMailbox ∧
      ∃ e₁ b₁ e₂ b₂ pre post, readDuringMailbox.evs = pre ++ .enqueue e₂ b₂ (some 1) :: post ∧
        Event.enqueue e₁ b₁ (some 1) ∈ pre ∧ e₁.c = e₂.c ∧ e₁.hdr.prio = e₂.hdr.prio ∧
        e₁.touches = true ∧ e₂.touches = true ∧
        ∃ pre' x₂ post' x₁, readDuringMailbox.evs = pre' ++ .access x₂ :: post' ∧
          x₂.agent = .request e₂.rid e₂.c ∧ Event.access x₁ ∈ post' ∧
          x₁.agent = .request e₁.rid e₁.c := by
  refine ⟨Reachable.run _ _ _, entry 1 (waitMsg [0xff, 0xff, 0xff, 0xff]),
    (waitMsg [0xff, 0xff, 0xff, 0xff]).drop hdrSize, entry 2 readMsg, readMsg.drop hdrSize,
    readDuringMailbox.evs.take 10, readDuringMailbox.evs.drop 11, ?_, ?_, rfl, by decide, by decide,
    by decide, readDuringMailbox.evs.take 26,
    ⟨.request 2 0, false, 0, 0x1e, 0, 0, true, none, true⟩, readDuringMailbox.evs.drop 27,
    ⟨.request 1 0, false, 0, mmdGlobal, mbFlag, 0, true, none, true⟩, ?_, rfl, ?_, rfl⟩
  all_goals decide +kernel

end Spid

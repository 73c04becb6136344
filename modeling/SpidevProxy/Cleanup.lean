import SpidevProxy.ClaimLife
import SpidevProxy.InFlight
import SpidevProxy.Responses

set_option relaxedAutoImplicit false
set_option autoImplicit false

/-!
# The end of a claim

The daemon refines the life of a claim (`Spid.Life`): a claim that ends by a disconnect or by its
deadline has its cleanup list run once and at once, a released one does not, and requests that are
turned down or dropped leave no trace.

## Main definitions

* `Spid.Abs.phase` — the state of the claim in the state of the protocol.

## Main results

* `Spid.Run.life` — every run of the protocol is a run of the claim's life.
* `Spid.claim_end_cleanup` — what happens when a claim ends.
-/

namespace Spid

open History

/-! ## The protocol refines the life of a claim -/

/-- The state of the claim while no cleanup list is run. -/
def Claim.phase (cl : Claim) : Phase :=
  match cl.owner with
  | none => .free
  | some c => .held cl.rid c cl.deadline cl.cleanup

/-- The state of the claim. -/
def Abs.phase (a : Abs) : Phase :=
  match a.act with
  | .cleaning rid c todo => .clean rid c todo
  | _ => a.claim.phase

/-- A claim by itself is not being cleaned up. -/
lemma Claim.phase_notBusy (cl : Claim) : cl.phase.busy = false := by
  unfold Claim.phase
  cases cl.owner <;> rfl

/-- A claim with an owner is held, -/
lemma Claim.phase_of_owner {cl : Claim} {c : Slot} (h : cl.owner = some c) :
    cl.phase = .held cl.rid c cl.deadline cl.cleanup := by
  rw [Claim.phase, h]

/-- and one without is free. -/
lemma Claim.phase_of_none {cl : Claim} (h : cl.owner = none) : cl.phase = .free := by
  rw [Claim.phase, h]

/-- The phase of a claim that is being cleaned up. -/
lemma Abs.phase_cleaning (a : Abs) (rid : ℕ) (c : Slot) (todo : List Op) :
    (a.cleaning rid c todo).phase = .clean rid c todo := by
  cases todo <;> rfl

/-- A transition that does not concern the claim. -/
lemma Life.of_claim {a a' : Abs} {e : Event} (h : a.phase = a.claim.phase)
    (h' : a'.phase = a.claim.phase) (he : e.ofClaim = false) : Life a.phase e a'.phase := by
  rw [h, h']
  exact .other a.claim.phase_notBusy he

/-- **Every transition of the protocol is one of the claim's life.**

**Proof sketch.** Case analysis of the step. The end of a claim, the two kinds of attempts, a grant
and a release are the transitions of the life; everything else leaves the claim alone and is no
event of it (`Life.of_claim`). -/
lemma Step.life {rst : Bool} {a a' : Abs} {e : Event} (h : Step rst a e a') (hb : Basics a) :
    Life a.phase e a'.phase := by
  cases h with
  | note hn => exact .note hn
  | connect hact _ _ => exact .of_claim (by simp [Abs.phase, hact]) (by simp [Abs.phase, hact]) rfl
  | disconnect hact _ _ _ =>
    exact .of_claim (by simp [Abs.phase, hact]) (by simp [Abs.phase, hact]) rfl
  | recv hact _ _ _ => exact .of_claim (by simp [Abs.phase, hact]) rfl rfl
  | reject hact _ _ => exact .of_claim (by simp [Abs.phase, hact]) rfl rfl
  | enqueue hact _ => exact .of_claim (by simp [Abs.phase, hact]) rfl rfl
  | claimEnd hact hw ho hh =>
    have hp : a.phase = a.claim.phase := by simp [Abs.phase, hact]
    rw [hp, Claim.phase_of_owner ho, Abs.phase_cleaning]
    exact .abnormal hh
  | @cleanupAccess rid c op todo val ok hact hok hval =>
    have hp : a.phase = .cleaning rid c op todo := by simp [Abs.phase, hact, Phase.clean]
    rw [hp, Abs.phase_cleaning]
    exact .attempt (.access rfl ⟨rfl, rfl, rfl, rfl, fun hw => hval (Or.inl hw)⟩
      (hb.cleaning _ _ _ hact).2.1)
  | @cleanupRefused rid c op todo st hact _ =>
    have hp : a.phase = .cleaning rid c op todo := by simp [Abs.phase, hact, Phase.clean]
    rw [hp, Abs.phase_cleaning]
    exact .attempt .refused
  | dispatch hact _ _ _ _ => exact .of_claim (by simp [Abs.phase, hact]) rfl rfl
  | access hact ht =>
    refine .of_claim (by simp [Abs.phase, hact]) rfl ?_
    simp [Event.ofClaim, Event.turnsClaim, Event.cleanupFor, ht.agent.1, Req.agent, Agent.claim]
  | doorbell hact => exact .of_claim (by simp [Abs.phase, hact]) rfl rfl
  | poll hact _ _ => exact .of_claim (by simp [Abs.phase, hact]) (by simp [Abs.phase, hact]) rfl
  | wake hact _ hk =>
    refine .of_claim (by simp [Abs.phase, hact]) rfl ?_
    simp [Event.ofClaim, Event.turnsClaim, Event.cleanupFor, hk.agent.1, Req.agent, Agent.claim]
  | refused hact _ _ _ _ => exact .of_claim (by simp [Abs.phase, hact]) rfl rfl
  | mbSet hact => exact .of_claim (by simp [Abs.phase, hact]) rfl rfl
  | mbClear hact => exact .of_claim (by simp [Abs.phase, hact]) rfl rfl
  | @grant r d hact _ _ ho =>
    have hp : a.phase = a.claim.phase := by simp [Abs.phase, hact]
    rw [hp]
    rcases ho with ho | ho
    · rw [Claim.phase_of_none ho]
      exact .grant
    · rw [Claim.phase_of_owner ho]
      exact .renew
  | release hact _ ho =>
    have hp : a.phase = a.claim.phase := by simp [Abs.phase, hact]
    rw [hp, Claim.phase_of_owner ho]
    exact .release
  | reset hact _ _ _ => exact .of_claim (by simp [Abs.phase, hact]) rfl rfl
  | send hact _ _ => exact .of_claim (by simp [Abs.phase, hact]) rfl rfl

/-- **Every run of the protocol is a run of the claim's life.** -/
theorem Run.life {rst : Bool} {es : List Event} {a : Abs} (h : Run rst es a) :
    Steps Life .free es a.phase :=
  Steps.invariant (P := fun es a => Steps Life .free es a.phase) (Steps.nil _)
    (fun _ _ _ _ hr hl hs => hl.snoc (hs.life (Run.basics hr))) h

/-- The claim in force after a history is the claim of the state, unless a cleanup list is being
run. -/
lemma Run.claimAfter_eq {rst : Bool} {es : List Event} {a : Abs} (h : Run rst es a)
    (hp : a.phase = a.claim.phase) :
    (claimAfter es).map (fun cl => (cl.1.rid, cl.1.c, cl.2)) =
      a.claim.owner.map fun c => (a.claim.rid, c, a.claim.deadline, a.claim.cleanup) := by
  have ht := Life.tracks h.life
  cases ho : a.claim.owner with
  | none =>
    rw [hp, Claim.phase_of_none ho] at ht
    rw [ht.notHeld (by simp)]
    rfl
  | some c =>
    rw [hp, Claim.phase_of_owner ho] at ht
    obtain ⟨en, hcl, hrid, hc⟩ := ht.held rfl
    rw [hcl]
    simp [hrid, hc]

/-- The claim that the history tells of is held by the client that it was granted to. -/
lemma Run.owner_of_claimAfter {rst : Bool} {es : List Event} {a : Abs} (h : Run rst es a)
    (hp : a.phase = a.claim.phase) {en : Entry} {d : UInt64} {ops : List Op}
    (hcl : claimAfter es = some (en, d, ops)) : a.claim.owner = some en.c := by
  have heq := h.claimAfter_eq hp
  rw [hcl] at heq
  cases ho : a.claim.owner with
  | none => simp [ho] at heq
  | some c =>
    rw [ho] at heq
    simp only [Option.map_some, Option.some.injEq, Prod.mk.injEq] at heq
    rw [heq.2.1]

/-! ## Grants -/

/-- Claims are granted to `CLAIM` requests that were picked, to each of them once. -/
structure Granted (es : List Event) (a : Abs) : Prop where
  dispatched : ∀ {en d ops}, Event.grant en d ops ∈ es → en.kind = some .claim ∧
    ∃ body o w q, Event.dispatch en body o w q ∈ es ∧ ops = Req.cleanup ⟨en, body⟩
  fresh : ∀ {r}, a.act = .exec r (.ops [] .ok) → r.rid ∉ grants es
  nodup : (grants es).Nodup

/-- A step keeps what the history tells of the claim.

**Proof sketch.** One field at a time. A grant is for the request that is executing, which was
dispatched; a request that starts was in the queue until now, so nothing was granted to it; and so
a grant is never repeated. -/
lemma Granted.step {rst : Bool} {es : List Event} {a a' : Abs} {e : Event} (h : Granted es a)
    (hl : Ledger es a) (hs : Step rst a e a') : Granted (es ++ [e]) a' := by
  constructor
  case dispatched =>
    intro en d ops hm
    rcases List.mem_append.mp hm with hm | hm
    · obtain ⟨hk, body, o, w, q, hd, hops⟩ := h.dispatched hm
      exact ⟨hk, body, o, w, q, List.mem_append_left _ hd, hops⟩
    · obtain rfl := List.mem_singleton.mp hm
      obtain ⟨body, hact, hk, hops⟩ := hs.grant_inv
      obtain ⟨o, w, q, hd⟩ := hl.executing _ (Abs.mem_executing.mpr (Or.inr ⟨_, hact⟩))
      exact ⟨hk, body, o, w, q, List.mem_append_left _ hd, hops⟩
  case fresh =>
    intro r hact' hm
    rcases hs.start_inv hact' with ⟨rfl, hn⟩ | ⟨hr, o, w, q, rfl⟩
    · have ho := Event.ofClaim_of_isNote hn
      rw [Event.ofClaim, Bool.or_eq_false_iff] at ho
      rw [grants_snoc ho.1] at hm
      exact h.fresh hact' hm
    · -- a request that got a claim was picked before, so it is not in the queue
      rw [grants_snoc rfl, mem_grants] at hm
      obtain ⟨en, d, ops, hg, hrid⟩ := hm
      obtain ⟨-, body, o', w', q', hd, -⟩ := h.dispatched hg
      exact (hl.dispatched hd).2 r hr hrid.symm
  case nodup =>
    cases ht : e.turnsClaim with
    | false =>
      rw [grants_snoc ht]
      exact h.nodup
    | true =>
      cases e with
      | grant en d ops =>
        obtain ⟨body, hact, -, -⟩ := hs.grant_inv
        rw [grants_grant, List.nodup_append]
        refine ⟨h.nodup, List.nodup_singleton _, fun rid hrid rid' hrid' he => ?_⟩
        rw [List.mem_singleton] at hrid'
        exact h.fresh hact (hrid' ▸ he ▸ hrid)
      | claimEnd rid c how =>
        rw [grants_claimEnd]
        exact h.nodup
      | _ => simp [Event.turnsClaim] at ht

/-- So does a run. -/
lemma Run.granted {rst : Bool} {es : List Event} {a : Abs} (h : Run rst es a) : Granted es a := by
  refine Steps.invariant (P := Granted) ?_ (fun _ _ _ _ hr hg hs => hg.step (Run.ledger hr) hs) h
  constructor <;> simp [grants]

/-! ## Requests that are turned down -/

/-- What may happen next when a `CLAIM` is at its start. -/
lemma Step.claim_inv {rst : Bool} {a a' : Abs} {e : Event} {r : Req} (h : Step rst a e a')
    (hact : a.act = .exec r (.ops [] .ok)) (hk : r.kind = some .claim) :
    e.isNote = true ∧ a' = a ∨ a'.act = .exec r (.answer .ok []) ∨ isAnswer r.rid e = true := by
  cases h with
  | note hn => exact Or.inl ⟨hn, rfl⟩
  | access hact₂ ht =>
    obtain ⟨rfl, rfl⟩ := Activity.exec.inj (hact.symm.trans hact₂)
    cases ht with
    | op hops => simp [Req.ops, hk] at hops
    | probe hk' => simp [hk] at hk'
  | refused hact₂ hops _ _ _ =>
    obtain ⟨rfl, -⟩ := Activity.exec.inj (hact.symm.trans hact₂)
    simp [Req.ops, hk] at hops
  | grant hact₂ _ _ _ =>
    obtain ⟨rfl, -⟩ := Activity.exec.inj (hact.symm.trans hact₂)
    exact Or.inr (Or.inl rfl)
  | release hact₂ hk' _ =>
    obtain ⟨rfl, -⟩ := Activity.exec.inj (hact.symm.trans hact₂)
    simp [hk] at hk'
  | reset hact₂ hk' _ _ =>
    obtain ⟨rfl, -⟩ := Activity.exec.inj (hact.symm.trans hact₂)
    simp [hk] at hk'
  | send hact₂ _ _ =>
    obtain ⟨rfl, -⟩ := Activity.exec.inj (hact.symm.trans hact₂)
    exact Or.inr (Or.inr (by simp [isAnswer]))
  | _ => simp_all

/-- What may happen next when only the answer is left. -/
lemma Step.answer_inv {rst : Bool} {a a' : Abs} {e : Event} {r : Req} {st : Status}
    {body : List UInt8} (h : Step rst a e a') (hact : a.act = .exec r (.answer st body)) :
    e.isNote = true ∧ a' = a ∨
      ∃ fd, e = .send r.rid r.c fd (r.hdr.type ||| respBit) st r.hdr.seq body := by
  cases h with
  | note hn => exact Or.inl ⟨hn, rfl⟩
  | access hact₂ ht =>
    obtain ⟨rfl, rfl⟩ := Activity.exec.inj (hact.symm.trans hact₂)
    cases ht
  | send hact₂ _ ha =>
    obtain ⟨rfl, rfl⟩ := Activity.exec.inj (hact.symm.trans hact₂)
    cases ha
    exact Or.inr ⟨_, rfl⟩
  | _ => simp_all

/-- What may happen next when a datagram has been received. -/
lemma Step.framed_inv {rst : Bool} {a a' : Abs} {e : Event} {rid : ℕ} {c : Slot} {msg : List UInt8}
    (h : Step rst a e a') (hact : a.act = .received rid c msg) :
    e.isNote = true ∧ a' = a ∨ isAnswer rid e = true ∨
      ∃ en body o, e = .enqueue en body o ∧ en.rid = rid := by
  cases h with
  | note hn => exact Or.inl ⟨hn, rfl⟩
  | reject hact₂ _ _ =>
    obtain ⟨rfl, -, -⟩ := Activity.received.inj (hact.symm.trans hact₂)
    exact Or.inr (Or.inl (by simp [isAnswer]))
  | enqueue hact₂ _ =>
    obtain ⟨rfl, -, -⟩ := Activity.received.inj (hact.symm.trans hact₂)
    exact Or.inr (Or.inr ⟨_, _, _, rfl, rfl⟩)
  | _ => simp_all

/-- There is no other answer before an answer. -/
lemma Run.no_answer_before {rst : Bool} {pre post : List Event} {u : Abs} {rid : ℕ} {c : Slot}
    {fd : ℕ} {type : UInt8} {st : Status} {seq : UInt32} {body : List UInt8}
    (h : Run rst (pre ++ .send rid c fd type st seq body :: post) u) :
    ∀ e ∈ pre, isAnswer rid e = false := by
  have hans : isAnswer rid (.send rid c fd type st seq body) = true := by simp [isAnswer]
  have hone := h.accounts.answer_unique h.ledger (List.mem_append_right pre List.mem_cons_self) hans
  exact eq_false_of_filter_eq hone hans

section

variable {rst : Bool} {a u : Abs} {mid post : List Event} {c : Slot} {fd : ℕ} {type : UInt8}
  {st : Status} {seq : UInt32} {body : List UInt8}

/-- The status of the answer that is left. -/
lemma answer_status {r : Req} {st₀ : Status} {body₀ : List UInt8}
    (h : Steps (Step rst) a (mid ++ .send r.rid c fd type st seq body :: post) u)
    (hact : a.act = .exec r (.answer st₀ body₀))
    (hmid : ∀ e ∈ mid, isAnswer r.rid e = false) : st = st₀ := by
  induction mid generalizing a with
  | nil =>
    obtain ⟨t, hs, -⟩ := h.cons_inv
    rcases hs.answer_inv hact with ⟨hn, -⟩ | ⟨fd', he⟩
    · simp [Event.isNote] at hn
    · simp only [Event.send.injEq] at he
      exact he.2.2.2.2.1
  | cons e mid ih =>
    obtain ⟨t, hs, h'⟩ := h.cons_inv
    rcases hs.answer_inv hact with ⟨-, rfl⟩ | ⟨fd', rfl⟩
    · exact ih h' hact fun e he => hmid e (List.mem_cons_of_mem _ he)
    · exact absurd (hmid _ List.mem_cons_self) (by simp [isAnswer])

/-- From the start of a `CLAIM` to an answer other than `SPIPROXY_OK` nothing happens. -/
lemma claim_quiet {r : Req}
    (h : Steps (Step rst) a (mid ++ .send r.rid c fd type st seq body :: post) u)
    (hact : a.act = .exec r (.ops [] .ok)) (hk : r.kind = some .claim) (hst : st ≠ .ok)
    (hmid : ∀ e ∈ mid, isAnswer r.rid e = false) : ∀ e ∈ mid, e.isNote = true := by
  induction mid generalizing a with
  | nil => simp
  | cons e mid ih =>
    obtain ⟨t, hs, h'⟩ := h.cons_inv
    have hmid' : ∀ e ∈ mid, isAnswer r.rid e = false := fun e he =>
      hmid e (List.mem_cons_of_mem _ he)
    rcases hs.claim_inv hact hk with ⟨hn, rfl⟩ | hgrant | hans
    · intro e' he'
      rcases List.mem_cons.mp he' with rfl | he'
      · exact hn
      · exact ih h' hact hmid' e' he'
    · exact absurd (answer_status h' hgrant hmid') hst
    · rw [hmid _ List.mem_cons_self] at hans
      exact absurd hans (by decide)

/-- From the reception of a datagram that is not enqueued to its answer nothing happens. -/
lemma framed_quiet {rid : ℕ} {msg : List UInt8} (h : Steps (Step rst) a (mid ++ post) u)
    (hact : a.act = .received rid c msg) (hmid : ∀ e ∈ mid, isAnswer rid e = false)
    (henq : ∀ en body o, Event.enqueue en body o ∈ mid → en.rid ≠ rid) :
    ∀ e ∈ mid, e.isNote = true := by
  induction mid generalizing a with
  | nil => simp
  | cons e mid ih =>
    obtain ⟨t, hs, h'⟩ := h.cons_inv
    rcases hs.framed_inv hact with ⟨hn, rfl⟩ | hans | ⟨en, body, o, rfl, hrid⟩
    · intro e' he'
      rcases List.mem_cons.mp he' with rfl | he'
      · exact hn
      · exact ih h' hact (fun e he => hmid e (List.mem_cons_of_mem _ he))
          (fun en body o he => henq en body o (List.mem_cons_of_mem _ he)) e' he'
    · rw [hmid _ List.mem_cons_self] at hans
      exact absurd hans (by decide)
    · exact absurd hrid (henq _ _ _ List.mem_cons_self)

end

/-! ## Requests that are dropped -/

/-- After a disconnect, what is done for the client is done for requests received since. -/
lemma Run.since {rst : Bool} {pre post : List Event} {c : Slot} {fd : ℕ} {u : Abs}
    (h : Run rst (pre ++ .disconnect c fd :: post) u) :
    ∃ n, (∀ {rid c' fd' msg}, Event.recv rid c' fd' msg ∈ pre → rid < n) ∧
      Confined (fun rid c' => c' = c → n ≤ rid) n post u := by
  obtain ⟨t, t', h₀, hs, h₁⟩ := h.split_cons
  have hlive := hs.live
  have hnil : Confined (fun rid c' => c' = c → t.nRecv ≤ rid) t.nRecv [] t' := by
    cases hs with
    | note hn => simp [Event.isNote] at hn
    | disconnect hact _ _ _ =>
      refine ⟨le_rfl, fun hr => by simp [hact] at hr, fun r hr hc => ?_, by simp, by simp⟩
      rw [LiveStep] at hlive
      rw [hlive, List.mem_filter] at hr
      exact absurd hr.2 (by simp [hc])
  exact ⟨t.nRecv, fun hm => (Run.ledger h₀).recv_lt hm,
    hnil.run (h₀.snoc hs) (fun _ _ hn _ => hn) h₁⟩

/-! ## The law of claims -/

/-- What clients may rely on about claims, in a history that stops where no request is at work. -/
structure ClaimLaw (es : List Event) : Prop where
  /-- What ends is the claim of the `CLAIM` granted last. By a release no operation of its cleanup
  list is executed; by a disconnect or a deadline the list is run at once, outside every mailbox
  transaction, and no operation of it is attempted a second time. -/
  ended : ∀ {pre rid c how post}, es = pre ++ .claimEnd rid c how :: post →
    ∃ (en : Entry) (d : UInt64) (ops : List Op), claimAfter pre = some (en, d, ops) ∧
      en.rid = rid ∧ en.c = c ∧ en.kind = some .claim ∧
      (∃ body o w q, Event.dispatch en body o w q ∈ pre ∧ ops = Req.cleanup ⟨en, body⟩) ∧
      (how.abnormal = false → ∀ e ∈ es, e.cleanupFor ≠ some rid) ∧
      (how.abnormal = true → flagAfter pre = false ∧ (∀ rid', ¬InCall pre rid') ∧
        ∃ blk rest, post = blk ++ rest ∧
          List.Forall₂ (Attempt rid c) ops (blk.filter fun e => !e.isNote) ∧
          ∀ e ∈ pre ++ rest, e.cleanupFor ≠ some rid)
  /-- Cleanup operations are attempted for claims that have ended only. -/
  attempted : ∀ {e rid}, e ∈ es → e.cleanupFor = some rid → ∃ c how, Event.claimEnd rid c how ∈ es
  /-- A client that disconnects does not hold the claim any more, and none of the requests received
  from it is executed afterwards. -/
  disconnected : ∀ {pre c fd post}, es = pre ++ .disconnect c fd :: post →
    (∀ {en d ops}, claimAfter pre = some (en, d, ops) → en.c ≠ c) ∧
      ∀ {rid fd' msg}, Event.recv rid c fd' msg ∈ pre →
        (∀ {en body o w q}, Event.dispatch en body o w q ∈ post → en.rid ≠ rid) ∧
          ∀ {x}, Event.access x ∈ post → x.agent ≠ .request rid c
  /-- A `CLAIM` that is executed and answered with an error leaves the claim as it is. -/
  refused : ∀ {pre en body o w q mid c fd type st seq b post},
    es = pre ++ .dispatch en body o w q :: (mid ++ .send en.rid c fd type st seq b :: post) →
    en.kind = some .claim → st ≠ .ok →
    claimAfter (pre ++ .dispatch en body o w q :: (mid ++ [.send en.rid c fd type st seq b])) =
      claimAfter pre
  /-- So does a datagram that is answered without having been enqueued. -/
  rejected : ∀ {pre rid c fd msg mid c' fd' type st seq b post},
    es = pre ++ .recv rid c fd msg :: (mid ++ .send rid c' fd' type st seq b :: post) →
    (∀ en body o, Event.enqueue en body o ∈ es → en.rid ≠ rid) →
    claimAfter (pre ++ .recv rid c fd msg :: (mid ++ [.send rid c' fd' type st seq b])) =
      claimAfter pre
  /-- The claim passes to another client only after it has ended. -/
  handover : ∀ {pre en d ops post}, es = pre ++ .grant en d ops :: post →
    ∀ {en' d' ops'}, claimAfter pre = some (en', d', ops') → en'.c = en.c

/-- Nothing but log lines between two events that do not turn the claim. -/
lemma claimAfter_quiet {pre mid : List Event} {e e' : Event} (he : e.turnsClaim = false)
    (he' : e'.turnsClaim = false) (hmid : ∀ e ∈ mid, e.isNote = true) :
    claimAfter (pre ++ e :: (mid ++ [e'])) = claimAfter pre := by
  refine claimAfter_append fun x hx => ?_
  rcases List.mem_cons.mp hx with rfl | hx
  · exact he
  · rcases List.mem_append.mp hx with hx | hx
    · have ho := Event.ofClaim_of_isNote (hmid x hx)
      rw [Event.ofClaim, Bool.or_eq_false_iff] at ho
      exact ho.1
    · rw [List.mem_singleton.mp hx]
      exact he'

/-- **The law of claims** holds in every run that stops where no request is at work.

**Proof sketch.** The run is one of the claim's life (`Run.life`), so `Life.claimEnd_once` says
what follows an end, and the grants go back to dispatched requests (`Run.granted`). Whatever is
dispatched or accessed for a client after it left was received since (`Run.since`). For a refused
or rejected request, the events up to its answer turn no claim. -/
lemma Run.claimLaw {rst : Bool} {es : List Event} {a : Abs} (h : Run rst es a)
    (hact : a.act = .idle) : ClaimLaw es := by
  have hp : a.phase = a.claim.phase := by simp [Abs.phase, hact]
  have hbusy : a.phase.busy = false := hp ▸ a.claim.phase_notBusy
  have hL := h.ledger
  constructor
  case ended =>
    rintro pre rid c how post rfl
    obtain ⟨en, d, ops, hcl, hrid, hc, hrel, habn⟩ :=
      Life.claimEnd_once h.life hbusy h.granted.nodup
    obtain ⟨t, t', h₀, hs, -⟩ := h.split_cons
    obtain ⟨hk, hd⟩ := (Run.granted h₀).dispatched (grant_mem_of_claimAfter hcl)
    refine ⟨en, d, ops, hcl, hrid, hc, hk, hd, hrel, fun hh => ⟨?_, ?_, habn hh⟩⟩
    all_goals cases hs with
    | note hn => simp [Event.isNote] at hn
    | release => simp [ClaimEnd.abnormal] at hh
    | claimEnd hidle hw _ _ => ?_
    · rw [Run.flagAfter_eq h₀]
      exact (Run.basics h₀).calm hidle hw
    · exact Run.not_inCall h₀ (by simp [hidle]) hw
  case attempted => exact (Life.tracks h.life).attempted
  case disconnected =>
    rintro pre c fd post rfl
    obtain ⟨t, t', h₀, hs, -⟩ := h.split_cons
    refine ⟨?_, ?_⟩
    · intro en d ops hcl hc
      cases hs with
      | note hn => simp [Event.isNote] at hn
      | disconnect hidle _ _ ho =>
        exact ho (hc ▸ Run.owner_of_claimAfter h₀ (by simp [Abs.phase, hidle]) hcl)
    · intro rid fd' msg hr
      obtain ⟨n, hlt, hsince⟩ := h.since
      refine ⟨fun {en body o w q} hd hrid => ?_, fun {x} hx hag => ?_⟩
      · -- the request came from this client, so it is one of those dropped
        obtain ⟨⟨o', he⟩, -⟩ := hL.dispatched
          (List.mem_append_right pre (List.mem_cons_of_mem (.disconnect c fd) hd))
        obtain ⟨fd₁, msg₁, hr₁, -⟩ := hL.enqueued he
        rw [← hrid] at hr
        obtain ⟨hc, -⟩ := hL.recv_unique (List.mem_append_left _ hr) hr₁
        exact absurd (hsince.dispatched hd hc.symm) (Nat.not_le_of_lt (hlt hr))
      · exact absurd (hsince.access hx hag rfl) (Nat.not_le_of_lt (hlt hr))
  case refused =>
    rintro pre en body o w q mid c fd type st seq b post rfl hk hst
    obtain ⟨t, t', h₀, hs, h₁⟩ := h.split_cons
    obtain ⟨-, -, hact', -⟩ := hs.dispatch_inv
    rw [List.append_cons, ← List.append_assoc] at h
    have hmid := h.no_answer_before
    exact claimAfter_quiet rfl rfl (claim_quiet h₁ hact' hk hst fun e he =>
      hmid e (List.mem_append_right _ he))
  case rejected =>
    rintro pre rid c fd msg mid c' fd' type st seq b post rfl henq
    obtain ⟨t, t', h₀, hs, h₁⟩ := h.split_cons
    obtain ⟨-, -, -, hact'⟩ := hs.recv_inv
    rw [List.append_cons, ← List.append_assoc] at h
    have hmid := h.no_answer_before
    refine claimAfter_quiet rfl rfl (framed_quiet h₁ hact'
      (fun e he => hmid e (List.mem_append_right _ he)) fun en body o he => henq en body o ?_)
    exact List.mem_append_right pre (List.mem_cons_of_mem _ (List.mem_append_left _ he))
  case handover =>
    rintro pre en d ops post rfl en' d' ops' hcl
    exact Life.same_client_of_grant h.life hcl

/-- **The end of a claim.** In every run the law of claims holds, and the claim that the daemon keeps
is the one that the history tells. -/
theorem claim_end_cleanup {env : Env} {cfg : Config} {g : Daemon} (h : Reachable env cfg g) :
    ClaimLaw g.evs ∧
      (claimAfter g.evs).map (fun cl => (cl.1.rid, cl.1.c, cl.2)) =
        g.claim.owner.map fun c => (g.claim.rid, c, g.claim.deadline, g.claim.cleanup) :=
  ⟨h.good.run.claimLaw rfl, h.good.run.claimAfter_eq rfl⟩

/-- Client 0 claims the device with a cleanup list of two writes, the second of which has no slice
that exists, and disconnects. -/
def claimThenHangUp : Daemon :=
  run (Env.still 0) Config.plain
    (connects [(7, ['a'])] ++
      [⟨[.client 0 (datagram .claim 0 1 ([0xe8, 3, 0, 0, 2, 0, 0, 0] ++
        [0, 1, 0x1e, 0, 1, 0, 0, 0, 5, 0, 0, 0] ++ [4, 1, 0x1e, 0, 1, 0, 0, 0, 5, 0, 0, 0]))], 64⟩,
      .none, .none, ⟨[.client 0 []], 64⟩])

/-- The theorem at a run in which the owner of the claim disconnects: both operations of its cleanup
list are attempted. -/
theorem claim_end_cleanup_hangUp :
    Event.claimEnd 0 0 .disconnect ∈ claimThenHangUp.evs ∧
      (claimThenHangUp.evs.filter fun e => e.cleanupFor = some 0).length = 2 ∧
      ClaimLaw claimThenHangUp.evs :=
  ⟨by decide +kernel, by decide +kernel, (claim_end_cleanup (Reachable.run _ _ _)).1⟩

end Spid

import SpidevProxy.Requests
import SpidevProxy.Refinement
import SpidevProxy.Script

set_option relaxedAutoImplicit false
set_option autoImplicit false

/-!
# Rejected requests

A request that is turned down is answered with a status other than `SPIPROXY_OK` and with an empty
body. The checks that do so lie in `client_frame`, in `enqueue` and in every branch of `exec_item`;
each of them comes before the request has had any effect.

The statement is about pieces of work that are finer than the steps of the daemon: one epoll event,
one round of `drain_queues`, one round of the wait loop of `exec_mailbox`.

## Main definitions

* `Spid.Passed`, `Spid.Piece` — the states between two pieces of work, the pieces of work.
* `Spid.Event.rejects`, `Spid.Event.worksFor` — the rejecting answers; the events of work for a
  request.
* `Spid.Spared` — what a piece of work leaves alone.
* `Spid.Req.Fits` — the lengths under which a request is served.

## Main results

* `Spid.Run.works` — only a request whose length fits is ever worked for.
* `Spid.Run.not_works_of_rejects` — a rejected request is never worked for.
* `Spid.rejected_requests` — a rejected request has no effect.
-/

namespace Spid

open Bytes History

/-! ## Pieces of work -/

section

variable (env : Env) (cfg : Config)

/-- The states between two pieces of work: those that steps reach, and in the loop of `main` those
between two epoll events. -/
inductive Passed : Daemon → Prop
  | reachable {g : Daemon} (h : Reachable env cfg g) : Passed g
  | event {g : Daemon} (h : Passed g) (hs : g.stack = []) (e : EpollEvent) :
      Passed (handleEvent env cfg g e)

/-- A piece of work: one epoll event, one round of `drain_queues`, one round of the wait loop of
`exec_mailbox`. -/
inductive Piece : Daemon → Daemon → Prop
  | event {g : Daemon} (hs : g.stack = []) (e : EpollEvent) : Piece g (handleEvent env cfg g e)
  | drain {g : Daemon} {budget : ℤ} {rest : List Activation} (hs : g.stack = .drain budget :: rest) :
      Piece g (drainStep env cfg g budget)
  | wait {g : Daemon} {f : MbFrame} {rest : List Activation} (hs : g.stack = .wait f :: rest) :
      Piece g (waitStep env cfg g f)

end

section

variable {env : Env} {cfg : Config} {g g' : Daemon}

/-- A piece of a step keeps the invariant. -/
lemma Good.piece (h : Good cfg g) (hp : Piece env cfg g g') : Good cfg g' := by
  cases hp with
  | event hs e => exact h.quiet hs (handleEvent_quiet cfg.rst (h.wf_nil hs) e)
  | drain hs => exact (h.drainStep_follows hs).good h
  | wait hs => exact (h.waitStep_follows hs).good h

/-- So every state in between has it. -/
lemma Passed.good (h : Passed env cfg g) : Good cfg g := by
  induction h with
  | reachable h => exact h.good
  | event _ hs e ih => exact ih.piece (.event hs e)

end

/-! ## Work for a request -/

/-- The datagram number `rid` is received. -/
def Event.receives (rid : ℕ) : Event → Bool
  | .recv n _ _ _ => n = rid
  | _ => false

/-- The datagram number `rid` is answered with a status other than `SPIPROXY_OK` and an empty
body. -/
def Event.rejects (rid : ℕ) : Event → Bool
  | .send n _ _ _ st _ body => n = rid && st ≠ .ok && body.isEmpty
  | _ => false

/-- The agent acts for request `rid`. -/
def Agent.actsFor (rid : ℕ) : Agent → Bool
  | .request n _ => n = rid
  | .cleanup _ _ => false

/-- The register accesses of `exec_op` and `exec_mailbox` for request `rid`, also those refused, the
grant of the claim and the pulse of the reset line. -/
def Event.worksFor (rid : ℕ) : Event → Bool
  | .access x => x.agent.actsFor rid
  | .refused ag _ _ => ag.actsFor rid
  | .grant en _ _ => en.rid = rid
  | .reset en _ _ _ _ => en.rid = rid
  | .mbSet n _ _ => n = rid
  | _ => false

/-- The length of the body is one under which the request is served. -/
structure Req.Fits (r : Req) : Prop where
  readWrite : r.kind = some .read ∨ r.kind = some .write → r.len = 12
  batch : r.kind = some .batch → ∃ n, 1 ≤ n ∧ n ≤ 64 ∧ r.len = 12 * n
  claim : r.kind = some .claim →
    r.len = 8 + 12 * r.claimReq.ncleanup.toNat ∧ r.claimReq.ncleanup.toNat ≤ 64
  mailbox : r.kind = some .mailbox →
    r.len = 8 + r.mb.payloadLen.toNat ∧ r.mb.payloadLen.toNat ≤ 1018 ∧ r.mb.slice.toNat < 4
  reset : r.kind = some .reset → r.len = resetSize

/-- A request of the right length and within the limits fits. -/
lemma Req.fits {r : Req} (hs : r.sized = true)
    (hr : r.kind = some .mailbox → r.inRange = true) : r.Fits := by
  constructor
  case readWrite =>
    rintro (hk | hk)
    · simp only [Req.sized, hk, decide_eq_true_eq] at hs
      exact hs
    · simp only [Req.sized, hk, decide_eq_true_eq] at hs
      exact hs
  case batch =>
    intro hk
    simp only [Req.sized, hk, Bool.and_eq_true, decide_eq_true_eq] at hs
    obtain ⟨⟨h₁, h₂⟩, h₃⟩ := hs
    exact ⟨r.len / opSize, h₁, h₂, (Nat.mul_div_cancel' (Nat.dvd_of_mod_eq_zero h₃)).symm⟩
  case claim =>
    intro hk
    simp only [Req.sized, hk, Bool.and_eq_true, decide_eq_true_eq] at hs
    obtain ⟨⟨-, h₂⟩, h₃⟩ := hs
    exact ⟨by rw [h₃, Nat.mul_comm]; rfl, h₂⟩
  case mailbox =>
    intro hk
    have hr := hr hk
    simp only [Req.inRange, Bool.and_eq_true, decide_eq_true_eq] at hr
    simp only [Req.sized, hk, decide_eq_true_eq] at hs
    exact ⟨hs, hr⟩
  case reset =>
    intro hk
    simpa [Req.sized, hk] using hs

/-- **What is worked for** is a request being executed, and its length has been checked.

**Proof sketch.** Case analysis of the step. Work for a request is an access, a refusal, a set
flag, a grant or a reset; each is a transition of a request at work, or of a call that waits, whose
size was checked when it started. -/
lemma Step.works_inv {rst : Bool} {a a' : Abs} {e : Event} {rid : ℕ} (h : Step rst a e a')
    (hb : Basics a) (hw : e.worksFor rid = true) :
    ∃ r, a.Executing r ∧ r.rid = rid ∧ r.sized = true ∧
      (r.kind = some .mailbox → r.inRange = true) := by
  have hmb : ∀ {r : Req}, r.IsMailbox → r.sized = true ∧
      (r.kind = some .mailbox → r.inRange = true) := fun h => ⟨h.sized, fun _ => h.inRange⟩
  have hops : ∀ {r : Req} {ops : List Op}, r.ops = some ops →
      (r.kind = some .mailbox → r.inRange = true) := by
    intro r ops ho hk
    simp [Req.ops, hk] at ho
  have hag : ∀ {r : Req} {x : Access}, x.agent = r.agent →
      (Event.access x).worksFor rid = true → r.rid = rid := by
    intro r x hx hw
    simpa [Event.worksFor, Agent.actsFor, hx, Req.agent] using hw
  cases h with
  | note hn => cases e <;> simp [Event.isNote, Event.worksFor] at hn hw
  | cleanupAccess _ _ _ => simp [Event.worksFor, Agent.actsFor, Abs.access] at hw
  | cleanupRefused _ _ => simp [Event.worksFor, Agent.actsFor] at hw
  | access hact ht =>
    refine ⟨_, Or.inr ⟨_, hact⟩, hag ht.agent.1 hw, ?_⟩
    cases ht with
    | op ho hs _ _ _ => exact ⟨hs, hops ho⟩
    | probe _ hs hr => exact ⟨hs, fun _ => hr⟩
    | word => exact hmb (hb.exec _ _ hact rfl)
    | mask => exact hmb (hb.exec _ _ hact rfl)
    | enable => exact hmb (hb.exec _ _ hact rfl)
    | noBell => exact hmb (hb.exec _ _ hact rfl)
    | fetch => exact hmb (hb.exec _ _ hact rfl)
    | clear => exact hmb (hb.exec _ _ hact rfl)
  | doorbell hact => exact ⟨_, Or.inr ⟨_, hact⟩, hag rfl hw, hmb (hb.exec _ _ hact rfl)⟩
  | @poll r rest v hact hw' _ =>
    have hm : r ∈ a.waiting := by rw [hw']; exact List.mem_cons_self
    exact ⟨r, Or.inl hm, hag rfl hw, hmb (hb.waiting r hm)⟩
  | @wake r rest p x hact hw' hk =>
    have hm : r ∈ a.waiting := by rw [hw']; exact List.mem_cons_self
    exact ⟨r, Or.inl hm, hag hk.agent.1 hw, hmb (hb.waiting r hm)⟩
  | refused hact ho hs _ _ =>
    exact ⟨_, Or.inr ⟨_, hact⟩, by simpa [Event.worksFor, Agent.actsFor, Req.agent] using hw, hs,
      hops ho⟩
  | mbSet hact =>
    exact ⟨_, Or.inr ⟨_, hact⟩, by simpa [Event.worksFor] using hw, hmb (hb.exec _ _ hact rfl)⟩
  | grant hact hk hs _ =>
    exact ⟨_, Or.inr ⟨_, hact⟩, by simpa [Event.worksFor] using hw, hs, by simp [hk]⟩
  | reset hact hk hs _ =>
    exact ⟨_, Or.inr ⟨_, hact⟩, by simpa [Event.worksFor] using hw, hs, by simp [hk]⟩
  | connect => simp [Event.worksFor] at hw
  | disconnect => simp [Event.worksFor] at hw
  | recv => simp [Event.worksFor] at hw
  | reject => simp [Event.worksFor] at hw
  | enqueue => simp [Event.worksFor] at hw
  | claimEnd => simp [Event.worksFor] at hw
  | dispatch => simp [Event.worksFor] at hw
  | mbClear => simp [Event.worksFor] at hw
  | release => simp [Event.worksFor] at hw
  | send => simp [Event.worksFor] at hw

section

variable {rst : Bool} {es : List Event} {a : Abs} {e : Event} {rid : ℕ}

/-- **Only a request whose length fits** is ever worked for, and only after it was picked. -/
lemma Run.works (h : Run rst es a) (he : e ∈ es) (hw : e.worksFor rid = true) :
    ∃ (r : Req) (o : Option Slot) (w q : List Entry), r.rid = rid ∧
      Event.dispatch r.toEntry r.body o w q ∈ es ∧ r.Fits := by
  obtain ⟨pre, post, rfl⟩ := List.append_of_mem he
  obtain ⟨t, t', h₀, hs, -⟩ := h.split_cons
  obtain ⟨r, hex, hrid, hsized, hr⟩ := hs.works_inv (Run.basics h₀) hw
  obtain ⟨o, w, q, hd⟩ := (Run.ledger h₀).executing r (Abs.mem_executing.mpr hex)
  exact ⟨r, o, w, q, hrid, List.mem_append_left _ hd, Req.fits hsized hr⟩

/-- A request at its start has not been worked for. -/
lemma Run.not_works_of_start (h : Run rst es a) :
    ∀ r, a.act = .exec r (.ops [] .ok) → ∀ e ∈ es, e.worksFor r.rid = false := by
  refine Steps.invariant (P := fun es a => ∀ r, a.act = .exec r (.ops [] .ok) →
    ∀ e ∈ es, e.worksFor r.rid = false) (by simp) ?_ h
  intro es a e a' hr ih hs r hact x hx
  have hlast : e.worksFor r.rid = false := by
    rcases hs.start_inv hact with ⟨-, hn⟩ | ⟨-, o, w, q, rfl⟩
    · cases e <;> first | rfl | simp [Event.isNote] at hn
    · rfl
  rcases List.mem_append.mp hx with hx | hx
  · rcases hs.start_inv hact with ⟨rfl, -⟩ | ⟨hq, -⟩
    · exact ih r hact x hx
    · -- what was worked for was picked, and is not in a queue any more
      by_contra hw
      obtain ⟨r', o, w, q, hrid, hd, -⟩ := Run.works hr hx (by simpa using hw)
      exact ((Run.ledger hr).dispatched hd).2 r hq hrid.symm
  · rw [List.mem_singleton.mp hx]
    exact hlast

/-- The answer to a `MAILBOX` has a body. -/
lemma mbReply_ne_nil (r : Req) (cmd : UInt8) (payload : List UInt8) : r.mbReply cmd payload ≠ [] := by
  simp [Req.mbReply, Mb.encode]

/-- A request about to get an empty answer has been executed. -/
lemma Script.ok_of_nil {r : Req} {s : Stage} {xs : List Access} (h : Script rst r s xs)
    {st : Status} (hs : s = .busy (.answer st [])) : st = .ok := by
  cases h with
  | touch h ht =>
    cases ht with
    | probe =>
      split_ifs at hs <;> simp [mbReply_ne_nil] at hs
    | word => split_ifs at hs <;> simp at hs
    | mask => split_ifs at hs <;> simp at hs
    | enable => split_ifs at hs <;> simp at hs
    | fetch => split_ifs at hs <;> simp at hs
    | _ => simp at hs
  | wake h hw => cases hw <;> simp at hs
  | leave h => simp [mbReply_ne_nil] at hs
  | control h hk =>
    simp only [Stage.busy.injEq, Progress.answer.injEq, and_true] at hs
    exact hs.symm
  | _ => simp at hs

/-- The operations that a request was answered with are not empty. -/
lemma flatMap_encode_ne_nil {l l' : List Op} (h : l ≠ []) : (l ++ l').flatMap Op.encode ≠ [] := by
  cases l with
  | nil => exact absurd rfl h
  | cons op l => simp [Op.encode]

/-- **A rejected request is never worked for**, before or after its answer.

**Proof sketch.** Before the answer: a rejected datagram was not enqueued, and a request that is
answered with an error and an empty body has not started, since every other answer with an error
has a body. After the answer no request with its number is at work (`Run.confined_after`). -/
theorem Run.not_works_of_rejects (h : Run rst es a) (he : e ∈ es) (hr : e.rejects rid = true) :
    ∀ x ∈ es, x.worksFor rid = false := by
  cases e with
  | send n c fd type st seq body =>
    simp only [Event.rejects, ne_eq, Bool.and_eq_true, decide_eq_true_eq, List.isEmpty_iff] at hr
    obtain ⟨⟨rfl, hst⟩, rfl⟩ := hr
    intro x hx
    by_contra hw
    have hw : x.worksFor n = true := by simpa using hw
    obtain ⟨pre, post, rfl⟩ := List.append_of_mem he
    obtain ⟨t, t', h₀, hs, h₁⟩ := h.split_cons
    rcases List.mem_append.mp hx with hpre | hpost
    · -- before the answer
      rcases hs.send_inv.2 with ⟨msg, hact, -⟩ | ⟨r, p, hact, rfl, -, -, -, ha⟩
      · obtain ⟨r, o, w, q, hrid, hd, -⟩ := Run.works h₀ hpre hw
        obtain ⟨⟨o', ho'⟩, -⟩ := (Run.ledger h₀).dispatched hd
        exact ((Run.ledger h₀).received hact).2 ho' hrid
      · have hp : p = .ops [] .ok := by
          generalize hb : ([] : List UInt8) = body at ha
          cases ha with
          | done =>
            subst hb
            exact absurd (((Run.scripts h₀).busy r _ hact).ok_of_nil rfl) hst
          | ops _ _ hne _ _ => exact absurd hb.symm (flatMap_encode_ne_nil hne)
          | outOfRange => exact absurd hb.symm (mbReply_ne_nil r _ _)
          | _ => rfl
        subst hp
        rw [Run.not_works_of_start h₀ r hact x hpre] at hw
        exact Bool.false_ne_true hw
    · rcases List.mem_cons.mp hpost with rfl | hpost
      · simp [Event.worksFor] at hw
      · -- after it
        obtain ⟨mid, post', rfl⟩ := List.append_of_mem hpost
        rw [← List.cons_append, ← List.append_assoc] at h
        obtain ⟨u, u', h₂, hs₂, -⟩ := h.split_cons
        obtain ⟨r, hex, hrid, -⟩ := hs₂.works_inv (Run.basics h₂) hw
        exact (Run.confined_after h₂).live r
          (List.mem_append_left _ (Abs.mem_executing.mpr hex)) hrid
  | _ => simp [Event.rejects] at hr

end

/-! ## What a piece of work leaves alone -/

/-- A register access or a pulse of the reset line. -/
def Event.onDevice : Event → Bool
  | .access _ => true
  | .reset _ _ _ _ _ => true
  | _ => false

/-- The requests queued with priority `q`. -/
def Daemon.requests (g : Daemon) (q : Fin 3) : List Req := (g.pool.queue q).map g.req

/-- From `g` to `g'` the device is not touched, and the claim, `g.mb_inflight`, the trace ring and the
lint state stay as they are. -/
structure Harmless (g g' : Daemon) : Prop where
  claim : g'.claim = g.claim
  inflight : g'.mbInflight = g.mbInflight
  ring : g'.io.ring = g.io.ring
  ringW : g'.io.ringW = g.io.ringW
  lint : g'.io.lint = g.io.lint
  bus : g'.io.nIoctl = g.io.nIoctl
  silent : ∃ es, g'.evs = g.evs ++ es ∧ ∀ e ∈ es, e.onDevice = false

/-- The same, and of all the queued requests only number `rid` may have come or gone. -/
structure Spared (rid : ℕ) (g g' : Daemon) : Prop extends Harmless g g' where
  others : ∀ q, (g'.requests q).filter (fun r => r.rid ≠ rid) =
    (g.requests q).filter fun r => r.rid ≠ rid

namespace Harmless

variable {g g₁ g₂ : Daemon}

/-- One piece of work after another. -/
lemma trans (h : Harmless g g₁) (h' : Harmless g₁ g₂) : Harmless g g₂ where
  claim := h'.claim.trans h.claim
  inflight := h'.inflight.trans h.inflight
  ring := h'.ring.trans h.ring
  ringW := h'.ringW.trans h.ringW
  lint := h'.lint.trans h.lint
  bus := h'.bus.trans h.bus
  silent := by
    obtain ⟨es, he, hP⟩ := h.silent
    obtain ⟨es', he', hP'⟩ := h'.silent
    refine ⟨es ++ es', by rw [he', he, List.append_assoc], fun e hm => ?_⟩
    rcases List.mem_append.mp hm with hm | hm
    · exact hP e hm
    · exact hP' e hm

/-- An event that is not on the device. -/
lemma of_event {e : Event} (he : e.onDevice = false) (hev : g₁.evs = g.evs ++ [e])
    (hc : g₁.claim = g.claim) (hm : g₁.mbInflight = g.mbInflight)
    (hio : g₁.io.ring = g.io.ring ∧ g₁.io.ringW = g.io.ringW ∧ g₁.io.lint = g.io.lint ∧
      g₁.io.nIoctl = g.io.nIoctl) : Harmless g g₁ :=
  ⟨hc, hm, hio.1, hio.2.1, hio.2.2.1, hio.2.2.2, [e], hev, by simpa using he⟩

/-- Sending an answer. -/
lemma sendResp (env : Env) (g : Daemon) (rid : ℕ) (c : Slot) (req : Hdr) (st : Status)
    (body : List UInt8) : Harmless g (sendResp env g rid c req st body) := by
  refine of_event rfl (sendResp_spec env g rid c req st body).1 ?_ ?_ ?_ <;>
    · unfold Spid.sendResp
      dsimp only
      split_ifs
      · first | rfl | exact ⟨rfl, rfl, rfl, rfl⟩
      · first | rfl | exact ⟨rfl, rfl, rfl, rfl⟩

end Harmless

/-- A disconnect, or the coming and going of a queued request other than number `rid`. -/
def Event.movesOther (rid : ℕ) : Event → Bool
  | .disconnect _ _ => true
  | .enqueue en _ _ => en.rid ≠ rid
  | .dispatch en _ _ _ _ => en.rid ≠ rid
  | _ => false

/-- The queues, apart from one request. -/
lemma Step.others {rst : Bool} {a a' : Abs} {e : Event} {rid : ℕ} (h : Step rst a e a')
    (he : e.movesOther rid = false) (q : Fin 3) :
    (a'.queue q).filter (fun r => r.rid ≠ rid) = (a.queue q).filter fun r => r.rid ≠ rid := by
  cases h with
  | disconnect => simp [Event.movesOther] at he
  | @enqueue n c msg hact hok =>
    have hrid : (frameReq n c msg).rid = rid := by simpa [Event.movesOther] using he
    by_cases hqq : q = (Hdr.decode msg).prio
    · subst hqq
      simp [hrid]
    · simp [hqq]
  | @dispatch q' pre post r hact hq' _ _ _ =>
    have hrid : r.rid = rid := by simpa [Event.movesOther] using he
    by_cases hqq : q = q'
    · subst hqq
      simp [hq', hrid]
    · simp [hqq]
  | claimEnd => rw [Abs.cleaning_queue]
  | cleanupAccess => rw [Abs.cleaning_queue]
  | cleanupRefused => rw [Abs.cleaning_queue]
  | _ => rfl

/-- The same for a piece of work that the protocol follows. -/
lemma Sim.others {rst : Bool} {g g' : Daemon} {w w' : List Ptr} {act act' : Activity} {rid : ℕ}
    {es : List Event} (h : Sim rst g w act g' w' act') (hev : g'.evs = g.evs ++ es)
    (he : ∀ e ∈ es, e.movesOther rid = false) (q : Fin 3) :
    (g'.requests q).filter (fun r => r.rid ≠ rid) = (g.requests q).filter fun r => r.rid ≠ rid := by
  obtain ⟨es', hev', hs⟩ := h
  obtain rfl : es' = es := List.append_cancel_left (hev'.symm.trans hev)
  exact Steps.invariant_on (P := fun _ a => (a.queue q).filter (fun r => r.rid ≠ rid) =
    ((g.abs w act).queue q).filter fun r => r.rid ≠ rid) rfl
    (fun _ _ _ _ _ ih hs he => (hs.others he q).trans ih) hs he

/-! ## The pieces of work -/

/-- Register accesses are neither datagrams nor answers. -/
lemma Event.By.not_answer {ag : Agent} {ctx : LogCtx} {e : Event} {rid : ℕ} (h : e.By ag ctx)
    (hr : e.receives rid = true ∨ e.rejects rid = true) : False := by
  cases e with
  | recv => exact h
  | send => exact h
  | _ => simp [Event.receives, Event.rejects] at hr

/-- Nor is the other work on a request. -/
lemma Event.Of.not_answer {x : Entry} {ctx : LogCtx} {e : Event} {rid : ℕ} (h : e.Of x ctx)
    (hr : e.receives rid = true ∨ e.rejects rid = true) : False := by
  cases e with
  | recv => exact h
  | send => exact h
  | _ => simp [Event.receives, Event.rejects] at hr

/-- Nor is the end of a claim. -/
lemma Event.Ends.not_answer {g : Daemon} {c : Slot} {e : Event} {rid : ℕ} (h : e.Ends g c)
    (hr : e.receives rid = true ∨ e.rejects rid = true) : False := by
  rcases h.2 with ⟨how, rfl⟩ | h
  · simp [Event.receives, Event.rejects] at hr
  · exact h.not_answer hr

section

variable {env : Env} {cfg : Config} {g g' : Daemon} {rid : ℕ}

variable (env) in
/-- `client_frame` only answers or enqueues the datagram. -/
lemma clientFrame_harmless (g : Daemon) (rid : ℕ) (c : Slot) (msg : List UInt8) :
    Harmless g (clientFrame env g rid c msg) := by
  unfold clientFrame
  by_cases hok : frameOk msg = true
  · rw [if_pos hok]
    dsimp only
    have h₁ : Harmless g (g.setClient c { g.cl c with nMsgs := (g.cl c).nMsgs + 1 }) :=
      ⟨rfl, rfl, rfl, rfl, rfl, rfl, [], (List.append_nil _).symm, by simp⟩
    refine h₁.trans ?_
    unfold enqueue
    split
    · exact Harmless.sendResp _ _ _ _ _ _ _
    · exact Harmless.of_event rfl rfl rfl rfl ⟨rfl, rfl, rfl, rfl⟩
  · rw [if_neg hok]
    exact Harmless.sendResp _ _ _ _ _ _ _

/-- **One epoll event.**

**Proof sketch.** A new client and a hang-up receive and answer nothing. A datagram is received and
framed, with two events that move no other request and work that harms nothing. -/
lemma handleEvent_spared (h : WF g []) (ev : EpollEvent) {e : Event}
    (he : e ∈ since g (handleEvent env cfg g ev))
    (hr : e.receives rid = true ∨ e.rejects rid = true) :
    Spared rid g (handleEvent env cfg g ev) := by
  cases ev with
  | listen pid line =>
    exfalso
    obtain ⟨es, hev, hP⟩ := acceptClient_evs g pid line
    rw [handleEvent, since_eq hev] at he
    obtain ⟨c, fd, rfl⟩ := hP e he
    simp [Event.receives, Event.rejects] at hr
  | client c datagram =>
    simp only [handleEvent] at he ⊢
    split_ifs at he ⊢ with hu
    · have hq : Quiet cfg.rst g (clientMsg env cfg g c datagram) :=
        clientMsg_quiet cfg.rst h hu datagram
      unfold clientMsg at he hq ⊢
      dsimp only at he hq ⊢
      split_ifs at he hq ⊢ with hm
      · -- a hang-up: nothing is received or answered
        exfalso
        obtain ⟨es, fd, hev, hP⟩ := clientDrop_evs env cfg g c
        rw [List.append_assoc] at hev
        rw [since_eq hev] at he
        rcases List.mem_append.mp he with he | he
        · exact (hP e he).not_answer hr
        · rw [List.mem_singleton.mp he] at hr
          simp [Event.receives, Event.rejects] at hr
      · generalize hg₁ : ({ g with nRecv := g.nRecv + 1 } : Daemon).emit
          (.recv g.nRecv c (g.cl c).fd (datagram.take (hdrSize + msgMax))) = g₁ at *
        have h₁ : Harmless g g₁ := by
          subst hg₁
          exact Harmless.of_event rfl rfl rfl rfl ⟨rfl, rfl, rfl, rfl⟩
        have h₂ := clientFrame_harmless env g₁ g.nRecv c (datagram.take (hdrSize + msgMax))
        obtain ⟨⟨e', hev, hor⟩, -⟩ := clientFrame_evs env g₁ g.nRecv c
          (datagram.take (hdrSize + msgMax))
        have hev' : (clientFrame env g₁ g.nRecv c (datagram.take (hdrSize + msgMax))).evs =
            g.evs ++ [.recv g.nRecv c (g.cl c).fd (datagram.take (hdrSize + msgMax)), e'] := by
          rw [hev, ← hg₁]
          simp [Daemon.emit, Daemon.evs]
        rw [since_eq hev'] at he
        have hrid : rid = g.nRecv := by
          rcases List.mem_cons.mp he with rfl | he
          · simp only [Event.receives, Event.rejects, Bool.false_eq_true, or_false,
              decide_eq_true_eq] at hr
            exact hr.symm
          · rw [List.mem_singleton.mp he] at hr
            rcases hor with ⟨fd, type, st, seq, rfl⟩ | ⟨en, body, o, rfl, -⟩
            · simp only [Event.receives, Event.rejects, Bool.false_eq_true, false_or,
                Bool.and_eq_true, decide_eq_true_eq] at hr
              exact hr.1.1.symm
            · simp [Event.receives, Event.rejects] at hr
        subst hrid
        refine ⟨h₁.trans h₂, hq.sim.others hev' fun x hx => ?_⟩
        rcases List.mem_cons.mp hx with rfl | hx
        · rfl
        · rw [List.mem_singleton.mp hx]
          rcases hor with ⟨fd, type, st, seq, rfl⟩ | ⟨en, body, o, rfl, hrid⟩
          · rfl
          · simp [Event.movesOther, hrid]
    · simp [since] at he

/-- Work and an answer that is `SPIPROXY_OK` or has a body are not a rejection. -/
lemma not_answer_of_reply {P : Event → Prop} {it : Ptr} {g₁ : Daemon} {st : Status}
    {body : List UInt8} (hw : Footprint P g g₁) (hb : st = .ok ∨ body ≠ [])
    (hP : ∀ e, P e → ¬(e.receives rid = true ∨ e.rejects rid = true)) :
    ∃ es, (reply env g₁ it st body).evs = g.evs ++ es ∧
      ∀ e ∈ es, ¬(e.receives rid = true ∨ e.rejects rid = true) := by
  obtain ⟨es, hev, hes⟩ := hw.evs
  have hev' := (sendResp_spec env g₁ (g₁.item it).rid (g₁.item it).c (g₁.item it).hdr st body).1
  rw [hev, List.append_assoc] at hev'
  refine ⟨_, hev', fun e he => ?_⟩
  rcases List.mem_append.mp he with he | he
  · exact hP e (hes e he)
  · rw [List.mem_singleton.mp he]
    rcases hb with rfl | hb
    · simp [Event.receives, Event.rejects]
    · simp [Event.receives, Event.rejects, hb]

/-- A round that answers the item it has picked with an empty body. -/
lemma Harmless.rejected {it : Ptr} {w : List Ptr} {g₁ : Daemon} {e₀ : Event} {st : Status}
    (hwf : WF g₁ (it :: w)) (hh : Harmless g g₁) (hev : g₁.evs = g.evs ++ [e₀])
    (h₀ : ¬(e₀.receives rid = true ∨ e₀.rejects rid = true))
    (ho : (g₁.item it).rid = rid → ∀ q, (g₁.requests q).filter (fun r => r.rid ≠ rid) =
      (g.requests q).filter fun r => r.rid ≠ rid) {e : Event}
    (he : e ∈ since g (freeItem (reply env g₁ it st []) it))
    (hr : e.receives rid = true ∨ e.rejects rid = true) :
    Spared rid g (freeItem (reply env g₁ it st []) it) := by
  obtain ⟨hev', hl, -, habs⟩ := sendResp_spec env g₁ (g₁.item it).rid (g₁.item it).c
    (g₁.item it).hdr st []
  have hh' : Harmless g (reply env g₁ it st []) := hh.trans (Harmless.sendResp _ _ _ _ _ _ _)
  have hrid : (g₁.item it).rid = rid := by
    rw [hev, List.append_assoc] at hev'
    have hev'' : (freeItem (reply env g₁ it st []) it).evs = g.evs ++ _ := hev'
    rw [since_eq hev''] at he
    rcases List.mem_append.mp he with he | he
    · rw [List.mem_singleton.mp he] at hr
      exact absurd hr h₀
    · rw [List.mem_singleton.mp he] at hr
      simp only [Event.receives, Event.rejects, Bool.false_eq_true, false_or, Bool.and_eq_true,
        decide_eq_true_eq] at hr
      exact hr.1.1
  refine ⟨⟨hh'.claim, hh'.inflight, hh'.ring, hh'.ringW, hh'.lint, hh'.bus, hh'.silent⟩, fun q => ?_⟩
  have hq : (freeItem (reply env g₁ it st []) it).requests q = g₁.requests q := by
    have hwf' : WF (reply env g₁ it st []) (it :: w) := hwf.work List.mem_cons_self (hl it)
    exact (congrFun (congrArg Abs.queue (hwf'.abs_release w .idle)) q).trans
      (congrFun (congrArg Abs.queue (habs w .idle)) q)
  rw [hq]
  exact ho hrid q

/-- **One round of `drain_queues`.**

**Proof sketch.** The item that is picked is turned down or served, or its call waits
(`execItem_handled`). What is served is not answered by a rejection; what is turned down harms
nothing behind the dispatch, which moves no other request. -/
lemma drainStep_spared (h : Good cfg g) {budget : ℤ} {rest : List Activation}
    (hs : g.stack = .drain budget :: rest) {e : Event}
    (he : e ∈ since g (drainStep env cfg g budget))
    (hr : e.receives rid = true ∨ e.rejects rid = true) :
    Spared rid g (drainStep env cfg g budget) := by
  rcases drainStep_cases env cfg g budget with ⟨-, hd⟩ | ⟨it, pool, -, ht, hd⟩
  · rw [hd] at he
    simp [since, popStack, Daemon.evs] at he
  · rw [hd] at he ⊢
    obtain ⟨hwf, hsim⟩ := take_sim cfg.rst h.wf hs ht
    have hx : Handled env cfg (fun _ => True) it
        { picked g budget it pool with lctx := (picked g budget it pool).logFor it }
        (itemCalls env cfg (picked g budget it pool) it)
        (execItem env cfg (picked g budget it pool) it) :=
      execItem_handled env cfg _ fun _ _ => trivial
    -- the item is picked, and the log context is set
    have hev : (picked g budget it pool).evs = g.evs ++ [.dispatch _ _ _ _ _] := rfl
    have hh : Harmless g { picked g budget it pool with
        lctx := (picked g budget it pool).logFor it } :=
      Harmless.of_event rfl hev rfl rfl ⟨rfl, rfl, rfl, rfl⟩
    have hwf₁ : WF { picked g budget it pool with
        lctx := (picked g budget it pool).logFor it } (it :: g.waitingPtrs) :=
      hwf.congr rfl rfl (fun _ => rfl) rfl
    -- whatever else happens comes behind the dispatch
    have hpast : ∀ {g₂ : Daemon} {es : List Event}, g₂.evs = (picked g budget it pool).evs ++ es →
        (∀ e ∈ es, ¬(e.receives rid = true ∨ e.rejects rid = true)) →
        e ∈ since g g₂ → ¬(e.receives rid = true ∨ e.rejects rid = true) := by
      intro g₂ es hes hno he
      rw [hev, List.append_assoc] at hes
      rw [since_eq hes] at he
      rcases List.mem_append.mp he with he | he
      · rw [List.mem_singleton.mp he]
        simp [Event.receives, Event.rejects]
      · exact hno e he
    generalize execItem env cfg (picked g budget it pool) it = res at *
    obtain ⟨_ | f, g₂⟩ := res
    · rcases Answered.cases hx with ⟨st, -, rfl⟩ | ⟨g₁, st, body, hf, hb, rfl⟩
      · refine hh.rejected hwf₁ hev (by simp [Event.receives, Event.rejects]) (fun hrid q => ?_) he hr
        refine hsim.others hev (fun x hx => ?_) q
        rw [List.mem_singleton.mp hx]
        exact decide_eq_false (not_not.mpr hrid)
      · obtain ⟨es, hes, hno⟩ := not_answer_of_reply hf hb fun e (he : e.Of _ _) hr => he.not_answer hr
        exact absurd hr (hpast hes hno he)
    · obtain ⟨es, hes, hP⟩ := (Serves.footprint hx).evs
      exact absurd hr (hpast hes (fun e he hr => (hP e he).not_answer hr) he)

/-- **One round of the wait loop**: the answer to a `MAILBOX` that has waited has a body. -/
lemma waitStep_not_answer (f : MbFrame) {e : Event} (he : e ∈ since g (waitStep env cfg g f)) :
    ¬(e.receives rid = true ∨ e.rejects rid = true) := by
  rcases waitStep_handled env cfg (fun _ => True) g f with ⟨g₁, ha, hw⟩ | ⟨v, m, g₁, hs, hw, -⟩
  · rcases ha.cases with ⟨st, hks, -⟩ | ⟨g₁, st, body, hf, hb, rfl⟩
    · exact absurd hks (by simp)
    · obtain ⟨es, hes, hno⟩ := not_answer_of_reply hf hb fun e (he : e.Of _ _) hr => he.not_answer hr
      rw [hw, since_eq (show (freeItem (popStack (reply env g₁ f.it st body)) f.it).evs = g.evs ++ es
        from hes)] at he
      exact hno e he
  · obtain ⟨es, hes, hP⟩ := hs.footprint.evs
    rw [hw, since_eq (show ({ g₁ with stack := .drain 4 :: .wait { f with v := v } :: g₁.stack.tail } :
      Daemon).evs = g.evs ++ es from hes)] at he
    exact fun hr => (hP e he).not_answer hr

end

/-! ## The theorem -/

/-- **Rejected requests have no effect.** A piece of work that receives datagram `rid`, or answers it
with a status other than `SPIPROXY_OK` and an empty body, leaves the device, the claim,
`g.mb_inflight`, the trace ring, the lint state and the other queued requests alone; and nothing is
ever done for a datagram that is answered so. Conversely a request for which something is done has a
body of the length that its type asks for. -/
theorem rejected_requests {env : Env} {cfg : Config} {g g' : Daemon} (h : Passed env cfg g)
    (hp : Piece env cfg g g') :
    (∀ rid, (∃ e ∈ since g g', e.receives rid = true ∨ e.rejects rid = true) → Spared rid g g') ∧
    (∀ rid, (∃ e ∈ g'.evs, e.rejects rid = true) → ∀ e ∈ g'.evs, e.worksFor rid = false) ∧
    ∀ (r : Req) (o : Option Slot) (w q : List Entry),
      Event.dispatch r.toEntry r.body o w q ∈ g'.evs →
        (∃ e ∈ g'.evs, e.worksFor r.rid = true) → r.Fits := by
  have hg := h.good
  have hrun := (hg.piece hp).run
  refine ⟨?_, ?_, ?_⟩
  · rintro rid ⟨e, he, hr⟩
    cases hp with
    | event hs ev => exact handleEvent_spared (hg.wf_nil hs) ev he hr
    | drain hs => exact drainStep_spared hg hs he hr
    | @wait f rest hs => exact absurd hr (waitStep_not_answer f he)
  · rintro rid ⟨e, he, hr⟩
    exact Run.not_works_of_rejects hrun he hr
  · rintro r o w q hd ⟨e, he, hw⟩
    obtain ⟨r', o', w', q', hrid, hd', hf⟩ := Run.works hrun he hw
    rwa [(Run.ledger hrun).dispatch_unique hd hd' hrid.symm]

/-- A `READ` of register 0. -/
def fullRead : List UInt8 := datagram .read 0 1 [0, 0, 0x1e, 0, 0, 0, 0, 0, 0, 0, 0, 0]

/-- The header of a `READ` without the body that it announces. -/
def cutRead : List UInt8 := Hdr.encode ⟨spiproxyVer, MsgType.read.code, 0, 2, 12⟩

/-- Client 0 has connected and has read a register. -/
def fullReadDone : Daemon :=
  run (Env.still 0) Config.plain (connects [(7, ['a'])] ++ [⟨[.client 0 fullRead], 64⟩, .none, .none])

/-- Then it sends a header alone. -/
def cutReadSeen : Daemon := handleEvent (Env.still 0) Config.plain fullReadDone (.client 0 cutRead)

/-- The theorem at a datagram that fails the framing check, after a `READ` that was served. -/
theorem rejected_requests_cutRead :
    Event.send 1 0 0 0x81 .einval 2 [] ∈ since fullReadDone cutReadSeen ∧
      Spared 1 fullReadDone cutReadSeen ∧ (∀ e ∈ cutReadSeen.evs, e.worksFor 1 = false) ∧
      (frameReq 0 0 fullRead).Fits := by
  have hs : fullReadDone.stack = [] := List.isEmpty_iff.mp (by decide +kernel)
  have hp : Piece (Env.still 0) Config.plain fullReadDone cutReadSeen := .event hs _
  have hf : Event.send 1 0 0 0x81 .einval 2 [] ∈ since fullReadDone cutReadSeen := by decide +kernel
  have hd : Event.dispatch (frameReq 0 0 fullRead).toEntry (frameReq 0 0 fullRead).body none [] [] ∈
      cutReadSeen.evs := by decide +kernel
  obtain ⟨h₁, h₂, h₃⟩ := rejected_requests (.reachable (Reachable.run _ _ _)) hp
  exact ⟨hf, h₁ 1 ⟨_, hf, Or.inr (by decide)⟩, h₂ 1 ⟨_, List.mem_of_mem_drop hf, by decide⟩,
    h₃ _ none [] [] hd (by decide +kernel)⟩

end Spid

import SpidevProxy.Simulation.Mailbox

set_option relaxedAutoImplicit false
set_option autoImplicit false

/-!
# The protocol follows `exec_item`

The answers, the register operations of `READ`, `WRITE` and `BATCH`, the claims, and then the
dispatcher with all its branches.

## Main results

* `Spid.sendResp_spec` — `send_resp` sends one answer and changes nothing that the protocol sees.
* `Spid.batchLoop_sim` — the loop of `BATCH`.
* `Spid.claimEnd_sim` — `claim_end` with its cleanup loop.
* `Spid.execItem_sim` — the dispatcher: a request is answered, or its mailbox call waits.
-/

namespace Spid

open Bytes

section

variable (env : Env) (cfg : Config) {rst : Bool} {w : List Ptr} {it : Ptr} {r : Req}

/-! ## Answers -/

/-- **`send_resp`** sends one answer; nothing changes but the counter of failed sends. -/
lemma sendResp_spec (g : Daemon) (rid : ℕ) (c : Slot) (req : Hdr) (st : Status)
    (body : List UInt8) :
    (sendResp env g rid c req st body).evs =
      g.evs ++ [.send rid c (g.cl c).fd (req.type ||| respBit) st req.seq body] ∧
    (∀ it, Leaves it g (sendResp env g rid c req st body)) ∧
    (sendResp env g rid c req st body).item = g.item ∧
    (∀ w act, (sendResp env g rid c req st body).abs w act = g.abs w act) := by
  have key : ∀ it, Leaves it g (sendResp env g rid c req st body) ∧
      (sendResp env g rid c req st body).item = g.item ∧
      (sendResp env g rid c req st body).claim = g.claim ∧
      (sendResp env g rid c req st body).mbInflight = g.mbInflight := by
    intro it
    unfold sendResp
    dsimp only
    have h₁ : Leaves it g ({ g with io := { g.io with nSend := g.io.nSend + 1 } }.emit
        (.send rid c (g.cl c).fd (req.type ||| respBit) st req.seq body)) :=
      ⟨rfl, rfl, fun _ => rfl, fun _ => rfl, fun _ _ => rfl, rfl, rfl, rfl, fun _ => Or.inl⟩
    split_ifs
    · exact ⟨h₁, rfl, rfl, rfl⟩
    · exact ⟨h₁.trans (Leaves.setClient it _ rfl rfl), rfl, rfl, rfl⟩
  refine ⟨?_, fun it => (key it).1, (key 0).2.1, fun w act => ?_⟩
  · unfold sendResp
    dsimp only
    split_ifs <;> rfl
  · exact (key 0).1.abs_eq_of_item (key 0).2.1 (key 0).2.2.1 (key 0).2.2.2 w act

/-- The request being executed is answered. -/
lemma reply_work {g : Daemon} {p : Progress} {st : Status} {body : List UInt8}
    (he : g.entry it = r.toEntry) (hu : (g.cl r.c).used = true)
    (ha : Answer rst g.claim.owner r p st body) :
    Work rst it w g (.exec r p) (reply env g it st body) .idle := by
  obtain ⟨hev, hl, -, habs⟩ := sendResp_spec env g (g.item it).rid (g.item it).c (g.item it).hdr st
    body
  refine ⟨hl it, Sim.of_step hev ?_⟩
  change Step rst _ _ (Daemon.abs (sendResp env g _ _ _ st body) w .idle)
  rw [habs]
  have hrid : (g.item it).rid = r.rid := congrArg Entry.rid he
  have hc : (g.item it).c = r.c := congrArg Entry.c he
  have hh : (g.item it).hdr = r.hdr := congrArg Entry.hdr he
  rw [hrid, hc, hh]
  exact Step.send rfl (Daemon.abs_conn hu) ha

/-! ## Register operations -/

variable (rst) in
/-- `exec_op` on the next operation of the request, in place.

**Proof sketch.** By `execOp_spec` the operation is refused, which is a transition of its own, or
makes one access, which is the next one of the request. Writing the result into the body is
invisible, since the item is off the queues. -/
lemma execBodyOp_sim {g : Daemon} {ops out : List Op} {op : Op} (he : g.entry it = r.toEntry)
    (ho : Off g w it) (hops : r.ops = some ops) (hsized : r.sized = true)
    (hop : ops[out.length]? = some op) (hat : opAt (g.item it).body 0 out.length = op) :
    ∃ op', Work rst it w g (.exec r (.ops out .ok)) (execBodyOp env cfg g it out.length).2
        (.exec r (.ops (out ++ [op']) (execBodyOp env cfg g it out.length).1)) ∧
      ((execBodyOp env cfg g it out.length).2.item it).body =
        (g.item it).body.write (opSize * out.length) op'.encode := by
  have hagent : Agent.request (g.item it).rid (g.item it).c = r.agent := by
    rw [show (g.item it).rid = r.rid from congrArg Entry.rid he,
      show (g.item it).c = r.c from congrArg Entry.c he]
    rfl
  have hc : (g.item it).c = r.c := congrArg Entry.c he
  unfold execBodyOp
  dsimp only
  rw [hat, hagent, hc]
  have hspec := execOp_spec env cfg g r.agent (some r.c) op
  generalize execOp env cfg g r.agent (some r.c) op = res at *
  obtain ⟨st, op', g'⟩ := res
  dsimp only at hspec ⊢
  refine ⟨op', ?_, ?_⟩
  · -- the access or the refusal, then the write into the body
    have hio : IoSim rst w g (.exec r (.ops out .ok)) g' (.exec r (.ops (out ++ [op']) st)) := by
      rcases hspec with ⟨st', hst, rfl, rfl, hext⟩ | ⟨hst, ok, val, rfl, rfl, hval, hacc⟩
      · exact ⟨hext.1, Sim.of_extends hext (Step.refused rfl hops hsized hop hst)⟩
      · exact IoSim.touch hacc (Touch.op hops hsized hop hst hval)
    exact hio.work.trans (Work.of_leaves (Leaves.setBody it g' _) (ho.leaves hio.leaves) rfl rfl rfl)
  · have hi : g'.item = g.item := by
      rcases hspec with ⟨st', -, -, -, hext⟩ | ⟨-, ok, val, -, -, -, notes, hext, -⟩
      · rw [hext.1]
      · rw [hext.1]
    simp [Daemon.setBody, Daemon.setItem, hi]

/-- Replacing the first operation that is still to be executed. -/
lemma set_append_drop {out ops : List Op} (h : out.length < ops.length) (op : Op) :
    (out ++ ops.drop out.length).set out.length op =
      (out ++ [op]) ++ ops.drop (out ++ [op]).length := by
  rw [List.set_append_right _ _ le_rfl, Nat.sub_self, ← List.cons_getElem_drop_succ (h := h),
    List.set_cons_zero]
  simp

variable (rst) in
/-- **The loop of `BATCH`**: the operations are executed in order, and the loop stops after the
first one whose status is not OK. The body holds the operations as they were returned, followed by
those that were not executed.

**Proof sketch.** Induction on the operations left, with the body holding those done as they were
returned, and then those to come. A status other than OK ends the loop behind the operation that
has it. -/
lemma batchLoop_sim {ops : List Op} (hops : r.ops = some ops) (hsized : r.sized = true)
    (hfit : opSize * ops.length ≤ msgMax) :
    ∀ (k : ℕ) (out : List Op) (g : Daemon), out.length + k = ops.length →
      g.entry it = r.toEntry → Off g w it →
      Laid (g.item it).body (out ++ ops.drop out.length) →
      ∃ out', out.length + min k 1 ≤ out'.length ∧ out'.length ≤ ops.length ∧
        ((batchLoop env cfg it k out.length g).1 = .ok → out'.length = ops.length) ∧
        (batchLoop env cfg it k out.length g).2.1 = out'.length ∧
        Work rst it w g (.exec r (.ops out .ok)) (batchLoop env cfg it k out.length g).2.2
          (.exec r (.ops out' (batchLoop env cfg it k out.length g).1)) ∧
        Laid ((batchLoop env cfg it k out.length g).2.2.item it).body
          (out' ++ ops.drop out'.length) := by
  intro k
  induction k with
  | zero =>
    intro out g hk _ _ hl
    exact ⟨out, by simp, by omega, fun _ => hk, rfl, Work.refl, hl⟩
  | succ k ih =>
    intro out g hk he ho hl
    have hlt : out.length < ops.length := by omega
    have hop : ops[out.length]? = some ops[out.length] := List.getElem?_eq_getElem hlt
    have hat : opAt (g.item it).body 0 out.length = ops[out.length] :=
      hl.opAt_eq (by rw [List.getElem?_append_right le_rfl, Nat.sub_self, List.getElem?_drop]; simp)
    obtain ⟨op', hw, hbody⟩ := execBodyOp_sim env cfg rst he ho hops hsized hop hat
    have hl' : Laid ((execBodyOp env cfg g it out.length).2.item it).body
        ((out ++ [op']) ++ ops.drop (out ++ [op']).length) := by
      have hlen : (out ++ ops.drop out.length).length = ops.length := by
        rw [List.length_append, List.length_drop]
        omega
      rw [hbody, ← set_append_drop hlt]
      exact hl.write (by omega) (by rw [hlen]; exact hfit)
    simp only [batchLoop]
    generalize execBodyOp env cfg g it out.length = res at *
    obtain ⟨st, g'⟩ := res
    dsimp only at hw hl' ⊢
    by_cases hst : st = .ok
    · subst hst
      obtain ⟨out', h₁, h₂, h₃, h₄, h₅, h₆⟩ := ih (out ++ [op']) g' (by simp; omega)
        (hw.leaves.entry.trans he) (ho.leaves hw.leaves) hl'
      rw [List.length_append, List.length_singleton] at h₁ h₃ h₄ h₅ h₆
      simp only [if_true]
      exact ⟨out', by omega, h₂, h₃, h₄, hw.trans h₅, h₆⟩
    · rw [if_neg hst]
      exact ⟨out ++ [op'], by simp, by simp; omega, fun h => absurd h hst, by simp, hw, hl'⟩

/-- The request `r` in item `it` is about to be executed. -/
structure Ready (g : Daemon) (w : List Ptr) (it : Ptr) (r : Req) : Prop where
  req : g.req it = r
  off : Off g w it
  used : (g.cl r.c).used = true
  len : r.len ≤ msgMax

/-- The entry of an item that is ready, -/
lemma Ready.entry {g : Daemon} (h : Ready g w it r) : g.entry it = r.toEntry :=
  congrArg Req.toEntry h.req

/-- its header, -/
lemma Ready.hdr {g : Daemon} (h : Ready g w it r) : (g.item it).hdr = r.hdr :=
  congrArg (·.hdr) h.req

/-- and its client. -/
lemma Ready.client {g : Daemon} (h : Ready g w it r) : (g.item it).c = r.c := congrArg (·.c) h.req

/-- The request in an item that has just been unlinked. -/
lemma WF.ready {g : Daemon} (h : WF g (it :: w)) : Ready g w it (g.req it) :=
  ⟨rfl, h.off, h.executed it List.mem_cons_self, h.len it⟩

/-- An answer to a request that is about to be executed. -/
lemma Ready.reply {g : Daemon} (h : Ready g w it r) {st : Status} {body : List UInt8}
    (ha : Answer rst g.claim.owner r (.ops [] .ok) st body) :
    Work rst it w g (.exec r (.ops [] .ok)) (Spid.reply env g it st body) .idle :=
  reply_work env h.entry h.used ha

/-- The end of `READ`, `WRITE` and `BATCH`: the operations are counted and the answer is sent. -/
lemma replyOps_work {g : Daemon} {ops out : List Op} {st : Status} (n len : ℕ)
    (he : g.entry it = r.toEntry) (hu : (g.cl r.c).used = true) (ho : Off g w it)
    (hops : r.ops = some ops) (hsized : r.sized = true) (hne : out ≠ [])
    (hle : out.length ≤ ops.length) (hst : st = .ok → out.length = ops.length)
    (hl : Laid (g.item it).body (out ++ ops.drop out.length)) (hlen : len = opSize * ops.length) :
    Work rst it w g (.exec r (.ops out st))
      (reply env (addOps g r.c n) it st (((addOps g r.c n).item it).body.read 0 len)) .idle := by
  have hadd : Work rst it w g (.exec r (.ops out st)) (addOps g r.c n) (.exec r (.ops out st)) :=
    Work.of_leaves (Leaves.setClient it g rfl rfl) ho rfl rfl rfl
  have hbody : ((addOps g r.c n).item it).body.read 0 len =
      (out ++ ops.drop out.length).flatMap Op.encode := by
    have hll : (out ++ ops.drop out.length).length = ops.length := by
      rw [List.length_append, List.length_drop]
      omega
    rw [hlen, ← hll]
    exact hl.read_eq
  rw [hbody]
  refine hadd.trans (reply_work env (hadd.leaves.entry.trans he) ?_
    (Answer.ops hops hsized hne hle hst))
  rw [hadd.leaves.used]
  exact hu

/-- The branch `READ`, `WRITE`.

**Proof sketch.** A wrong length is answered at once. Otherwise the write flag is stored in the
body, which makes it the operation of the request, and the branch is the loop of `BATCH` with one
round. -/
lemma execReadWrite_sim {g : Daemon} (h : Ready g w it r) (wr : UInt8)
    (hsized : r.sized = decide (r.len = opSize))
    (hops : r.ops = some ((r.opsFrom 0 1).map fun op => { op with write := wr })) :
    Work rst it w g (.exec r (.ops [] .ok)) (execReadWrite env cfg g it wr) .idle := by
  have hlen : (g.item it).hdr.len.toNat = r.len := by rw [h.hdr]; rfl
  unfold execReadWrite
  dsimp only
  rw [hlen, h.client]
  by_cases hl : r.len ≠ opSize
  · rw [if_pos hl]
    exact h.reply env (Answer.invalid (by rw [hsized]; simpa using hl))
  · rw [if_neg hl]
    rw [not_not] at hl
    have hs : r.sized = true := by rw [hsized]; simpa using hl
    have hset : Work rst it w g (.exec r (.ops [] .ok))
        (g.setBody it ((g.item it).body.write 1 [wr])) (.exec r (.ops [] .ok)) :=
      Work.of_leaves (Leaves.setBody it g _) h.off rfl rfl rfl
    have hlaid : Laid ((g.setBody it ((g.item it).body.write 1 [wr])).item it).body
        ((r.opsFrom 0 1).map fun op => { op with write := wr }) := by
      have h₀ : Laid (g.item it).body (r.opsFrom 0 1) := by
        rw [← h.req]
        exact laid_opsFrom (by omega)
      simpa [Daemon.setBody, Daemon.setItem] using h₀.setWrite (by simp [Req.opsFrom]) wr
    generalize g.setBody it ((g.item it).body.write 1 [wr]) = g₁ at *
    have he₁ := hset.leaves.entry.trans h.entry
    have ho₁ := h.off.leaves hset.leaves
    obtain ⟨out, h₁, h₂, h₃, -, h₅, h₆⟩ := batchLoop_sim env cfg rst hops hs
      (by simp [Req.opsFrom, opSize, msgMax]) 1 [] g₁ (by simp [Req.opsFrom]) he₁ ho₁
      (by simpa using hlaid)
    have hloop : batchLoop env cfg it 1 0 g₁ =
        ((execBodyOp env cfg g₁ it 0).1, 1, (execBodyOp env cfg g₁ it 0).2) := by
      simp only [batchLoop]
      split_ifs with hok
      · rw [hok]
      · rfl
    rw [List.length_nil, hloop] at h₃ h₅ h₆
    have hwork := hset.trans h₅
    refine hwork.trans (replyOps_work env 1 opSize (hwork.leaves.entry.trans h.entry) ?_
      (h.off.leaves hwork.leaves) hops hs ?_ h₂ h₃ h₆ (by simp [Req.opsFrom]))
    · rw [hwork.leaves.used]
      exact h.used
    · rintro rfl
      simp at h₁

/-- The branch `BATCH`.

**Proof sketch.** A wrong length is answered at once. Otherwise the body holds the operations of
the request, `batchLoop_sim` executes them, and the answer is made of the body behind the loop. -/
lemma execBatch_sim {g : Daemon} (h : Ready g w it r) (hk : r.kind = some .batch) :
    Work rst it w g (.exec r (.ops [] .ok)) (execBatch env cfg g it) .idle := by
  have hlen : (g.item it).hdr.len.toNat = r.len := by rw [h.hdr]; rfl
  have hops : r.ops = some (r.opsFrom 0 (r.len / opSize)) := by simp [Req.ops, hk]
  have hmax := h.len
  unfold execBatch
  dsimp only
  rw [hlen, h.client]
  by_cases hb : r.len / opSize < 1 ∨ batchMax < r.len / opSize ∨ r.len % opSize ≠ 0
  · rw [if_pos hb]
    refine h.reply env (Answer.invalid ?_)
    rw [← Bool.not_eq_true]
    simp only [Req.sized, hk, Bool.and_eq_true, decide_eq_true_eq]
    omega
  · rw [if_neg hb]
    have hs : r.sized = true := by
      simp only [Req.sized, hk, Bool.and_eq_true, decide_eq_true_eq]
      omega
    have hn : opSize * (r.len / opSize) = r.len := by
      have := Nat.div_add_mod r.len opSize
      omega
    have hol : (r.opsFrom 0 (r.len / opSize)).length = r.len / opSize := by simp [Req.opsFrom]
    have hlaid : Laid (g.item it).body ((g.req it).opsFrom 0 (r.len / opSize)) :=
      laid_opsFrom (by omega)
    rw [h.req] at hlaid
    obtain ⟨out, h₁, h₂, h₃, h₄, h₅, h₆⟩ := batchLoop_sim env cfg rst hops hs
      (by rw [hol]; omega) (r.len / opSize) [] g (by simp [Req.opsFrom]) h.entry h.off
      (by simpa using hlaid)
    rw [List.length_nil] at h₃ h₄ h₅ h₆
    refine h₅.trans (replyOps_work env _ r.len (h₅.leaves.entry.trans h.entry) ?_
      (h.off.leaves h₅.leaves) hops hs ?_ h₂ h₃ h₆ (by rw [hol, hn]))
    · rw [h₅.leaves.used]
      exact h.used
    · rintro rfl
      rw [List.length_nil] at h₁
      omega

/-! ## Claims -/

/-- The state with the claim ended. -/
def endClaim (g : Daemon) : Daemon :=
  { g with claim := { g.claim with owner := none, deadline := 0, cleanup := [] } }

/-- `exec_op` changes only the `Io` part. -/
lemma execOp_io (g : Daemon) (agent : Agent) (c : Option Slot) (op : Op) :
    (execOp env cfg g agent c op).2.2 = { g with io := (execOp env cfg g agent c op).2.2.io } := by
  rcases execOp_spec env cfg g agent c op with ⟨_, _, _, _, h⟩ | ⟨_, _, _, _, _, _, _, h, _⟩
  · exact h.1
  · exact h.1

/-- The cleanup loop changes only the `Io` part. -/
lemma runCleanup_io (agent : Agent) : ∀ (ops : List Op) (g : Daemon),
    runCleanup env cfg agent ops g = { g with io := (runCleanup env cfg agent ops g).io } := by
  intro ops
  induction ops with
  | nil => exact fun _ => rfl
  | cons op ops ih =>
    intro g
    rw [runCleanup, ih, execOp_io]

/-- What `claim_end` leaves alone. -/
lemma claimEnd_fields (g : Daemon) (how : ClaimEnd) :
    ∃ io lctx, claimEnd env cfg g how = endClaim { g with io := io, lctx := lctx } := by
  unfold claimEnd
  cases ho : g.claim.owner with
  | none => exact ⟨g.io, g.lctx, rfl⟩
  | some c =>
    dsimp only
    split_ifs
    · rw [runCleanup_io]
      exact ⟨_, _, rfl⟩
    · exact ⟨_, _, rfl⟩

/-- What goes on does not matter for the rest of a cleanup list. -/
lemma Abs.cleaning_act (a : Abs) (act : Activity) (rid : ℕ) (c : Slot) (todo : List Op) :
    Abs.cleaning { a with act := act } rid c todo = a.cleaning rid c todo := by
  cases todo <;> rfl

variable (rst w) in
/-- The cleanup loop: every operation is attempted, and then the claim is over. -/
lemma runCleanup_sim (rid : ℕ) (c : Slot) : ∀ (ops : List Op) (g : Daemon),
    ∃ es, (runCleanup env cfg (.cleanup rid c) ops g).evs = g.evs ++ es ∧
      History.Steps (Step rst) ((g.abs w .idle).cleaning rid c ops) es
        ((endClaim (runCleanup env cfg (.cleanup rid c) ops g)).abs w .idle) := by
  intro ops
  induction ops with
  | nil => exact fun g => ⟨[], by simp [runCleanup], History.Steps.nil _⟩
  | cons op ops ih =>
    intro g
    have hspec := execOp_spec env cfg g (.cleanup rid c) none op
    obtain ⟨es, he, hs⟩ := ih (execOp env cfg g (.cleanup rid c) none op).2.2
    rw [runCleanup]
    have habs : ∀ es', Extends g (execOp env cfg g (.cleanup rid c) none op).2.2 es' →
        ((execOp env cfg g (.cleanup rid c) none op).2.2.abs w .idle).cleaning rid c ops =
          (g.abs w (.cleaning rid c (op :: ops))).cleaning rid c ops := by
      intro es' hx
      rw [hx.abs_eq]
      exact (Abs.cleaning_act (g.abs w .idle) (.cleaning rid c (op :: ops)) rid c ops).symm
    rcases hspec with ⟨st, hst, -, -, hext⟩ | ⟨hst, ok, val, -, -, hval, notes, hext, hn⟩
    · rw [habs _ hext] at hs
      rw [hext.2, List.append_assoc] at he
      exact ⟨_, he, History.Steps.cons (Step.cleanupRefused rfl hst) hs⟩
    · rw [habs _ hext] at hs
      rw [hext.2, List.append_assoc] at he
      exact ⟨_, he, History.Steps.cons (Step.cleanupAccess rfl hst hval)
        ((Sim.steps_notes hn).trans hs)⟩

/-- **`claim_end` after a disconnect or an expiry.** -/
lemma claimEnd_sim {g : Daemon} {c : Slot} {how : ClaimEnd} (ho : g.claim.owner = some c)
    (hh : how.abnormal = true) :
    Sim rst g [] .idle (claimEnd env cfg g how) [] .idle := by
  have h₁ : Step rst (g.abs [] .idle) (.claimEnd g.claim.rid c how)
      ((g.abs [] .idle).cleaning g.claim.rid c g.claim.cleanup) := Step.claimEnd rfl rfl ho hh
  unfold claimEnd
  rw [ho]
  dsimp only
  rw [hh, Bool.true_and]
  split_ifs with hc
  · -- the loop runs in a state that differs in the log context only
    obtain ⟨es, he, hs⟩ := runCleanup_sim env cfg rst [] g.claim.rid c g.claim.cleanup
      { g.emit (.claimEnd g.claim.rid c how) with
        lctx := ⟨(g.cl c).id, (g.cl c).comm, 0, .cleanup⟩ }
    refine ⟨.claimEnd g.claim.rid c how :: es, ?_, History.Steps.cons h₁ hs⟩
    refine he.trans ?_
    simp [Daemon.emit, Daemon.evs]
  · change ¬(!g.claim.cleanup.isEmpty) = true at hc
    have hnil : g.claim.cleanup = [] := by simpa using hc
    rw [hnil] at h₁
    exact Sim.of_step rfl h₁

/-- The branch `CLAIM`.

**Proof sketch.** Three outcomes: the request is invalid, someone else owns the claim, or it is
granted. A grant is one transition, with the cleanup list that is in the body; the clock that is
read before leaves no trace. -/
lemma execClaim_sim {g : Daemon} (h : Ready g w it r) (hk : r.kind = some .claim) :
    Work rst it w g (.exec r (.ops [] .ok)) (execClaim env g it) .idle := by
  have hvalid : claimValid (g.item it).hdr (g.item it).body = r.sized := by
    have := @claimValid_eq g it
    rw [h.req] at this
    exact this hk
  have hrid : (g.item it).rid = r.rid := congrArg (·.rid) h.req
  unfold execClaim
  dsimp only
  rw [hvalid, h.client, h.entry, hrid]
  cases hs : r.sized with
  | false => exact h.reply env (Answer.invalid hs)
  | true =>
    simp only [Bool.not_true, Bool.false_eq_true, if_false]
    have hops : claimOps (g.item it).body = r.cleanup := by
      have := @claimOps_eq g it
      rw [h.req] at this
      exact this hk hs
    by_cases ho : (g.claim.owner.isSome && decide (g.claim.owner ≠ some r.c)) = true
    · rw [if_pos ho]
      rw [Bool.and_eq_true, decide_eq_true_eq] at ho
      obtain ⟨d, hd⟩ := Option.isSome_iff_exists.mp ho.1
      refine h.reply env (Answer.claimed hk hs hd ?_)
      rintro rfl
      exact ho.2 hd
    · rw [if_neg ho, hops]
      have ho' : g.claim.owner = none ∨ g.claim.owner = some r.c := by
        cases hg : g.claim.owner with
        | none => exact Or.inl rfl
        | some d => simpa [hg] using ho
      -- the clock is read, the claim granted, and the grant answered
      have hn := Notes.nowUs env g
      generalize nowUs env g = t at *
      obtain ⟨now, g₁⟩ := t
      dsimp only at hn ⊢
      have h₁ : IoSim rst w g (.exec r (.ops [] .ok)) g₁ (.exec r (.ops [] .ok)) := IoSim.of_notes hn
      generalize now + (ClaimReq.decode ((g.item it).body.read 0 claimSize)).maxMs.toUInt64 * 1000 =
        deadline
      have h₂ : Work rst it w g₁ (.exec r (.ops [] .ok))
          ({ g₁ with claim := ⟨some r.c, deadline, r.cleanup, r.rid⟩ }.emit
            (.grant r.toEntry deadline r.cleanup)) (.exec r (.answer .ok [])) := by
        refine ⟨⟨rfl, rfl, fun _ => rfl, fun _ => rfl, fun _ _ => rfl, rfl, rfl, rfl, ?_⟩,
          Sim.of_step rfl (Step.grant rfl hk hs ?_)⟩
        · intro c hc
          right
          rw [h₁.item, h.client]
          exact (Option.some.inj hc).symm
        · change g₁.claim.owner = none ∨ g₁.claim.owner = some r.c
          rw [h₁.claim]
          exact ho'
      have hw := h₁.work.trans h₂
      refine hw.trans (reply_work env (hw.leaves.entry.trans h.entry) ?_ Answer.done)
      rw [hw.leaves.used]
      exact h.used

/-- The branch `RELEASE`. -/
lemma execRelease_sim {g : Daemon} (h : Ready g w it r) (hk : r.kind = some .release) :
    Work rst it w g (.exec r (.ops [] .ok)) (execRelease env cfg g it) .idle := by
  unfold execRelease
  dsimp only
  rw [h.client]
  by_cases ho : g.claim.owner = some r.c
  · rw [if_pos ho]
    have h₁ : Work rst it w g (.exec r (.ops [] .ok)) (claimEnd env cfg g .release)
        (.exec r (.answer .ok [])) := by
      unfold claimEnd
      rw [ho]
      simp only [ClaimEnd.abnormal, Bool.false_and, Bool.false_eq_true, if_false]
      exact ⟨⟨rfl, rfl, fun _ => rfl, fun _ => rfl, fun _ _ => rfl, rfl, rfl, rfl,
        fun _ hc => by simp at hc⟩, Sim.of_step rfl (Step.release rfl hk ho)⟩
    refine h₁.trans (reply_work env (h₁.leaves.entry.trans h.entry) ?_ Answer.done)
    rw [h₁.leaves.used]
    exact h.used
  · rw [if_neg ho]
    exact h.reply env (Answer.released hk ho)

/-- The branch `RESET`.

**Proof sketch.** A wrong length and a missing reset line are answered at once. Otherwise the line
is pulsed, which is one transition, and the answer follows. -/
lemma execReset_sim {g : Daemon} (h : Ready g w it r) (hw : g.waitingPtrs = w)
    (hk : r.kind = some .reset) :
    Work cfg.rst it w g (.exec r (.ops [] .ok)) (execReset env cfg g it) .idle := by
  have hlen : (g.item it).hdr.len.toNat = r.len := by rw [h.hdr]; rfl
  unfold execReset
  dsimp only
  rw [hlen, h.entry]
  by_cases hl : r.len ≠ resetSize
  · rw [if_pos hl]
    exact h.reply env (Answer.invalid (by simpa [Req.sized, hk] using hl))
  · rw [if_neg hl]
    have hs : r.sized = true := by simpa [Req.sized, hk] using hl
    cases hrst : cfg.rst with
    | false => exact h.reply env (Answer.noLine hk hs rfl)
    | true =>
      simp only [Bool.not_true, Bool.false_eq_true, if_false]
      generalize (if (ResetReq.decode ((g.item it).body.read 0 resetSize)).assertUs ≠ 0 then
        (ResetReq.decode ((g.item it).body.read 0 resetSize)).assertUs else 10000) = assertUs
      generalize (if (ResetReq.decode ((g.item it).body.read 0 resetSize)).deassertUs ≠ 0 then
        (ResetReq.decode ((g.item it).body.read 0 resetSize)).deassertUs else 100000) = deassertUs
      have hwait : g.waiting = (g.abs w .idle).waiting.map Req.toEntry := by
        rw [Daemon.waiting, hw]
        simp [Daemon.abs, Daemon.req]
      have h₁ : Work true it w g (.exec r (.ops [] .ok))
          ({ g with mbInflight := false }.emit
            (.reset r.toEntry g.claim.owner g.waiting assertUs deassertUs))
          (.exec r (.answer .ok [])) := by
        refine ⟨⟨rfl, rfl, fun _ => rfl, fun _ => rfl, fun _ _ => rfl, rfl, rfl, rfl,
          fun _ => Or.inl⟩, Sim.of_step rfl ?_⟩
        rw [hwait]
        exact Step.reset rfl hk hs rfl
      refine h₁.trans (reply_work env (h₁.leaves.entry.trans h.entry) ?_ Answer.done)
      rw [h₁.leaves.used]
      exact h.used

/-! ## The dispatcher -/

/-- The end of the branch `MAILBOX`. -/
lemma mailboxReply_work {g : Daemon} {p : Progress} {st : Status} {cmd : UInt8}
    {payload : List UInt8} (he : g.entry it = r.toEntry) (hu : (g.cl r.c).used = true)
    (ho : Off g w it) (hp : st ≠ .ok → payload = [])
    (hb : (g.item it).body.read 0 mbSize = { r.mb with cmd := cmd }.encode)
    (ha : Answer rst g.claim.owner r p st (r.mbReply cmd payload)) :
    Work rst it w g (.exec r p) (mailboxReply env g it st payload) .idle := by
  unfold mailboxReply
  dsimp only
  have hset : Work rst it w g (.exec r p)
      (g.setBody it ((g.item it).body.write 2 (le16 (UInt16.ofNat payload.length)))) (.exec r p) :=
    Work.of_leaves (Leaves.setBody it g _) ho rfl rfl rfl
  have hread : ((g.setBody it ((g.item it).body.write 2
      (le16 (UInt16.ofNat payload.length)))).item it).body.read 0 mbSize =
      { r.mb with cmd := cmd, payloadLen := UInt16.ofNat payload.length }.encode := by
    have h := read_setPayloadLen hb (UInt16.ofNat payload.length)
    simpa [Daemon.setBody, Daemon.setItem] using h
  rw [hread]
  have hpay : (if st = .ok then payload else []) = payload := by
    split_ifs with hok
    · rfl
    · exact (hp hok).symm
  rw [hpay]
  refine hset.trans (reply_work env (hset.leaves.entry.trans he) ?_ ha)
  rw [hset.leaves.used]
  exact hu

/-- What the execution of a request comes to: it is answered, or its mailbox call waits. -/
def Executed (rst : Bool) (w : List Ptr) (it : Ptr) (r : Req) (g : Daemon)
    (res : Option MbFrame × Daemon) : Prop :=
  Leaves it g res.2 ∧
    match res.1 with
    | none => Sim rst g w (.exec r (.ops [] .ok)) res.2 w .idle
    | some f => f.it = it ∧ res.2.item = g.item ∧ mbSize ≤ r.len ∧
        Sim rst g w (.exec r (.ops [] .ok)) res.2 (it :: w) .idle

/-- A request whose operations are all done is executed. -/
lemma Work.executed {g g' : Daemon} (h : Work rst it w g (.exec r (.ops [] .ok)) g' .idle) :
    Executed rst w it r g (none, g') :=
  ⟨h.leaves, h.sim⟩

/-- The branch `MAILBOX`.

**Proof sketch.** A request of the wrong size is answered at once. Otherwise `execMailboxStart_sim`
says how the call starts: it is turned down as out of range, it returns early, or it waits. -/
lemma execMailbox_sim {g : Daemon} (h : Ready g w it r) (hk : r.kind = some .mailbox) :
    Executed rst w it r g (execMailbox env cfg g it) := by
  have hvalid : mailboxValid (g.item it).hdr (g.item it).body = r.sized := by
    have := @mailboxValid_eq g it
    rw [h.req] at this
    exact this hk
  unfold execMailbox
  dsimp only
  rw [hvalid]
  cases hs : r.sized with
  | false => exact (h.reply env (Answer.invalid hs)).executed
  | true =>
    have hl : r.len = mbSize + r.mb.payloadLen.toNat := by
      simpa only [Req.sized, hk, decide_eq_true_eq] using hs
    have hlen : (g.item it).hdr.len.toNat = r.len := by rw [h.hdr]; rfl
    have hb : (g.item it).body.read 0 mbSize = r.mb.encode := by
      rw [read_mb, ← req_mb (by omega), h.req]
    simp only [Bool.not_true, Bool.false_eq_true, if_false]
    have hstart := execMailboxStart_sim env cfg rst w h.req hk hs
    generalize execMailboxStart env cfg g it = res at *
    obtain ⟨st | f, g₁⟩ := res
    · rcases hstart with ⟨hr, hst, hio⟩ | ⟨hi, hwork⟩
      · -- turned down at once: nothing has happened yet
        obtain rfl : st = .einval := Sum.inl.inj hst
        refine (hio.work.trans (mailboxReply_work env (hio.leaves.entry.trans h.entry) ?_
          (h.off.leaves hio.leaves) (fun _ => rfl) ?_ (Answer.outOfRange hk hs hr))).executed
        · rw [hio.cl]
          exact h.used
        · rw [hio.item, hb]
      · refine (hwork.trans (mailboxReply_work env (hwork.leaves.entry.trans h.entry) ?_
          (h.off.leaves hwork.leaves) (fun _ => rfl) ?_ Answer.done)).executed
        · rw [hwork.leaves.used]
          exact h.used
        · change (g₁.item it).body.read 0 mbSize = _
          rw [show g₁.item = g.item from hi, hb]
    · rcases hstart with ⟨-, hst, -⟩ | ⟨hi, hf, hleaves, hsim⟩
      · simp at hst
      · exact ⟨hleaves, hf, hi, by omega, hsim⟩

/-- **`exec_item`**: the request is answered, or its mailbox call waits.

**Proof sketch.** The log context is set first, which the protocol does not see. Then by the type
of the request, each with its lemma above. -/
lemma execItem_sim {g : Daemon} (h : Ready g w it r) (hw : g.waitingPtrs = w) :
    Executed cfg.rst w it r g (execItem env cfg g it) := by
  have hkind : MsgType.ofCode (g.item it).hdr.type = r.kind := by rw [h.hdr]; rfl
  unfold execItem
  dsimp only
  rw [hkind]
  generalize hg₁ : ({ g with lctx := ⟨(g.cl (g.item it).c).id, (g.cl (g.item it).c).comm,
    (g.item it).hdr.seq, .none⟩ } : Daemon) = g₁
  have hl₁ : Leaves it g g₁ := by
    rw [← hg₁]
    exact ⟨rfl, rfl, fun _ => rfl, fun _ => rfl, fun _ _ => rfl, rfl, rfl, rfl, fun _ => Or.inl⟩
  have hs₁ : Sim cfg.rst g w (.exec r (.ops [] .ok)) g₁ w (.exec r (.ops [] .ok)) := by
    rw [← hg₁]
    exact Sim.of_eq rfl rfl
  have h₁ : Ready g₁ w it r :=
    ⟨by rw [← h.req, ← hg₁]; rfl, h.off.leaves hl₁, by rw [hl₁.used]; exact h.used, h.len⟩
  have hw₁ : g₁.waitingPtrs = w := by rw [← hw, ← hg₁]; rfl
  have hi₁ : g₁.item = g.item := by rw [← hg₁]
  -- the log context is set first, whatever the type of the request
  have key : ∀ {res : Option MbFrame × Daemon}, Executed cfg.rst w it r g₁ res →
      Executed cfg.rst w it r g res := by
    rintro ⟨_ | f, g₂⟩ ⟨hl, hx⟩
    · exact ⟨hl₁.trans hl, hs₁.trans hx⟩
    · exact ⟨hl₁.trans hl, hx.1, hx.2.1.trans hi₁, hx.2.2.1, hs₁.trans hx.2.2.2⟩
  clear hg₁
  cases hk : r.kind with
  | none =>
    exact key (h₁.reply env (Answer.unknown (Or.inr (Or.inr (Or.inr hk))))).executed
  | some ty =>
    cases ty with
    | read =>
      exact key (execReadWrite_sim env cfg h₁ 0 (by simp [Req.sized, hk])
        (by simp [Req.ops, hk])).executed
    | write =>
      exact key (execReadWrite_sim env cfg h₁ 1 (by simp [Req.sized, hk])
        (by simp [Req.ops, hk])).executed
    | batch => exact key (execBatch_sim env cfg h₁ hk).executed
    | claim => exact key (execClaim_sim env h₁ hk).executed
    | release => exact key (execRelease_sim env cfg h₁ hk).executed
    | mailbox => exact key (execMailbox_sim env cfg h₁ hk)
    | stats => exact key (h₁.reply env (Answer.text (Or.inl hk))).executed
    | trace => exact key (h₁.reply env (Answer.text (Or.inr hk))).executed
    | reset => exact key (execReset_sim env cfg h₁ hw₁ hk).executed
    | tsfifoSub => exact key (h₁.reply env (Answer.unknown (Or.inl hk))).executed
    | berWindow => exact key (h₁.reply env (Answer.unknown (Or.inr (Or.inl hk)))).executed
    | dfu => exact key (h₁.reply env (Answer.unknown (Or.inr (Or.inr (Or.inl hk))))).executed

end

end Spid

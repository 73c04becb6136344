import SpidevProxy.Machine

set_option relaxedAutoImplicit false
set_option autoImplicit false

/-!
# What does not look at the queue items

Register accesses, the lint layer, the trace ring, the event log, the end of a claim and the sending
of an answer neither read nor write the queue items. This is said by an equation for each function: it
commutes with replacing the items.

## Main definitions

* `Spid.Daemon.withItems` — the same state with other queue items.

## Main results

* `Spid.execOp_withItems`, `Spid.mbRd_withItems`, `Spid.mbWr_withItems`, `Spid.claimEnd_withItems`,
  `Spid.sendResp_withItems`, `Spid.acceptClient_withItems`, `Spid.checkExpiry_withItems`.
* `Spid.item_eq_of_withItems` — a function that commutes with replacing the items keeps them.
-/

namespace Spid

open Bytes

/-- The same state with other queue items. -/
def Daemon.withItems (g : Daemon) (y : Ptr → Item) : Daemon := { g with item := y }

/-- A function that commutes with replacing the items keeps them. -/
lemma item_eq_of_withItems {g : Daemon} {f : Daemon → Daemon}
    (h : ∀ y, f (g.withItems y) = (f g).withItems y) : (f g).item = g.item := by
  have hg : f g = (f g).withItems g.item := h g.item
  rw [hg]
  rfl

section

variable (env : Env) (cfg : Config) (g : Daemon) (y : Ptr → Item) (ag : Agent)

/-! ## Registers -/

/-- The clock. -/
lemma nowUs_withItems :
    nowUs env (g.withItems y) = ((nowUs env g).1, (nowUs env g).2.withItems y) := rfl

/-- The first check of the lint layer. -/
lemma lintPageRide_withItems (op : Op) :
    lintPageRide (g.withItems y) op = (lintPageRide g op).withItems y := by
  unfold lintPageRide Daemon.withItems
  dsimp only
  split
  · rfl
  · split_ifs <;> rfl

/-- The second check. -/
lemma lintCorPoach_withItems (now : UInt64) (op : Op) :
    lintCorPoach (g.withItems y) now op = (lintCorPoach g now op).withItems y := by
  unfold lintCorPoach Daemon.withItems
  dsimp only
  split_ifs <;> rfl

/-- The third check. -/
lemma lintRmwRace_withItems (now : UInt64) (op : Op) :
    lintRmwRace (g.withItems y) now op = (lintRmwRace g now op).withItems y := by
  have hhit : rmwHit (g.withItems y) now op = rmwHit g now op := rfl
  unfold lintRmwRace
  rw [hhit]
  split_ifs
  · dsimp only
    split <;> rfl
  · rfl

/-- The lint layer. -/
lemma lintOp_withItems (op : Op) : lintOp env (g.withItems y) op = (lintOp env g op).withItems y := by
  simp only [lintOp, nowUs_withItems, lintPageRide_withItems, lintCorPoach_withItems,
    lintRmwRace_withItems]

/-- The event log. -/
lemma logOp_withItems (op : Op) (ok : Bool) :
    logOp cfg (g.withItems y) ag op ok = (logOp cfg g ag op ok).withItems y := by
  unfold logOp
  split_ifs <;> rfl

/-- **`exec_op` does not look at the queue items.**

**Proof sketch.** A refused operation changes nothing. Otherwise the access comes first, which sees
the `Io` part only, and then the trace ring, the lint layer and the event log, which do not see the
items either. -/
lemma execOp_withItems (c : Option Slot) (op : Op) :
    execOp env cfg (g.withItems y) ag c op =
      ((execOp env cfg g ag c op).1, (execOp env cfg g ag c op).2.1,
        (execOp env cfg g ag c op).2.2.withItems y) := by
  -- what follows the access
  have htail : ∀ (g₁ : Daemon) (ok : Bool) (op' : Op),
      logOp cfg (if ok then lintOp env (traceAdd env (g₁.withItems y) c op') op'
          else traceAdd env (g₁.withItems y) c op') ag op' ok =
        (logOp cfg (if ok then lintOp env (traceAdd env g₁ c op') op' else traceAdd env g₁ c op')
          ag op' ok).withItems y := by
    intro g₁ ok op'
    have htrace : traceAdd env (g₁.withItems y) c op' = (traceAdd env g₁ c op').withItems y := rfl
    rw [htrace, lintOp_withItems]
    cases ok
    · exact logOp_withItems cfg _ y ag op' false
    · exact logOp_withItems cfg _ y ag op' true
  unfold execOp
  have hinf : (g.withItems y).mbInflight = g.mbInflight := rfl
  rw [hinf]
  cases opRefusal g.mbInflight c op with
  | some st => rfl
  | none =>
    dsimp only
    by_cases hw : op.write ≠ 0
    · rw [if_pos hw, if_pos hw]
      exact congrArg (fun g' => (_, _, g'))
        (htail (regWrite env g ag op.slice op.mmd op.reg op.val).2 _ _)
    · rw [if_neg hw, if_neg hw]
      exact congrArg (fun g' => (_, _, g'))
        (htail (regRead env cfg g ag op.slice op.mmd op.reg op.val).2.2 _ _)

/-- The event log of mailbox calls. -/
lemma logMb_withItems (write : Bool) (slice : UInt8) (reg : UInt16) (val : UInt32) (ok : Bool) :
    logMb cfg (g.withItems y) ag write slice reg val ok =
      (logMb cfg g ag write slice reg val ok).withItems y := by
  unfold logMb
  split_ifs <;> rfl

/-- `mb_rd`. -/
lemma mbRd_withItems (slice : UInt8) (reg : UInt16) (old : UInt32) :
    mbRd env cfg (g.withItems y) ag slice reg old =
      ((mbRd env cfg g ag slice reg old).1, (mbRd env cfg g ag slice reg old).2.1,
        (mbRd env cfg g ag slice reg old).2.2.withItems y) := by
  exact congrArg (fun g' => (_, _, g'))
    (logMb_withItems cfg (regRead env cfg g ag slice mmdGlobal reg old).2.2 y ag false slice reg _ _)

/-- `mb_wr`. -/
lemma mbWr_withItems (slice : UInt8) (reg : UInt16) (val : UInt32) :
    mbWr env cfg (g.withItems y) ag slice reg val =
      ((mbWr env cfg g ag slice reg val).1, (mbWr env cfg g ag slice reg val).2.withItems y) := by
  exact congrArg (fun g' => (_, g'))
    (logMb_withItems cfg (regWrite env g ag slice mmdGlobal reg val).2 y ag true slice reg _ _)

/-! ## Packets -/

/-- Writing a packet. -/
lemma mbWriteWords_withItems (slice : UInt8) (pkt : Block pktSize) (k i : ℕ) :
    mbWriteWords env cfg ag slice pkt k i (g.withItems y) =
      ((mbWriteWords env cfg ag slice pkt k i g).1,
        (mbWriteWords env cfg ag slice pkt k i g).2.withItems y) := by
  induction k generalizing g i with
  | zero => rfl
  | succ k ih =>
    simp only [mbWriteWords, mbWr_withItems]
    split_ifs
    · exact ih _ _
    · rfl

/-- Reading a packet. -/
lemma mbReadWords_withItems (slice : UInt8) (k i : ℕ) (pkt : Block pktSize) (v : UInt32) :
    mbReadWords env cfg ag slice k i pkt v (g.withItems y) =
      ((mbReadWords env cfg ag slice k i pkt v g).1,
        (mbReadWords env cfg ag slice k i pkt v g).2.withItems y) := by
  induction k generalizing g i pkt v with
  | zero => rfl
  | succ k ih =>
    simp only [mbReadWords, mbRd_withItems]
    split_ifs
    · exact ih _ _ _ _
    · rfl

/-! ## Answers, claims, clients -/

/-- **`send_resp`.** -/
lemma sendResp_withItems (rid : ℕ) (c : Slot) (req : Hdr) (st : Status) (body : List UInt8) :
    sendResp env (g.withItems y) rid c req st body =
      (sendResp env g rid c req st body).withItems y := by
  unfold sendResp Daemon.withItems
  dsimp only
  split_ifs <;> rfl

/-- The cleanup list. -/
lemma runCleanup_withItems (ops : List Op) :
    runCleanup env cfg ag ops (g.withItems y) = (runCleanup env cfg ag ops g).withItems y := by
  induction ops generalizing g with
  | nil => rfl
  | cons op ops ih => simp only [runCleanup, execOp_withItems, ih]

/-- **`claim_end`.** -/
lemma claimEnd_withItems (how : ClaimEnd) :
    claimEnd env cfg (g.withItems y) how = (claimEnd env cfg g how).withItems y := by
  have hcl : (g.withItems y).claim = g.claim := rfl
  unfold claimEnd
  rw [hcl]
  cases g.claim.owner with
  | none => rfl
  | some c =>
    have hemit : (g.withItems y).emit (.claimEnd g.claim.rid c how) =
      (g.emit (.claimEnd g.claim.rid c how)).withItems y := rfl
    dsimp only
    rw [hemit]
    generalize g.emit (.claimEnd g.claim.rid c how) = g₁
    have hcl₁ : (g₁.withItems y).claim = g₁.claim := rfl
    rw [hcl₁]
    split_ifs
    · have hrun := runCleanup_withItems env cfg
        { g₁ with lctx := ⟨(g₁.cl c).id, (g₁.cl c).comm, 0, .cleanup⟩ } y (.cleanup g₁.claim.rid c)
        g₁.claim.cleanup
      simp only [Daemon.withItems] at hrun ⊢
      rw [hrun]
    · rfl

/-- The expiry check. -/
lemma checkExpiry_withItems :
    checkExpiry env cfg (g.withItems y) = (checkExpiry env cfg g).withItems y := by
  have hcl : (g.withItems y).claim = g.claim := rfl
  simp only [checkExpiry, nowUs_withItems, hcl]
  split_ifs
  · exact claimEnd_withItems env cfg _ y _
  · rfl
  · rfl

/-- `accept_client`. -/
lemma acceptClient_withItems (pid : ℤ) (line : Text) :
    acceptClient (g.withItems y) pid line = (acceptClient g pid line).withItems y := by
  have hcl : (g.withItems y).cl = g.cl := rfl
  unfold acceptClient
  rw [hcl]
  cases (List.finRange 16).find? fun c => !(g.cl c).used with
  | none => rfl
  | some c => rfl

end

end Spid

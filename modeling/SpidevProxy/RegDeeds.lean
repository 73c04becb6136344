import SpidevProxy.Machine

set_option relaxedAutoImplicit false
set_option autoImplicit false

/-!
# What register work is made of

`exec_op` and the parts of `exec_mailbox` are put together from a few deeds: a register is read or
written, an operation is refused, a line is logged, a warning is given, the lint state, the trace ring or
the body of an item is written, the clock is read, or `g.mb_inflight` is set or cleared. This is said once
for each function. Whatever holds of register work is then checked for the deeds alone.

## Main definitions

* `Spid.RegDeed` — the deeds of register work for one agent.
* `Spid.MbDeed`, `Spid.MbWork` — the deeds of the mailbox protocol.
* `Spid.RegCall` — a call of `exec_op` or of a part of `exec_mailbox`, with the state in which it is made.

## Main results

* `Spid.regDeeds_execOp` — the deeds of `exec_op`.
* `Spid.MbWork.start`, `Spid.MbWork.poll` — those of `exec_mailbox`.
* `Spid.RegCall.regDeeds` — every call is a sequence of deeds for its agent.
-/

namespace Spid

open Bytes Relation

/-- The agent of the accesses for the request in an item. -/
def Daemon.agent (g : Daemon) (it : Ptr) : Agent := .request (g.item it).rid (g.item it).c

section

variable (env : Env) (cfg : Config)

/-! ## Deeds -/

/-- **The deeds of register work** for the agent `ag`. -/
inductive RegDeed (ag : Agent) (g : Daemon) : Daemon → Prop
  | write (slice mmd : UInt8) (reg : UInt16) (val : UInt32) :
      RegDeed ag g (regWrite env g ag slice mmd reg val).2
  | read (slice mmd : UInt8) (reg : UInt16) (old : UInt32) :
      RegDeed ag g (regRead env cfg g ag slice mmd reg old).2.2
  | refuse (op : Op) (st : Status) : RegDeed ag g (g.emit (.refused ag op st))
  | line {l : OpLine} (hc : l.cid = g.lctx.cid) (hs : l.seq = g.lctx.seq) :
      RegDeed ag g (g.emit (.opLine ag l))
  | lint {g' : Daemon} (h : LintDeed g g') : RegDeed ag g g'
  | trace (c : Option Slot) (op : Op) : RegDeed ag g (traceAdd env g c op)
  | clock : RegDeed ag g (nowUs env g).2
  | packet : RegDeed ag g { g with io := { g.io with nPkt := g.io.nPkt + 1 } }
  | set (rid : ℕ) (c : Slot) (was : Bool) :
      RegDeed ag g ({ g with mbInflight := true }.emit (.mbSet rid c was))
  | leave (x : Item) : RegDeed ag g (mbLeave g x)
  | body (it : Ptr) (b : Block msgMax) : RegDeed ag g (g.setBody it b)

/-- One deed after another. -/
abbrev RegDeeds (ag : Agent) : Daemon → Daemon → Prop := ReflTransGen (RegDeed env cfg ag)

variable {env cfg} in
/-- What every deed keeps, register work keeps. -/
lemma RegDeeds.invariant {P : Daemon → Prop} {ag : Agent} {g g₁ : Daemon}
    (hP : ∀ g g', P g → RegDeed env cfg ag g g' → P g') (h : RegDeeds env cfg ag g g₁) (hg : P g) :
    P g₁ := by
  induction h with
  | refl => exact hg
  | tail _ hd ih => exact hP _ _ ih hd

/-! ## `exec_op` -/

/-- The lint layer. -/
lemma regDeeds_lintOp (ag : Agent) (g : Daemon) (op : Op) : RegDeeds env cfg ag g (lintOp env g op) := by
  have hlint : LintDeed ≤ RegDeed env cfg ag := fun _ _ h => .lint h
  exact .head .clock (ReflTransGen.mono hlint _ _ (lintDeeds_lintOp env g op))

/-- The `OP` line. -/
lemma regDeeds_logOp (g : Daemon) (ag : Agent) (op : Op) (ok : Bool) :
    RegDeeds env cfg ag g (logOp cfg g ag op ok) := by
  unfold logOp
  split_ifs
  · exact .single (.line rfl rfl)
  · exact .refl

/-- **`exec_op`** refuses the operation, or makes an access, which is recorded, looked at by the lint
layer if it succeeds, and logged. -/
lemma regDeeds_execOp (g : Daemon) (ag : Agent) (c : Option Slot) (op : Op) :
    RegDeeds env cfg ag g (execOp env cfg g ag c op).2.2 := by
  have htail : ∀ (g₁ : Daemon) (ok : Bool) (op' : Op), RegDeeds env cfg ag g₁
      (logOp cfg (if ok then lintOp env (traceAdd env g₁ c op') op' else traceAdd env g₁ c op')
        ag op' ok) := by
    intro g₁ ok op'
    refine .head (.trace c op') (.trans ?_ (regDeeds_logOp env cfg _ ag _ _))
    cases ok
    · exact .refl
    · exact regDeeds_lintOp env cfg ag _ op'
  unfold execOp
  split
  · exact .single (.refuse op _)
  · dsimp only
    by_cases hw : op.write ≠ 0
    · rw [if_pos hw]
      exact .head (.write op.slice op.mmd op.reg op.val) (htail _ _ _)
    · rw [if_neg hw]
      exact .head (.read op.slice op.mmd op.reg op.val) (htail _ _ _)

/-! ## The mailbox protocol -/

/-- **The deeds of the mailbox protocol** for the agent `ag`. -/
inductive MbDeed (ag : Agent) (g : Daemon) : Daemon → Prop
  | rd (slice : UInt8) (reg : UInt16) (old : UInt32) : MbDeed ag g (mbRd env cfg g ag slice reg old).2.2
  | wr (slice : UInt8) (reg : UInt16) (val : UInt32) : MbDeed ag g (mbWr env cfg g ag slice reg val).2
  | clock : MbDeed ag g (nowUs env g).2
  | packet : MbDeed ag g { g with io := { g.io with nPkt := g.io.nPkt + 1 } }
  | set (rid : ℕ) (c : Slot) (was : Bool) :
      MbDeed ag g ({ g with mbInflight := true }.emit (.mbSet rid c was))
  | leave (x : Item) : MbDeed ag g (mbLeave g x)
  | body (it : Ptr) (b : Block msgMax) : MbDeed ag g (g.setBody it b)

/-- **Work of the mailbox protocol**: one deed after another. -/
abbrev MbWork (ag : Agent) : Daemon → Daemon → Prop := ReflTransGen (MbDeed env cfg ag)

/-- The `OP mb` line. -/
lemma regDeeds_logMb (g : Daemon) (ag : Agent) (write : Bool) (slice : UInt8) (reg : UInt16)
    (val : UInt32) (ok : Bool) : RegDeeds env cfg ag g (logMb cfg g ag write slice reg val ok) := by
  unfold logMb
  split_ifs
  · exact .single (.line rfl rfl)
  · exact .refl

variable {env cfg} {ag : Agent} {g g₁ : Daemon}

/-- The deeds of the mailbox protocol are deeds of register work. -/
lemma MbDeed.regDeeds (h : MbDeed env cfg ag g g₁) : RegDeeds env cfg ag g g₁ := by
  cases h with
  | rd slice reg old =>
    exact .head (.read slice mmdGlobal reg old) (regDeeds_logMb env cfg _ ag _ _ _ _ _)
  | wr slice reg val =>
    exact .head (.write slice mmdGlobal reg val) (regDeeds_logMb env cfg _ ag _ _ _ _ _)
  | clock => exact .single .clock
  | packet => exact .single .packet
  | set rid c was => exact .single (.set rid c was)
  | leave x => exact .single (.leave x)
  | body it b => exact .single (.body it b)

namespace MbWork

/-- So is work of the mailbox protocol. -/
lemma regDeeds (h : MbWork env cfg ag g g₁) : RegDeeds env cfg ag g g₁ := by
  induction h with
  | refl => exact .refl
  | tail _ hd ih => exact ih.trans hd.regDeeds

/-- A register is read. -/
lemma rd (h : MbWork env cfg ag g g₁) (slice : UInt8) (reg : UInt16) (old : UInt32) :
    MbWork env cfg ag g (mbRd env cfg g₁ ag slice reg old).2.2 :=
  h.tail (.rd slice reg old)

/-- A register is written. -/
lemma wr (h : MbWork env cfg ag g g₁) (slice : UInt8) (reg : UInt16) (val : UInt32) :
    MbWork env cfg ag g (mbWr env cfg g₁ ag slice reg val).2 :=
  h.tail (.wr slice reg val)

/-- The clock is read. -/
lemma now (h : MbWork env cfg ag g g₁) : MbWork env cfg ag g (nowUs env g₁).2 := h.tail .clock

/-- The call is on its way out. -/
lemma leave (h : MbWork env cfg ag g g₁) (x : Item) : MbWork env cfg ag g (mbLeave g₁ x) :=
  h.tail (.leave x)

/-- The words of the request. -/
lemma writeWords (slice : UInt8) (pkt : Block pktSize) : ∀ (k i : ℕ) {g₁ : Daemon},
    MbWork env cfg ag g g₁ → MbWork env cfg ag g (mbWriteWords env cfg ag slice pkt k i g₁).2 := by
  intro k
  induction k with
  | zero => exact fun _ _ h => h
  | succ k ih =>
    intro i g₁ h
    simp only [mbWriteWords]
    split_ifs
    · exact ih _ (h.wr _ _ _)
    · exact h.wr _ _ _

/-- The words of the response. -/
lemma readWords (slice : UInt8) : ∀ (k i : ℕ) (pkt : Block pktSize) (v : UInt32) {g₁ : Daemon},
    MbWork env cfg ag g g₁ → MbWork env cfg ag g (mbReadWords env cfg ag slice k i pkt v g₁).2 := by
  intro k
  induction k with
  | zero => exact fun _ _ _ _ h => h
  | succ k ih =>
    intro i pkt v g₁ h
    simp only [mbReadWords]
    split_ifs
    · exact ih _ _ _ (h.rd _ _ _)
    · exact h.rd _ _ _

/-- From `g.mb_inflight` on to the doorbell. -/
lemma request (h : MbWork env cfg ag g g₁) {it : Ptr} (hag : g₁.agent it = ag) (mb : Mb)
    (pkt : Block pktSize) : MbWork env cfg ag g (execMailboxRequest env cfg g₁ it mb pkt).2 := by
  subst hag
  have hw := h.writeWords mb.slice pkt (wordCount mb.pktLen) 0
  simp only [execMailboxRequest]
  split_ifs
  · exact hw.leave _
  · exact (hw.rd _ _ _).leave _
  · exact ((hw.rd _ _ _).wr _ _ _).leave _
  · exact (((hw.rd _ _ _).wr _ _ _).wr _ _ _).leave _
  all_goals exact (((hw.rd _ _ _).wr _ _ _).wr _ _ _).now

/-- `mb_rd` leaves the items alone. -/
lemma agent_mbRd (g : Daemon) (ag : Agent) (slice : UInt8) (reg : UInt16) (old : UInt32) (it : Ptr) :
    (mbRd env cfg g ag slice reg old).2.2.agent it = g.agent it := by
  obtain ⟨_, hx, -⟩ := mbRd_spec env cfg g ag slice reg old
  rw [hx.1]
  rfl

/-- **`exec_mailbox` up to its wait loop.** -/
lemma start (it : Ptr) : MbWork env cfg (g.agent it) g (execMailboxStart env cfg g it).2 := by
  have h : MbWork env cfg (g.agent it) g { g with io := { g.io with nPkt := g.io.nPkt + 1 } } :=
    .single .packet
  simp only [execMailboxStart]
  split_ifs
  · exact h
  · exact h.rd _ _ _
  · exact h.rd _ _ _
  · refine request ((h.rd _ _ _).tail (.set _ _ _)) ?_ _ _
    exact agent_mbRd _ _ _ _ _ it

/-- The end of `exec_mailbox`. -/
lemma finish (h : MbWork env cfg ag g g₁) {f : MbFrame} (hag : g₁.agent f.it = ag) (v : UInt32) :
    MbWork env cfg ag g (execMailboxFinish env cfg g₁ f v).2 := by
  subst hag
  simp only [execMailboxFinish]
  split_ifs
  · exact (h.rd _ _ _).leave _
  · exact ((h.rd _ _ _).wr _ _ _).leave _
  · have hr := (h.rd (Mb.decode ((g₁.item f.it).body.read 0 mbSize)).slice mbRespAddr v).readWords
      (Mb.decode ((g₁.item f.it).body.read 0 mbSize)).slice
    split
    · exact (hr _ _ _ _).leave _
    · split_ifs
      · exact (((hr _ _ _ _).wr _ _ _).leave _).tail (.body _ _)
      · exact ((hr _ _ _ _).wr _ _ _).leave _

/-- **One round of the wait loop.** -/
lemma poll (f : MbFrame) : MbWork env cfg (g.agent f.it) g (execMailboxPoll env cfg g f).2 := by
  have h : MbWork env cfg (g.agent f.it) g g := .refl
  simp only [execMailboxPoll]
  split_ifs
  · exact (h.rd _ _ _).leave _
  · exact finish (h.rd _ _ _) (agent_mbRd _ _ _ _ _ _) _
  · exact (((h.rd _ _ _).now).wr _ _ _).leave _
  · exact (h.rd _ _ _).now

end MbWork

end

/-! ## Calls -/

/-- What a call does: an operation of `exec_op`, `exec_mailbox` up to its wait loop, or one round of
that loop. -/
inductive RegWork
  | op (c : Option Slot) (op : Op)
  | request (it : Ptr)
  | poll (f : MbFrame)

/-- A call that touches registers: the state in which it is made, and on whose behalf. -/
structure RegCall where
  pre : Daemon
  agent : Agent
  work : RegWork

/-- The client that a call is made for. -/
def RegCall.client (k : RegCall) : Client := k.pre.cl k.agent.client

/-- Whether the call is one of `exec_op`. -/
def RegCall.isOp (k : RegCall) : Bool :=
  match k.work with
  | .op _ _ => true
  | _ => false

/-- A part of `exec_mailbox` is called for the request in its item. -/
def RegCall.Proper (k : RegCall) : Prop :=
  match k.work with
  | .op _ _ => True
  | .request it => k.agent = k.pre.agent it
  | .poll f => k.agent = k.pre.agent f.it

section

variable (env : Env) (cfg : Config)

/-- The state after a call. -/
def RegCall.post (k : RegCall) : Daemon :=
  match k.work with
  | .op c op => (execOp env cfg k.pre k.agent c op).2.2
  | .request it => (execMailboxStart env cfg k.pre it).2
  | .poll f => (execMailboxPoll env cfg k.pre f).2

/-- **Every call is a sequence of deeds** for its agent. -/
lemma RegCall.regDeeds {k : RegCall} (hk : k.Proper) :
    RegDeeds env cfg k.agent k.pre (k.post env cfg) := by
  unfold RegCall.Proper at hk
  unfold RegCall.post
  cases hw : k.work with
  | op c op => exact regDeeds_execOp env cfg k.pre k.agent c op
  | request it =>
    rw [hw] at hk
    rw [hk]
    exact (MbWork.start it).regDeeds
  | poll f =>
    rw [hw] at hk
    rw [hk]
    exact (MbWork.poll f).regDeeds

end

end Spid

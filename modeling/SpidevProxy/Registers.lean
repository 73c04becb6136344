import Mathlib.Logic.Relation
import SpidevProxy.State

set_option relaxedAutoImplicit false
set_option autoImplicit false

/-!
# Register operations

`trace_add`, `lint_op`, `exec_op`, `mb_rd` and `mb_wr`: everything that touches a device register.
None of them changes anything of the daemon but its `Io` part.

## Main definitions

* `Spid.regRead`, `Spid.regWrite` — an access through the SPI core, recorded as an event.
* `Spid.lintOp`, `Spid.traceAdd` — the lint layer and the trace ring.
* `Spid.opRefusal` — the test that `exec_op` makes before it touches the device.
* `Spid.execOp` — one register operation of a request or of a cleanup list.
* `Spid.mbRd`, `Spid.mbWr` — one register access of the mailbox protocol.
* `Spid.LintDeed` — what the detectors of the lint layer do.

## Main results

* `Spid.execOp_spec` — `exec_op` refuses the operation or makes one access, adds events of its own
  and changes only the `Io` part.
* `Spid.mbRd_spec`, `Spid.mbWr_spec` — the same for the mailbox accesses.
-/

namespace Spid

section

variable (env : Env) (cfg : Config)

/-! ## Accesses -/

/-- One `SPI_IOC_MESSAGE(1)`. -/
def busXfer (io : Io) (tx : List UInt8) : Option Rx × Io :=
  (env.ioctl io.nIoctl tx, { io with nIoctl := io.nIoctl + 1 })

/-- `spi_write_reg` with its counters. -/
def regWrite (g : Daemon) (agent : Agent) (slice mmd : UInt8) (reg : UInt16) (val : UInt32) :
    Bool × Daemon :=
  let r := spiWriteReg (busXfer env) g.io slice mmd reg val
  let io := if r.1 then { r.2 with nWrites := r.2.nWrites + 1 }
    else { r.2 with nIoErr := r.2.nIoErr + 1 }
  (r.1, { g with io := io }.emit
    (.access ⟨agent, true, slice, mmd, reg, val, r.1, g.claim.owner, g.mbInflight⟩))

/-- `spi_read_reg` with its counters; on a failure `*val` keeps its value `old`. -/
def regRead (g : Daemon) (agent : Agent) (slice mmd : UInt8) (reg : UInt16) (old : UInt32) :
    Bool × UInt32 × Daemon :=
  let r := spiReadReg (busXfer env) cfg.pad cfg.deviceIdReg g.io slice mmd reg
  let io := if r.1.isSome then { r.2 with nReads := r.2.nReads + 1 }
    else { r.2 with nIoErr := r.2.nIoErr + 1 }
  (r.1.isSome, r.1.getD old, { g with io := io }.emit
    (.access ⟨agent, false, slice, mmd, reg, r.1.getD old, r.1.isSome, g.claim.owner,
      g.mbInflight⟩))

/-! ## Trace ring and lint layer -/

/-- `trace_add`. -/
def traceAdd (g : Daemon) (c : Option Slot) (op : Op) : Daemon :=
  let w : Fin 1024 := Fin.ofNat 1024 (g.io.ringW.toNat % 1024)
  let t := nowUs env { g with io := { g.io with ringW := g.io.ringW + 1 } }
  let cid := match c with
    | some s => (g.cl s).id
    | none => 0
  let e : TraceEnt := ⟨t.1, cid, op.slice, op.write, op.mmd, op.reg, op.val⟩
  { t.2 with io := { t.2.io with ring := Function.update t.2.io.ring w e } }

/-- `warn_line`. -/
def warnLine (g : Daemon) (w : Warning) : Daemon :=
  { g with io := { g.io with lint := { g.io.lint with nWarns := g.io.lint.nWarns + 1 } } }.emit
    (.warn w)

/-- `LINT_COR_WINDOW_US`. -/
def lintCorWindowUs : UInt64 := 120000000

/-- `LINT_RMW_WINDOW_US`. -/
def lintRmwWindowUs : UInt64 := 10000

/-- The side of a page register. -/
def pageSide (mmd : UInt8) : Option (Fin 2) :=
  if mmd = mmdHostPma then some 0 else if mmd = mmdLinePma then some 1 else none

/-- The row of `g.page_owner` for a slice. -/
def sliceRow (slice : UInt8) : Fin 4 := Fin.ofNat 4 slice.toNat

/-- The side of a counter. -/
def corSide (mmd : UInt8) : Fin 2 := if mmd = mmdHostPcs then 0 else 1

/-- The page-ride detector of `lint_op`. -/
def lintPageRide (g : Daemon) (op : Op) : Daemon :=
  match pageSide op.mmd with
  | none => g
  | some k =>
    if op.reg &&& 0xfe00 = 0xf000 then
      let s := sliceRow op.slice
      let owner := g.io.lint.pageOwner s k
      if op.reg = 0xf0ff ∧ op.write ≠ 0 then
        let row := Function.update (g.io.lint.pageOwner s) k ⟨g.lctx.cid, g.lctx.comm⟩
        { g with io := { g.io with lint := { g.io.lint with
          pageOwner := Function.update g.io.lint.pageOwner s row } } }
      else if owner.cid ≠ 0 ∧ owner.cid ≠ g.lctx.cid then
        warnLine g (.pageRide g.lctx.cid op owner.cid)
      else g
    else g

/-- The cor-poach detector of `lint_op`. -/
def lintCorPoach (g : Daemon) (now : UInt64) (op : Op) : Daemon :=
  if op.write = 0 ∧ op.reg = baserStatus2 ∧ (op.mmd = mmdHostPcs ∨ op.mmd = mmdMacLinePcs) then
    let k := corSide op.mmd
    let last := g.io.lint.corLast k
    let g := if last.cid ≠ 0 ∧ last.cid ≠ g.lctx.cid ∧ now - last.ts < lintCorWindowUs then
        warnLine g (.corPoach g.lctx.cid op last.cid ((now - last.ts) / 1000000))
      else g
    { g with io := { g.io with lint := { g.io.lint with
      corLast := Function.update g.io.lint.corLast k ⟨g.lctx.cid, g.lctx.comm, now⟩ } } }
  else g

/-- A read of the register by another client within the window, not cleared yet. -/
def rmwHit (g : Daemon) (now : UInt64) (op : Op) (i : Fin 16) : Bool :=
  let e := g.io.lint.rdRing i
  e.cid ≠ 0 && e.cid ≠ g.lctx.cid && e.slice = op.slice && e.mmd = op.mmd && e.reg = op.reg &&
    now - e.ts < lintRmwWindowUs

/-- The rmw-race detector of `lint_op`. -/
def lintRmwRace (g : Daemon) (now : UInt64) (op : Op) : Daemon :=
  if op.write ≠ 0 then
    match (List.finRange 16).find? (rmwHit g now op) with
    | none => g
    | some i =>
      let e := g.io.lint.rdRing i
      let g := warnLine g (.rmwRace g.lctx.cid op e.cid ((now - e.ts) / 1000))
      { g with io := { g.io with lint := { g.io.lint with
        rdRing := Function.update g.io.lint.rdRing i { e with cid := 0 } } } }
  else
    let w : Fin 16 := Fin.ofNat 16 (g.io.lint.rdW.toNat % 16)
    let e : RdEnt := ⟨op.slice, op.mmd, op.reg, g.lctx.cid, g.lctx.comm, now⟩
    { g with io := { g.io with lint := { g.io.lint with
      rdW := g.io.lint.rdW + 1, rdRing := Function.update g.io.lint.rdRing w e } } }

/-- `lint_op`. -/
def lintOp (g : Daemon) (op : Op) : Daemon :=
  let t := nowUs env g
  lintRmwRace (lintCorPoach (lintPageRide t.2 op) t.1 op) t.1 op

/-! ## Operations -/

/-- `MB_GUARD_LO`. -/
def mbGuardLo : UInt16 := 0xd800

/-- `MB_GUARD_HI`. -/
def mbGuardHi : UInt16 := 0xdaff

/-- The mailbox region of the `GLOBAL` MMD. -/
def inGuard (mmd : UInt8) (reg : UInt16) : Bool :=
  mmd = mmdGlobal && mbGuardLo ≤ reg && reg ≤ mbGuardHi

/-- The test of `exec_op` before the access: the status it returns without touching the device. -/
def opRefusal (inflight : Bool) (c : Option Slot) (op : Op) : Option Status :=
  if 4 ≤ op.slice.toNat then some .einval
  else if inflight && inGuard op.mmd op.reg && c.isSome then some .ebusy
  else none

/-- The `OP` line of `exec_op`. -/
def logOp (g : Daemon) (agent : Agent) (op : Op) (ok : Bool) : Daemon :=
  if cfg.log then
    g.emit (.opLine agent ⟨g.lctx.cid, g.lctx.comm, g.lctx.seq, g.lctx.tag, op.write ≠ 0, op.slice,
      op.mmd, op.reg, op.val, ok⟩)
  else g

/-- `exec_op`: the status, the operation with the value read, and the state. -/
def execOp (g : Daemon) (agent : Agent) (c : Option Slot) (op : Op) : Status × Op × Daemon :=
  match opRefusal g.mbInflight c op with
  | some st => (st, op, g.emit (.refused agent op st))
  | none =>
    let r : Bool × Op × Daemon :=
      if op.write ≠ 0 then
        let r := regWrite env g agent op.slice op.mmd op.reg op.val
        (r.1, op, r.2)
      else
        let r := regRead env cfg g agent op.slice op.mmd op.reg op.val
        (r.1, { op with val := r.2.1 }, r.2.2)
    let g := traceAdd env r.2.2 c r.2.1
    let g := if r.1 then lintOp env g r.2.1 else g
    let g := logOp cfg g agent r.2.1 r.1
    (if r.1 then .ok else .eio, r.2.1, g)

/-- The `OP mb` line of `mb_rd` and `mb_wr`. -/
def logMb (g : Daemon) (agent : Agent) (write : Bool) (slice : UInt8) (reg : UInt16) (val : UInt32)
    (ok : Bool) : Daemon :=
  if cfg.log then
    g.emit (.opLine agent ⟨g.lctx.cid, g.lctx.comm, g.lctx.seq, .mb, write, slice, mmdGlobal, reg,
      val, ok⟩)
  else g

/-- `mb_rd`. -/
def mbRd (g : Daemon) (agent : Agent) (slice : UInt8) (reg : UInt16) (old : UInt32) :
    Bool × UInt32 × Daemon :=
  let r := regRead env cfg g agent slice mmdGlobal reg old
  (r.1, r.2.1, logMb cfg r.2.2 agent false slice reg r.2.1 r.1)

/-- `mb_wr`. -/
def mbWr (g : Daemon) (agent : Agent) (slice : UInt8) (reg : UInt16) (val : UInt32) :
    Bool × Daemon :=
  let r := regWrite env g agent slice mmdGlobal reg val
  (r.1, logMb cfg r.2 agent true slice reg val r.1)

end

/-! ## What the operations leave behind -/

/-- A line of the event log or a warning: an event that stands for no action of the daemon. -/
def Event.isNote : Event → Bool
  | .opLine _ _ => true
  | .warn _ => true
  | _ => false

/-- The access is the one that the operation asks for. -/
structure Access.Performs (x : Access) (op : Op) : Prop where
  write : x.write = decide (op.write ≠ 0)
  slice : x.slice = op.slice
  mmd : x.mmd = op.mmd
  reg : x.reg = op.reg
  val : op.write ≠ 0 → x.val = op.val

/-- `g'` is `g` after the events `es`, nothing but the `Io` part having changed. -/
def Extends (g g' : Daemon) (es : List Event) : Prop :=
  g' = { g with io := g'.io } ∧ g'.evs = g.evs ++ es

/-- `g'` is `g` after some notes. -/
def Notes (g g' : Daemon) : Prop := ∃ es, Extends g g' es ∧ ∀ e ∈ es, e.isNote = true

/-- Events after events. -/
lemma Extends.trans {g₁ g₂ g₃ : Daemon} {es es' : List Event} (h : Extends g₁ g₂ es)
    (h' : Extends g₂ g₃ es') : Extends g₁ g₃ (es ++ es') := by
  refine ⟨?_, by rw [h'.2, h.2, List.append_assoc]⟩
  rw [h'.1, h.1]

/-- A change of the `Io` part that keeps the events. -/
lemma Extends.of_io {g : Daemon} {io : Io} (h : io.evs = g.io.evs) :
    Extends g { g with io := io } [] :=
  ⟨rfl, by simpa [Daemon.evs] using h⟩

/-- One event. -/
lemma Extends.emit (g : Daemon) (e : Event) : Extends g (g.emit e) [e] := ⟨rfl, rfl⟩

/-- No note. -/
lemma Notes.refl (g : Daemon) : Notes g g := ⟨[], ⟨rfl, by simp⟩, by simp⟩

/-- Notes after notes. -/
lemma Notes.trans {g₁ g₂ g₃ : Daemon} (h : Notes g₁ g₂) (h' : Notes g₂ g₃) : Notes g₁ g₃ := by
  obtain ⟨es, he, hn⟩ := h
  obtain ⟨es', he', hn'⟩ := h'
  refine ⟨es ++ es', he.trans he', fun e hm => ?_⟩
  rcases List.mem_append.mp hm with hm | hm
  · exact hn e hm
  · exact hn' e hm

/-- A change of the `Io` part without events. -/
lemma Notes.of_io {g : Daemon} {io : Io} (h : io.evs = g.io.evs) : Notes g { g with io := io } :=
  ⟨[], Extends.of_io h, by simp⟩

/-- A warning is a note. -/
lemma Notes.warnLine (g : Daemon) (w : Warning) : Notes g (warnLine g w) := by
  refine ⟨[.warn w], ?_, by simp [Event.isNote]⟩
  exact (Extends.of_io (g := g) rfl).trans (Extends.emit _ _)

/-- **What the detectors do**: they give warnings, and they write to the lint state. -/
inductive LintDeed (g : Daemon) : Daemon → Prop
  | warn (w : Warning) : LintDeed g (warnLine g w)
  | write {l : Lint} (hl : l.nWarns = g.io.lint.nWarns) :
      LintDeed g { g with io := { g.io with lint := l } }

/-- The page-ride detector. -/
lemma lintDeeds_pageRide (g : Daemon) (op : Op) :
    Relation.ReflTransGen LintDeed g (lintPageRide g op) := by
  unfold lintPageRide
  split
  · exact .refl
  · dsimp only
    split_ifs
    · exact .single (.write rfl)
    · exact .single (.warn _)
    · exact .refl
    · exact .refl

/-- The cor-poach detector. -/
lemma lintDeeds_corPoach (g : Daemon) (now : UInt64) (op : Op) :
    Relation.ReflTransGen LintDeed g (lintCorPoach g now op) := by
  unfold lintCorPoach
  dsimp only
  split_ifs
  · exact .tail (.single (.warn _)) (.write rfl)
  · exact .single (.write rfl)
  · exact .refl

/-- The rmw-race detector. -/
lemma lintDeeds_rmwRace (g : Daemon) (now : UInt64) (op : Op) :
    Relation.ReflTransGen LintDeed g (lintRmwRace g now op) := by
  unfold lintRmwRace
  split_ifs
  · split
    · exact .refl
    · exact .tail (.single (.warn _)) (.write rfl)
  · exact .single (.write rfl)

/-- **`lint_op`** reads the clock; the rest is done by the detectors. -/
lemma lintDeeds_lintOp (env : Env) (g : Daemon) (op : Op) :
    Relation.ReflTransGen LintDeed (nowUs env g).2 (lintOp env g op) :=
  ((lintDeeds_pageRide _ op).trans (lintDeeds_corPoach _ _ op)).trans (lintDeeds_rmwRace _ _ op)

/-- The detectors leave notes at most. -/
lemma Notes.of_lintDeeds {g g' : Daemon} (h : Relation.ReflTransGen LintDeed g g') : Notes g g' := by
  induction h with
  | refl => exact Notes.refl g
  | tail _ hd ih =>
    cases hd with
    | warn w => exact ih.trans (Notes.warnLine _ w)
    | write hl => exact ih.trans (Notes.of_io rfl)

section

variable (env : Env) (cfg : Config)

/-- Reading the clock leaves no note, -/
lemma Notes.nowUs (g : Daemon) : Notes g (nowUs env g).2 := Notes.of_io rfl

/-- the lint layer leaves only notes, -/
lemma Notes.lintOp (g : Daemon) (op : Op) : Notes g (lintOp env g op) :=
  (Notes.nowUs env g).trans (Notes.of_lintDeeds (lintDeeds_lintOp env g op))

/-- the trace ring none, -/
lemma Notes.traceAdd (g : Daemon) (c : Option Slot) (op : Op) : Notes g (traceAdd env g c op) :=
  Notes.of_io rfl

/-- and the event log only notes, -/
lemma Notes.logOp (g : Daemon) (agent : Agent) (op : Op) (ok : Bool) :
    Notes g (logOp cfg g agent op ok) := by
  unfold Spid.logOp
  split_ifs
  · exact ⟨_, Extends.emit _ _, by simp [Event.isNote]⟩
  · exact Notes.refl g

/-- also that of mailbox calls. -/
lemma Notes.logMb (g : Daemon) (agent : Agent) (write : Bool) (slice : UInt8) (reg : UInt16)
    (val : UInt32) (ok : Bool) : Notes g (logMb cfg g agent write slice reg val ok) := by
  unfold Spid.logMb
  split_ifs
  · exact ⟨_, Extends.emit _ _, by simp [Event.isNote]⟩
  · exact Notes.refl g

/-- The SPI core leaves the events alone. -/
lemma evs_spiReadReg (io : Io) (slice mmd : UInt8) (reg : UInt16) :
    (spiReadReg (busXfer env) cfg.pad cfg.deviceIdReg io slice mmd reg).2.evs = io.evs := by
  unfold spiReadReg
  dsimp only
  split <;> rfl

/-- A register write is one access. -/
lemma extends_regWrite (g : Daemon) (agent : Agent) (slice mmd : UInt8) (reg : UInt16)
    (val : UInt32) :
    Extends g (regWrite env g agent slice mmd reg val).2
      [.access ⟨agent, true, slice, mmd, reg, val, (regWrite env g agent slice mmd reg val).1,
        g.claim.owner, g.mbInflight⟩] := by
  unfold regWrite
  dsimp only
  refine ⟨rfl, ?_⟩
  split_ifs <;> rfl

/-- A register read is one access. -/
lemma extends_regRead (g : Daemon) (agent : Agent) (slice mmd : UInt8) (reg : UInt16)
    (old : UInt32) :
    Extends g (regRead env cfg g agent slice mmd reg old).2.2
      [.access ⟨agent, false, slice, mmd, reg, (regRead env cfg g agent slice mmd reg old).2.1,
        (regRead env cfg g agent slice mmd reg old).1, g.claim.owner, g.mbInflight⟩] := by
  have h := evs_spiReadReg env cfg g.io slice mmd reg
  unfold regRead
  dsimp only
  refine ⟨rfl, ?_⟩
  split_ifs <;> simp [Daemon.evs, Daemon.emit, h]

/-- A failed register read leaves `*val` alone. -/
lemma regRead_val_of_fail (g : Daemon) (agent : Agent) (slice mmd : UInt8) (reg : UInt16)
    (old : UInt32) (h : (regRead env cfg g agent slice mmd reg old).1 = false) :
    (regRead env cfg g agent slice mmd reg old).2.1 = old := by
  unfold regRead at h ⊢
  dsimp only at h ⊢
  simp only [Option.isSome_eq_false_iff, Option.isNone_iff_eq_none] at h
  rw [h]
  rfl

/-- `g'` is `g` after one access and some notes. -/
def Accessed (g g' : Daemon) (a : Access) : Prop :=
  ∃ notes, Extends g g' (.access a :: notes) ∧ ∀ e ∈ notes, e.isNote = true

/-- An access and the notes behind it. -/
lemma Accessed.of_extends {g g₁ g₂ : Daemon} {a : Access} (h : Extends g g₁ [.access a])
    (hn : Notes g₁ g₂) : Accessed g g₂ a := by
  obtain ⟨es, he, hes⟩ := hn
  exact ⟨es, h.trans he, hes⟩

/-- **`mb_rd`** makes one access. -/
lemma mbRd_spec (g : Daemon) (agent : Agent) (slice : UInt8) (reg : UInt16) (old : UInt32) :
    Accessed g (mbRd env cfg g agent slice reg old).2.2
      ⟨agent, false, slice, mmdGlobal, reg, (mbRd env cfg g agent slice reg old).2.1,
        (mbRd env cfg g agent slice reg old).1, g.claim.owner, g.mbInflight⟩ :=
  Accessed.of_extends (extends_regRead env cfg g agent slice mmdGlobal reg old)
    (Notes.logMb cfg _ _ _ _ _ _ _)

/-- **`mb_wr`** makes one access. -/
lemma mbWr_spec (g : Daemon) (agent : Agent) (slice : UInt8) (reg : UInt16) (val : UInt32) :
    Accessed g (mbWr env cfg g agent slice reg val).2
      ⟨agent, true, slice, mmdGlobal, reg, val, (mbWr env cfg g agent slice reg val).1,
        g.claim.owner, g.mbInflight⟩ :=
  Accessed.of_extends (extends_regWrite env g agent slice mmdGlobal reg val)
    (Notes.logMb cfg _ _ _ _ _ _ _)

/-- The operation that `exec_op` returns after a successful or failed access. -/
def Op.after (op : Op) (val : UInt32) : Op := if op.write ≠ 0 then op else { op with val := val }

/-- **`exec_op`** either refuses the operation, which stays as it is, or makes one access: the
status says whether it succeeded, a write carries the value of the operation, and only a successful
read changes the operation, in its value.

**Proof sketch.** A refusal is one event. Otherwise the operation is `regWrite` or `regRead`, one
access each, and everything behind it, the trace ring, the lint layer and the log, only leaves
notes. -/
lemma execOp_spec (g : Daemon) (agent : Agent) (c : Option Slot) (op : Op) :
    (∃ st, opRefusal g.mbInflight c op = some st ∧ (execOp env cfg g agent c op).1 = st ∧
      (execOp env cfg g agent c op).2.1 = op ∧
      Extends g (execOp env cfg g agent c op).2.2 [.refused agent op st]) ∨
    (opRefusal g.mbInflight c op = none ∧ ∃ ok val,
      (execOp env cfg g agent c op).1 = (if ok then .ok else .eio) ∧
      (execOp env cfg g agent c op).2.1 = op.after val ∧
      (op.write ≠ 0 ∨ ok = false → val = op.val) ∧
      Accessed g (execOp env cfg g agent c op).2.2
        ⟨agent, op.write ≠ 0, op.slice, op.mmd, op.reg, val, ok, g.claim.owner, g.mbInflight⟩) := by
  unfold execOp
  cases hr : opRefusal g.mbInflight c op with
  | some st => exact Or.inl ⟨st, rfl, rfl, rfl, Extends.emit _ _⟩
  | none =>
    refine Or.inr ⟨rfl, ?_⟩
    dsimp only
    -- after the access come the trace ring, the lint layer and the log line
    have htail : ∀ (g₁ : Daemon) (ok : Bool) (op' : Op),
        Notes g₁ (logOp cfg (if ok then lintOp env (traceAdd env g₁ c op') op'
          else traceAdd env g₁ c op') agent op' ok) := by
      intro g₁ ok op'
      refine (Notes.traceAdd env g₁ c op').trans (Notes.trans ?_ (Notes.logOp cfg _ _ _ _))
      cases ok
      · exact Notes.refl _
      · exact Notes.lintOp env _ op'
    by_cases hw : op.write ≠ 0
    · simp only [hw, ne_eq, not_false_eq_true, if_true, decide_true]
      refine ⟨_, op.val, rfl, by simp [Op.after, hw], fun _ => rfl, ?_⟩
      exact Accessed.of_extends (extends_regWrite env g agent op.slice op.mmd op.reg op.val)
        (htail _ _ _)
    · simp only [hw, if_false, decide_false]
      refine ⟨_, (regRead env cfg g agent op.slice op.mmd op.reg op.val).2.1, rfl,
        by simp [Op.after, hw], fun h => ?_, ?_⟩
      · exact regRead_val_of_fail env cfg g agent op.slice op.mmd op.reg op.val
          (h.resolve_left (fun h => h.elim))
      · exact Accessed.of_extends
          (extends_regRead env cfg g agent op.slice op.mmd op.reg op.val) (htail _ _ _)

end

end Spid

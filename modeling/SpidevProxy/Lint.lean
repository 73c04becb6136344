import SpidevProxy.Calls

set_option relaxedAutoImplicit false
set_option autoImplicit false

/-!
# The detectors of the lint layer, call by call

What one call of `exec_op` or of `exec_mailbox` does to the lint state, and which warnings it gives.
Only a successful call of `exec_op` reaches `lint_op`; there each of the three detectors looks at its
own part of the lint state and at the client in the log context.

## Main definitions

* `Spid.pageWarning`, `Spid.corWarning`, `Spid.rmwWarning` — what each detector says.
* `Spid.RegCall.warnings` — the warnings of a call.
* `Spid.RegCall.now` — the time at which `lint_op` looks at it.

## Main results

* `Spid.execOp_ok`, `Spid.execOp_not_ok` — a call of `exec_op` that succeeds, and one that does not.
* `Spid.Mailing.post` — the mailbox protocol leaves the lint state and the trace ring alone.
* `Spid.RegCall.does_op`, `Spid.RegCall.warnings_op` — what a call of `exec_op` does, and the warnings
  it gives.
-/

namespace Spid

open History

/-! ## The detectors -/

/-- What the page-ride detector says. -/
def pageWarning (l : Lint) (cid : UInt32) (op : Op) : Option Warning :=
  match pageSide op.mmd with
  | none => none
  | some k =>
    if op.reg &&& 0xfe00 = 0xf000 ∧ ¬(op.reg = 0xf0ff ∧ op.write ≠ 0) ∧
        (l.pageOwner (sliceRow op.slice) k).cid ≠ 0 ∧ (l.pageOwner (sliceRow op.slice) k).cid ≠ cid then
      some (.pageRide cid op (l.pageOwner (sliceRow op.slice) k).cid)
    else none

/-- A read of one of the two counters that are cleared on read. -/
abbrev CounterRead (op : Op) : Prop :=
  op.write = 0 ∧ op.reg = baserStatus2 ∧ (op.mmd = mmdHostPcs ∨ op.mmd = mmdMacLinePcs)

/-- What the cor-poach detector says. -/
def corWarning (l : Lint) (cid : UInt32) (now : UInt64) (op : Op) : Option Warning :=
  let last := l.corLast (corSide op.mmd)
  if CounterRead op ∧ last.cid ≠ 0 ∧ last.cid ≠ cid ∧ now - last.ts < lintCorWindowUs then
    some (.corPoach cid op last.cid ((now - last.ts) / 1000000))
  else none

/-- What the rmw-race detector says. -/
def rmwWarning (g : Daemon) (now : UInt64) (op : Op) : Option Warning :=
  if op.write ≠ 0 then
    ((List.finRange 16).find? (rmwHit g now op)).map fun i =>
      .rmwRace g.lctx.cid op (g.io.lint.rdRing i).cid ((now - (g.io.lint.rdRing i).ts) / 1000)
  else none

/-- The warning of the first check. -/
lemma eq_of_mem_pageWarning {l : Lint} {cid : UInt32} {op : Op} {w : Warning}
    (h : w ∈ pageWarning l cid op) : ∃ owner, w = .pageRide cid op owner := by
  unfold pageWarning at h
  split at h
  · simp at h
  · split_ifs at h
    · exact ⟨_, (Option.some.inj h).symm⟩
    · simp at h

/-- The warning of the second check. -/
lemma eq_of_mem_corWarning {l : Lint} {cid : UInt32} {now : UInt64} {op : Op} {w : Warning}
    (h : w ∈ corWarning l cid now op) : ∃ last age, w = .corPoach cid op last age := by
  unfold corWarning at h
  dsimp only at h
  split_ifs at h
  · exact ⟨_, _, (Option.some.inj h).symm⟩
  · simp at h

/-- The warning of the third check. -/
lemma eq_of_mem_rmwWarning {g : Daemon} {now : UInt64} {op : Op} {w : Warning}
    (h : w ∈ rmwWarning g now op) : ∃ reader age, w = .rmwRace g.lctx.cid op reader age := by
  unfold rmwWarning at h
  split_ifs at h
  · obtain ⟨i, -, rfl⟩ := Option.map_eq_some_iff.mp h
    exact ⟨_, _, rfl⟩
  · simp at h

/-- A detector all of whose warnings are of a kind. -/
lemma any_toList_of_pos {o : Option Warning} {p : Warning → Bool} (h : ∀ w ∈ o, p w = true) :
    o.toList.any p = o.isSome := by
  cases o with
  | none => rfl
  | some w => simp [h w rfl]

/-- A detector none of whose warnings is of a kind. -/
lemma any_toList_of_neg {o : Option Warning} {p : Warning → Bool} (h : ∀ w ∈ o, p w = false) :
    o.toList.any p = false := by
  cases o with
  | none => rfl
  | some w => simp [h w rfl]

/-- The events of warnings. -/
def warnEvents (w : Option Warning) : List Event := (w.map Event.warn).toList

section

variable (g : Daemon) (now : UInt64) (op : Op)

/-- The page-ride detector: its warning, and the parts of the lint state that it leaves alone. -/
lemma lintPageRide_spec :
    (lintPageRide g op).evs = g.evs ++ warnEvents (pageWarning g.io.lint g.lctx.cid op) ∧
    (lintPageRide g op).lctx = g.lctx ∧ (lintPageRide g op).io.nClock = g.io.nClock ∧
    (lintPageRide g op).io.lint.corLast = g.io.lint.corLast ∧
    (lintPageRide g op).io.lint.rdRing = g.io.lint.rdRing ∧
    (lintPageRide g op).io.lint.rdW = g.io.lint.rdW := by
  unfold lintPageRide pageWarning
  dsimp only
  cases pageSide op.mmd with
  | none => simp [warnEvents]
  | some k =>
    dsimp only
    by_cases h₁ : op.reg &&& 0xfe00 = 0xf000
    swap
    · rw [if_neg h₁, if_neg fun h => h₁ h.1]
      exact ⟨(List.append_nil _).symm, rfl, rfl, rfl, rfl, rfl⟩
    by_cases h₂ : op.reg = 0xf0ff ∧ op.write ≠ 0
    · rw [if_pos h₁, if_pos h₂, if_neg fun h => h.2.1 h₂]
      exact ⟨(List.append_nil _).symm, rfl, rfl, rfl, rfl, rfl⟩
    rw [if_pos h₁, if_neg h₂]
    by_cases h₃ : (g.io.lint.pageOwner (sliceRow op.slice) k).cid ≠ 0 ∧
        (g.io.lint.pageOwner (sliceRow op.slice) k).cid ≠ g.lctx.cid
    · rw [if_pos h₃, if_pos ⟨h₁, h₂, h₃⟩]
      exact ⟨rfl, rfl, rfl, rfl, rfl, rfl⟩
    · rw [if_neg h₃, if_neg fun h => h₃ h.2.2]
      exact ⟨(List.append_nil _).symm, rfl, rfl, rfl, rfl, rfl⟩

/-- The page-ride detector writes down the client of a page write, in the cell of its slice and side. -/
lemma pageOwner_lintPageRide (s : Fin 4) (k : Fin 2) :
    (lintPageRide g op).io.lint.pageOwner s k =
      if pageSide op.mmd = some k ∧ sliceRow op.slice = s ∧ op.reg = 0xf0ff ∧ op.write ≠ 0 then
        ⟨g.lctx.cid, g.lctx.comm⟩
      else g.io.lint.pageOwner s k := by
  unfold lintPageRide
  dsimp only
  cases pageSide op.mmd with
  | none => simp
  | some k' =>
    dsimp only
    by_cases h₂ : op.reg = 0xf0ff ∧ op.write ≠ 0
    · rw [if_pos (by rw [h₂.1]; decide), if_pos h₂]
      dsimp only
      by_cases hs : sliceRow op.slice = s
      · subst hs
        rw [Function.update_self]
        by_cases hk : k' = k
        · subst hk
          rw [Function.update_self, if_pos ⟨rfl, rfl, h₂⟩]
        · rw [Function.update_of_ne (Ne.symm hk), if_neg fun h => hk (Option.some.inj h.1)]
      · rw [Function.update_of_ne (Ne.symm hs), if_neg fun h => hs h.2.1]
    · rw [if_neg fun h : some k' = some k ∧ sliceRow op.slice = s ∧ op.reg = 0xf0ff ∧ op.write ≠ 0 =>
        h₂ h.2.2]
      split_ifs
      · rfl
      · rfl
      · rfl

/-- The cor-poach detector: its warning, the parts of the lint state that it leaves alone, and the cell
that it writes.

**Proof sketch.** Two case splits: is the operation a read of a counter, and does the cell name
another client within the window. The cell is written in either case of the second. -/
lemma lintCorPoach_spec :
    (lintCorPoach g now op).evs = g.evs ++ warnEvents (corWarning g.io.lint g.lctx.cid now op) ∧
    (lintCorPoach g now op).lctx = g.lctx ∧ (lintCorPoach g now op).io.nClock = g.io.nClock ∧
    (lintCorPoach g now op).io.lint.pageOwner = g.io.lint.pageOwner ∧
    (lintCorPoach g now op).io.lint.rdRing = g.io.lint.rdRing ∧
    (lintCorPoach g now op).io.lint.rdW = g.io.lint.rdW ∧
    ∀ k, (lintCorPoach g now op).io.lint.corLast k =
      if CounterRead op ∧ corSide op.mmd = k then ⟨g.lctx.cid, g.lctx.comm, now⟩
      else g.io.lint.corLast k := by
  unfold lintCorPoach corWarning
  dsimp only
  by_cases h₁ : CounterRead op
  swap
  · rw [if_neg h₁, if_neg fun h => h₁ h.1]
    exact ⟨(List.append_nil _).symm, rfl, rfl, rfl, rfl, rfl, fun k => by rw [if_neg fun h => h₁ h.1]⟩
  have hcell : ∀ (f : Fin 2 → CorLast) (x : CorLast) (k : Fin 2),
      Function.update f (corSide op.mmd) x k =
        if CounterRead op ∧ corSide op.mmd = k then x else f k := by
    intro f x k
    by_cases hk : corSide op.mmd = k
    · subst hk
      rw [Function.update_self, if_pos ⟨h₁, rfl⟩]
    · rw [Function.update_of_ne (Ne.symm hk), if_neg fun h => hk h.2]
  rw [if_pos (show op.write = 0 ∧ op.reg = baserStatus2 ∧ (op.mmd = mmdHostPcs ∨
    op.mmd = mmdMacLinePcs) from h₁)]
  by_cases h₂ : (g.io.lint.corLast (corSide op.mmd)).cid ≠ 0 ∧
      (g.io.lint.corLast (corSide op.mmd)).cid ≠ g.lctx.cid ∧
      now - (g.io.lint.corLast (corSide op.mmd)).ts < lintCorWindowUs
  · rw [if_pos h₂, if_pos ⟨h₁, h₂⟩]
    exact ⟨rfl, rfl, rfl, rfl, rfl, rfl, hcell _ _⟩
  · rw [if_neg h₂, if_neg fun h => h₂ h.2]
    exact ⟨(List.append_nil _).symm, rfl, rfl, rfl, rfl, rfl, hcell _ _⟩

/-- The rmw-race detector: its warning, and the parts of the lint state that it leaves alone. -/
lemma lintRmwRace_spec :
    (lintRmwRace g now op).evs = g.evs ++ warnEvents (rmwWarning g now op) ∧
    (lintRmwRace g now op).io.nClock = g.io.nClock ∧
    (lintRmwRace g now op).io.lint.pageOwner = g.io.lint.pageOwner ∧
    (lintRmwRace g now op).io.lint.corLast = g.io.lint.corLast := by
  unfold lintRmwRace rmwWarning
  by_cases hw : op.write ≠ 0
  · rw [if_pos hw, if_pos hw]
    cases (List.finRange 16).find? (rmwHit g now op) with
    | none => exact ⟨(List.append_nil _).symm, rfl, rfl, rfl⟩
    | some i => exact ⟨rfl, rfl, rfl, rfl⟩
  · rw [if_neg hw, if_neg hw]
    exact ⟨(List.append_nil _).symm, rfl, rfl, rfl⟩

/-- An entry of `g.rd_ring` after the rmw-race detector: it is one of before, it has been cleared, or it
is the read that was looked at. -/
lemma rdRing_lintRmwRace (i : Fin 16) :
    (lintRmwRace g now op).io.lint.rdRing i = g.io.lint.rdRing i ∨
    ((lintRmwRace g now op).io.lint.rdRing i).cid = 0 ∨
    (op.write = 0 ∧ (lintRmwRace g now op).io.lint.rdRing i =
      ⟨op.slice, op.mmd, op.reg, g.lctx.cid, g.lctx.comm, now⟩) := by
  unfold lintRmwRace
  by_cases hw : op.write ≠ 0
  · rw [if_pos hw]
    cases (List.finRange 16).find? (rmwHit g now op) with
    | none => exact Or.inl rfl
    | some j =>
      dsimp only
      by_cases hi : i = j
      · subst hi
        exact Or.inr (Or.inl (by rw [Function.update_self]))
      · exact Or.inl (by rw [Function.update_of_ne hi]; rfl)
  · rw [if_neg hw]
    dsimp only
    by_cases hi : i = Fin.ofNat 16 (g.io.lint.rdW.toNat % 16)
    · subst hi
      exact Or.inr (Or.inr ⟨not_not.mp hw, by rw [Function.update_self]⟩)
    · exact Or.inl (by rw [Function.update_of_ne hi])

end

/-- The third check looks at the log context and at `rd_ring` only. -/
lemma rmwWarning_congr {g g' : Daemon} (hl : g'.lctx = g.lctx)
    (hr : g'.io.lint.rdRing = g.io.lint.rdRing) (now : UInt64) (op : Op) :
    rmwWarning g' now op = rmwWarning g now op := by
  have hhit : rmwHit g' now op = rmwHit g now op := by
    funext i
    unfold rmwHit
    rw [hl, hr]
  unfold rmwWarning
  rw [hhit, hl, hr]

/-- What all three detectors say to an operation. -/
def lintWarnings (g : Daemon) (now : UInt64) (op : Op) : List Warning :=
  (pageWarning g.io.lint g.lctx.cid op).toList ++ (corWarning g.io.lint g.lctx.cid now op).toList ++
    (rmwWarning g now op).toList

section

variable (env : Env) (g : Daemon) (op : Op)

/-- **`lint_op`**: it reads the clock once, gives the warnings of the three detectors, and changes the
owners, the last readers and the ring of reads as they do.

**Proof sketch.** The three detectors run one after the other, each on the state that the one
before leaves. Their parts of the lint state are disjoint, so the warnings of the later ones are
those that they would give at first. -/
lemma lintOp_spec :
    (lintOp env g op).evs = g.evs ++ (lintWarnings g (env.clock g.io.nClock) op).map Event.warn ∧
    (lintOp env g op).io.nClock = g.io.nClock + 1 ∧
    (∀ s k, (lintOp env g op).io.lint.pageOwner s k =
      if pageSide op.mmd = some k ∧ sliceRow op.slice = s ∧ op.reg = 0xf0ff ∧ op.write ≠ 0 then
        ⟨g.lctx.cid, g.lctx.comm⟩
      else g.io.lint.pageOwner s k) ∧
    (∀ k, (lintOp env g op).io.lint.corLast k =
      if CounterRead op ∧ corSide op.mmd = k then ⟨g.lctx.cid, g.lctx.comm, env.clock g.io.nClock⟩
      else g.io.lint.corLast k) ∧
    ∀ i, (lintOp env g op).io.lint.rdRing i = g.io.lint.rdRing i ∨
      ((lintOp env g op).io.lint.rdRing i).cid = 0 ∨
      (op.write = 0 ∧ (lintOp env g op).io.lint.rdRing i =
        ⟨op.slice, op.mmd, op.reg, g.lctx.cid, g.lctx.comm, env.clock g.io.nClock⟩) := by
  set now := env.clock g.io.nClock with hnow
  set g₁ := (nowUs env g).2 with hg₁
  obtain ⟨pe, pl, pn, pc, pr, pw⟩ := lintPageRide_spec g₁ op
  set g₂ := lintPageRide g₁ op with hg₂
  obtain ⟨ce, cl, cn, cp, cr, cw, cc⟩ := lintCorPoach_spec g₂ now op
  set g₃ := lintCorPoach g₂ now op with hg₃
  obtain ⟨re, rn, rp, rc⟩ := lintRmwRace_spec g₃ now op
  have hg₄ : lintOp env g op = lintRmwRace g₃ now op := rfl
  rw [hg₄]
  refine ⟨?_, ?_, fun s k => ?_, fun k => ?_, fun i => ?_⟩
  · have hcor : corWarning g₂.io.lint g₂.lctx.cid now op = corWarning g.io.lint g.lctx.cid now op := by
      unfold corWarning
      rw [pc, pl]
      rfl
    have hrmw : rmwWarning g₃ now op = rmwWarning g now op :=
      rmwWarning_congr (cl.trans pl) (cr.trans pr) now op
    rw [re, ce, pe, hcor, hrmw, lintWarnings]
    simp only [warnEvents, List.append_assoc, List.map_append, Option.toList_map]
    rfl
  · rw [rn, cn, pn]
    rfl
  · rw [rp, cp, hg₂, pageOwner_lintPageRide]
    rfl
  · rw [rc, cc k, pl, pc]
    rfl
  · have h := rdRing_lintRmwRace g₃ now op i
    rw [cr, pr, cl, pl] at h
    exact h

end

/-! ## One call of `exec_op` -/

section

variable (env : Env) (cfg : Config)

/-- The operation with the value that was read. -/
def Op.SameAs (op op' : Op) : Prop :=
  op'.slice = op.slice ∧ op'.write = op.write ∧ op'.mmd = op.mmd ∧ op'.reg = op.reg

/-- The events of the line that `exec_op` logs. -/
def logEvents (g : Daemon) (ag : Agent) (op : Op) (ok : Bool) : List Event :=
  if cfg.log then [.opLine ag ⟨g.lctx.cid, g.lctx.comm, g.lctx.seq, g.lctx.tag, op.write ≠ 0, op.slice,
    op.mmd, op.reg, op.val, ok⟩] else []

/-- The line of the event log. -/
lemma logOp_spec (g : Daemon) (ag : Agent) (op : Op) (ok : Bool) :
    (logOp cfg g ag op ok).evs = g.evs ++ logEvents cfg g ag op ok ∧
    (logOp cfg g ag op ok).io.lint = g.io.lint ∧ (logOp cfg g ag op ok).io.ring = g.io.ring ∧
    (logOp cfg g ag op ok).io.ringW = g.io.ringW ∧
    (logOp cfg g ag op ok).io.nClock = g.io.nClock := by
  unfold logOp logEvents
  split_ifs
  · exact ⟨rfl, rfl, rfl, rfl, rfl⟩
  · exact ⟨(List.append_nil _).symm, rfl, rfl, rfl, rfl⟩

/-- The access that `exec_op` makes for an operation that is not refused: whether it succeeds, the
operation with the value read, and the state after it. -/
def opAccess (g : Daemon) (ag : Agent) (op : Op) : Bool × Op × Daemon :=
  if op.write ≠ 0 then
    let r := regWrite env g ag op.slice op.mmd op.reg op.val
    (r.1, op, r.2)
  else
    let r := regRead env cfg g ag op.slice op.mmd op.reg op.val
    (r.1, { op with val := r.2.1 }, r.2.2)

/-- The access is one event, and changes nothing that the lint layer and the trace ring look at.

**Proof sketch.** A write and a read, each by what `regWrite` and `regRead` do; a transfer
changes neither the lint state nor the trace ring nor the clock. -/
lemma opAccess_spec (g : Daemon) (ag : Agent) (op : Op) :
    op.SameAs (opAccess env cfg g ag op).2.1 ∧
    (opAccess env cfg g ag op).2.2 =
      { g with io := (opAccess env cfg g ag op).2.2.io } ∧
    (opAccess env cfg g ag op).2.2.evs = g.evs ++ [.access ⟨ag, op.write ≠ 0, op.slice, op.mmd, op.reg,
      (opAccess env cfg g ag op).2.1.val, (opAccess env cfg g ag op).1, g.claim.owner, g.mbInflight⟩] ∧
    (opAccess env cfg g ag op).2.2.io.lint = g.io.lint ∧
    (opAccess env cfg g ag op).2.2.io.ring = g.io.ring ∧
    (opAccess env cfg g ag op).2.2.io.ringW = g.io.ringW ∧
    (opAccess env cfg g ag op).2.2.io.nClock = g.io.nClock := by
  unfold opAccess
  by_cases hw : op.write ≠ 0
  · rw [if_pos hw]
    obtain ⟨hx, he⟩ := extends_regWrite env g ag op.slice op.mmd op.reg op.val
    refine ⟨⟨rfl, rfl, rfl, rfl⟩, hx, ?_, ?_⟩
    · rw [he]
      simp [hw]
    · unfold regWrite
      dsimp only [Daemon.emit]
      split_ifs <;> exact ⟨rfl, rfl, rfl, rfl⟩
  · rw [if_neg hw]
    obtain ⟨hx, he⟩ := extends_regRead env cfg g ag op.slice op.mmd op.reg op.val
    obtain ⟨n, hn⟩ := spiReadReg_io env cfg g.io op.slice op.mmd op.reg
    refine ⟨⟨rfl, rfl, rfl, rfl⟩, hx, ?_, ?_⟩
    · rw [he]
      simp [hw]
    · unfold regRead
      dsimp only [Daemon.emit]
      rw [hn]
      split_ifs <;> exact ⟨rfl, rfl, rfl, rfl⟩

/-- `exec_op` in terms of the access that it makes. -/
lemma execOp_eq (g : Daemon) (ag : Agent) (c : Option Slot) (op : Op) :
    execOp env cfg g ag c op =
      match opRefusal g.mbInflight c op with
      | some st => (st, op, g.emit (.refused ag op st))
      | none =>
        let r := opAccess env cfg g ag op
        let g := traceAdd env r.2.2 c r.2.1
        (if r.1 then .ok else .eio, r.2.1,
          logOp cfg (if r.1 then lintOp env g r.2.1 else g) ag r.2.1 r.1) := rfl

/-- The checks look at the log context and at the lint state only. -/
lemma lintWarnings_congr {g g' : Daemon} (hl : g'.lctx = g.lctx) (hi : g'.io.lint = g.io.lint)
    (now : UInt64) (op : Op) : lintWarnings g' now op = lintWarnings g now op := by
  unfold lintWarnings
  rw [hl, hi, rmwWarning_congr hl (by rw [hi]) now op]

/-- No operation is refused with `SPIPROXY_OK`, and one that is not refused has a slice. -/
lemma opRefusal_spec (inflight : Bool) (c : Option Slot) (op : Op) :
    opRefusal inflight c op ≠ some .ok ∧
      (opRefusal inflight c op = none → op.slice.toNat < 4) := by
  unfold opRefusal
  split_ifs with h₁ h₂
  · exact ⟨by decide, by simp⟩
  · exact ⟨by decide, by simp⟩
  · exact ⟨by decide, fun _ => not_le.mp h₁⟩

/-- **A call of `exec_op` that succeeds**: the operation is in range, it is one access followed by the
warnings of `lint_op`, and the lint state changes as `lint_op` does it.

**Proof sketch.** Success excludes a refusal and a failed access. What remains is the access, the
trace entry, which takes one look at the clock, `lint_op` by `lintOp_spec`, and the log line; the
operation that `lint_op` sees differs from the given one in its value only. -/
lemma execOp_ok {g : Daemon} {ag : Agent} {c : Option Slot} {op : Op}
    (h : (execOp env cfg g ag c op).1 = .ok) :
    op.slice.toNat < 4 ∧ (execOp env cfg g ag c op).2.2.io.nClock = g.io.nClock + 2 ∧
    ∃ op' es, op.SameAs op' ∧
      (execOp env cfg g ag c op).2.2.evs = g.evs ++ (.access ⟨ag, op.write ≠ 0, op.slice, op.mmd, op.reg,
        op'.val, true, g.claim.owner, g.mbInflight⟩ ::
          (lintWarnings g (env.clock (g.io.nClock + 1)) op').map Event.warn ++ es) ∧
      (∀ e ∈ es, ∃ ag l, e = Event.opLine ag l) ∧
      (∀ s k, (execOp env cfg g ag c op).2.2.io.lint.pageOwner s k =
        if pageSide op.mmd = some k ∧ sliceRow op.slice = s ∧ op.reg = 0xf0ff ∧ op.write ≠ 0 then
          ⟨g.lctx.cid, g.lctx.comm⟩
        else g.io.lint.pageOwner s k) ∧
      (∀ k, (execOp env cfg g ag c op).2.2.io.lint.corLast k =
        if CounterRead op ∧ corSide op.mmd = k then
          ⟨g.lctx.cid, g.lctx.comm, env.clock (g.io.nClock + 1)⟩
        else g.io.lint.corLast k) ∧
      ∀ i, (execOp env cfg g ag c op).2.2.io.lint.rdRing i = g.io.lint.rdRing i ∨
        ((execOp env cfg g ag c op).2.2.io.lint.rdRing i).cid = 0 ∨
        (op.write = 0 ∧ (execOp env cfg g ag c op).2.2.io.lint.rdRing i =
          ⟨op.slice, op.mmd, op.reg, g.lctx.cid, g.lctx.comm, env.clock (g.io.nClock + 1)⟩) := by
  rw [execOp_eq] at h ⊢
  obtain ⟨hne, hslice⟩ := opRefusal_spec g.mbInflight c op
  cases hr : opRefusal g.mbInflight c op with
  | some st =>
    rw [hr] at h hne
    exact absurd h fun hst => hne (by rw [← hst])
  | none =>
    rw [hr] at h
    obtain ⟨⟨hs, hw, hm, hrg⟩, hfr, hev, hli, -, -, hcl⟩ := opAccess_spec env cfg g ag op
    dsimp only at h ⊢
    generalize opAccess env cfg g ag op = r at *
    obtain ⟨ok, op', g₁⟩ := r
    dsimp only at *
    have hok : ok = true := by
      cases ok
      · simp at h
      · rfl
    subst hok
    rw [if_pos rfl]
    have hl₁ : (traceAdd env g₁ c op').lctx = g.lctx := by
      change g₁.lctx = g.lctx
      rw [hfr]
    have hi₁ : (traceAdd env g₁ c op').io.lint = g.io.lint := hli
    have hn₁ : (traceAdd env g₁ c op').io.nClock = g.io.nClock + 1 := congrArg (· + 1) hcl
    have he₁ : (traceAdd env g₁ c op').evs = g₁.evs := rfl
    obtain ⟨le, ln, lp, lc, lr⟩ := lintOp_spec env (traceAdd env g₁ c op') op'
    obtain ⟨oe, ol, -, -, on⟩ := logOp_spec cfg (lintOp env (traceAdd env g₁ c op') op') ag op' true
    refine ⟨hslice hr, by rw [on, ln, hn₁], op', logEvents cfg (lintOp env (traceAdd env g₁ c op') op') ag
      op' true, ⟨hs, hw, hm, hrg⟩, ?_, ?_, fun s k => ?_, fun k => ?_, fun i => ?_⟩
    · rw [oe, le, he₁, hev, hn₁, lintWarnings_congr hl₁ hi₁]
      simp only [List.append_assoc, List.cons_append, List.nil_append]
    · intro e he
      unfold logEvents at he
      split_ifs at he
      · exact ⟨_, _, List.mem_singleton.mp he⟩
      · simp at he
    · rw [ol, lp s k, hl₁, hi₁, hs, hw, hm, hrg]
    · rw [ol, lc k, hl₁, hi₁, hn₁]
      unfold CounterRead
      rw [hw, hm, hrg]
    · have h := lr i
      rw [hl₁, hi₁, hn₁, hs, hw, hm, hrg] at h
      rw [ol]
      exact h

/-- **A call of `exec_op` that does not succeed** leaves the lint state alone and gives no warning.

**Proof sketch.** Either the operation is refused, with one event, or the access fails and
`lint_op` is not called. -/
lemma execOp_not_ok {g : Daemon} {ag : Agent} {c : Option Slot} {op : Op}
    (h : (execOp env cfg g ag c op).1 ≠ .ok) :
    (execOp env cfg g ag c op).2.2.io.lint = g.io.lint ∧
    ∃ es, (execOp env cfg g ag c op).2.2.evs = g.evs ++ es ∧
      ∀ e ∈ es, (∃ x, e = .access x ∧ x.ok = false) ∨ (∃ ag op st, e = .refused ag op st) ∨
        ∃ ag l, e = Event.opLine ag l := by
  rw [execOp_eq] at h ⊢
  cases hr : opRefusal g.mbInflight c op with
  | some st => exact ⟨rfl, _, rfl, fun e he => Or.inr (Or.inl ⟨_, _, _, List.mem_singleton.mp he⟩)⟩
  | none =>
    rw [hr] at h
    obtain ⟨-, -, hev, hli, -⟩ := opAccess_spec env cfg g ag op
    dsimp only at h ⊢
    generalize opAccess env cfg g ag op = r at *
    obtain ⟨ok, op', g₁⟩ := r
    dsimp only at *
    have hok : ok = false := by
      cases ok
      · rfl
      · exact absurd rfl h
    subst hok
    rw [if_neg (by decide)]
    obtain ⟨oe, ol, -⟩ := logOp_spec cfg (traceAdd env g₁ c op') ag op' false
    have he₁ : (traceAdd env g₁ c op').evs = g₁.evs := rfl
    refine ⟨ol.trans hli, _, by rw [oe, he₁, hev, List.append_assoc], fun e he => ?_⟩
    rcases List.mem_append.mp he with he | he
    · exact Or.inl ⟨_, List.mem_singleton.mp he, rfl⟩
    · unfold logEvents at he
      split_ifs at he
      · exact Or.inr (Or.inr ⟨_, _, List.mem_singleton.mp he⟩)
      · simp at he

/-! ## The mailbox protocol -/

/-- The events of the mailbox protocol: it accesses the `GLOBAL` MMD only, and there is no warning. -/
def Event.mailing : Event → Bool
  | .access x => x.mmd == mmdGlobal
  | .opLine _ _ => true
  | .mbSet _ _ _ => true
  | .mbClear _ _ => true
  | _ => false

/-- **Work of the mailbox protocol**: the lint state and the trace ring stay. -/
structure Mailing (g g' : Daemon) : Prop where
  lint : g'.io.lint = g.io.lint
  ring : g'.io.ring = g.io.ring
  ringW : g'.io.ringW = g.io.ringW
  evs : ∃ es, g'.evs = g.evs ++ es ∧ ∀ e ∈ es, e.mailing = true

namespace Mailing

variable {g g₁ g₂ : Daemon}

/-- Nothing is done. -/
lemma refl (g : Daemon) : Mailing g g := ⟨rfl, rfl, rfl, [], (List.append_nil _).symm, by simp⟩

/-- One piece of work after another. -/
lemma trans (h : Mailing g g₁) (h' : Mailing g₁ g₂) : Mailing g g₂ where
  lint := h'.lint.trans h.lint
  ring := h'.ring.trans h.ring
  ringW := h'.ringW.trans h.ringW
  evs := by
    obtain ⟨es, he, hP⟩ := h.evs
    obtain ⟨es', he', hP'⟩ := h'.evs
    refine ⟨es ++ es', by rw [he', he, List.append_assoc], fun e hm => ?_⟩
    rcases List.mem_append.mp hm with hm | hm
    · exact hP e hm
    · exact hP' e hm

/-- An event of a mailbox call. -/
lemma of_event {e : Event} (he : e.mailing = true)
    (hio : g₁.io = { g.io with evs := g.io.evs ++ [e] }) : Mailing g g₁ := by
  refine ⟨by rw [hio], by rw [hio], by rw [hio], [e], ?_, by simpa using he⟩
  rw [Daemon.evs, hio]
  rfl

/-- The line of `mb_rd` and `mb_wr`. -/
lemma logMb (g : Daemon) (ag : Agent) (write : Bool) (slice : UInt8) (reg : UInt16) (val : UInt32)
    (ok : Bool) : Mailing g (logMb cfg g ag write slice reg val ok) := by
  unfold Spid.logMb
  split_ifs
  · exact of_event rfl rfl
  · exact refl g

/-- `mb_rd`. -/
lemma mbRd (g : Daemon) (ag : Agent) (slice : UInt8) (reg : UInt16) (old : UInt32) :
    Mailing g (mbRd env cfg g ag slice reg old).2.2 := by
  refine Mailing.trans ?_ (logMb cfg _ _ _ _ _ _ _)
  obtain ⟨-, he⟩ := extends_regRead env cfg g ag slice mmdGlobal reg old
  obtain ⟨n, hn⟩ := spiReadReg_io env cfg g.io slice mmdGlobal reg
  have hio : (regRead env cfg g ag slice mmdGlobal reg old).2.2.io.lint = g.io.lint ∧
      (regRead env cfg g ag slice mmdGlobal reg old).2.2.io.ring = g.io.ring ∧
      (regRead env cfg g ag slice mmdGlobal reg old).2.2.io.ringW = g.io.ringW := by
    unfold regRead
    dsimp only [Daemon.emit]
    rw [hn]
    split_ifs <;> exact ⟨rfl, rfl, rfl⟩
  exact ⟨hio.1, hio.2.1, hio.2.2, _, he, by simp [Event.mailing]⟩

/-- `mb_wr`. -/
lemma mbWr (g : Daemon) (ag : Agent) (slice : UInt8) (reg : UInt16) (val : UInt32) :
    Mailing g (mbWr env cfg g ag slice reg val).2 := by
  refine Mailing.trans ?_ (logMb cfg _ _ _ _ _ _ _)
  obtain ⟨-, he⟩ := extends_regWrite env g ag slice mmdGlobal reg val
  have hio : (regWrite env g ag slice mmdGlobal reg val).2.io.lint = g.io.lint ∧
      (regWrite env g ag slice mmdGlobal reg val).2.io.ring = g.io.ring ∧
      (regWrite env g ag slice mmdGlobal reg val).2.io.ringW = g.io.ringW := by
    unfold regWrite
    dsimp only [Daemon.emit]
    split_ifs <;> exact ⟨rfl, rfl, rfl⟩
  exact ⟨hio.1, hio.2.1, hio.2.2, _, he, by simp [Event.mailing]⟩

variable {env cfg} {ag : Agent}

/-- So it is with every deed of the protocol. -/
lemma of_mbDeed (h : MbDeed env cfg ag g g₁) : Mailing g g₁ := by
  cases h with
  | rd slice reg old => exact mbRd env cfg g ag slice reg old
  | wr slice reg val => exact mbWr env cfg g ag slice reg val
  | clock => exact ⟨rfl, rfl, rfl, [], (List.append_nil _).symm, by simp⟩
  | packet => exact ⟨rfl, rfl, rfl, [], (List.append_nil _).symm, by simp⟩
  | set rid c was => exact of_event rfl rfl
  | leave x => exact of_event rfl rfl
  | body it b => exact ⟨rfl, rfl, rfl, [], (List.append_nil _).symm, by simp⟩

/-- And with its work. -/
lemma of_mbWork (h : MbWork env cfg ag g g₁) : Mailing g g₁ := by
  induction h with
  | refl => exact refl g
  | tail _ hd ih => exact ih.trans (of_mbDeed hd)

variable (env cfg)

/-- **A call that is not one of `exec_op`** is work of the mailbox protocol. -/
lemma post {k : RegCall} (h : k.isOp = false) : Mailing k.pre (k.post env cfg) := by
  unfold RegCall.isOp at h
  unfold RegCall.post
  split
  · rename_i hw
    rw [hw] at h
    simp at h
  · exact of_mbWork (MbWork.start _)
  · exact of_mbWork (MbWork.poll _)

end Mailing

/-! ## Calls and their warnings -/

/-- The warning in an event. -/
def Event.warning : Event → Option Warning
  | .warn w => some w
  | _ => none

/-- **The warnings of a call.** -/
def RegCall.warnings (k : RegCall) : List Warning := (k.events env cfg).filterMap Event.warning

/-- The reading of the clock that `lint_op` takes in the call. -/
def RegCall.now (k : RegCall) : UInt64 := env.clock (k.pre.io.nClock + 1)

/-- Whether the call is one of `exec_op`, and successful. -/
def RegCall.succeeds (k : RegCall) : Bool :=
  match k.work with
  | .op c op => (execOp env cfg k.pre k.agent c op).1 = .ok
  | _ => false

/-- The operation of a call of `exec_op`. -/
def RegCall.op (k : RegCall) : Op :=
  match k.work with
  | .op _ op => op
  | _ => ⟨0, 0, 0, 0, 0, 0, 0⟩

variable {env cfg} {k : RegCall}

/-- A call that succeeds is one of `exec_op`. -/
lemma RegCall.isOp_of_succeeds (h : k.succeeds env cfg = true) : k.isOp = true := by
  unfold RegCall.succeeds at h
  unfold RegCall.isOp
  cases hw : k.work with
  | op c op => rfl
  | request it =>
    rw [hw] at h
    simp at h
  | poll f =>
    rw [hw] at h
    simp at h

/-- The events of a call are those that it adds. -/
lemma RegCall.events_eq {es : List Event} (h : (k.post env cfg).evs = k.pre.evs ++ es) :
    k.events env cfg = es :=
  since_eq h

section

variable {c : Option Slot} {op : Op}

/-- The operation of a call of `exec_op`, -/
lemma RegCall.op_of_work (hw : k.work = .op c op) : k.op = op := by simp [RegCall.op, hw]

/-- which it is, -/
lemma RegCall.isOp_of_work (hw : k.work = .op c op) : k.isOp = true := by
  simp [RegCall.isOp, hw]

/-- which succeeds with `SPIPROXY_OK`, -/
lemma RegCall.succeeds_iff (hw : k.work = .op c op) :
    k.succeeds env cfg = true ↔ (execOp env cfg k.pre k.agent c op).1 = .ok := by
  simp [RegCall.succeeds, hw]

/-- and the state behind it. -/
lemma RegCall.post_op (hw : k.work = .op c op) :
    k.post env cfg = (execOp env cfg k.pre k.agent c op).2.2 := by
  simp [RegCall.post, hw]

/-- **What a call of `exec_op` does**: if it succeeds, the access that its operation asks for. -/
lemma RegCall.does_op (hw : k.work = .op c op) (w : Bool) (s m : UInt8) (r : UInt16) :
    k.does env cfg w s m r = true ↔ k.succeeds env cfg = true ∧ decide (op.write ≠ 0) = w ∧
      op.slice = s ∧ op.mmd = m ∧ op.reg = r := by
  rw [RegCall.succeeds_iff hw]
  by_cases hok : (execOp env cfg k.pre k.agent c op).1 = .ok
  · obtain ⟨-, -, op', es, -, hev, hes, -⟩ := execOp_ok env cfg hok
    rw [RegCall.does, RegCall.events_eq (by rw [RegCall.post_op hw]; exact hev)]
    have hnone : (((lintWarnings k.pre (env.clock (k.pre.io.nClock + 1)) op').map Event.warn) ++ es).any
        (Event.isAccess w s m r) = false := by
      rw [List.any_eq_false]
      intro e he
      rcases List.mem_append.mp he with he | he
      · obtain ⟨x, -, rfl⟩ := List.mem_map.mp he
        simp [Event.isAccess]
      · obtain ⟨ag, l, rfl⟩ := hes e he
        simp [Event.isAccess]
    rw [List.cons_append, List.any_cons, hnone, Bool.or_false]
    simp [Event.isAccess, hok, and_assoc]
  · obtain ⟨-, es, hev, hes⟩ := execOp_not_ok env cfg hok
    rw [RegCall.does, RegCall.events_eq (by rw [RegCall.post_op hw]; exact hev)]
    refine ⟨fun h => ?_, fun h => absurd h.1 hok⟩
    obtain ⟨e, he, ha⟩ := List.any_eq_true.mp h
    rcases hes e he with ⟨x, rfl, hx⟩ | ⟨_, _, _, rfl⟩ | ⟨_, _, rfl⟩
    · simp [Event.isAccess, hx] at ha
    · simp [Event.isAccess] at ha
    · simp [Event.isAccess] at ha

/-- **The warnings of a call of `exec_op` that succeeds** are those of the three detectors. -/
lemma RegCall.warnings_op (hw : k.work = .op c op) (hok : k.succeeds env cfg = true) :
    ∃ op', op.SameAs op' ∧ k.warnings env cfg = lintWarnings k.pre (k.now env) op' := by
  obtain ⟨-, -, op', es, hsame, hev, hes, -⟩ := execOp_ok env cfg ((RegCall.succeeds_iff hw).mp hok)
  refine ⟨op', hsame, ?_⟩
  have hmap : ((lintWarnings k.pre (k.now env) op').map Event.warn).filterMap Event.warning =
      lintWarnings k.pre (k.now env) op' := by
    rw [List.filterMap_map]
    exact List.filterMap_some
  have hnone : es.filterMap Event.warning = [] := by
    refine List.filterMap_eq_nil_iff.mpr fun e he => ?_
    obtain ⟨ag, l, rfl⟩ := hes e he
    rfl
  rw [RegCall.warnings, RegCall.events_eq (by rw [RegCall.post_op hw]; exact hev), List.filterMap_append,
    hnone, List.append_nil]
  exact hmap

end

/-- Every other call gives no warning. -/
lemma RegCall.warnings_eq_nil (h : k.succeeds env cfg = false) : k.warnings env cfg = [] := by
  refine List.filterMap_eq_nil_iff.mpr fun e he => ?_
  cases hw : k.work with
  | op c op =>
    have hne : (execOp env cfg k.pre k.agent c op).1 ≠ .ok := fun hok => by
      rw [(RegCall.succeeds_iff hw).mpr hok] at h
      exact absurd h (by decide)
    obtain ⟨-, es, hev, hes⟩ := execOp_not_ok env cfg hne
    rw [RegCall.events_eq (by rw [RegCall.post_op hw]; exact hev)] at he
    rcases hes e he with ⟨_, rfl, -⟩ | ⟨_, _, _, rfl⟩ | ⟨_, _, rfl⟩
    · rfl
    · rfl
    · rfl
  | _ =>
    obtain ⟨es, hev, hes⟩ := (Mailing.post env cfg (k := k) (by simp [RegCall.isOp, hw])).evs
    rw [RegCall.events_eq hev] at he
    have hm := hes e he
    cases e with
    | warn w => simp [Event.mailing] at hm
    | _ => rfl

/-- The mailbox protocol only touches the `GLOBAL` MMD. -/
lemma RegCall.isOp_of_does {w : Bool} {s m : UInt8} {r : UInt16} (h : k.does env cfg w s m r = true)
    (hm : m ≠ mmdGlobal) : k.isOp = true := by
  by_contra hop
  rw [Bool.not_eq_true] at hop
  obtain ⟨es, hev, hes⟩ := (Mailing.post env cfg hop).evs
  rw [RegCall.does, RegCall.events_eq hev] at h
  obtain ⟨e, he, ha⟩ := List.any_eq_true.mp h
  have hmail := hes e he
  cases e with
  | access x =>
    simp only [Event.mailing, beq_iff_eq] at hmail
    simp only [Event.isAccess, Bool.and_eq_true, beq_iff_eq] at ha
    exact hm (ha.1.2.symm.trans hmail)
  | _ => simp [Event.isAccess] at ha

/-- A call that is not a successful one of `exec_op` leaves the lint state alone. -/
lemma RegCall.lint_post (h : k.succeeds env cfg = false) : (k.post env cfg).io.lint = k.pre.io.lint := by
  cases hw : k.work with
  | op c op =>
    have hne : (execOp env cfg k.pre k.agent c op).1 ≠ .ok := fun hok => by
      rw [(RegCall.succeeds_iff hw).mpr hok] at h
      exact absurd h (by decide)
    rw [RegCall.post_op hw]
    exact (execOp_not_ok env cfg hne).1
  | _ => exact (Mailing.post env cfg (k := k) (by simp [RegCall.isOp, hw])).lint

/-- A call of `exec_op` has an operation. -/
lemma RegCall.work_of_isOp (h : k.isOp = true) : ∃ c, k.work = .op c k.op := by
  unfold RegCall.isOp at h
  split at h
  · rename_i c op hw
    exact ⟨c, by rw [RegCall.op_of_work hw, hw]⟩
  · simp at h

/-- A call that succeeds executes its operation. -/
lemma RegCall.work_of_succeeds (h : k.succeeds env cfg = true) : ∃ c, k.work = .op c k.op :=
  RegCall.work_of_isOp (RegCall.isOp_of_succeeds h)

/-! ## The start -/

variable (env cfg) in
/-- The lint state and the trace ring in which `main` enters its loop. -/
lemma io_boot : (boot env cfg).io.lint =
      ⟨fun _ _ => ⟨0, []⟩, fun _ => ⟨0, [], 0⟩, fun _ => ⟨0, 0, 0, 0, [], 0⟩, 0, 0⟩ ∧
    (boot env cfg).io.ringW = 0 ∧ (boot env cfg).io.nClock = 0 := by
  unfold boot
  dsimp only
  obtain ⟨n, hn⟩ := spiReadReg_io env cfg
    { nIoctl := 0, nClock := 0, nSend := 0, nPkt := 0, nReads := 0, nWrites := 0, nIoErr := 0
      ring := fun _ => ⟨0, 0, 0, 0, 0, 0, 0⟩, ringW := 0
      lint := ⟨fun _ _ => ⟨0, []⟩, fun _ => ⟨0, [], 0⟩, fun _ => ⟨0, 0, 0, 0, [], 0⟩, 0, 0⟩
      evs := [] } 0 mmdGlobal cfg.deviceIdReg
  rw [hn]
  split_ifs <;> exact ⟨rfl, rfl, rfl⟩

/-! ## Clients -/

/-- The identifiers of the first `2 ^ 32 - 1` connections are not 0, and all different. -/
lemma clientId_ne_zero {fd : ℕ} (h : fd + 1 < 2 ^ 32) : clientId fd ≠ 0 := by
  intro h0
  have := congrArg UInt32.toNat h0
  simp [clientId, UInt32.toNat_ofNat] at this
  omega

/-- Two connections have different identifiers unless the counter has wrapped. -/
lemma clientId_inj {fd fd' : ℕ} (h : fd + 1 < 2 ^ 32) (h' : fd' + 1 < 2 ^ 32) :
    clientId fd = clientId fd' ↔ fd = fd' := by
  refine ⟨fun he => ?_, fun he => by rw [he]⟩
  have := congrArg UInt32.toNat he
  simp [clientId, UInt32.toNat_ofNat] at this
  omega

/-- **Who a call of `exec_op` is made for**, in a run with fewer than `2 ^ 32` connections. -/
lemma named_of_calls {is : List Input} {ks ks' : List RegCall} (h : calls env cfg is = ks ++ k :: ks')
    (hn : (run env cfg is).nConn < 2 ^ 32) (hop : k.isOp = true) :
    k.pre.lctx.cid = k.client.id ∧ k.client.id = clientId k.client.fd ∧ k.client.fd + 1 < 2 ^ 32 := by
  have hmem : k ∈ calls env cfg is := by simp [h]
  have hk := named_of_mem_calls hmem hop
  obtain ⟨-, -, -, hle⟩ := steps_of_calls h
  have hlt := hk.lt
  exact ⟨hk.ctx, hk.id, by unfold RegCall.client; omega⟩

end

end Spid

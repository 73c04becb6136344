import SpidevProxy.Lib.Ring
import SpidevProxy.RmwRace

set_option relaxedAutoImplicit false
set_option autoImplicit false

/-!
# What the rmw-race detector misses

The other half of `SpidevProxy.RmwRace`: which lost updates are warned about. A read stays in
`g.rd_ring` until sixteen further reads have been made, or until a warning has been given for it. So
if a client reads a register and another one writes it less than 10 ms later, there is a warning for
that write, or there has been one for that read before, unless sixteen other reads lie in between. Of
`2 ^ 32` connections one has the identifier 0, which marks an empty entry.

## Main definitions

* `Spid.RegCall.isRead`, `Spid.RegCall.rdEnt` — the reads that go into the ring, and their entries.
* `Spid.RegCall.Strikes`, `Spid.RegCall.Reports` — the call gives a warning for an entry, or for a read.
* `Spid.Watched` — the ring keeps the last sixteen reads that no warning was given for.

## Main results

* `Spid.watched_of_steps` — every run keeps them.
* `Spid.rmw_race_complete` — a lost update is warned about.
-/

namespace Spid

open History

section

variable (g : Daemon) (now : UInt64) (op : Op)

/-- A read goes into the cell that the counter names, and the counter goes on. -/
lemma rd_lintRmwRace_of_read (h : op.write = 0) :
    (lintRmwRace g now op).io.lint.rdRing = Function.update g.io.lint.rdRing
      (Fin.ofNat 16 (g.io.lint.rdW.toNat % 16))
      ⟨op.slice, op.mmd, op.reg, g.lctx.cid, g.lctx.comm, now⟩ ∧
    (lintRmwRace g now op).io.lint.rdW = g.io.lint.rdW + 1 := by
  unfold lintRmwRace
  rw [if_neg (not_not.mpr h)]
  exact ⟨rfl, rfl⟩

/-- A write clears the entry that it gives a warning for, and no other. -/
lemma rd_lintRmwRace_of_write (h : op.write ≠ 0) :
    (lintRmwRace g now op).io.lint.rdW = g.io.lint.rdW ∧
    ∀ i, (lintRmwRace g now op).io.lint.rdRing i = g.io.lint.rdRing i ∨
      (List.finRange 16).find? (rmwHit g now op) = some i := by
  unfold lintRmwRace
  rw [if_pos h]
  cases (List.finRange 16).find? (rmwHit g now op) with
  | none => exact ⟨rfl, fun _ => Or.inl rfl⟩
  | some j =>
    refine ⟨rfl, fun i => ?_⟩
    by_cases hij : i = j
    · exact Or.inr (congrArg some hij.symm)
    · exact Or.inl (Function.update_of_ne hij _ _)

end

section

variable (env : Env) (cfg : Config)

/-- **A successful read of `exec_op`**, which goes into the ring. -/
def RegCall.isRead (k : RegCall) : Bool := k.succeeds env cfg && k.op.write == 0

/-- Its entry. -/
def RegCall.rdEnt (k : RegCall) : RdEnt :=
  ⟨k.op.slice, k.op.mmd, k.op.reg, k.pre.lctx.cid, k.pre.lctx.comm, k.now env⟩

/-- The call gives a warning for the entry `e`: it names the client and the register in it. -/
def RegCall.Strikes (e : RdEnt) (k : RegCall) : Prop :=
  ∃ op age, Warning.rmwRace k.pre.lctx.cid op e.cid age ∈ k.warnings env cfg ∧
    op.slice = e.slice ∧ op.mmd = e.mmd ∧ op.reg = e.reg

/-- **The call gives a warning for the read `k₀`**: it names the client that has read and the register. -/
def RegCall.Reports (k₀ k : RegCall) : Prop :=
  ∃ op age, Warning.rmwRace k.client.id op k₀.client.id age ∈ k.warnings env cfg ∧
    op.slice = k₀.op.slice ∧ op.mmd = k₀.op.mmd ∧ op.reg = k₀.op.reg

/-- The number of reads that go into the ring. -/
def readCount (ks : List RegCall) : ℕ := (ks.filter (RegCall.isRead env cfg)).length

/-- **The ring keeps the last sixteen reads that no warning was given for**, each in the cell of its
number. -/
structure Watched (ks : List RegCall) (g : Daemon) : Prop where
  count : g.io.lint.rdW.toNat = readCount env cfg ks % 2 ^ 32
  cell : ∀ pre k₀ post, ks = pre ++ k₀ :: post → k₀.isRead env cfg = true →
    readCount env cfg post < 16 →
      g.io.lint.rdRing (Fin.ofNat 16 (readCount env cfg pre)) = k₀.rdEnt env ∨
      ∃ x ∈ post, x.Strikes env cfg (k₀.rdEnt env)

variable {env cfg}

/-- Counting the reads of two runs, one after the other. -/
lemma readCount_append (ks ks' : List RegCall) :
    readCount env cfg (ks ++ ks') = readCount env cfg ks + readCount env cfg ks' := by
  rw [readCount, List.filter_append, List.length_append]
  rfl

/-- A single call counts if it is a read. -/
lemma readCount_singleton (k : RegCall) :
    readCount env cfg [k] = (k.isRead env cfg).toNat := by
  unfold readCount
  cases h : k.isRead env cfg <;> simp [h]

variable (env) in
/-- `lint_op` and the ring of reads. -/
lemma rd_lintOp (g : Daemon) (op : Op) :
    (op.write = 0 → (lintOp env g op).io.lint.rdRing = Function.update g.io.lint.rdRing
        (Fin.ofNat 16 (g.io.lint.rdW.toNat % 16))
        ⟨op.slice, op.mmd, op.reg, g.lctx.cid, g.lctx.comm, env.clock g.io.nClock⟩ ∧
      (lintOp env g op).io.lint.rdW = g.io.lint.rdW + 1) ∧
    (op.write ≠ 0 → (lintOp env g op).io.lint.rdW = g.io.lint.rdW ∧
      ∀ i, (lintOp env g op).io.lint.rdRing i = g.io.lint.rdRing i ∨
        (List.finRange 16).find? (rmwHit g (env.clock g.io.nClock) op) = some i) := by
  obtain ⟨-, pl, -, -, pr, pw⟩ := lintPageRide_spec (nowUs env g).2 op
  obtain ⟨-, cl, -, -, cr, cw, -⟩ := lintCorPoach_spec (lintPageRide (nowUs env g).2 op)
    (env.clock g.io.nClock) op
  set g₃ := lintCorPoach (lintPageRide (nowUs env g).2 op) (env.clock g.io.nClock) op
  have hring : g₃.io.lint.rdRing = g.io.lint.rdRing := cr.trans pr
  have hw : g₃.io.lint.rdW = g.io.lint.rdW := cw.trans pw
  have hctx : g₃.lctx = g.lctx := cl.trans pl
  have hhit : rmwHit g₃ (env.clock g.io.nClock) op = rmwHit g (env.clock g.io.nClock) op := by
    funext i
    unfold rmwHit
    rw [hring, hctx]
  have heq : lintOp env g op = lintRmwRace g₃ (env.clock g.io.nClock) op := rfl
  refine ⟨fun h => ?_, fun h => ?_⟩
  · have := rd_lintRmwRace_of_read g₃ (env.clock g.io.nClock) op h
    rwa [hring, hw, hctx] at this
  · have := rd_lintRmwRace_of_write g₃ (env.clock g.io.nClock) op h
    rwa [hring, hw, hhit] at this

/-- A successful call of `exec_op` changes the lint state as `lint_op` does it, one reading of the clock
later, for the operation with the value that was read. -/
lemma lint_execOp {g : Daemon} {ag : Agent} {c : Option Slot} {op : Op}
    (h : (execOp env cfg g ag c op).1 = .ok) :
    ∃ g₁ op', (execOp env cfg g ag c op).2.2.io.lint = (lintOp env g₁ op').io.lint ∧ op.SameAs op' ∧
      g₁.lctx = g.lctx ∧ g₁.io.lint = g.io.lint ∧ g₁.io.nClock = g.io.nClock + 1 := by
  rw [execOp_eq] at h ⊢
  have hne := (opRefusal_spec g.mbInflight c op).1
  cases hr : opRefusal g.mbInflight c op with
  | some st =>
    rw [hr] at h hne
    exact absurd h fun hst => hne (by rw [← hst])
  | none =>
    rw [hr] at h
    obtain ⟨hsame, hfr, -, hli, -, -, hcl⟩ := opAccess_spec env cfg g ag op
    dsimp only at h ⊢
    generalize opAccess env cfg g ag op = r at *
    obtain ⟨ok, op', g₁⟩ := r
    dsimp only at *
    have hok : ok = true := by
      cases ok
      · simp at h
      · rfl
    subst hok
    rw [if_pos rfl, (logOp_spec cfg _ ag op' true).2.1]
    refine ⟨_, op', rfl, hsame, ?_, hli, congrArg (· + 1) hcl⟩
    change g₁.lctx = g.lctx
    rw [hfr]

/-- The detector compares registers, not values. -/
lemma rmwHit_congr {g g' : Daemon} {op op' : Op} (hl : g'.lctx = g.lctx)
    (hr : g'.io.lint.rdRing = g.io.lint.rdRing) (h : op.SameAs op') (now : UInt64) :
    rmwHit g' now op' = rmwHit g now op := by
  obtain ⟨hs, -, hm, hrg⟩ := h
  funext i
  unfold rmwHit
  rw [hl, hr, hs, hm, hrg]

variable {k : RegCall}

/-- A read goes into the ring. -/
lemma RegCall.rd_post_of_isRead (h : k.isRead env cfg = true) :
    (k.post env cfg).io.lint.rdRing = Function.update k.pre.io.lint.rdRing
      (Fin.ofNat 16 (k.pre.io.lint.rdW.toNat % 16)) (k.rdEnt env) ∧
    (k.post env cfg).io.lint.rdW = k.pre.io.lint.rdW + 1 := by
  obtain ⟨hok, hrd⟩ := Bool.and_eq_true_iff.mp h
  obtain ⟨c, hw⟩ := RegCall.work_of_succeeds hok
  obtain ⟨g₁, op', hlint, ⟨hs, hwr, hm, hrg⟩, hl, hi, hn⟩ :=
    lint_execOp ((RegCall.succeeds_iff hw).mp hok)
  have := (rd_lintOp env g₁ op').1 (hwr.trans (eq_of_beq hrd))
  rw [RegCall.post_op hw, hlint]
  rwa [hl, hi, hn, hs, hm, hrg] at this

/-- A hit of the detector is a warning. -/
lemma RegCall.warns_of_find (hok : k.succeeds env cfg = true) (hwr : k.op.write ≠ 0) {i : Fin 16}
    (hf : (List.finRange 16).find? (rmwHit k.pre (k.now env) k.op) = some i) :
    ∃ op, k.op.SameAs op ∧ Warning.rmwRace k.pre.lctx.cid op (k.pre.io.lint.rdRing i).cid
      ((k.now env - (k.pre.io.lint.rdRing i).ts) / 1000) ∈ k.warnings env cfg := by
  obtain ⟨c, hw⟩ := RegCall.work_of_succeeds hok
  obtain ⟨op', hsame, hwarn⟩ := RegCall.warnings_op hw hok
  refine ⟨op', hsame, ?_⟩
  rw [hwarn, lintWarnings]
  refine List.mem_append_right _ (Option.mem_toList.mpr ?_)
  have hwr' : op'.write ≠ 0 := by rwa [hsame.2.1]
  rw [rmwWarning, if_pos hwr', rmwHit_congr rfl rfl hsame, hf]
  rfl

/-- Any other call leaves the ring alone, up to the entry that it gives a warning for. -/
lemma RegCall.rd_post_of_not_isRead (h : k.isRead env cfg = false) :
    (k.post env cfg).io.lint.rdW = k.pre.io.lint.rdW ∧
    ∀ i, (k.post env cfg).io.lint.rdRing i = k.pre.io.lint.rdRing i ∨
      k.succeeds env cfg = true ∧ k.op.write ≠ 0 ∧
        (List.finRange 16).find? (rmwHit k.pre (k.now env) k.op) = some i := by
  cases hok : k.succeeds env cfg with
  | false =>
    rw [RegCall.lint_post hok]
    exact ⟨rfl, fun _ => Or.inl rfl⟩
  | true =>
    have hwr : k.op.write ≠ 0 := fun h0 => by simp [RegCall.isRead, hok, h0] at h
    obtain ⟨c, hw⟩ := RegCall.work_of_succeeds hok
    obtain ⟨g₁, op', hlint, hsame, hl, hi, hn⟩ := lint_execOp ((RegCall.succeeds_iff hw).mp hok)
    have hring := (rd_lintOp env g₁ op').2 (by rwa [hsame.2.1])
    rw [rmwHit_congr hl (by rw [hi]) hsame, hi, hn] at hring
    rw [RegCall.post_op hw, hlint]
    exact ⟨hring.1, fun i => (hring.2 i).imp_right fun hf => ⟨rfl, hwr, hf⟩⟩

/-- The first hit is what the warning is given for. -/
lemma RegCall.strikes_of_find {i : Fin 16} (hok : k.succeeds env cfg = true) (hwr : k.op.write ≠ 0)
    (hf : (List.finRange 16).find? (rmwHit k.pre (k.now env) k.op) = some i) :
    k.Strikes env cfg (k.pre.io.lint.rdRing i) := by
  obtain ⟨op, ⟨hs, -, hm, hr⟩, hmem⟩ := RegCall.warns_of_find hok hwr hf
  have hhit := List.find?_some hf
  simp only [rmwHit, Bool.and_eq_true, decide_eq_true_eq] at hhit
  obtain ⟨⟨⟨-, h₃⟩, h₄⟩, h₅⟩ := hhit.1
  exact ⟨op, _, hmem, hs.trans h₃.symm, hm.trans h₄.symm, hr.trans h₅.symm⟩

/-- **A read keeps the last sixteen reads**: it takes the place of the one sixteen reads ago. -/
lemma Watched.read {ks : List RegCall} (h : Watched env cfg ks k.pre) (hrd : k.isRead env cfg = true) :
    Watched env cfg (ks ++ [k]) (k.post env cfg) := by
  obtain ⟨hring, hw⟩ := RegCall.rd_post_of_isRead hrd
  have hcell : Fin.ofNat 16 (k.pre.io.lint.rdW.toNat % 16) = Fin.ofNat 16 (readCount env cfg ks) :=
    Ring.ofNat_eq_of_mod (by rw [h.count]; omega)
  rw [hcell] at hring
  refine ⟨?_, fun pre k₀ post hks h₀ hlt => ?_⟩
  · rw [hw, UInt32.toNat_add, h.count, readCount_append, readCount_singleton, hrd]
    exact Nat.mod_add_mod _ _ _
  rcases split_snoc hks with ⟨rfl, rfl, rfl⟩ | ⟨post, rfl, rfl⟩
  · exact Or.inl (by rw [hring, Function.update_self])
  · rw [readCount_append, readCount_singleton, hrd] at hlt
    change readCount env cfg post + 1 < 16 at hlt
    rcases h.cell pre k₀ post rfl h₀ (by omega) with he | ⟨x, hx, hrep⟩
    · -- the two reads are less than a round apart
      have hn : readCount env cfg (pre ++ k₀ :: post) =
          readCount env cfg pre + (1 + readCount env cfg post) := by
        rw [← List.singleton_append, readCount_append, readCount_append, readCount_singleton, h₀]
        rfl
      refine Or.inl ?_
      rw [hring, Function.update_of_ne (Ring.ofNat_ne (by omega) (by omega)), he]
    · exact Or.inr ⟨x, List.mem_append_left _ hx, hrep⟩

/-- **Any other call keeps the last sixteen reads**: it clears none without a warning. -/
lemma Watched.other {ks : List RegCall} (h : Watched env cfg ks k.pre)
    (hrd : k.isRead env cfg = false) : Watched env cfg (ks ++ [k]) (k.post env cfg) := by
  obtain ⟨hw, hring⟩ := RegCall.rd_post_of_not_isRead hrd
  refine ⟨?_, fun pre k₀ post hks h₀ hlt => ?_⟩
  · rw [hw, h.count, readCount_append, readCount_singleton, hrd]
    rfl
  rcases split_snoc hks with ⟨rfl, rfl, rfl⟩ | ⟨post, rfl, rfl⟩
  · rw [h₀] at hrd
    exact absurd hrd (by decide)
  · rw [readCount_append] at hlt
    rcases h.cell pre k₀ post rfl h₀ (by omega) with he | ⟨x, hx, hrep⟩
    · rcases hring (Fin.ofNat 16 (readCount env cfg pre)) with hsame | ⟨hok, hwr, hf⟩
      · exact Or.inl (hsame.trans he)
      · exact Or.inr ⟨k, by simp, he ▸ RegCall.strikes_of_find hok hwr hf⟩
    · exact Or.inr ⟨x, List.mem_append_left _ hx, hrep⟩

/-- **Every run keeps the last sixteen reads** that no warning was given for. -/
lemma watched_of_steps {ks : List RegCall} {g : Daemon}
    (h : Steps (Goes env cfg) (boot env cfg) ks g) : Watched env cfg ks g := by
  refine Steps.invariant (P := Watched env cfg) ?_ ?_ h
  · refine ⟨?_, fun pre k₀ post hks => by simp at hks⟩
    rw [(io_boot env cfg).1]
    rfl
  · rintro ks g k g' - ih ⟨hb, rfl⟩
    have hpre : Watched env cfg ks k.pre := ⟨by rw [hb.lint]; exact ih.count, by
      rw [hb.lint]; exact ih.cell⟩
    cases hrd : k.isRead env cfg with
    | true => exact hpre.read hrd
    | false => exact hpre.other hrd

/-- A fresh read of another client in the ring is warned about when the register is written. -/
lemma RegCall.warns_of_fresh {k₀ : RegCall} (hok : k.succeeds env cfg = true) (hwr : k.op.write ≠ 0)
    {i : Fin 16} (he : k.pre.io.lint.rdRing i = k₀.rdEnt env) (h0 : k₀.pre.lctx.cid ≠ 0)
    (hne : k₀.pre.lctx.cid ≠ k.pre.lctx.cid) (hs : k₀.op.slice = k.op.slice)
    (hm : k₀.op.mmd = k.op.mmd) (hr : k₀.op.reg = k.op.reg)
    (hage : k.now env - k₀.now env < lintRmwWindowUs) :
    ∃ op a age, Warning.rmwRace k.pre.lctx.cid op a age ∈ k.warnings env cfg ∧ k.op.SameAs op := by
  have hhit : rmwHit k.pre (k.now env) k.op i = true := by
    simp only [rmwHit, he, RegCall.rdEnt, Bool.and_eq_true, decide_eq_true_eq]
    exact ⟨⟨⟨⟨⟨h0, hne⟩, hs⟩, hm⟩, hr⟩, hage⟩
  cases hf : (List.finRange 16).find? (rmwHit k.pre (k.now env) k.op) with
  | none => exact absurd hhit (List.find?_eq_none.mp hf i (List.mem_finRange i))
  | some j =>
    obtain ⟨op, hsame, hmem⟩ := RegCall.warns_of_find hok hwr hf
    exact ⟨op, _, _, hmem, hsame⟩

/-- A warning for the entry of a read names the client that has read, in a run. -/
lemma RegCall.Strikes.reports {is : List Input} {k₀ x : RegCall} (h₀ : k₀ ∈ calls env cfg is)
    (hx : x ∈ calls env cfg is) (hop : k₀.isOp = true) (h : x.Strikes env cfg (k₀.rdEnt env)) :
    k₀.Reports env cfg x := by
  obtain ⟨op, age, hmem, hreg⟩ := h
  have hctx : k₀.pre.lctx.cid = k₀.client.id := (named_of_mem_calls h₀ hop).ctx
  have hctx' : x.pre.lctx.cid = x.client.id :=
    (named_of_mem_calls hx (RegCall.isOp_of_succeeds (hit_of_rmwRace hmem).1)).ctx
  refine ⟨op, age, ?_, hreg⟩
  rw [← hctx, ← hctx']
  exact hmem

/-- **A lost update is warned about.** In any run with fewer than `2 ^ 32` connections, take a successful
read of `exec_op` and a later call `k` with fewer than sixteen other such reads in between. The entry of
the read is still in the ring when `k` starts, unless a call in between has given a warning that names the
reader and the register. And if `k` is a successful write of the register by `exec_op` for another
connection, less than 10 ms after the read, then it gives a warning for the register, or such a warning has
been given in between.

**Proof sketch.** The ring holds the entry by `watched_of_steps`. Since the identifiers of the connections
are different and not 0, it is a hit of the detector, which gives a warning for the first hit. -/
theorem rmw_race_complete {is : List Input} {pre mid post : List RegCall} {k₀ k : RegCall}
    (h : calls env cfg is = pre ++ k₀ :: (mid ++ k :: post)) (hn : (run env cfg is).nConn < 2 ^ 32)
    (hread : k₀.isRead env cfg = true) (hmid : readCount env cfg mid < 16) :
    ((∃ i, k.pre.io.lint.rdRing i = k₀.rdEnt env) ∨ ∃ x ∈ mid, k₀.Reports env cfg x) ∧
    (k.succeeds env cfg = true → k.op.write ≠ 0 → k₀.op.slice = k.op.slice → k₀.op.mmd = k.op.mmd →
      k₀.op.reg = k.op.reg → k.client.fd ≠ k₀.client.fd →
      k.now env - k₀.now env < lintRmwWindowUs →
      (∃ op a age, Warning.rmwRace k.client.id op a age ∈ k.warnings env cfg ∧ k.op.SameAs op) ∨
        ∃ x ∈ mid, k₀.Reports env cfg x) := by
  have hsplit : calls env cfg is = (pre ++ k₀ :: mid) ++ k :: post := by rw [h]; simp
  obtain ⟨g, hsteps, hbet, -⟩ := steps_of_calls hsplit
  have hop₀ := RegCall.isOp_of_succeeds (Bool.and_eq_true_iff.mp hread).1
  have hwatch : k.pre.io.lint.rdRing (Fin.ofNat 16 (readCount env cfg pre)) = k₀.rdEnt env ∨
      ∃ x ∈ mid, k₀.Reports env cfg x := by
    rw [hbet.lint]
    refine ((watched_of_steps hsteps).cell pre k₀ mid rfl hread hmid).imp_right ?_
    rintro ⟨x, hx, hstrike⟩
    exact ⟨x, hx, hstrike.reports (show k₀ ∈ calls env cfg is by simp [h]) (by simp [h, hx]) hop₀⟩
  refine ⟨hwatch.imp_left fun he => ⟨_, he⟩, fun hok hwrite hs hm hr hother hage => ?_⟩
  refine hwatch.imp_left fun he => ?_
  obtain ⟨hctx, hid, hfd⟩ := named_of_calls hsplit hn (RegCall.isOp_of_succeeds hok)
  obtain ⟨hctx₀, hid₀, hfd₀⟩ := named_of_calls h hn hop₀
  have hne : k₀.client.id ≠ k.client.id := by
    rw [hid, hid₀, Ne, clientId_inj hfd₀ hfd]
    exact hother.symm
  have h0 : k₀.client.id ≠ 0 := by
    rw [hid₀]
    exact clientId_ne_zero hfd₀
  rw [← hctx]
  exact RegCall.warns_of_fresh hok hwrite he (by rwa [hctx₀]) (by rwa [hctx₀, hctx]) hs hm hr hage

end

/-- The theorem at the read of client 0 and the write of client 1. -/
theorem rmw_race_complete_lostUpdate :
    ∃ k₀ k post, calls (Env.still 0) Config.plain lostUpdate = k₀ :: k :: post ∧
      k₀.isRead (Env.still 0) Config.plain = true ∧ k₀.client.fd = 0 ∧ k.client.fd = 1 ∧
      (∃ i, k.pre.io.lint.rdRing i = k₀.rdEnt (Env.still 0)) ∧
      ∃ op a age, Warning.rmwRace k.client.id op a age ∈ k.warnings (Env.still 0) Config.plain ∧
        k.op.SameAs op := by
  have hsplit : calls (Env.still 0) Config.plain lostUpdate = [] ++
      (calls (Env.still 0) Config.plain lostUpdate).get ⟨0, Nat.zero_lt_of_lt length_calls_lostUpdate⟩ ::
        ([] ++ (calls (Env.still 0) Config.plain lostUpdate).get ⟨1, length_calls_lostUpdate⟩ ::
          (calls (Env.still 0) Config.plain lostUpdate).drop 2) := by
    simp only [List.nil_append, List.get_eq_getElem, ← List.drop_eq_getElem_cons, List.drop_zero]
  obtain ⟨hring, hwarned⟩ := rmw_race_complete hsplit (by decide +kernel) (by decide +kernel)
    (by decide +kernel)
  have hw := hwarned (by decide +kernel) (by decide +kernel) (by decide +kernel) (by decide +kernel)
    (by decide +kernel) (by decide +kernel) (by decide +kernel)
  exact ⟨_, _, _, hsplit, by decide +kernel, by decide +kernel, by decide +kernel,
    hring.resolve_right (by simp), hw.resolve_right (by simp)⟩

end Spid

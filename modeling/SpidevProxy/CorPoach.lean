import SpidevProxy.Lint

set_option relaxedAutoImplicit false
set_option autoImplicit false

/-!
# The cor-poach detector

The counters `BASER_STATUS2` are cleared by a read, so a client that reads one takes the count away from
the client that polls it. There is one counter for each slice and side. `g.cor_last`, however, has one
cell for each side only: it names the client of the latest read of that side, whatever the slice. A
warning is right when that read was one of the same slice; otherwise it may be a false alarm, or
missing.

## Main definitions

* `Spid.RegCall.readsCounter`, `Spid.RegCall.readsSide` — the call reads the counter of a slice and side;
  it reads a counter of a side.
* `Spid.RegCall.Poaches` — another client, less than 120 s later.

## Main results

* `Spid.corLast_eq` — the cell of a side names the client and the time of the latest read of that side.
* `Spid.cor_poach_exact` — when a cor-poach warning is given, and when it is right.
-/

namespace Spid

open History

/-- The warnings of the cor-poach detector. -/
def Warning.isCorPoach : Warning → Bool
  | .corPoach _ _ _ _ => true
  | _ => false

/-- A successful read of the counter of some slice. -/
def Event.readsSide (mmd : UInt8) : Event → Bool
  | .access x => x.ok && !x.write && x.mmd == mmd && x.reg == baserStatus2
  | _ => false

section

variable (env : Env) (cfg : Config)

/-- **The call successfully reads the counter of slice `s` and side `m`.** -/
def RegCall.readsCounter (s m : UInt8) (k : RegCall) : Bool := k.does env cfg false s m baserStatus2

/-- The call successfully reads a counter of side `m`. -/
def RegCall.readsSide (m : UInt8) (k : RegCall) : Bool := (k.events env cfg).any (Event.readsSide m)

/-- **The call takes the count away from another client**, which has read less than 120 s before. -/
def RegCall.Poaches (k k₀ : RegCall) : Prop :=
  k₀.client.fd ≠ k.client.fd ∧ k.now env - k₀.now env < lintCorWindowUs

variable {env cfg}

/-- A call reads a side if it reads the counter of some slice on that side. -/
lemma RegCall.readsSide_iff {m : UInt8} {k : RegCall} :
    k.readsSide env cfg m = true ↔ ∃ s, k.readsCounter env cfg s m = true := by
  simp only [RegCall.readsSide, RegCall.readsCounter, RegCall.does, List.any_eq_true]
  constructor
  · rintro ⟨e, he, hr⟩
    cases e with
    | access x =>
      simp only [Event.readsSide, Bool.and_eq_true, Bool.not_eq_true'] at hr
      exact ⟨x.slice, _, he, by simp [Event.isAccess, hr.1.1.1, hr.1.1.2, hr.1.2, hr.2]⟩
    | _ => simp [Event.readsSide] at hr
  · rintro ⟨s, e, he, hr⟩
    cases e with
    | access x =>
      simp only [Event.isAccess, Bool.and_eq_true, beq_iff_eq] at hr
      exact ⟨_, he, by simp [Event.readsSide, hr.1.1.1.1, hr.1.1.1.2, hr.1.2, hr.2]⟩
    | _ => simp [Event.isAccess] at hr

/-- The mailbox code reads no counter. -/
lemma ne_global_of_counter {m : UInt8} (hm : m = mmdHostPcs ∨ m = mmdMacLinePcs) : m ≠ mmdGlobal := by
  rcases hm with rfl | rfl
  · decide
  · decide

/-- A call that reads a counter is a successful one of `exec_op`, and reads the counter of its slice. -/
lemma RegCall.readsSide_spec {m : UInt8} {k : RegCall} (hm : m = mmdHostPcs ∨ m = mmdMacLinePcs) :
    k.readsSide env cfg m = true ↔
      k.succeeds env cfg = true ∧ CounterRead k.op ∧ k.op.mmd = m := by
  rw [RegCall.readsSide_iff]
  constructor
  · rintro ⟨s, hs⟩
    obtain ⟨c, hw⟩ := RegCall.work_of_isOp (RegCall.isOp_of_does hs (ne_global_of_counter hm))
    obtain ⟨hok, hwr, -, hmm, hr⟩ := (RegCall.does_op hw _ _ _ _).mp hs
    refine ⟨hok, ⟨by simpa using hwr, hr, ?_⟩, hmm⟩
    rw [hmm]
    exact hm
  · rintro ⟨hok, ⟨hwr, hr, -⟩, hmm⟩
    obtain ⟨c, hw⟩ := RegCall.work_of_succeeds hok
    exact ⟨k.op.slice, (RegCall.does_op hw _ _ _ _).mpr ⟨hok, by simp [hwr], rfl, hmm, hr⟩⟩

/-- A call that reads a counter reads that of the slice in its operation. -/
lemma RegCall.readsCounter_spec {s m : UInt8} {k : RegCall}
    (hm : m = mmdHostPcs ∨ m = mmdMacLinePcs) :
    k.readsCounter env cfg s m = true ↔ k.readsSide env cfg m = true ∧ k.op.slice = s := by
  constructor
  · intro hs
    obtain ⟨c, hw⟩ := RegCall.work_of_isOp (RegCall.isOp_of_does hs (ne_global_of_counter hm))
    exact ⟨RegCall.readsSide_iff.mpr ⟨s, hs⟩, ((RegCall.does_op hw _ _ _ _).mp hs).2.2.1⟩
  · rintro ⟨hside, rfl⟩
    obtain ⟨hok, ⟨hwr, hr, -⟩, hmm⟩ := (RegCall.readsSide_spec hm).mp hside
    obtain ⟨c, hw⟩ := RegCall.work_of_succeeds hok
    exact (RegCall.does_op hw _ _ _ _).mpr ⟨hok, by simp [hwr], rfl, hmm, hr⟩

/-- The two sides have cells of their own. -/
lemma corSide_inj {m m' : UInt8} (h : m = mmdHostPcs ∨ m = mmdMacLinePcs)
    (h' : m' = mmdHostPcs ∨ m' = mmdMacLinePcs) : corSide m = corSide m' ↔ m = m' := by
  rcases h with rfl | rfl <;> rcases h' with rfl | rfl <;> decide

/-- **One call**: the cell of a side changes at a successful read of that side, to the client of the log
context and the time. -/
lemma corLast_post {k : RegCall} {m : UInt8} (hm : m = mmdHostPcs ∨ m = mmdMacLinePcs) :
    (((k.post env cfg).io.lint.corLast (corSide m)).cid,
      ((k.post env cfg).io.lint.corLast (corSide m)).ts) =
      if k.readsSide env cfg m = true then (k.pre.lctx.cid, k.now env)
      else ((k.pre.io.lint.corLast (corSide m)).cid, (k.pre.io.lint.corLast (corSide m)).ts) := by
  by_cases hok : k.succeeds env cfg = true
  · obtain ⟨c, hw⟩ := RegCall.work_of_succeeds hok
    obtain ⟨-, -, op', es, -, -, -, -, hc, -⟩ := execOp_ok env cfg ((RegCall.succeeds_iff hw).mp hok)
    rw [RegCall.post_op hw, hc (corSide m)]
    by_cases hr : k.readsSide env cfg m = true
    · obtain ⟨-, hread, hmm⟩ := (RegCall.readsSide_spec hm).mp hr
      rw [if_pos ⟨hread, by rw [hmm]⟩, if_pos hr]
      rfl
    · rw [if_neg, if_neg hr]
      rintro ⟨hread, hside⟩
      exact hr ((RegCall.readsSide_spec hm).mpr ⟨hok, hread, (corSide_inj hread.2.2 hm).mp hside⟩)
  · rw [if_neg fun hr => hok ((RegCall.readsSide_spec hm).mp hr).1,
      RegCall.lint_post (Bool.eq_false_of_not_eq_true hok)]

/-- **The cell of a side names the client and the time of the latest read of that side.** -/
lemma corLast_eq {ks : List RegCall} {g : Daemon} (h : Steps (Goes env cfg) (boot env cfg) ks g)
    {m : UInt8} (hm : m = mmdHostPcs ∨ m = mmdMacLinePcs) :
    ((g.io.lint.corLast (corSide m)).cid, (g.io.lint.corLast (corSide m)).ts) =
      ((latest (RegCall.readsSide env cfg m) ks).map fun k => (k.pre.lctx.cid, k.now env)).getD
        (0, 0) := by
  have hcell := Steps.cell_eq
    (fun g : Daemon => ((g.io.lint.corLast (corSide m)).cid, (g.io.lint.corLast (corSide m)).ts))
    (fun k : RegCall => (k.pre.lctx.cid, k.now env)) (p := RegCall.readsSide env cfg m)
    (fun g k g' hg hp => by
      obtain ⟨hb, rfl⟩ := hg
      rw [corLast_post hm, if_pos hp])
    (fun g k g' hg hp => by
      obtain ⟨hb, rfl⟩ := hg
      rw [corLast_post hm, if_neg (by rw [hp]; decide), hb.lint]) h
  rw [hcell, (io_boot env cfg).1]

/-- What `lint_op` says about counters in a call of `exec_op` that succeeds. -/
lemma any_isCorPoach {k : RegCall} (hok : k.succeeds env cfg = true) :
    (k.warnings env cfg).any Warning.isCorPoach = true ↔
      (corWarning k.pre.io.lint k.pre.lctx.cid (k.now env) k.op).isSome = true := by
  obtain ⟨c, hw⟩ := RegCall.work_of_succeeds hok
  generalize k.op = op at hw ⊢
  obtain ⟨op', ⟨hs, hwr, hm, hr⟩, hwarn⟩ := RegCall.warnings_op hw hok
  have hsome : (corWarning k.pre.io.lint k.pre.lctx.cid (k.now env) op').isSome =
      (corWarning k.pre.io.lint k.pre.lctx.cid (k.now env) op).isSome := by
    unfold corWarning CounterRead
    dsimp only
    rw [hwr, hm, hr]
    split_ifs <;> rfl
  have hpage : (pageWarning k.pre.io.lint k.pre.lctx.cid op').toList.any Warning.isCorPoach = false :=
    any_toList_of_neg fun w h => by
      obtain ⟨_, rfl⟩ := eq_of_mem_pageWarning h
      rfl
  have hrmw : (rmwWarning k.pre (k.now env) op').toList.any Warning.isCorPoach = false :=
    any_toList_of_neg fun w h => by
      obtain ⟨_, _, rfl⟩ := eq_of_mem_rmwWarning h
      rfl
  have hcor : (corWarning k.pre.io.lint k.pre.lctx.cid (k.now env) op').toList.any Warning.isCorPoach =
      (corWarning k.pre.io.lint k.pre.lctx.cid (k.now env) op').isSome := any_toList_of_pos fun w h => by
    obtain ⟨_, _, rfl⟩ := eq_of_mem_corWarning h
    rfl
  rw [hwarn, lintWarnings, List.any_append, List.any_append, ← hsome, hpage, hrmw, hcor, Bool.or_false,
    Bool.false_or]

/-- What the detector does: a read is warned about when the latest read of its side, of any slice, was
made by another client less than 120 s before.

**Proof sketch.** `cor_last` holds the context and the time of the latest counter read of the side
(`corLast_eq`), or nothing. The identifiers in the contexts are those of the connections, which
differ as long as the counter has not wrapped, so the two conditions say the same. -/
lemma cor_poach_side {is : List Input} {ks ks' : List RegCall} {k : RegCall}
    (h : calls env cfg is = ks ++ k :: ks') (hn : (run env cfg is).nConn < 2 ^ 32)
    (hok : k.succeeds env cfg = true) (hread : CounterRead k.op) :
    (k.warnings env cfg).any Warning.isCorPoach = true ↔
      ∃ k₀, latest (RegCall.readsSide env cfg k.op.mmd) ks = some k₀ ∧ k.Poaches env k₀ := by
  obtain ⟨m, hsteps, hb, -⟩ := steps_of_calls h
  obtain ⟨hctx, hid, hfd⟩ := named_of_calls h hn (RegCall.isOp_of_succeeds hok)
  have hcell := corLast_eq hsteps hread.2.2
  rw [any_isCorPoach hok, corWarning, hb.lint, hctx]
  cases hlast : latest (RegCall.readsSide env cfg k.op.mmd) ks with
  | none =>
    rw [hlast] at hcell
    simp only [Option.map_none, Option.getD_none, Prod.mk.injEq] at hcell
    simp [hcell.1]
  | some k₀ =>
    rw [hlast] at hcell
    simp only [Option.map_some, Option.getD_some, Prod.mk.injEq] at hcell
    obtain ⟨pre, post, rfl, hp, -⟩ := latest_eq_some_iff.mp hlast
    have hsplit : calls env cfg is = pre ++ k₀ :: (post ++ k :: ks') := by rw [h]; simp
    have hop := RegCall.isOp_of_succeeds ((RegCall.readsSide_spec hread.2.2).mp hp).1
    obtain ⟨hctx₀, hid₀, hfd₀⟩ := named_of_calls hsplit hn hop
    -- the identifiers are those of the connections
    have hne : k₀.client.id ≠ 0 := by
      rw [hid₀]
      exact clientId_ne_zero hfd₀
    have hids : k₀.client.id = k.client.id ↔ k₀.client.fd = k.client.fd := by
      rw [hid₀, hid, clientId_inj hfd₀ hfd]
    rw [hcell.1, hcell.2, hctx₀]
    simp only [Option.some.injEq, exists_eq_left', RegCall.Poaches, ← hids.ne]
    split_ifs with hc
    · exact ⟨fun _ => hc.2.2, fun _ => rfl⟩
    · exact ⟨fun hf => by simp at hf, fun hp => absurd ⟨hread, hne, hp⟩ hc⟩

/-- **When cor-poach warnings are exact.** In a run with fewer than `2 ^ 32` connections, a successful
read of a counter is warned about if and only if the latest successful read of that side, of any slice,
was made by another client less than 120 s before. If that read was one of the same slice, or there is
none, the warning is exact: it is given if and only if the latest successful read of the same counter was
made by another client less than 120 s before. -/
theorem cor_poach_exact {is : List Input} {ks ks' : List RegCall} {k : RegCall}
    (h : calls env cfg is = ks ++ k :: ks') (hn : (run env cfg is).nConn < 2 ^ 32)
    (hok : k.succeeds env cfg = true) (hread : CounterRead k.op) :
    ((k.warnings env cfg).any Warning.isCorPoach = true ↔
      ∃ k₀, latest (RegCall.readsSide env cfg k.op.mmd) ks = some k₀ ∧ k.Poaches env k₀) ∧
    ((∀ k₀, latest (RegCall.readsSide env cfg k.op.mmd) ks = some k₀ → k₀.op.slice = k.op.slice) →
      ((k.warnings env cfg).any Warning.isCorPoach = true ↔
        ∃ k₀, latest (RegCall.readsCounter env cfg k.op.slice k.op.mmd) ks = some k₀ ∧
          k.Poaches env k₀)) := by
  have hside := cor_poach_side h hn hok hread
  refine ⟨hside, fun hsame => ?_⟩
  have heq : latest (RegCall.readsSide env cfg k.op.mmd) ks =
      latest (RegCall.readsCounter env cfg k.op.slice k.op.mmd) ks := by
    cases hlast : latest (RegCall.readsSide env cfg k.op.mmd) ks with
    | none =>
      symm
      rw [latest_eq_none_iff] at hlast ⊢
      intro x hx
      by_contra hc
      have hr := ((RegCall.readsCounter_spec hread.2.2).mp (Bool.eq_true_of_not_eq_false hc)).1
      rw [hlast x hx] at hr
      exact absurd hr (by decide)
    | some k₀ =>
      refine (latest_eq_of_imp (fun x hx => ((RegCall.readsCounter_spec hread.2.2).mp hx).1) hlast
        ?_).symm
      exact (RegCall.readsCounter_spec hread.2.2).mpr ⟨pos_of_latest hlast, hsame k₀ hlast⟩
  rw [hside, heq]

end

/-- Client 0 reads the counter of slice 0, and client 1 after it. -/
def oneCounter : List Input :=
  connects [(7, ['a']), (8, ['b'])] ++
    [⟨[.client 0 (datagram .read 0 1 [0, 0, 0x0b, 0, 0x21, 0, 0, 0, 0, 0, 0, 0]),
      .client 1 (datagram .read 0 1 [0, 0, 0x0b, 0, 0x21, 0, 0, 0, 0, 0, 0, 0])], 64⟩, .none, .none]

/-- The run has a second call. -/
lemma length_calls_oneCounter : 1 < (calls (Env.still 0) Config.plain oneCounter).length := by
  decide +kernel

/-- The theorem at the second read, which is warned about. -/
theorem cor_poach_exact_oneCounter :
    ∃ ks k ks', calls (Env.still 0) Config.plain oneCounter = ks ++ k :: ks' ∧
      (k.warnings (Env.still 0) Config.plain).any Warning.isCorPoach = true ∧
      ∃ k₀, latest (RegCall.readsCounter (Env.still 0) Config.plain k.op.slice k.op.mmd) ks = some k₀ ∧
        k.Poaches (Env.still 0) k₀ := by
  have hsplit := calls_eq_of_lt (Env.still 0) Config.plain length_calls_oneCounter
  obtain ⟨-, hexact⟩ := cor_poach_exact hsplit (by decide +kernel) (by decide +kernel)
    (by decide +kernel)
  have hwarn : (((calls (Env.still 0) Config.plain oneCounter).get ⟨1, length_calls_oneCounter⟩).warnings
      (Env.still 0) Config.plain).any Warning.isCorPoach = true := by decide +kernel
  refine ⟨_, _, _, hsplit, hwarn, (hexact fun k₀ hlast => ?_).mp hwarn⟩
  have hslice : (latest (RegCall.readsSide (Env.still 0) Config.plain
      ((calls (Env.still 0) Config.plain oneCounter).get ⟨1, length_calls_oneCounter⟩).op.mmd)
      ((calls (Env.still 0) Config.plain oneCounter).take 1)).map (fun k => k.op.slice) =
        some ((calls (Env.still 0) Config.plain oneCounter).get ⟨1, length_calls_oneCounter⟩).op.slice := by
    decide +kernel
  rw [hlast] at hslice
  exact Option.some.inj hslice

/-- Client 0 reads the counter of slice 0; then client 1 reads the counters of slices 1 and 0. -/
def twoCounters : List Input :=
  connects [(7, ['a']), (8, ['b'])] ++
    [⟨[.client 0 (datagram .read 0 1 [0, 0, 0x0b, 0, 0x21, 0, 0, 0, 0, 0, 0, 0]),
      .client 1 (datagram .read 0 1 [1, 0, 0x0b, 0, 0x21, 0, 0, 0, 0, 0, 0, 0])], 64⟩,
    .none, .none, .none,
    ⟨[.client 1 (datagram .read 0 2 [0, 0, 0x0b, 0, 0x21, 0, 0, 0, 0, 0, 0, 0])], 64⟩, .none]

/-- The run has a third call. -/
lemma length_calls_twoCounters : 2 < (calls (Env.still 0) Config.plain twoCounters).length := by
  decide +kernel

/-- The second read is warned about, although nobody has read that counter before. The third is not,
although client 0 has read that counter before and at the same time. -/
theorem cor_poach_across_slices :
    (((calls (Env.still 0) Config.plain twoCounters).get ⟨1, by decide +kernel⟩).warnings (Env.still 0)
      Config.plain).any Warning.isCorPoach = true ∧
    latest (RegCall.readsCounter (Env.still 0) Config.plain 1 mmdHostPcs)
      ((calls (Env.still 0) Config.plain twoCounters).take 1) = none ∧
    (((calls (Env.still 0) Config.plain twoCounters).get ⟨2, length_calls_twoCounters⟩).warnings
      (Env.still 0) Config.plain).any Warning.isCorPoach = false ∧
    (latest (RegCall.readsCounter (Env.still 0) Config.plain 0 mmdHostPcs)
      ((calls (Env.still 0) Config.plain twoCounters).take 2)).map (fun k => (k.client.fd,
        ((calls (Env.still 0) Config.plain twoCounters).get ⟨2, length_calls_twoCounters⟩).client.fd,
        ((calls (Env.still 0) Config.plain twoCounters).get ⟨2, length_calls_twoCounters⟩).now
          (Env.still 0) - k.now (Env.still 0))) = some (0, 1, 0) := by
  refine ⟨by decide +kernel, ?_, by decide +kernel, by decide +kernel⟩
  rw [← Option.isNone_iff_eq_none]
  decide +kernel

end Spid

import SpidevProxy.Lint

set_option relaxedAutoImplicit false
set_option autoImplicit false

/-!
# The page-ride detector

`g.page_owner` has one cell for each slice and side. A successful write of the page register `0xf0ff`
puts the client of the log context there; every other access to the page window by another client is
warned about. So the cell is a summary of the whole history: it names the client of the latest write
of the page register.

## Main definitions

* `Spid.Op.InPageWindow` — the registers that the page register selects.
* `Spid.RegCall.writesPage` — the call writes the page register of a slice and side.

## Main results

* `Spid.pageOwner_eq` — the cell names the client of the latest page write.
* `Spid.page_ride_exact` — when a page-ride warning is given.
-/

namespace Spid

open History

/-- A register of the page window: `HOST_PMA` or `LINE_PMA`, `0xf000` to `0xf1ff`. -/
def Op.InPageWindow (op : Op) : Prop :=
  (op.mmd = mmdHostPma ∨ op.mmd = mmdLinePma) ∧ 0xf000 ≤ op.reg.toNat ∧ op.reg.toNat ≤ 0xf1ff

/-- The warnings of the page-ride detector. -/
def Warning.isPageRide : Warning → Bool
  | .pageRide _ _ _ => true
  | _ => false

/-- The mask of the page window. -/
lemma and_page_mask (reg : UInt16) :
    reg &&& 0xfe00 = 0xf000 ↔ 0xf000 ≤ reg.toNat ∧ reg.toNat ≤ 0xf1ff := by
  have hlt : reg.toNat < 65536 := reg.toNat_lt
  have hdiv : (reg.toNat &&& 0xfe00) / 512 = reg.toNat / 512 := by
    have h := Nat.and_div_two_pow (a := reg.toNat) (b := 0xfe00) (n := 9)
    have hm := Nat.and_two_pow_sub_one_eq_mod (reg.toNat / 512) 7
    norm_num at h hm
    rw [h, hm, Nat.mod_eq_of_lt (by omega)]
  have hmod : (reg.toNat &&& 0xfe00) % 512 = 0 := by
    have h := Nat.and_mod_two_pow (a := reg.toNat) (b := 0xfe00) (n := 9)
    norm_num at h
    exact h
  rw [← UInt16.toNat_inj, UInt16.toNat_and]
  change reg.toNat &&& 0xfe00 = 0xf000 ↔ _
  omega

/-- The two sides with a page register. -/
lemma pageSide_eq_some_iff {mmd : UInt8} {k : Fin 2} :
    pageSide mmd = some k ↔ mmd = if k = 0 then mmdHostPma else mmdLinePma := by
  unfold pageSide
  fin_cases k
  · by_cases h : mmd = mmdHostPma
    · simp [h]
    · by_cases h' : mmd = mmdLinePma
      · subst h'; decide
      · simp [h, h']
  · by_cases h : mmd = mmdHostPma
    · subst h; decide
    · by_cases h' : mmd = mmdLinePma
      · simp [h', show ¬mmdLinePma = mmdHostPma by decide]
      · simp [h, h']

/-- Slices in range have rows of their own. -/
lemma sliceRow_inj {s s' : UInt8} (h : s.toNat < 4) (h' : s'.toNat < 4) :
    sliceRow s = sliceRow s' ↔ s = s' := by
  unfold sliceRow
  rw [Fin.ext_iff, ← UInt8.toNat_inj]
  simp only [Fin.ofNat_eq_cast, Fin.val_natCast]
  omega

section

variable (env : Env) (cfg : Config)

/-- The call successfully writes the page register of a slice and MMD. -/
def RegCall.writesPage (s m : UInt8) (k : RegCall) : Bool := k.does env cfg true s m 0xf0ff

variable {env cfg}

/-- **One call**: the cell of a slice and side changes at a page write, to the client of the log
context.

**Proof sketch.** A call that succeeds is one of `exec_op`, and `execOp_ok` says what it does to
the cell; its condition is that of a page write, as the row of the slice and the side of the MMD
tell these apart. A call that fails changes nothing and writes no page. -/
lemma pageOwner_post {k : RegCall} {s m : UInt8} {side : Fin 2} (hs : s.toNat < 4)
    (hm : pageSide m = some side) :
    ((k.post env cfg).io.lint.pageOwner (sliceRow s) side).cid =
      if k.writesPage env cfg s m = true then k.pre.lctx.cid
      else (k.pre.io.lint.pageOwner (sliceRow s) side).cid := by
  have hglobal : m ≠ mmdGlobal := by
    rintro rfl
    rw [pageSide, if_neg (by decide), if_neg (by decide)] at hm
    simp at hm
  by_cases hok : k.succeeds env cfg = true
  · obtain ⟨c, hw⟩ := RegCall.work_of_succeeds hok
    generalize k.op = op at hw
    obtain ⟨hslice, -, op', es, -, -, -, hp, -⟩ := execOp_ok env cfg ((RegCall.succeeds_iff hw).mp hok)
    rw [RegCall.post_op hw, hp (sliceRow s) side]
    have hiff : (pageSide op.mmd = some side ∧ sliceRow op.slice = sliceRow s ∧ op.reg = 0xf0ff ∧
        op.write ≠ 0) ↔ k.writesPage env cfg s m = true := by
      rw [RegCall.writesPage, RegCall.does_op hw, sliceRow_inj hslice hs]
      have hmm : pageSide op.mmd = some side ↔ op.mmd = m := by
        rw [pageSide_eq_some_iff, ← pageSide_eq_some_iff.mp hm]
      rw [hmm, decide_eq_true_iff]
      tauto
    by_cases hc : k.writesPage env cfg s m = true
    · rw [if_pos (hiff.mpr hc), if_pos hc]
    · rw [if_neg (mt hiff.mp hc), if_neg hc]
  · rw [Bool.not_eq_true] at hok
    rw [RegCall.lint_post hok, if_neg]
    intro hw
    obtain ⟨c, hwork⟩ := RegCall.work_of_isOp (RegCall.isOp_of_does hw hglobal)
    have hyes := ((RegCall.does_op hwork _ _ _ _).mp hw).1
    rw [hok] at hyes
    exact absurd hyes (by decide)

/-- **The cell names the client of the latest page write.** -/
lemma pageOwner_eq {ks : List RegCall} {m : Daemon} (h : Steps (Goes env cfg) (boot env cfg) ks m)
    {s mmd : UInt8} {side : Fin 2} (hs : s.toNat < 4) (hm : pageSide mmd = some side) :
    (m.io.lint.pageOwner (sliceRow s) side).cid =
      ((latest (RegCall.writesPage env cfg s mmd) ks).map fun k => k.pre.lctx.cid).getD 0 := by
  have hcell := Steps.cell_eq (fun g : Daemon => (g.io.lint.pageOwner (sliceRow s) side).cid)
    (fun k : RegCall => k.pre.lctx.cid) (p := RegCall.writesPage env cfg s mmd)
    (fun g k g' hg hp => by
      obtain ⟨hb, rfl⟩ := hg
      rw [pageOwner_post hs hm, if_pos hp])
    (fun g k g' hg hp => by
      obtain ⟨hb, rfl⟩ := hg
      rw [pageOwner_post hs hm, if_neg (by rw [hp]; decide), hb.lint]) h
  rw [hcell, (io_boot env cfg).1]

/-- What `lint_op` says about pages in a call of `exec_op` that succeeds. -/
lemma any_isPageRide {k : RegCall} (hok : k.succeeds env cfg = true) :
    (k.warnings env cfg).any Warning.isPageRide = true ↔
      (pageWarning k.pre.io.lint k.pre.lctx.cid k.op).isSome = true := by
  obtain ⟨c, hw⟩ := RegCall.work_of_succeeds hok
  generalize k.op = op at hw ⊢
  obtain ⟨op', ⟨hs, hwr, hm, hr⟩, hwarn⟩ := RegCall.warnings_op hw hok
  have hsome : (pageWarning k.pre.io.lint k.pre.lctx.cid op').isSome =
      (pageWarning k.pre.io.lint k.pre.lctx.cid op).isSome := by
    unfold pageWarning
    rw [hs, hwr, hm, hr]
    cases pageSide op.mmd with
    | none => rfl
    | some side =>
      dsimp only
      split_ifs <;> rfl
  rw [hwarn, lintWarnings, List.any_append, List.any_append, ← hsome]
  have hcor : (corWarning k.pre.io.lint k.pre.lctx.cid (k.now env) op').toList.any Warning.isPageRide =
      false := any_toList_of_neg fun w h => by
    obtain ⟨_, _, rfl⟩ := eq_of_mem_corWarning h
    rfl
  have hrmw : (rmwWarning k.pre (k.now env) op').toList.any Warning.isPageRide = false :=
    any_toList_of_neg fun w h => by
      obtain ⟨_, _, rfl⟩ := eq_of_mem_rmwWarning h
      rfl
  have hpage : (pageWarning k.pre.io.lint k.pre.lctx.cid op').toList.any Warning.isPageRide =
      (pageWarning k.pre.io.lint k.pre.lctx.cid op').isSome := any_toList_of_pos fun w h => by
    obtain ⟨_, rfl⟩ := eq_of_mem_pageWarning h
    rfl
  rw [hcor, hrmw, hpage, Bool.or_false, Bool.or_false]

/-- **Page-ride warnings are exact.** In a run with fewer than `2 ^ 32` connections, a successful
operation of `exec_op`, of a request or of a cleanup list, is warned about if and only if it goes to
the page window, does not write the page register, and the latest successful write of the page register
with the same slice and MMD was made for a client with another identifier.

**Proof sketch.** The cell that the detector looks at names the client of the latest page write of
the slice and MMD (`pageOwner_eq`), or nobody. The log context is that of the client of the call,
and identifiers of clients are not 0, so the condition of the detector is the one stated. -/
theorem page_ride_exact {is : List Input} {ks ks' : List RegCall} {k : RegCall}
    (h : calls env cfg is = ks ++ k :: ks') (hn : (run env cfg is).nConn < 2 ^ 32)
    (hok : k.succeeds env cfg = true) :
    (k.warnings env cfg).any Warning.isPageRide = true ↔
      k.op.InPageWindow ∧ ¬(k.op.reg = 0xf0ff ∧ k.op.write ≠ 0) ∧
      ∃ k₀, latest (RegCall.writesPage env cfg k.op.slice k.op.mmd) ks = some k₀ ∧
        k₀.client.id ≠ k.client.id := by
  obtain ⟨m, hsteps, hb, -⟩ := steps_of_calls h
  obtain ⟨hctx, -, -⟩ := named_of_calls h hn (RegCall.isOp_of_succeeds hok)
  obtain ⟨c, hw⟩ := RegCall.work_of_succeeds hok
  obtain ⟨hslice, -⟩ := execOp_ok env cfg ((RegCall.succeeds_iff hw).mp hok)
  rw [any_isPageRide hok, pageWarning, Op.InPageWindow, ← and_page_mask]
  cases hside : pageSide k.op.mmd with
  | none =>
    refine ⟨fun hf => by simp at hf, fun hr => ?_⟩
    rcases hr.1.1 with hm | hm
    · rw [pageSide, if_pos hm] at hside
      simp at hside
    · rw [pageSide, hm] at hside
      simp [show ¬mmdLinePma = mmdHostPma by decide] at hside
  | some side =>
    have hmmd : k.op.mmd = mmdHostPma ∨ k.op.mmd = mmdLinePma := by
      rw [pageSide_eq_some_iff.mp hside]
      split_ifs
      · exact Or.inl rfl
      · exact Or.inr rfl
    have hcell := pageOwner_eq hsteps hslice hside
    dsimp only
    rw [hb.lint, hcell, hctx]
    cases hlast : latest (RegCall.writesPage env cfg k.op.slice k.op.mmd) ks with
    | none => simp
    | some k₀ =>
      -- the client that the cell names is that of the latest page write
      obtain ⟨pre, post, rfl, hp, -⟩ := latest_eq_some_iff.mp hlast
      have hglobal : k.op.mmd ≠ mmdGlobal := by
        rcases hmmd with hm | hm
        · rw [hm]; decide
        · rw [hm]; decide
      have hsplit : calls env cfg is = pre ++ k₀ :: (post ++ k :: ks') := by rw [h]; simp
      obtain ⟨hctx₀, hid₀, hfd₀⟩ := named_of_calls hsplit hn (RegCall.isOp_of_does hp hglobal)
      have hne : k₀.client.id ≠ 0 := by
        rw [hid₀]
        exact clientId_ne_zero hfd₀
      simp [hctx₀, hne, hmmd]

end

/-- Client 0 writes the page register of slice 0, and client 1 reads behind it. -/
def pageRidden : List Input :=
  connects [(7, ['a']), (8, ['b'])] ++
    [⟨[.client 0 (datagram .write 0 1 [0, 1, 0x09, 0, 0xff, 0xf0, 0, 0, 1, 0, 0, 0]),
      .client 1 (datagram .read 0 1 [0, 0, 0x09, 0, 0x10, 0xf0, 0, 0, 0, 0, 0, 0])], 64⟩, .none, .none]

/-- The run has a second call. -/
lemma length_calls_pageRidden : 1 < (calls (Env.still 0) Config.plain pageRidden).length := by
  decide +kernel

/-- The theorem at the read, which is warned about. -/
theorem page_ride_exact_ridden :
    ∃ ks k ks', calls (Env.still 0) Config.plain pageRidden = ks ++ k :: ks' ∧
      (k.warnings (Env.still 0) Config.plain).any Warning.isPageRide = true ∧ k.op.InPageWindow ∧
      ∃ k₀, latest (RegCall.writesPage (Env.still 0) Config.plain k.op.slice k.op.mmd) ks = some k₀ ∧
        k₀.client.id ≠ k.client.id := by
  have hsplit := calls_eq_of_lt (Env.still 0) Config.plain length_calls_pageRidden
  have hwarn : (((calls (Env.still 0) Config.plain pageRidden).get ⟨1, length_calls_pageRidden⟩).warnings
      (Env.still 0) Config.plain).any Warning.isPageRide = true := by decide +kernel
  obtain ⟨hwin, -, hlast⟩ := (page_ride_exact hsplit (by decide +kernel) (by decide +kernel)).mp hwarn
  exact ⟨_, _, _, hsplit, hwarn, hwin, hlast⟩

end Spid

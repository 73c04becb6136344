import SpidevProxy.RegsEmit
import SpidevProxy.Lib.CEnums

set_option relaxedAutoImplicit false
set_option autoImplicit false

/-!
# The generated register header

The file that `gen_lan80xx_regs_header.py` writes, read back as a C header: which enumerations it
declares, and when it is well formed.

The enumerators of the MMDs and of the registers share one scope, and the registers are emitted once
each. So there are three ways for the header to go wrong: a register has the name of an MMD, a
register has the name of the include guard, whose macro makes it disappear, or an MMD has only
registers that were emitted before, and its enumeration is empty.

## Main definitions

* `Spid.RegsGen.enums` — the enumerations of the file.
* `Spid.RegsGen.WellFormed` — a file declares registers as it should.
* `Spid.RegsGen.Clean` — the registers that the generator can cope with.

## Main results

* `Spid.RegsGen.read_emit` — the file is read back as `enums`.
* `Spid.RegsGen.clean_of_unique` — registers without aliases between MMDs are clean, but for names.
* `Spid.RegsGen.generated_header_well_formed` — the file is well formed exactly for clean registers.
-/

namespace Spid.RegsGen

open FirstSeen CEnums

variable {d : ByMmd}

/-! ## Names and numbers in the file -/

/-- The characters of names are those of words. -/
lemma isWord_of_isNameChar {c : Char} (h : isNameChar c = true) : isWord c = true := by
  rw [isNameChar, Bool.or_eq_true, Bool.or_eq_true, decide_eq_true_eq] at h
  rw [isWord_iff]
  rcases h with (h | h) | h
  · exact Or.inl (Or.inl (Or.inl h))
  · exact Or.inl (Or.inr h)
  · exact Or.inr h

/-- The name of a register is a word, -/
lemma IsRegName.isWord {n : Text} (h : IsRegName n) : ∀ c ∈ n, isWord c = true := by
  obtain ⟨w, rfl, -, hw⟩ := h
  intro c hc
  rcases List.mem_append.mp hc with hc | hc
  · exact List.all_eq_true.mp (by decide : "LAN80XX_".toList.all CEnums.isWord = true) c hc
  · exact isWord_of_isNameChar (hw c hc)

/-- and an identifier. -/
lemma IsRegName.isName {n : Text} (h : IsRegName n) : isName n = true ∧ n ≠ [] := by
  obtain ⟨w, rfl, -, -⟩ := h
  exact ⟨rfl, List.append_ne_nil_of_left_ne_nil (by decide) _⟩

/-- The digits that are printed, and their value. -/
lemma hex_spec (w n : ℕ) :
    hex w n ≠ [] ∧ (∀ c ∈ hex w n, Numeral.isDigit 16 c = true) ∧ Numeral.value 16 (hex w n) = n := by
  obtain ⟨hv, hd⟩ := Numeral.value_toDigits (b := 16) (by decide) le_rfl
    (fun d hd => (Numeral.digit_digitChar d hd).2) n
  refine ⟨?_, fun c hc => ?_, (Numeral.value_zeros _ _ _).trans hv⟩
  · refine List.append_ne_nil_of_right_ne_nil _ fun h => ?_
    exact Nat.toDigits_ne_nil (List.map_eq_nil_iff.mp h)
  · rcases List.mem_append.mp hc with hc | hc
    · rw [List.eq_of_mem_replicate hc]
      decide
    · exact hd c hc

/-- A number that is printed is a constant with its value. -/
lemma constant_hex (w n : ℕ) : constant ("0x".toList ++ hex w n) = some n := by
  obtain ⟨hne, hd, hv⟩ := hex_spec w n
  have h : Numeral.Denotes 0 ('0' :: 'x' :: hex w n) (Numeral.value 16 (hex w n)) :=
    .hex (Or.inl rfl) (by decide) hne hd
  rw [hv] at h
  change (Numeral.scan 0 ('0' :: 'x' :: hex w n)).bind _ = _
  rw [Numeral.scan_eq_nil_iff.mpr h]
  rfl

/-- So is a hexadecimal number a word. -/
lemma isWord_hex (w n : ℕ) : ∀ c ∈ "0x".toList ++ hex w n, isWord c = true := by
  intro c hc
  rcases List.mem_append.mp hc with hc | hc
  · exact List.all_eq_true.mp (by decide : "0x".toList.all isWord = true) c hc
  · exact isWord_of_digit (Numeral.isSome_of_isDigit ((hex_spec w n).2.1 c hc))

/-! ## The tokens of the file -/

/-- The tag of the enumeration of an MMD. -/
def mmdTag (m : ℕ) : Text := "lan80xx_reg_".toList ++ (mmdLabel m).map Char.toLower

/-- The tokens of the line of an MMD. -/
def mmdItemTokens (m : ℕ) : List Token := Reader.itemTokens (mmdName m) ("0x".toList ++ hex 2 m)

/-- The tokens of the line of a register. -/
def regItemTokens (p : Text × ℕ × ℕ) : List Token := Reader.itemTokens p.1 ("0x".toList ++ hex 4 p.2.2)

/-- The first tokens of the enumeration of an MMD. -/
def mmdOpenTokens (m : ℕ) : List Token := [.word "enum".toList, .word (mmdTag m), .sym '\x7b']

/-- The tokens of the enumeration of an MMD, line by line. -/
def mmdTokens (m : ℕ) (k : List (Text × ℕ × ℕ)) : List (List Token) :=
  [[], mmdOpenTokens m] ++ k.map regItemTokens ++ [[.sym '\x7d', .sym ';'], []]

/-- The tokens inside the include guard, line by line. -/
def bodyTokens (d : ByMmd) : List (List Token) :=
  [[], [], [.word "typedef".toList, .word "enum".toList, .sym '\x7b']] ++ ((mmds d).map mmdItemTokens ++
    ([[.sym '\x7d', .word "lan80xx_mmd_t".toList, .sym ';'], []] ++
      ((mmds d).zip (kept d)).flatMap fun g => mmdTokens g.1 g.2))

/-- The lines of the 32 MMDs, checked one by one. -/
lemma mmd_lines : ∀ m ∈ List.range 32, Line (mmdItem m) (mmdItemTokens m) ∧
    (∃ a b, mmdOpen m = [a, b] ∧ Line a [] ∧ Line b (mmdOpenTokens m)) := by
  have h : ∀ m ∈ List.range 32, Line (mmdItem m) (mmdItemTokens m) ∧
      Line (List.flatten ["/* MMD 0x".toList, hex 2 m, " ".toList, mmdLabel m,
        " -- register offsets. */".toList]) [] ∧
      Line (List.flatten ["enum lan80xx_reg_".toList, (mmdLabel m).map Char.toLower, " \x7b".toList])
        (mmdOpenTokens m) := by
    decide +kernel
  exact fun m hm => ⟨(h m hm).1, _, _, rfl, (h m hm).2⟩

/-- The line of a register. -/
lemma line_regItem {p : Text × ℕ × ℕ} (h : IsRegName p.1) :
    Line (regItem p.1 p.2.2) (regItemTokens p) :=
  line_item h.isName.2 h.isWord (by simp) (isWord_hex 4 p.2.2)

/-- Lines made one by one. -/
lemma forall₂_map {α : Type} {f : α → Text} {g : α → List Token} {l : List α}
    (h : ∀ a ∈ l, Line (f a) (g a)) : List.Forall₂ Line (l.map f) (l.map g) := by
  rw [List.forall₂_map_left_iff, List.forall₂_map_right_iff, List.forall₂_same]
  exact h

/-- The lines of the enumeration of an MMD. -/
lemma lines_mmdLines {m : ℕ} (hm : m < mmdMax) {k : List (Text × ℕ × ℕ)} (hk : ∀ p ∈ k, IsRegName p.1) :
    List.Forall₂ Line (mmdLines m k) (mmdTokens m k) := by
  obtain ⟨-, a, b, hopen, ha, hb⟩ := mmd_lines m (List.mem_range.mpr hm)
  refine List.rel_append (List.rel_append ?_ (forall₂_map fun p hp => line_regItem (hk p hp))) ?_
  · rw [hopen]
    exact .cons ha (.cons hb .nil)
  · exact .cons (by decide +kernel) (.cons (by decide +kernel) .nil)

/-- The enumerations of the file, with the registers they have. -/
lemma mem_groups (hd : Parsed d) {g : ℕ × List (Text × ℕ × ℕ)}
    (h : g ∈ (mmds d).zip (kept d)) : g.1 < mmdMax ∧ ∀ p ∈ g.2, IsRegName p.1 := by
  obtain ⟨hm, hk⟩ := List.of_mem_zip h
  exact ⟨hd.lt_of_mem hm, fun p hp => hd.isRegName (occurs_of_mem_kept (List.mem_flatten_of_mem hk hp))⟩

/-- The lines of several enumerations. -/
lemma lines_groups {gs : List (ℕ × List (Text × ℕ × ℕ))}
    (h : ∀ g ∈ gs, g.1 < mmdMax ∧ ∀ p ∈ g.2, IsRegName p.1) :
    List.Forall₂ Line (gs.flatMap fun g => mmdLines g.1 g.2)
      (gs.flatMap fun g => mmdTokens g.1 g.2) := by
  induction gs with
  | nil => exact .nil
  | cons g gs ih =>
    obtain ⟨hm, hk⟩ := h g List.mem_cons_self
    rw [List.flatMap_cons, List.flatMap_cons]
    exact List.rel_append (lines_mmdLines hm hk) (ih fun g' hg' => h g' (List.mem_cons_of_mem _ hg'))

/-- The lines inside the include guard. -/
lemma lines_body (hd : Parsed d) : List.Forall₂ Line (mmdsOpen ++ ((mmds d).map mmdItem ++
    (mmdsClose ++ ((mmds d).zip (kept d)).flatMap fun g => mmdLines g.1 g.2))) (bodyTokens d) := by
  have hitems : List.Forall₂ Line ((mmds d).map mmdItem) ((mmds d).map mmdItemTokens) :=
    forall₂_map fun m hm => (mmd_lines m (List.mem_range.mpr (hd.lt_of_mem hm))).1
  refine List.rel_append ?_ (List.rel_append hitems (List.rel_append ?_ ?_))
  · exact .cons (by decide +kernel) (.cons (by decide +kernel) (.cons (by decide +kernel) .nil))
  · exact .cons (by decide +kernel) (.cons (by decide +kernel) .nil)
  · exact lines_groups fun g hg => mem_groups hd hg

/-- The lines in front of the include guard are comments. -/
lemma lines_head (banner : Banner) : List.Forall₂ Line (banner.lines ++ about)
    (List.replicate (banner.lines.length + about.length) []) := by
  rw [List.replicate_add]
  have hnil : ∀ {l : List Text}, (∀ t ∈ l, Line t []) →
      List.Forall₂ Line l (List.replicate l.length []) := by
    intro l hl
    have h := forall₂_map (f := id) (g := fun _ => []) hl
    rwa [List.map_id, List.map_const'] at h
  refine List.rel_append (hnil fun l hl => ?_) (hnil ?_)
  · obtain ⟨t, rfl, ht, -⟩ := banner.comment l hl
    exact ⟨by simpa using ht, lexLine_comment t⟩
  · decide +kernel

/-- The directives of the include guard. -/
def guardTokens : List (List Token) :=
  [[.sym '#', .word "ifndef".toList, .word guardName],
    [.sym '#', .word "define".toList, .word guardName]]

/-- **The file, line by line**: comments, the include guard, and inside it the enumerations. -/
lemma lex_emit (hd : Parsed d) (banner : Banner) :
    lexLines false (List.splitOn '\n' (emit banner d).1) =
      List.replicate (banner.lines.length + about.length) [] ++ (guardTokens ++ (bodyTokens d ++
        [[.sym '#', .word "endif".toList], []])) := by
  have hopen : List.Forall₂ Line guardOpen guardTokens :=
    .cons (by decide +kernel) (.cons (by decide +kernel) .nil)
  have hclose : List.Forall₂ Line guardClose [[.sym '#', .word "endif".toList], []] :=
    .cons (by decide +kernel) (.cons (by decide +kernel) .nil)
  rw [emit_eq]
  refine lexLines_of_lines ?_ (List.append_ne_nil_of_right_ne_nil _ (by simp [guardOpen]))
  exact List.rel_append (lines_head banner)
    (List.rel_append hopen (List.rel_append (lines_body hd) hclose))

/-! ## Reading the file back -/

/-- The lines inside the include guard: those that are always the same, and those of the MMDs and
of the registers. -/
lemma mem_bodyTokens {ts : List Token} (h : ts ∈ bodyTokens d) :
    ts ∈ [[], [.word "typedef".toList, .word "enum".toList, .sym '\x7b'],
        [.sym '\x7d', .word "lan80xx_mmd_t".toList, .sym ';'], [.sym '\x7d', .sym ';']] ∨
      (∃ m, ts = mmdItemTokens m) ∨ (∃ m, ts = mmdOpenTokens m) ∨
      ∃ p ∈ (kept d).flatten, ts = regItemTokens p := by
  simp only [bodyTokens, mmdTokens, List.mem_append, List.mem_map, List.mem_flatMap, List.mem_cons,
    List.not_mem_nil, or_false] at h ⊢
  rcases h with (h | h | h) | ⟨m, -, rfl⟩ | (h | h) | ⟨g, hg, ((h | h) | ⟨p, hp, rfl⟩) | h | h⟩
  · exact Or.inl (Or.inl h)
  · exact Or.inl (Or.inl h)
  · exact Or.inl (Or.inr (Or.inl h))
  · exact Or.inr (Or.inl ⟨m, rfl⟩)
  · exact Or.inl (Or.inr (Or.inr (Or.inl h)))
  · exact Or.inl (Or.inl h)
  · exact Or.inl (Or.inl h)
  · exact Or.inr (Or.inr (Or.inl ⟨_, h⟩))
  · have hmem := List.mem_flatten_of_mem (List.of_mem_zip hg).2 hp
    exact Or.inr (Or.inr (Or.inr ⟨p, hmem, rfl⟩))
  · exact Or.inl (Or.inr (Or.inr (Or.inr h)))
  · exact Or.inl (Or.inl h)

/-- No line inside the include guard is a directive. -/
lemma head_bodyTokens : ∀ ts ∈ bodyTokens d, ts.head? ≠ some (.sym '#') := by
  intro ts hts
  rcases mem_bodyTokens hts with hts | ⟨m, rfl⟩ | ⟨m, rfl⟩ | ⟨p, -, rfl⟩
  · exact (by decide : ∀ ts ∈ _, List.head? ts ≠ some (Token.sym '#')) ts hts
  · simp [mmdItemTokens, Reader.itemTokens]
  · simp [mmdOpenTokens]
  · simp [regItemTokens, Reader.itemTokens]

/-- What is left of the file when its directives were obeyed. -/
lemma preprocess_emit (hd : Parsed d) (banner : Banner) :
    preprocess [] (lexLines false (List.splitOn '\n' (emit banner d).1)) =
      some (expand [guardName] (bodyTokens d).flatten) := by
  have hhead : ∀ ts ∈ List.replicate (banner.lines.length + about.length) ([] : List Token),
      ts.head? ≠ some (.sym '#') := fun ts hts => by
    rw [List.eq_of_mem_replicate hts]
    exact fun h => nomatch h
  have hflat :
      (List.replicate (banner.lines.length + about.length) ([] : List Token)).flatten = [] := by simp
  rw [lex_emit hd, preprocess_append hhead, hflat]
  change (preprocess [guardName] (bodyTokens d ++ [[.sym '#', .word "endif".toList], []])).map _ = _
  rw [preprocess_append head_bodyTokens]
  change (some (expand [guardName] (bodyTokens d).flatten ++ [])).map _ = _
  rw [List.append_nil]
  rfl

/-- The enumerators of the file: first those of the MMDs, then those of the registers. -/
def enums (d : ByMmd) : List (List Enumerator) :=
  ((mmds d).map fun m => (mmdName m, m)) :: (kept d).map fun k => k.map fun p => (p.1, p.2.2)

/-- The tokens of the enumeration of an MMD are read as one declaration. -/
lemma run_mmdTokens (m : ℕ) {k : List (Text × ℕ × ℕ)} (hk : ∀ p ∈ k, IsRegName p.1)
    (done : List (List Enumerator)) :
    (mmdTokens m k).flatten.foldlM Reader.step ⟨done, .top⟩ =
      some ⟨done ++ [k.map fun p => (p.1, p.2.2)], .top⟩ := by
  have hopen : (mmdOpenTokens m).foldlM Reader.step ⟨done, .top⟩ = some ⟨done, .body []⟩ := rfl
  have hitems : (k.flatMap regItemTokens).foldlM Reader.step ⟨done, .body []⟩ =
      some ⟨done, .body ([] ++ k.map fun p => (p.1, p.2.2))⟩ :=
    Reader.run_items (fun p hp => (hk p hp).isName.1) (fun p _ => constant_hex 4 p.2.2) done []
  have hflat : (mmdTokens m k).flatten =
      mmdOpenTokens m ++ (k.flatMap regItemTokens ++ [.sym '\x7d', .sym ';']) := by
    simp [mmdTokens, List.flatMap_def]
  rw [hflat, List.foldlM_append, hopen]
  change List.foldlM Reader.step ⟨done, .body []⟩ (k.flatMap regItemTokens ++ _) = _
  rw [List.foldlM_append, hitems]
  rfl

/-- All enumerations of registers, one after the other. -/
lemma run_groups {gs : List (ℕ × List (Text × ℕ × ℕ))} (h : ∀ g ∈ gs, ∀ p ∈ g.2, IsRegName p.1)
    (done : List (List Enumerator)) :
    (gs.flatMap fun g => mmdTokens g.1 g.2).flatten.foldlM Reader.step ⟨done, .top⟩ =
      some ⟨done ++ gs.map fun g => g.2.map fun p => (p.1, p.2.2), .top⟩ := by
  induction gs generalizing done with
  | nil => simp
  | cons g gs ih =>
    rw [List.flatMap_cons, List.flatten_append, List.foldlM_append,
      run_mmdTokens g.1 (h g List.mem_cons_self)]
    change List.foldlM Reader.step ⟨done ++ [g.2.map fun p => (p.1, p.2.2)], .top⟩ _ = _
    rw [ih fun g' hg' => h g' (List.mem_cons_of_mem _ hg'), List.append_assoc]
    rfl

/-- The tokens inside the include guard are read as the enumerations of the file. -/
lemma run_bodyTokens (hd : Parsed d) :
    (bodyTokens d).flatten.foldlM Reader.step ⟨[], .top⟩ = some ⟨enums d, .top⟩ := by
  have hlen : (kept d).length ≤ (mmds d).length := by
    rw [kept, length_freshGroups, List.length_map]
  have hitems : ((mmds d).flatMap mmdItemTokens).foldlM Reader.step ⟨[], .body []⟩ =
      some ⟨[], .body ([] ++ (mmds d).map fun m => (mmdName m, m))⟩ :=
    Reader.run_items (fun _ _ => rfl) (fun m _ => constant_hex 2 m) [] []
  have hflat : (bodyTokens d).flatten = [.word "typedef".toList, .word "enum".toList, .sym '\x7b'] ++
      ((mmds d).flatMap mmdItemTokens ++ ([.sym '\x7d', .word "lan80xx_mmd_t".toList, .sym ';'] ++
        (((mmds d).zip (kept d)).flatMap fun g => mmdTokens g.1 g.2).flatten)) := by
    simp [bodyTokens, List.flatMap_def]
  rw [hflat]
  change List.foldlM Reader.step ⟨[], .body []⟩ ((mmds d).flatMap mmdItemTokens ++ _) = _
  rw [List.foldlM_append, hitems]
  have hgroups := run_groups (fun g hg => (mem_groups hd hg).2) [(mmds d).map fun m => (mmdName m, m)]
  refine hgroups.trans ?_
  have hsnd : ((mmds d).zip (kept d)).map (fun g => g.2.map fun p => (p.1, p.2.2)) =
      (kept d).map fun k => k.map fun p => (p.1, p.2.2) := by
    refine Eq.trans ?_ (congrArg _ (List.map_snd_zip hlen))
    rw [List.map_map]
    rfl
  rw [hsnd]
  rfl

/-- The include guard has another name than the MMDs and the tags. -/
lemma mmdName_ne_guardName (m : ℕ) : mmdName m ≠ guardName ∧ mmdTag m ≠ guardName := by
  refine ⟨fun h => ?_, fun h => ?_⟩
  · have h' : some 'M' = some 'R' := congrArg (fun t : Text => t[8]?) h
    exact absurd h' (by decide)
  · have h' : some 'l' = some 'L' := congrArg List.head? h
    exact absurd h' (by decide)

/-- The words inside the include guard are keywords and tags, numbers, and the names of the MMDs and
registers. -/
lemma guardName_not_mem (hguard : ∀ m a, ¬Occurs d guardName m a) :
    Token.word guardName ∉ (bodyTokens d).flatten := by
  have hvalue : ∀ w n, guardName ≠ "0x".toList ++ hex w n := by
    intro w n h
    have h' : some 'L' = some '0' := congrArg List.head? h
    exact absurd h' (by decide)
  have hitem : ∀ {n : Text} {w a : ℕ},
      Token.word guardName ∈ Reader.itemTokens n ("0x".toList ++ hex w a) → guardName = n := by
    intro n w a h
    simp only [Reader.itemTokens, List.mem_cons, Token.word.injEq, reduceCtorEq, false_or,
      List.not_mem_nil, or_false] at h
    exact h.resolve_right (hvalue w a)
  intro h
  obtain ⟨ts, hts, h⟩ := List.mem_flatten.mp h
  rcases mem_bodyTokens hts with hts | ⟨m, rfl⟩ | ⟨m, rfl⟩ | ⟨p, hp, rfl⟩
  · exact (by decide : ∀ ts ∈ _, Token.word guardName ∉ ts) ts hts h
  · exact (mmdName_ne_guardName m).1 (hitem h).symm
  · simp only [mmdOpenTokens, List.mem_cons, Token.word.injEq, reduceCtorEq, List.not_mem_nil,
      or_false] at h
    rcases h with h | h
    · exact absurd h (by decide)
    · exact (mmdName_ne_guardName m).2 h.symm
  · have hocc := occurs_of_mem_kept hp
    rw [← hitem h] at hocc
    exact hguard _ _ hocc

/-- **The file is read back** as the enumerations, unless a register has the name of the include
guard. -/
lemma read_emit (hd : Parsed d) (banner : Banner) (hguard : ∀ m a, ¬Occurs d guardName m a) :
    readEnums (emit banner d).1 = some (enums d) := by
  have hexp : expand [guardName] (bodyTokens d).flatten = (bodyTokens d).flatten := by
    refine expand_eq_self fun n hn hmem => ?_
    rw [List.mem_singleton.mp hmem] at hn
    exact guardName_not_mem hguard hn
  unfold readEnums
  rw [preprocess_emit hd, hexp]
  change (List.foldlM Reader.step ⟨[], .top⟩ (bodyTokens d).flatten).bind _ = _
  rw [run_bodyTokens hd]
  rfl

/-- An enumerator that is read does not have the name of the include guard. -/
lemma guardName_not_read (hd : Parsed d) (banner : Banner) {es : List (List Enumerator)}
    (h : readEnums (emit banner d).1 = some es) : guardName ∉ es.flatten.map Prod.fst := by
  intro hn
  obtain ⟨ts, hts, hw⟩ := mem_of_readEnums h hn
  rw [preprocess_emit hd] at hts
  rw [← Option.some.inj hts] at hw
  exact (mem_expand hw).1 (List.mem_singleton.mpr rfl)

/-! ## Well-formedness -/

/-- What the enumerations of a header for the registers `d` should be: no enumerator has the name of
another one, no enumeration is empty, and every register name that was read stands there once, with
the offset of its first occurrence. -/
structure Declares (d : ByMmd) (es : List (List Enumerator)) : Prop where
  distinct : (es.flatten.map Prod.fst).Nodup
  nonempty : ∀ e ∈ es, e ≠ []
  once : ∀ {n m a}, Occurs d n m a → (es.flatten.map Prod.fst).count n = 1
  first : ∀ {n m a}, Occurs d n m a → ∃ m' a', FirstAt d n m' a' ∧ (n, a') ∈ es.flatten

/-- **A well-formed header** for the registers `d`: it can be read, and it declares the registers as
it should. -/
def WellFormed (d : ByMmd) (file : Text) : Prop := ∃ es, readEnums file = some es ∧ Declares d es

/-- The registers that the generator can cope with: no register has the name of the include guard or
of an MMD that is emitted, and every MMD has a register whose name does not occur in a lower MMD. -/
structure Clean (d : ByMmd) : Prop where
  guard : ∀ m a, ¬Occurs d guardName m a
  mmd : ∀ {m}, m ∈ d.keys → ∀ m' a, ¬Occurs d (mmdName m) m' a
  own : ∀ {m}, m ∈ d.keys → ∃ n a, Occurs d n m a ∧ ∀ m' a', Occurs d n m' a' → m ≤ m'

/-- Without aliases between MMDs only names can be in the way. -/
lemma clean_of_unique (hd : Parsed d)
    (hone : ∀ {n m a m' a'}, Occurs d n m a → Occurs d n m' a' → m = m')
    (hguard : ∀ m a, ¬Occurs d guardName m a)
    (hmmd : ∀ {m}, m ∈ d.keys → ∀ m' a, ¬Occurs d (mmdName m) m' a) : Clean d := by
  refine ⟨hguard, hmmd, fun {m} hm => ?_⟩
  obtain ⟨regs, hregs⟩ := Dict.mem_keys.mp hm
  obtain ⟨⟨a, n⟩, hr⟩ := List.exists_mem_of_ne_nil _ (hd.ne_nil hregs)
  have hocc : Occurs d n m a := ⟨regs, hregs, hr⟩
  exact ⟨n, a, hocc, fun m' a' h => le_of_eq (hone hocc h)⟩

/-- The names in the file: those of the MMDs, then those of the registers. -/
lemma names_enums (d : ByMmd) :
    (enums d).flatten.map Prod.fst = (mmds d).map mmdName ++ (kept d).flatten.map Prod.fst := by
  rw [enums, List.flatten_cons, List.map_append, List.map_map, ← List.map_flatten, List.map_map]
  rfl

/-- The names of the MMDs that are emitted are distinct. -/
lemma nodup_mmdNames (hd : Parsed d) : ((mmds d).map mmdName).Nodup := by
  have hlabels : ((List.range 32).map mmdLabel).Nodup := by decide +kernel
  refine List.Nodup.map_on (fun m hm m' hm' heq => ?_) ((mmds_sorted d).imp fun h => ne_of_lt h)
  exact List.inj_on_of_nodup_map hlabels (List.mem_range.mpr (hd.lt_of_mem hm))
    (List.mem_range.mpr (hd.lt_of_mem hm')) (List.append_cancel_left heq)

/-- **The header is well formed exactly for clean registers.**

**Proof sketch.** If no register has the name of the include guard, the file is read back as `enums`
(`read_emit`), and if one has, it disappears from the file (`guardName_not_read`). What is emitted
is the first occurrence of each name (`firstAt_of_mem_kept`), so the names of the registers are
distinct and only those of the MMDs can clash with them; and an enumeration is empty when its MMD
has no name of its own (`kept_ne_nil_iff`). -/
lemma wellFormed_iff (hd : Parsed d) (hne : d.entries ≠ []) (banner : Banner) :
    WellFormed d (emit banner d).1 ↔ Clean d := by
  have hmmds : mmds d ≠ [] := by
    obtain ⟨⟨m, regs⟩, hm⟩ := List.exists_mem_of_ne_nil _ hne
    exact List.ne_nil_of_mem (mem_mmds.mpr (Dict.mem_keys.mpr ⟨regs, hm⟩))
  constructor
  · rintro ⟨es, hread, hes⟩
    have hguard : ∀ m a, ¬Occurs d guardName m a := by
      intro m a h
      have hcount := hes.once h
      have hzero := List.count_eq_zero.mpr (guardName_not_read hd banner hread)
      omega
    obtain rfl : enums d = es := Option.some.inj ((read_emit hd banner hguard).symm.trans hread)
    have hdistinct := hes.distinct
    rw [names_enums] at hdistinct
    refine ⟨hguard, fun hm m' a h => ?_, fun hm => ?_⟩
    · have hdisj := List.disjoint_of_nodup_append hdistinct
      exact hdisj (List.mem_map_of_mem (mem_mmds.mpr hm)) (mem_names_kept.mpr ⟨m', a, h⟩)
    · refine kept_ne_nil_iff.mp (fun k hk hnil => ?_) _ (mem_mmds.mpr hm)
      refine hes.nonempty _ (List.mem_cons_of_mem _ (List.mem_map_of_mem hk)) ?_
      rw [hnil, List.map_nil]
  · intro h
    have hnodup : ((enums d).flatten.map Prod.fst).Nodup := by
      rw [names_enums, flatten_kept]
      refine List.nodup_append.mpr ⟨nodup_mmdNames hd, nodup_keys_fresh _ _, ?_⟩
      rintro _ hmem n hn rfl
      obtain ⟨m, hm, rfl⟩ := List.mem_map.mp hmem
      rw [← flatten_kept, mem_names_kept] at hn
      obtain ⟨m', a, hocc⟩ := hn
      exact h.mmd (mem_mmds.mp hm) m' a hocc
    refine ⟨enums d, read_emit hd banner h.guard, hnodup, fun e he => ?_, fun hocc => ?_,
      fun hocc => ?_⟩
    · rcases List.mem_cons.mp he with rfl | he
      · exact fun hnil => hmmds (List.map_eq_nil_iff.mp hnil)
      · obtain ⟨k, hk, rfl⟩ := List.mem_map.mp he
        have hk' := kept_ne_nil_iff.mpr (fun m hm => h.own (mem_mmds.mp hm)) k hk
        exact fun hnil => hk' (List.map_eq_nil_iff.mp hnil)
    · refine List.count_eq_one_of_mem hnodup ?_
      rw [names_enums]
      exact List.mem_append_right _ (mem_names_kept.mpr ⟨_, _, hocc⟩)
    · obtain ⟨p, hp, rfl⟩ := List.mem_map.mp (mem_names_kept.mpr ⟨_, _, hocc⟩)
      refine ⟨_, _, firstAt_of_mem_kept hd hp, ?_⟩
      rw [enums, List.flatten_cons, ← List.map_flatten]
      exact List.mem_append_right _ (List.mem_map.mpr ⟨p, hp, rfl⟩)

/-- Once `parse` has found registers, the script writes a file. -/
lemma main_of_parse {u : Decimals} {mesa : Mesa} {err : Text} (h : parse u mesa = .ok (d, err))
    (hne : d.entries ≠ []) (banner : Banner) (out : Text) :
    ∃ log, main u banner mesa out = .exited 0 log (some (emit banner d).1) := by
  unfold main
  rw [h]
  dsimp only
  rw [if_neg hne]
  exact ⟨_, rfl⟩

/-! ## Two sets of headers -/

/-- The digits of ASCII. -/
def asciiDecimals : Decimals where
  val := fun c => if c.isDigit then some (c.toNat - 48) else none
  lt := by
    intro c d h
    split_ifs at h with hc
    have hd := Option.some.inj h
    simp only [Char.isDigit, Bool.and_eq_true, decide_eq_true_eq, UInt32.le_iff_toNat_le] at hc
    have hle : c.toNat ≤ 57 := hc.2
    omega
  ascii := fun c hc => if_pos hc

/-- No notices. -/
def noBanner : Banner := ⟨[], fun _ h => absurd h List.not_mem_nil⟩

/-- Two MMDs, and the given lines of one register header. -/
def mesaOf (lines : Text) : Mesa where
  path := "mesa".toList
  util := some "#define MMD_ID_A (0x01)\n#define MMD_ID_B ( 3U )\n".toList
  regs := some [("regs_lan80xx_x.h".toList, lines)]

/-- The register `LAN80XX_R` in both MMDs. -/
def aliasLines : Text :=
  "#define LAN80XX_R (LAN80XX_IOREG(MMD_ID_A, 0, 0x10))\n".toList ++
    "#define LAN80XX_R (LAN80XX_IOREG(MMD_ID_B, 1, 32))\n".toList

/-- What is read from them. -/
def aliasRegs : ByMmd := ⟨[(1, [(16, "LAN80XX_R".toList)]), (3, [(32, "LAN80XX_R".toList)])], by decide⟩

/-- What is declared for them: nothing for the second MMD. -/
def aliasEnums : List (List Enumerator) := [
  [("LAN80XX_MMD_LINE_PMA".toList, 1), ("LAN80XX_MMD_MAC_LINE_PCS".toList, 3)],
  [("LAN80XX_R".toList, 16)],
  []]

/-- The same with a register of its own in the second MMD. -/
def ownLines : Text := aliasLines ++ "#define LAN80XX_S (LAN80XX_IOREG(MMD_ID_B, 1, 7))\n".toList

/-- What is read from them. -/
def ownRegs : ByMmd :=
  ⟨[(1, [(16, "LAN80XX_R".toList)]), (3, [(7, "LAN80XX_S".toList), (32, "LAN80XX_R".toList)])],
    by decide⟩

/-- What `parse` reads is known by the entries of the dictionary. -/
lemma parse_eq_ok {u : Decimals} {mesa : Mesa}
    (h : (parse u mesa).toOption.map (fun p => p.1.entries) = some d.entries) :
    ∃ err, parse u mesa = .ok (d, err) := by
  cases hp : parse u mesa with
  | error e =>
    rw [hp] at h
    exact absurd h (by simp [Except.toOption])
  | ok p =>
    rw [hp] at h
    exact ⟨p.2, congrArg Except.ok (Prod.ext (Dict.ext (Option.some.inj h)) rfl)⟩

/-- A name that does not occur, by going through the registers. -/
lemma not_occurs {n : Text} (h : n ∉ ((mmds d).flatMap (occurrences d)).map Prod.fst)
    {m a : ℕ} : ¬Occurs d n m a := fun hocc =>
  h (List.mem_map.mpr ⟨(n, m, a), mem_flatMap_occurrences.mpr hocc, rfl⟩)

/-- The generator can cope with these registers, although a name occurs in two MMDs.

**Proof sketch.** The three occurrences are listed by evaluation; each of the three conditions is
checked on the list. -/
lemma clean_ownRegs : Clean ownRegs := by
  have hocc : ∀ {n m a}, Occurs ownRegs n m a →
      n = "LAN80XX_R".toList ∧ m = 1 ∨ n = "LAN80XX_S".toList ∧ m = 3 ∨
        n = "LAN80XX_R".toList ∧ m = 3 := by
    intro n m a h
    have hlist : (mmds ownRegs).flatMap (occurrences ownRegs) =
        [("LAN80XX_R".toList, 1, 16), ("LAN80XX_S".toList, 3, 7), ("LAN80XX_R".toList, 3, 32)] := by
      decide +kernel
    have hm := mem_flatMap_occurrences (p := (n, m, a)).mpr h
    rw [hlist] at hm
    simp only [List.mem_cons, Prod.mk.injEq, List.not_mem_nil, or_false] at hm
    rcases hm with ⟨hn, hm, -⟩ | ⟨hn, hm, -⟩ | ⟨hn, hm, -⟩
    · exact Or.inl ⟨hn, hm⟩
    · exact Or.inr (Or.inl ⟨hn, hm⟩)
    · exact Or.inr (Or.inr ⟨hn, hm⟩)
  have hkeys : ∀ {m}, m ∈ ownRegs.keys → m = 1 ∨ m = 3 := fun {m} hm => by
    simpa [ownRegs, Dict.keys] using hm
  refine ⟨fun m a h => ?_, fun hm m' a h => ?_, fun hm => ?_⟩
  · rcases hocc h with ⟨h, -⟩ | ⟨h, -⟩ | ⟨h, -⟩ <;> exact absurd h (by decide)
  · rcases hkeys hm with rfl | rfl
    all_goals rcases hocc h with ⟨h, -⟩ | ⟨h, -⟩ | ⟨h, -⟩ <;> exact absurd h (by decide +kernel)
  · rcases hkeys hm with rfl | rfl
    · refine ⟨"LAN80XX_R".toList, 16, ⟨_, List.mem_cons_self, List.mem_cons_self⟩, fun m' a' h => ?_⟩
      rcases hocc h with ⟨-, rfl⟩ | ⟨-, rfl⟩ | ⟨-, rfl⟩ <;> decide
    · refine ⟨"LAN80XX_S".toList, 7, ⟨_, List.mem_cons_of_mem _ List.mem_cons_self, List.mem_cons_self⟩,
        fun m' a' h => ?_⟩
      rcases hocc h with ⟨h, -⟩ | ⟨-, rfl⟩ | ⟨h, -⟩
      · exact absurd h (by decide)
      · exact le_rfl
      · exact absurd h (by decide)

/-! ## The script -/

end Spid.RegsGen

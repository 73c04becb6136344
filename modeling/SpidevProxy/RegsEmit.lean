import SpidevProxy.RegsGen
import SpidevProxy.Lib.FirstSeen

set_option relaxedAutoImplicit false
set_option autoImplicit false

/-!
# What the generator of the register header reads and keeps

The loops of `parse` and `emit`. `parse` gives registers with the names that its pattern takes, for
MMDs that exist, in the order of their offsets; `emit` goes through them in the order of MMD and
offset and keeps the first register of each name.

## Main definitions

* `Spid.RegsGen.Valid`, `Spid.RegsGen.Parsed` — what holds of the registers in the loop of `parse`
  and after it.
* `Spid.RegsGen.Occurs` — a name was read for an MMD with an offset.
* `Spid.RegsGen.kept` — the registers that are emitted for each MMD.

## Main results

* `Spid.RegsGen.parsed_of_parse` — what `parse` gives.
* `Spid.RegsGen.emit_eq` — the lines of the file, in terms of what is kept.
* `Spid.RegsGen.mem_names_kept`, `Spid.RegsGen.firstAt_of_mem_kept` — every name is kept, where it
  occurs first.
* `Spid.RegsGen.kept_ne_nil_iff` — when every MMD keeps a register.
-/

namespace Spid.RegsGen

open Regex FirstSeen

variable {u : Decimals} {mesa : Mesa} {d : ByMmd} {err : Text}

/-! ## What `parse` gives -/

/-- A name that `REG_RE` takes: `LAN80XX_[A-Z0-9_]+`. -/
def IsRegName (n : Text) : Prop :=
  ∃ w, n = "LAN80XX_".toList ++ w ∧ w ≠ [] ∧ ∀ c ∈ w, isNameChar c = true

/-- What the pattern takes for a name is one. -/
lemma isRegName_of_groups {line name : Text} {g : List Text}
    (h : groups? (regRe u) line = some (name :: g)) : IsRegName name := by
  obtain ⟨w, hw⟩ := lang_of_groups? h
  obtain ⟨_, hw⟩ := hw.skip rfl
  obtain ⟨_, hw⟩ := hw.skip rfl
  obtain ⟨_, hw⟩ := hw.skip rfl
  obtain ⟨n, g', hg, _, hn⟩ := hw.head_group
  obtain ⟨rfl, -⟩ := List.cons.inj hg
  exact hn.lit_plus

/-- What holds of the registers that are read: there are no other MMDs than `0x00` to `0x1F`, every
MMD has a register, and the names are those that `REG_RE` takes. -/
structure Valid (d : ByMmd) : Prop where
  lt : ∀ {m regs}, (m, regs) ∈ d.entries → m < mmdMax
  ne_nil : ∀ {m regs}, (m, regs) ∈ d.entries → regs ≠ []
  name : ∀ {m regs}, (m, regs) ∈ d.entries → ∀ r ∈ regs, IsRegName r.2

/-- Nothing has been parsed. -/
lemma Valid.empty : Valid Dict.empty := by
  constructor
  all_goals exact fun h => absurd h List.not_mem_nil

/-- One more register. -/
lemma Valid.set (h : Valid d) {m a : ℕ} {n : Text} (hm : m < mmdMax) (hn : IsRegName n) :
    Valid (d.set m (d.getD m [] ++ [(a, n)])) := by
  have hold : ∀ r ∈ d.getD m [], IsRegName r.2 := by
    intro r hr
    obtain ⟨regs, hregs, hr⟩ := Dict.mem_getD_nil.mp hr
    exact h.name hregs r hr
  refine ⟨fun hm' => ?_, fun hm' => ?_, fun hm' => ?_⟩
  all_goals rcases Dict.mem_set.mp hm' with ⟨rfl, rfl⟩ | ⟨-, hm'⟩
  · exact hm
  · exact h.lt hm'
  · exact List.append_ne_nil_of_right_ne_nil _ (List.cons_ne_nil _ _)
  · exact h.ne_nil hm'
  · intro r hr
    rcases List.mem_append.mp hr with hr | hr
    · exact hold r hr
    · rw [List.mem_singleton.mp hr]
      exact hn
  · exact h.name hm'

/-- A line of a register header. -/
lemma Valid.regLine {ids : Dict Text ℕ} {st st' : Parsing} {line : Text}
    (hv : Valid st.byMmd) (h : regLine u ids st line = .ok st') : Valid st'.byMmd := by
  unfold RegsGen.regLine at h
  split at h
  · rename_i name sym is32 offset hg
    cases hid : ids.get? sym with
    | none =>
      rw [hid] at h
      rw [← Except.ok.inj h]
      exact hv
    | some mmd =>
      rw [hid] at h
      dsimp only at h
      split_ifs at h with hmax
      · rw [← Except.ok.inj h]
        exact hv
      · cases hi : int u offset with
        | error e =>
          rw [hi] at h
          exact absurd h (by simp [Except.map])
        | ok addr =>
          rw [hi] at h
          rw [← Except.ok.inj h]
          exact hv.set (by omega) (isRegName_of_groups hg)
  · rw [← Except.ok.inj h]
    exact hv

/-- All lines, one after the other. -/
lemma Valid.foldlM {ids : Dict Text ℕ} {st st' : Parsing} {lines : List Text}
    (hv : Valid st.byMmd) (h : lines.foldlM (RegsGen.regLine u ids) st = .ok st') :
    Valid st'.byMmd := by
  induction lines generalizing st with
  | nil =>
    rw [← Except.ok.inj h]
    exact hv
  | cons l ls ih =>
    rw [List.foldlM_cons] at h
    cases hl : RegsGen.regLine u ids st l with
    | error e =>
      rw [hl] at h
      exact absurd h (by simp [bind, Except.bind])
    | ok st₁ =>
      rw [hl] at h
      exact ih (hv.regLine hl) h

/-! ## The order of the registers -/

/-- A lexicographic order is total if its second part is. -/
lemma lex_total {a b : ℕ} {p q : Prop} (h : p ∨ q) : (a < b ∨ a = b ∧ p) ∨ (b < a ∨ b = a ∧ q) := by
  rcases Nat.lt_trichotomy a b with hlt | heq | hlt
  · exact Or.inl (Or.inl hlt)
  · exact h.imp (fun hp => Or.inr ⟨heq, hp⟩) fun hq => Or.inr ⟨heq.symm, hq⟩
  · exact Or.inr (Or.inl hlt)

/-- A lexicographic order is transitive if its second part is. -/
lemma lex_trans {a b c : ℕ} {p q r : Prop} (h : p → q → r) (h₁ : a < b ∨ a = b ∧ p)
    (h₂ : b < c ∨ b = c ∧ q) : a < c ∨ a = c ∧ r := by
  rcases h₁ with h₁ | ⟨h₁, hp⟩
  · exact Or.inl (by omega)
  · rcases h₂ with h₂ | ⟨h₂, hq⟩
    · exact Or.inl (by omega)
    · exact Or.inr ⟨by omega, h hp hq⟩

/-- Any two texts are in order, one way or the other. -/
lemma leText_total : ∀ s t : Text, leText s t = true ∨ leText t s = true
  | [], _ => Or.inl rfl
  | _ :: _, [] => Or.inr rfl
  | a :: s, b :: t => by
    simp only [leText, Bool.or_eq_true, Bool.and_eq_true, decide_eq_true_eq]
    exact lex_total (leText_total s t)

/-- The order of texts is transitive. -/
lemma leText_trans : ∀ {s t u : Text}, leText s t = true → leText t u = true → leText s u = true
  | [], _, _ => fun _ _ => rfl
  | _ :: _, [], _ => fun h _ => absurd h (by simp [leText])
  | _ :: _, _ :: _, [] => fun _ h => absurd h (by simp [leText])
  | a :: s, b :: t, c :: u => by
    simp only [leText, Bool.or_eq_true, Bool.and_eq_true, decide_eq_true_eq]
    exact lex_trans leText_trans

instance totalLeReg : Std.Total fun r r' : ℕ × Text => leReg r r' = true where
  total r r' := by
    simp only [leReg, Bool.or_eq_true, Bool.and_eq_true, decide_eq_true_eq]
    exact lex_total (leText_total r.2 r'.2)

instance transLeReg : IsTrans (ℕ × Text) fun r r' => leReg r r' = true where
  trans r r' r'' := by
    simp only [leReg, Bool.or_eq_true, Bool.and_eq_true, decide_eq_true_eq]
    exact lex_trans leText_trans

/-- The registers are sorted by address. -/
lemma sortRegs_sorted (regs : List (ℕ × Text)) : (sortRegs regs).Pairwise fun r r' => r.1 ≤ r'.1 := by
  have hsorted := List.pairwise_insertionSort (fun r r' : ℕ × Text => leReg r r' = true) regs
  refine hsorted.imp fun {r r'} h => ?_
  simp only [leReg, Bool.or_eq_true, Bool.and_eq_true, decide_eq_true_eq] at h
  omega

/-- What `parse` gives is valid, and the registers of an MMD are in the order of their offsets. -/
structure Parsed (d : ByMmd) : Prop extends Valid d where
  sorted : ∀ {m regs}, (m, regs) ∈ d.entries → regs.Pairwise fun r r' => r.1 ≤ r'.1

/-- Sorting the registers of each MMD. -/
lemma Valid.sort (hv : Valid d) : Parsed (d.mapValues sortRegs) := by
  have hent : ∀ {m regs}, (m, regs) ∈ (d.mapValues sortRegs).entries →
      ∃ regs', (m, regs') ∈ d.entries ∧ regs = sortRegs regs' := by
    intro m regs hm
    obtain ⟨⟨m', regs'⟩, hm', heq⟩ := List.mem_map.mp hm
    obtain ⟨rfl, rfl⟩ := Prod.mk.inj heq
    exact ⟨regs', hm', rfl⟩
  refine ⟨⟨fun hm => ?_, fun hm => ?_, fun hm r hr => ?_⟩, fun hm => ?_⟩
  all_goals obtain ⟨regs', hm', rfl⟩ := hent hm
  · exact hv.lt hm'
  · intro hnil
    have hlen := congrArg List.length hnil
    rw [sortRegs, List.length_insertionSort] at hlen
    exact hv.ne_nil hm' (List.length_eq_zero_iff.mp hlen)
  · exact hv.name hm' r ((List.mem_insertionSort _).mp hr)
  · exact sortRegs_sorted regs'

/-- A successful `parse` has read all lines and sorted the registers. -/
lemma lines_of_parse (h : parse u mesa = .ok (d, err)) :
    ∃ (ids : Dict Text ℕ) (lines : List Text) (st : Parsing),
      lines.foldlM (regLine u ids) ⟨Dict.empty, []⟩ = .ok st ∧ d = st.byMmd.mapValues sortRegs := by
  obtain ⟨path, util, regs⟩ := mesa
  cases util with
  | none => exact absurd h (by simp [parse, throw, throwThe, MonadExceptOf.throw])
  | some util =>
    cases regs with
    | none => exact absurd h (by simp [parse, throw, throwThe, MonadExceptOf.throw])
    | some files =>
      simp only [parse, bind, Except.bind] at h
      cases hids : parseMmdIds u util with
      | error e =>
        rw [hids] at h
        exact absurd h (by simp)
      | ok ids =>
        rw [hids] at h
        dsimp only at h
        cases hst : ((headers files).flatMap fun f => splitlines f.2).foldlM (regLine u ids)
            ⟨Dict.empty, []⟩ with
        | error e =>
          rw [hst] at h
          exact absurd h (by simp)
        | ok st =>
          rw [hst] at h
          exact ⟨ids, _, st, hst, (Prod.mk.inj (Except.ok.inj h)).1.symm⟩

/-- What `parse` returns is what can be parsed. -/
lemma parsed_of_parse (h : parse u mesa = .ok (d, err)) : Parsed d := by
  obtain ⟨ids, lines, st, hst, rfl⟩ := lines_of_parse h
  exact (Valid.empty.foldlM hst).sort

/-! ## What `emit` keeps -/

/-- The registers of an MMD: their names with the MMD and the offset. -/
def occurrences (d : ByMmd) (m : ℕ) : List (Text × ℕ × ℕ) := (d.getD m []).map fun r => (r.2, m, r.1)

/-- The registers that are emitted for each MMD. -/
def kept (d : ByMmd) : List (List (Text × ℕ × ℕ)) := freshGroups [] ((mmds d).map (occurrences d))

/-- The lines of the enumeration of an MMD. -/
def mmdLines (m : ℕ) (k : List (Text × ℕ × ℕ)) : List Text :=
  mmdOpen m ++ k.map (fun p => regItem p.1 p.2.2) ++ ["\x7d;".toList, []]

/-- The inner loop emits what is new.

**Proof sketch.** Induction on the registers. A name that is in `seen` emits nothing, whether or
not a warning is printed; a new one emits its line and goes into `seen`. -/
lemma foldl_emitReg (m : ℕ) (regs : List (ℕ × Text)) (st : Emitting) :
    let k := fresh st.seen.keys (regs.map fun r => (r.2, m, r.1))
    (regs.foldl (emitReg m) st).lines = st.lines ++ k.map (fun p => regItem p.1 p.2.2) ∧
      (regs.foldl (emitReg m) st).seen.keys = st.seen.keys ++ k.map Prod.fst := by
  induction regs generalizing st with
  | nil => simp [fresh]
  | cons r regs ih =>
    rw [List.foldl_cons, List.map_cons, fresh]
    cases hseen : st.seen.get? r.2 with
    | some prev =>
      have hmem : r.2 ∈ st.seen.keys := Dict.mem_keys.mpr ⟨prev, Dict.get?_eq_some_iff.mp hseen⟩
      have hsame : (emitReg m st r).seen = st.seen ∧ (emitReg m st r).lines = st.lines := by
        unfold emitReg
        rw [hseen]
        dsimp only
        split_ifs
        · exact ⟨rfl, rfl⟩
        · exact ⟨rfl, rfl⟩
      rw [if_pos hmem, ← hsame.1, ← hsame.2]
      exact ih _
    | none =>
      have hnot : r.2 ∉ st.seen.keys := Dict.get?_eq_none_iff.mp hseen
      have hnew : (emitReg m st r).seen = st.seen.set r.2 (m, r.1) ∧
          (emitReg m st r).lines = st.lines ++ [regItem r.2 r.1] := by
        unfold emitReg
        rw [hseen]
        exact ⟨rfl, rfl⟩
      obtain ⟨hl, hk⟩ := ih (emitReg m st r)
      rw [if_neg hnot, hl, hk, hnew.1, hnew.2, Dict.keys_set_of_not_mem hnot]
      simp

/-- The outer loop emits the enumerations one after the other. -/
lemma foldl_emitMmd (d : ByMmd) (ms : List ℕ) (st : Emitting) :
    (ms.foldl (emitMmd d) st).lines = st.lines ++
      (ms.zip (freshGroups st.seen.keys (ms.map (occurrences d)))).flatMap
        fun g => mmdLines g.1 g.2 := by
  induction ms generalizing st with
  | nil => simp [freshGroups]
  | cons m ms ih =>
    obtain ⟨hl, hk⟩ := foldl_emitReg m (d.getD m []) { st with lines := st.lines ++ mmdOpen m }
    rw [List.foldl_cons, ih, List.map_cons, freshGroups, List.zip_cons_cons, List.flatMap_cons]
    simp only [emitMmd, hl, hk, mmdLines, occurrences, List.append_assoc]

/-- The lines of the file. -/
lemma emit_eq (banner : Banner) (d : ByMmd) : (emit banner d).1 = ['\n'].intercalate
    ((banner.lines ++ about) ++ (guardOpen ++ ((mmdsOpen ++ ((mmds d).map mmdItem ++ (mmdsClose ++
      ((mmds d).zip (kept d)).flatMap fun g => mmdLines g.1 g.2))) ++ guardClose))) := by
  change ['\n'].intercalate ((emitMmds banner d).lines ++ guardClose) = _
  rw [emitMmds, foldl_emitMmd]
  simp only [List.append_assoc]
  rfl

/-! ## Where a register occurs -/

/-- The name `n` was read for the MMD `m` with the offset `a`. -/
def Occurs (d : ByMmd) (n : Text) (m a : ℕ) : Prop := ∃ regs, (m, regs) ∈ d.entries ∧ (a, n) ∈ regs

/-- The MMDs are the keys. -/
lemma mem_mmds {m : ℕ} : m ∈ mmds d ↔ m ∈ d.keys := List.mem_insertionSort _

instance totalBle : Std.Total fun m m' : ℕ => Nat.ble m m' = true where
  total m m' := by
    rw [Nat.ble_eq, Nat.ble_eq]
    omega

instance transBle : IsTrans ℕ fun m m' => Nat.ble m m' = true where
  trans m m' m'' := by
    rw [Nat.ble_eq, Nat.ble_eq, Nat.ble_eq]
    omega

/-- The MMDs are in ascending order, each once. -/
lemma mmds_sorted (d : ByMmd) : (mmds d).Pairwise fun m m' => m < m' := by
  have hle := List.pairwise_insertionSort (fun m m' : ℕ => Nat.ble m m' = true) d.keys
  have hne : (mmds d).Pairwise fun m m' => m ≠ m' :=
    (List.perm_insertionSort _ d.keys).nodup_iff.mpr d.nodup
  refine (hle.and hne).imp fun {m m'} h => ?_
  have h₁ := Nat.ble_eq.mp h.1
  have h₂ := h.2
  omega

/-- The occurrences of names in an MMD. -/
lemma mem_occurrences {m : ℕ} {p : Text × ℕ × ℕ} :
    p ∈ occurrences d m ↔ p.2.1 = m ∧ Occurs d p.1 m p.2.2 := by
  obtain ⟨n, m', a⟩ := p
  rw [occurrences, List.mem_map]
  constructor
  · rintro ⟨⟨a', n'⟩, hr, heq⟩
    obtain ⟨rfl, rfl, rfl⟩ : n' = n ∧ m = m' ∧ a' = a := by simpa using heq
    exact ⟨rfl, Dict.mem_getD_nil.mp hr⟩
  · rintro ⟨rfl, h⟩
    exact ⟨(a, n), Dict.mem_getD_nil.mpr h, rfl⟩

/-- A name occurs in one of the MMDs. -/
lemma mem_mmds_of_occurs {n : Text} {m a : ℕ} (h : Occurs d n m a) : m ∈ mmds d := by
  obtain ⟨regs, hm, -⟩ := h
  exact mem_mmds.mpr (Dict.mem_keys.mpr ⟨regs, hm⟩)

/-- All registers, in the order in which `emit` comes to them. -/
lemma mem_flatMap_occurrences {p : Text × ℕ × ℕ} :
    p ∈ (mmds d).flatMap (occurrences d) ↔ Occurs d p.1 p.2.1 p.2.2 := by
  rw [List.mem_flatMap]
  constructor
  · rintro ⟨m, -, h⟩
    obtain ⟨rfl, h⟩ := mem_occurrences.mp h
    exact h
  · exact fun h => ⟨p.2.1, mem_mmds_of_occurs h, mem_occurrences.mpr ⟨rfl, h⟩⟩

/-- The order of MMD and offset. -/
def before (x y : ℕ × ℕ) : Prop := x.1 < y.1 ∨ x.1 = y.1 ∧ x.2 ≤ y.2

/-- `emit` comes to the registers in the order of MMD and offset. -/
lemma occurrences_sorted (hd : Parsed d) :
    ((mmds d).flatMap (occurrences d)).Pairwise fun p q => before p.2 q.2 := by
  refine List.pairwise_flatMap.mpr ⟨fun m hm => ?_, (mmds_sorted d).imp fun {m m'} hlt p hp q hq => ?_⟩
  · obtain ⟨regs, hregs⟩ := Dict.mem_keys.mp (mem_mmds.mp hm)
    rw [occurrences, Dict.getD_of_mem hregs, List.pairwise_map]
    exact (hd.sorted hregs).imp fun h => Or.inr ⟨rfl, h⟩
  · obtain ⟨hp, -⟩ := mem_occurrences.mp hp
    obtain ⟨hq, -⟩ := mem_occurrences.mp hq
    exact Or.inl (by rw [hp, hq]; exact hlt)

/-- The registers that are kept, of all MMDs. -/
lemma flatten_kept (d : ByMmd) : (kept d).flatten = fresh [] ((mmds d).flatMap (occurrences d)) := by
  rw [kept, flatten_freshGroups, List.flatMap_def]

/-- What is kept was read. -/
lemma occurs_of_mem_kept {p : Text × ℕ × ℕ} (h : p ∈ (kept d).flatten) :
    Occurs d p.1 p.2.1 p.2.2 := by
  rw [flatten_kept] at h
  exact mem_flatMap_occurrences.mp (mem_of_mem_fresh h)

/-- The names are names of registers. -/
lemma Parsed.isRegName (hd : Parsed d) {n : Text} {m a : ℕ} (h : Occurs d n m a) :
    IsRegName n := by
  obtain ⟨regs, hm, hr⟩ := h
  exact hd.name hm _ hr

/-- The MMDs are in range. -/
lemma Parsed.lt_of_mem (hd : Parsed d) {m : ℕ} (h : m ∈ mmds d) : m < mmdMax := by
  obtain ⟨regs, hm⟩ := Dict.mem_keys.mp (mem_mmds.mp h)
  exact hd.lt hm

/-- The first occurrence of a name, in the order of MMD and offset. -/
def FirstAt (d : ByMmd) (n : Text) (m a : ℕ) : Prop :=
  Occurs d n m a ∧ ∀ m' a', Occurs d n m' a' → before (m, a) (m', a')

/-- The names of the registers that are emitted are those that were read. -/
lemma mem_names_kept {n : Text} :
    n ∈ (kept d).flatten.map Prod.fst ↔ ∃ m a, Occurs d n m a := by
  rw [flatten_kept, mem_keys_fresh]
  constructor
  · rintro ⟨h, -⟩
    obtain ⟨p, hp, rfl⟩ := List.mem_map.mp h
    exact ⟨_, _, mem_flatMap_occurrences.mp hp⟩
  · rintro ⟨m, a, h⟩
    exact ⟨List.mem_map.mpr ⟨(n, m, a), mem_flatMap_occurrences.mpr h, rfl⟩, List.not_mem_nil⟩

/-- A register is emitted with its first occurrence. -/
lemma firstAt_of_mem_kept (hd : Parsed d) {p : Text × ℕ × ℕ} (h : p ∈ (kept d).flatten) :
    FirstAt d p.1 p.2.1 p.2.2 := by
  refine ⟨occurs_of_mem_kept h, fun m' a' hocc => ?_⟩
  rw [flatten_kept] at h
  exact rel_of_mem_fresh (R := before) (fun x => Or.inr ⟨rfl, le_rfl⟩) (occurrences_sorted hd) h
    (mem_flatMap_occurrences (p := (p.1, m', a')).mpr hocc) rfl

/-- Every enumeration of registers has one exactly if every MMD has a name of its own.

**Proof sketch.** What is kept for an MMD are the names that no MMD before it has
(`forall_freshGroups_ne_nil_iff`), and the MMDs stand in ascending order. -/
lemma kept_ne_nil_iff : (∀ k ∈ kept d, k ≠ []) ↔
    ∀ m ∈ mmds d, ∃ n a, Occurs d n m a ∧ ∀ m' a', Occurs d n m' a' → m ≤ m' := by
  have hlow : ∀ {ms : List ℕ} {n : Text}, n ∈ ((ms.map (occurrences d)).flatten).map Prod.fst ↔
      ∃ m ∈ ms, ∃ a, Occurs d n m a := by
    intro ms n
    simp only [List.mem_map, List.mem_flatten]
    constructor
    · rintro ⟨p, ⟨_, ⟨m, hm, rfl⟩, hp⟩, rfl⟩
      exact ⟨m, hm, p.2.2, (mem_occurrences.mp hp).2⟩
    · rintro ⟨m, hm, a, h⟩
      exact ⟨(n, m, a), ⟨_, ⟨m, hm, rfl⟩, mem_occurrences.mpr ⟨rfl, h⟩⟩, rfl⟩
  have hname : ∀ {m : ℕ} {n : Text}, n ∈ (occurrences d m).map Prod.fst ↔ ∃ a, Occurs d n m a := by
    intro m n
    have h := @hlow [m] n
    simpa using h
  rw [kept, forall_freshGroups_ne_nil_iff]
  constructor
  · intro h m hm
    obtain ⟨ms₁, ms₂, hsplit⟩ := List.append_of_mem hm
    obtain ⟨n, hn, -, hnot⟩ := h (ms₁.map (occurrences d)) (occurrences d m) (ms₂.map (occurrences d))
      (by rw [hsplit, List.map_append, List.map_cons])
    obtain ⟨a, ha⟩ := hname.mp hn
    refine ⟨n, a, ha, fun m' a' hocc => ?_⟩
    -- an MMD that is lower than `m` stands before it
    have hsorted := mmds_sorted d
    rw [hsplit] at hsorted
    have hm' := mem_mmds_of_occurs hocc
    rw [hsplit] at hm'
    rcases List.mem_append.mp hm' with hm' | hm'
    · exact absurd (hlow.mpr ⟨m', hm', a', hocc⟩) hnot
    · rcases List.mem_cons.mp hm' with rfl | hm'
      · exact le_rfl
      · exact le_of_lt (List.rel_of_pairwise_cons (List.pairwise_append.mp hsorted).2.1 hm')
  · intro h l₁ l l₂ hsplit
    obtain ⟨ms₁, ms₂', hms, rfl, hl⟩ := List.map_eq_append_iff.mp hsplit
    obtain ⟨m, ms₂, rfl, rfl, rfl⟩ := List.map_eq_cons_iff.mp hl
    have hm : m ∈ mmds d := by
      rw [hms]
      exact List.mem_append_right _ List.mem_cons_self
    obtain ⟨n, a, ha, hmin⟩ := h m hm
    refine ⟨n, hname.mpr ⟨a, ha⟩, List.not_mem_nil, fun hmem => ?_⟩
    obtain ⟨m', hm', a', hocc⟩ := hlow.mp hmem
    have hsorted := mmds_sorted d
    rw [hms] at hsorted
    have hlt := (List.pairwise_append.mp hsorted).2.2 m' hm' m List.mem_cons_self
    have hle := hmin m' a' hocc
    omega

end Spid.RegsGen

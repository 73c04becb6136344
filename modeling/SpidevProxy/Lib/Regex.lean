import Mathlib.Data.List.Basic

set_option relaxedAutoImplicit false
set_option autoImplicit false

/-!
# Regular expressions with groups

The part of Python's `re` that line-oriented scanners use: character classes, greedy repetition of a
class, concatenation, alternation, groups and the end of the text. A pattern is tried from the
beginning of the text, as `re.match` does; the matcher returns the ways to match in the order of the
backtracking search, so that the first one is what `re.match` reports.

A group is reported where it stands in the pattern. The groups of an alternative that was not taken
are not reported, so a pattern with a group under an alternation has other numbers than in Python.

## Main definitions

* `Regex.Re` — patterns.
* `Regex.Lang` — what a pattern matches, and with which groups.
* `Regex.run`, `Regex.groups?` — the backtracking search, and the groups of the first match.

## Main results

* `Regex.lang_of_groups?` — what the search finds is in the language of the pattern.
-/

namespace Regex

/-- Patterns. -/
inductive Re : Type
  | eps
  | chr (p : Char → Bool)
  | many (p : Char → Bool)
  | cat (r s : Re)
  | alt (r s : Re)
  | group (r : Re)
  | eos

namespace Re

/-- The characters of a text, one after the other. -/
def lit (s : List Char) : Re := s.foldr (fun c r => cat (chr (· = c)) r) eps

/-- At least one character of a class. -/
def plus (p : Char → Bool) : Re := cat (chr p) (many p)

/-- A pattern that may be left out. -/
def opt (r : Re) : Re := alt r eps

/-- Patterns one after the other. -/
def seq (rs : List Re) : Re := rs.foldr cat eps

/-- A pattern without groups. -/
def plain : Re → Bool
  | cat r s => plain r && plain s
  | alt r s => plain r && plain s
  | group _ => false
  | _ => true

end Re

open Re

/-- What a pattern matches, and the groups it reports. -/
inductive Lang : Re → List Char → List (List Char) → Prop
  | eps : Lang eps [] []
  | chr {p : Char → Bool} {c : Char} (h : p c = true) : Lang (chr p) [c] []
  | many {p : Char → Bool} {w : List Char} (h : ∀ c ∈ w, p c = true) : Lang (many p) w []
  | cat {r s : Re} {u w : List Char} {g g' : List (List Char)} (hr : Lang r u g) (hs : Lang s w g') :
      Lang (cat r s) (u ++ w) (g ++ g')
  | altLeft {r s : Re} {w : List Char} {g : List (List Char)} (h : Lang r w g) : Lang (alt r s) w g
  | altRight {r s : Re} {w : List Char} {g : List (List Char)} (h : Lang s w g) : Lang (alt r s) w g
  | group {r : Re} {w : List Char} {g : List (List Char)} (h : Lang r w g) : Lang (group r) w (w :: g)
  | eos : Lang eos [] []

/-- The texts that are left after characters of a class, the shortest first. -/
def rests (p : Char → Bool) : List Char → List (List Char)
  | [] => [[]]
  | c :: t => if p c then rests p t ++ [c :: t] else [c :: t]

/-- **The backtracking search**: the groups and the text that is left, for every way to match. -/
def run : Re → List Char → List (List (List Char) × List Char)
  | eps, t => [([], t)]
  | chr p, t =>
    match t with
    | [] => []
    | c :: t => if p c then [([], t)] else []
  | many p, t => (rests p t).map fun u => ([], u)
  | cat r s, t => (run r t).flatMap fun m => (run s m.2).map fun m' => (m.1 ++ m'.1, m'.2)
  | alt r s, t => run r t ++ run s t
  | group r, t => (run r t).map fun m => (t.take (t.length - m.2.length) :: m.1, m.2)
  | eos, t => if t = [] then [([], [])] else []

/-- The groups of the first match. -/
def groups? (r : Re) (t : List Char) : Option (List (List Char)) := (run r t).head?.map Prod.fst

/-- What may be left behind characters with a property. -/
lemma mem_rests {p : Char → Bool} {t u : List Char} (h : u ∈ rests p t) :
    ∃ w, t = w ++ u ∧ ∀ c ∈ w, p c = true := by
  induction t with
  | nil => exact ⟨[], (List.mem_singleton.mp h).symm, by simp⟩
  | cons c t ih =>
    unfold rests at h
    split_ifs at h with hc
    · rcases List.mem_append.mp h with h | h
      · obtain ⟨w, rfl, hw⟩ := ih h
        exact ⟨c :: w, rfl, by simpa [hc] using hw⟩
      · exact ⟨[], (List.mem_singleton.mp h).symm, by simp⟩
    · exact ⟨[], (List.mem_singleton.mp h).symm, by simp⟩

/-- What is found is in the language, by induction on the pattern.

**Proof sketch.** Induction on the pattern; each case takes the list of results apart as `run` has
made it. For a group, what was consumed is what is missing from the rest. -/
lemma lang_of_mem_run {r : Re} {t u : List Char} {g : List (List Char)} (h : (g, u) ∈ run r t) :
    ∃ w, t = w ++ u ∧ Lang r w g := by
  induction r generalizing t u g with
  | eps =>
    obtain ⟨rfl, rfl⟩ := Prod.mk.inj (List.mem_singleton.mp h)
    exact ⟨[], rfl, .eps⟩
  | chr p =>
    cases t with
    | nil => exact absurd h List.not_mem_nil
    | cons c t =>
      simp only [run] at h
      split_ifs at h with hc
      · obtain ⟨rfl, rfl⟩ := Prod.mk.inj (List.mem_singleton.mp h)
        exact ⟨[c], rfl, .chr hc⟩
      · exact absurd h List.not_mem_nil
  | many p =>
    obtain ⟨u', hu, heq⟩ := List.mem_map.mp h
    obtain ⟨rfl, rfl⟩ := Prod.mk.inj heq
    obtain ⟨w, rfl, hw⟩ := mem_rests hu
    exact ⟨w, rfl, .many hw⟩
  | cat r s ihr ihs =>
    obtain ⟨⟨g₁, t'⟩, h₁, h⟩ := List.mem_flatMap.mp h
    obtain ⟨⟨g₂, u'⟩, h₂, heq⟩ := List.mem_map.mp h
    obtain ⟨rfl, rfl⟩ := Prod.mk.inj heq
    obtain ⟨w₁, rfl, hw₁⟩ := ihr h₁
    obtain ⟨w₂, rfl, hw₂⟩ := ihs h₂
    exact ⟨w₁ ++ w₂, (List.append_assoc _ _ _).symm, .cat hw₁ hw₂⟩
  | alt r s ihr ihs =>
    rcases List.mem_append.mp h with h | h
    · obtain ⟨w, rfl, hw⟩ := ihr h
      exact ⟨w, rfl, .altLeft hw⟩
    · obtain ⟨w, rfl, hw⟩ := ihs h
      exact ⟨w, rfl, .altRight hw⟩
  | group r ih =>
    obtain ⟨⟨g', u'⟩, h', heq⟩ := List.mem_map.mp h
    obtain ⟨rfl, rfl⟩ := Prod.mk.inj heq
    obtain ⟨w, rfl, hw⟩ := ih h'
    refine ⟨w, rfl, ?_⟩
    rw [List.length_append, Nat.add_sub_cancel, List.take_left]
    exact .group hw
  | eos =>
    simp only [run] at h
    split_ifs at h with ht
    · obtain ⟨rfl, rfl⟩ := Prod.mk.inj (List.mem_singleton.mp h)
      exact ⟨[], ht, .eos⟩
    · exact absurd h List.not_mem_nil

/-- **What the search reports** are the groups of some match. -/
theorem lang_of_groups? {r : Re} {t : List Char} {g : List (List Char)} (h : groups? r t = some g) :
    ∃ w, Lang r w g := by
  obtain ⟨⟨g', u⟩, hm, rfl⟩ := Option.map_eq_some_iff.mp h
  obtain ⟨w, -, hw⟩ := lang_of_mem_run (List.mem_of_mem_head? hm)
  exact ⟨w, hw⟩

/-! ## The groups of a sequence -/

/-- A pattern without groups reports none. -/
lemma Lang.nil_of_plain {r : Re} {w : List Char} {g : List (List Char)} (h : Lang r w g)
    (hr : r.plain = true) : g = [] := by
  induction h with
  | eps | chr | many | eos => rfl
  | cat _ _ ih₁ ih₂ =>
    rw [Re.plain, Bool.and_eq_true] at hr
    rw [ih₁ hr.1, ih₂ hr.2, List.nil_append]
  | altLeft _ ih =>
    rw [Re.plain, Bool.and_eq_true] at hr
    exact ih hr.1
  | altRight _ ih =>
    rw [Re.plain, Bool.and_eq_true] at hr
    exact ih hr.2
  | group => exact absurd hr Bool.false_ne_true

/-- A pattern without groups in front of a sequence can be skipped. -/
lemma Lang.skip {r : Re} {rs : List Re} {w : List Char} {g : List (List Char)}
    (h : Lang (seq (r :: rs)) w g) (hr : r.plain = true) : ∃ w', Lang (seq rs) w' g := by
  cases h with
  | cat h₁ h₂ =>
    rw [h₁.nil_of_plain hr]
    exact ⟨_, h₂⟩

/-- A group in front of a sequence is the first that is reported. -/
lemma Lang.head_group {r : Re} {rs : List Re} {w : List Char} {g : List (List Char)}
    (h : Lang (seq (Re.group r :: rs)) w g) : ∃ u g', g = u :: g' ∧ ∃ g₁, Lang r u g₁ := by
  cases h with
  | cat h₁ h₂ =>
    cases h₁ with
    | group h₁ => exact ⟨_, _, rfl, _, h₁⟩

/-- A text that begins with given characters and goes on with characters of a class. -/
lemma Lang.lit_plus {t u : List Char} {p : Char → Bool} {g : List (List Char)}
    (h : Lang (Re.cat (lit t) (plus p)) u g) : ∃ w, u = t ++ w ∧ w ≠ [] ∧ ∀ c ∈ w, p c = true := by
  have hlit : ∀ {t u : List Char} {g : List (List Char)}, Lang (lit t) u g → u = t := by
    intro t
    induction t with
    | nil =>
      intro u g h
      cases h with
      | eps => rfl
    | cons c t ih =>
      intro u g h
      cases h with
      | cat h₁ h₂ =>
        cases h₁ with
        | chr hc => rw [ih h₂, of_decide_eq_true hc, List.singleton_append]
  cases h with
  | cat h₁ h₂ =>
    rw [hlit h₁]
    cases h₂ with
    | cat h₂ h₃ =>
      cases h₂ with
      | chr hc =>
        cases h₃ with
        | many hw => exact ⟨_, rfl, List.cons_ne_nil _ _, by simpa [hc] using hw⟩

end Regex

import SpidevProxy.Lib.History

set_option relaxedAutoImplicit false
set_option autoImplicit false

/-!
# The latest event of a kind

Many programs keep, instead of their history, a cell that remembers something about the most recent
event of some kind. This file has the most recent such event as a function of the history, and the rule
that such a cell follows it.

## Main definitions

* `History.latest` — the most recent event with a property.

## Main results

* `History.latest_eq_some_iff` — it has the property, and no later event has.
* `History.Steps.cell_eq` — a cell that the events with a property overwrite, and no other event
  touches, holds what the latest of them wrote.
-/

namespace History

variable {σ ε β : Type*} {R : σ → ε → σ → Prop} {p q : ε → Bool} {es : List ε} {e : ε}

/-- The most recent event with property `p`. -/
def latest (p : ε → Bool) (es : List ε) : Option ε := (es.filter p).getLast?

/-- In an empty history there is none. -/
@[simp] lemma latest_nil : latest p [] = none := rfl

/-- An event with the property is the most recent one. -/
lemma latest_snoc_of_pos (h : p e = true) : latest p (es ++ [e]) = some e := by
  simp [latest, List.filter_append, h]

/-- One without it changes nothing. -/
lemma latest_snoc_of_neg (h : p e = false) : latest p (es ++ [e]) = latest p es := by
  simp [latest, List.filter_append, h]

/-- The latest event with the property: no later one has it. -/
lemma latest_eq_some_iff : latest p es = some e ↔
    ∃ pre post, es = pre ++ e :: post ∧ p e = true ∧ ∀ x ∈ post, p x = false := by
  induction es using List.reverseRecOn with
  | nil => simp
  | append_singleton es x ih =>
    constructor
    · intro h
      by_cases hx : p x = true
      · rw [latest_snoc_of_pos hx, Option.some.injEq] at h
        subst h
        exact ⟨es, [], rfl, hx, by simp⟩
      · rw [Bool.not_eq_true] at hx
        rw [latest_snoc_of_neg hx] at h
        obtain ⟨pre, post, rfl, he, hpost⟩ := ih.mp h
        refine ⟨pre, post ++ [x], by simp, he, fun y hy => ?_⟩
        rcases List.mem_append.mp hy with hy | hy
        · exact hpost y hy
        · rw [List.mem_singleton.mp hy, hx]
    · rintro ⟨pre, post, heq, he, hpost⟩
      rcases split_snoc heq with ⟨rfl, rfl, rfl⟩ | ⟨post, rfl, rfl⟩
      · exact latest_snoc_of_pos he
      · rw [latest_snoc_of_neg (hpost x (by simp))]
        exact ih.mpr ⟨pre, post, rfl, he, fun z hz => hpost z (by simp [hz])⟩

/-- There is none exactly if no event has the property. -/
lemma latest_eq_none_iff : latest p es = none ↔ ∀ x ∈ es, p x = false := by
  rw [latest, List.getLast?_eq_none_iff, List.filter_eq_nil_iff]
  simp

/-- The most recent one has the property. -/
lemma pos_of_latest (h : latest p es = some e) : p e = true := by
  obtain ⟨-, -, -, he, -⟩ := latest_eq_some_iff.mp h
  exact he

/-- If the latest event with `p` has `q`, and `q` is a case of `p`, it is the latest with `q`. -/
lemma latest_eq_of_imp (hpq : ∀ x, q x = true → p x = true) (h : latest p es = some e)
    (he : q e = true) : latest q es = some e := by
  obtain ⟨pre, post, rfl, -, hpost⟩ := latest_eq_some_iff.mp h
  refine latest_eq_some_iff.mpr ⟨pre, post, rfl, he, fun x hx => ?_⟩
  have hx' := hpost x hx
  by_contra hq
  rw [hpq x (Bool.eq_true_of_not_eq_false hq)] at hx'
  exact absurd hx' (by decide)

/-- **The cell rule.** A cell that every event with property `p` overwrites and no other event touches
holds what the latest event with `p` wrote. -/
lemma Steps.cell_eq (cell : σ → β) (f : ε → β) {s₀ s : σ}
    (hp : ∀ s e s', R s e s' → p e = true → cell s' = f e)
    (hn : ∀ s e s', R s e s' → p e = false → cell s' = cell s) (h : Steps R s₀ es s) :
    cell s = ((latest p es).map f).getD (cell s₀) := by
  induction h with
  | nil => rfl
  | @snoc t u es e _ hs ih =>
    by_cases he : p e = true
    · rw [latest_snoc_of_pos he, hp _ _ _ hs he]
      rfl
    · rw [Bool.not_eq_true] at he
      rw [latest_snoc_of_neg he, hn _ _ _ hs he, ih]

end History

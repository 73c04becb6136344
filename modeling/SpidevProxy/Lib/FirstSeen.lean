import Mathlib.Data.List.Nodup

set_option relaxedAutoImplicit false
set_option autoImplicit false

/-!
# First occurrences

A list of values under keys, of which only the first one under each key is kept. The list may come
in several groups; a key that a group has seen is not kept in a later one.

## Main definitions

* `FirstSeen.fresh` — what is kept of a list, if some keys have been seen before.
* `FirstSeen.freshGroups` — what is kept of each of several lists.

## Main results

* `FirstSeen.flatten_freshGroups` — the groups together keep what their concatenation would keep.
* `FirstSeen.rel_of_mem_fresh` — in a sorted list, what is kept is the least under its key.
* `FirstSeen.forall_freshGroups_ne_nil_iff` — when every group keeps something.
-/

namespace FirstSeen

variable {κ α : Type} [DecidableEq κ]

/-- What is kept of a list: the first value under each key that is not in `seen`. -/
def fresh (seen : List κ) : List (κ × α) → List (κ × α)
  | [] => []
  | p :: l => if p.1 ∈ seen then fresh seen l else p :: fresh (seen ++ [p.1]) l

/-- What is kept of each group, one after the other. -/
def freshGroups (seen : List κ) : List (List (κ × α)) → List (List (κ × α))
  | [] => []
  | l :: ls => fresh seen l :: freshGroups (seen ++ (fresh seen l).map Prod.fst) ls

/-- There are as many groups as before. -/
lemma length_freshGroups (seen : List κ) (ls : List (List (κ × α))) :
    (freshGroups seen ls).length = ls.length := by
  induction ls generalizing seen with
  | nil => rfl
  | cons l ls ih => rw [freshGroups, List.length_cons, List.length_cons, ih]

/-- The second list is read with the keys of the first seen. -/
lemma fresh_append (seen : List κ) (l l' : List (κ × α)) :
    fresh seen (l ++ l') = fresh seen l ++ fresh (seen ++ (fresh seen l).map Prod.fst) l' := by
  induction l generalizing seen with
  | nil => simp [fresh]
  | cons p l ih =>
    simp only [List.cons_append, fresh]
    split_ifs with hp
    · exact ih seen
    · rw [ih, List.map_cons, List.append_assoc, List.singleton_append, List.cons_append]

/-- The groups together. -/
lemma flatten_freshGroups (seen : List κ) (ls : List (List (κ × α))) :
    (freshGroups seen ls).flatten = fresh seen ls.flatten := by
  induction ls generalizing seen with
  | nil => rfl
  | cons l ls ih => rw [freshGroups, List.flatten_cons, List.flatten_cons, fresh_append, ih]

/-- The keys that are kept. -/
lemma mem_keys_fresh {seen : List κ} {l : List (κ × α)} {k : κ} :
    k ∈ (fresh seen l).map Prod.fst ↔ k ∈ l.map Prod.fst ∧ k ∉ seen := by
  induction l generalizing seen with
  | nil => simp [fresh]
  | cons p l ih =>
    simp only [fresh]
    split_ifs with hp
    · rw [ih, List.map_cons, List.mem_cons]
      constructor
      · rintro ⟨h, hk⟩
        exact ⟨Or.inr h, hk⟩
      · rintro ⟨rfl | h, hk⟩
        · exact absurd hp hk
        · exact ⟨h, hk⟩
    · simp only [List.map_cons, List.mem_cons, ih, List.mem_append, List.not_mem_nil, or_false, not_or]
      constructor
      · rintro (rfl | ⟨h, hk, -⟩)
        · exact ⟨Or.inl rfl, hp⟩
        · exact ⟨Or.inr h, hk⟩
      · rintro ⟨h, hk⟩
        by_cases hkp : k = p.1
        · exact Or.inl hkp
        · exact Or.inr ⟨h.resolve_left hkp, hk, hkp⟩

/-- No key is left twice. -/
lemma nodup_keys_fresh (seen : List κ) (l : List (κ × α)) : ((fresh seen l).map Prod.fst).Nodup := by
  induction l generalizing seen with
  | nil => exact List.nodup_nil
  | cons p l ih =>
    simp only [fresh]
    split_ifs with hp
    · exact ih seen
    · refine List.nodup_cons.mpr ⟨fun h => ?_, ih _⟩
      exact (mem_keys_fresh.mp h).2 (List.mem_append_right _ (List.mem_singleton.mpr rfl))

/-- What is kept is there, and its key does not stand before it. -/
lemma split_of_mem_fresh {seen : List κ} {l : List (κ × α)} {p : κ × α} (h : p ∈ fresh seen l) :
    ∃ l₁ l₂, l = l₁ ++ p :: l₂ ∧ p.1 ∉ l₁.map Prod.fst := by
  induction l generalizing seen with
  | nil => exact absurd h List.not_mem_nil
  | cons q l ih =>
    simp only [fresh] at h
    split_ifs at h with hq
    · have hpq : p.1 ≠ q.1 := fun he =>
        (mem_keys_fresh.mp (List.mem_map_of_mem h)).2 (he ▸ hq)
      obtain ⟨l₁, l₂, rfl, hp⟩ := ih h
      exact ⟨q :: l₁, l₂, rfl, by simpa [hpq] using hp⟩
    · rcases List.mem_cons.mp h with rfl | h
      · exact ⟨[], l, rfl, List.not_mem_nil⟩
      · have hpq : p.1 ≠ q.1 := fun he =>
          (mem_keys_fresh.mp (List.mem_map_of_mem h)).2 (by simp [he])
        obtain ⟨l₁, l₂, rfl, hp⟩ := ih h
        exact ⟨q :: l₁, l₂, rfl, by simpa [hpq] using hp⟩

/-- What is left was there. -/
lemma mem_of_mem_fresh {seen : List κ} {l : List (κ × α)} {p : κ × α} (h : p ∈ fresh seen l) :
    p ∈ l := by
  obtain ⟨l₁, l₂, rfl, -⟩ := split_of_mem_fresh h
  exact List.mem_append_right _ List.mem_cons_self

/-- **What is kept comes first.** If the values come in the order of a relation, the one that is
kept stands before all others under its key. -/
lemma rel_of_mem_fresh {R : α → α → Prop} (hrefl : ∀ a, R a a) {seen : List κ} {l : List (κ × α)}
    {p q : κ × α} (hl : l.Pairwise fun x y => R x.2 y.2) (hp : p ∈ fresh seen l) (hq : q ∈ l)
    (hk : q.1 = p.1) : R p.2 q.2 := by
  obtain ⟨l₁, l₂, rfl, hnot⟩ := split_of_mem_fresh hp
  rcases List.mem_append.mp hq with hq | hq
  · exact absurd (hk ▸ List.mem_map_of_mem hq) hnot
  · rcases List.mem_cons.mp hq with rfl | hq
    · exact hrefl _
    · exact List.rel_of_pairwise_cons (List.pairwise_append.mp hl).2.1 hq

/-- **Every group keeps something** exactly if each has a key that neither was seen before nor
stands in an earlier group.

**Proof sketch.** Induction on the groups. The first group keeps something if it has a key that was
not seen; for the others the keys of the first group are seen as well, which is what the splits
with a longer first part say. -/
lemma forall_freshGroups_ne_nil_iff {seen : List κ} {ls : List (List (κ × α))} :
    (∀ g ∈ freshGroups seen ls, g ≠ []) ↔
      ∀ a l b, ls = a ++ l :: b → ∃ k ∈ l.map Prod.fst, k ∉ seen ∧ k ∉ a.flatten.map Prod.fst := by
  have hne : ∀ (s : List κ) (l : List (κ × α)), fresh s l ≠ [] ↔ ∃ k ∈ l.map Prod.fst, k ∉ s := by
    intro s l
    rw [ne_eq, ← List.map_eq_nil_iff (f := Prod.fst), List.eq_nil_iff_forall_not_mem, not_forall]
    simp only [not_not, mem_keys_fresh]
  induction ls generalizing seen with
  | nil => simp [freshGroups]
  | cons l ls ih =>
    simp only [freshGroups, List.mem_cons, forall_eq_or_imp, ih, hne]
    constructor
    · rintro ⟨⟨k, hk, hs⟩, hrest⟩ a l' b hsplit
      cases a with
      | nil =>
        obtain ⟨rfl, -⟩ := List.cons.inj hsplit
        exact ⟨k, hk, hs, List.not_mem_nil⟩
      | cons l₀ a =>
        obtain ⟨rfl, rfl⟩ := List.cons.inj hsplit
        obtain ⟨k', hk', hs', ha⟩ := hrest a l' b rfl
        rw [List.mem_append, mem_keys_fresh, not_or] at hs'
        refine ⟨k', hk', hs'.1, fun h => ?_⟩
        rw [List.flatten_cons, List.map_append] at h
        rcases List.mem_append.mp h with h | h
        · exact hs'.2 ⟨h, hs'.1⟩
        · exact ha h
    · intro h
      refine ⟨?_, fun a l' b hsplit => ?_⟩
      · obtain ⟨k, hk, hs, -⟩ := h [] l ls rfl
        exact ⟨k, hk, hs⟩
      · obtain ⟨k, hk, hs, ha⟩ := h (l :: a) l' b (by rw [hsplit, List.cons_append])
        rw [List.flatten_cons, List.map_append, List.mem_append, not_or] at ha
        refine ⟨k, hk, ?_, ha.2⟩
        rw [List.mem_append, mem_keys_fresh, not_or]
        exact ⟨hs, fun h => ha.1 h.1⟩

end FirstSeen

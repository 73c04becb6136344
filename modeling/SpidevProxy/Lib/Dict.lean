import Mathlib.Data.List.Nodup

set_option relaxedAutoImplicit false
set_option autoImplicit false

/-!
# Dictionaries

Python's `dict`: keys with their values, in the order in which the keys were first stored.

## Main definitions

* `Dict` — a dictionary; no key occurs twice.
* `Dict.get?`, `Dict.getD`, `Dict.set`, `Dict.mapValues` — reading, storing, and changing every
  value.

## Main results

* `Dict.get?_eq_some_iff` — reading finds the entry of the key.
* `Dict.mem_set` — the entries after a key was stored.
-/

/-- A dictionary. -/
@[ext] structure Dict (κ α : Type) where
  entries : List (κ × α)
  nodup : (entries.map Prod.fst).Nodup

namespace Dict

variable {κ α : Type}

/-- The keys, in the order in which they were first stored. -/
def keys (d : Dict κ α) : List κ := d.entries.map Prod.fst

/-- The empty dictionary. -/
def empty : Dict κ α := ⟨[], List.nodup_nil⟩

/-- Changes every value. -/
def mapValues (f : α → α) (d : Dict κ α) : Dict κ α where
  entries := d.entries.map fun e => (e.1, f e.2)
  nodup := by
    rw [List.map_map]
    exact d.nodup

/-- The keys are those of the entries. -/
lemma mem_keys {d : Dict κ α} {k : κ} : k ∈ d.keys ↔ ∃ v, (k, v) ∈ d.entries := by
  simp [keys]

/-- A key has one value. -/
lemma entry_unique {d : Dict κ α} {k : κ} {v v' : α} (h : (k, v) ∈ d.entries)
    (h' : (k, v') ∈ d.entries) : v = v' :=
  (Prod.mk.inj (List.inj_on_of_nodup_map d.nodup h h' rfl)).2

variable [DecidableEq κ]

/-- The value of a key. -/
def get? (d : Dict κ α) (k : κ) : Option α := (d.entries.find? fun e => e.1 = k).map Prod.snd

/-- The value of a key, or a default. -/
def getD (d : Dict κ α) (k : κ) (v : α) : α := (d.get? k).getD v

/-- Stores a value under a key: in the place of the key, or at the end if the key is new. -/
def set (d : Dict κ α) (k : κ) (v : α) : Dict κ α where
  entries :=
    if k ∈ d.keys then d.entries.map fun e => (e.1, if e.1 = k then v else e.2)
    else d.entries ++ [(k, v)]
  nodup := by
    split_ifs with hk
    · rw [List.map_map]
      exact d.nodup
    · rw [List.map_append]
      refine List.nodup_append.mpr ⟨d.nodup, List.nodup_singleton k, ?_⟩
      rintro k' hk' _ hm rfl
      obtain rfl : k' = k := List.mem_singleton.mp hm
      exact hk hk'

/-- **Reading finds the entry of the key.** -/
lemma get?_eq_some_iff {d : Dict κ α} {k : κ} {v : α} : d.get? k = some v ↔ (k, v) ∈ d.entries := by
  constructor
  · intro h
    obtain ⟨⟨k', v'⟩, hf, rfl⟩ := Option.map_eq_some_iff.mp h
    obtain rfl : k' = k := by simpa using List.find?_some hf
    exact List.mem_of_find?_eq_some hf
  · intro h
    cases hf : d.entries.find? fun e => e.1 = k with
    | none => exact absurd (List.find?_eq_none.mp hf _ h) (by simp)
    | some e =>
      obtain ⟨k', v'⟩ := e
      obtain rfl : k' = k := by simpa using List.find?_some hf
      rw [get?, hf, entry_unique h (List.mem_of_find?_eq_some hf)]
      rfl

/-- A key that is not there has no value. -/
lemma get?_eq_none_iff {d : Dict κ α} {k : κ} : d.get? k = none ↔ k ∉ d.keys := by
  rw [Option.eq_none_iff_forall_ne_some, mem_keys, not_exists]
  exact forall_congr' fun v => not_congr get?_eq_some_iff

/-- The value of an entry. -/
lemma getD_of_mem {d : Dict κ α} {k : κ} {v : α} (h : (k, v) ∈ d.entries) (v' : α) :
    d.getD k v' = v := by
  rw [getD, get?_eq_some_iff.mpr h, Option.getD_some]

/-- The members of a list that is stored under a key. -/
lemma mem_getD_nil {d : Dict κ (List α)} {k : κ} {x : α} :
    x ∈ d.getD k [] ↔ ∃ l, (k, l) ∈ d.entries ∧ x ∈ l := by
  constructor
  · intro h
    cases hg : d.get? k with
    | none =>
      rw [getD, hg] at h
      exact absurd h List.not_mem_nil
    | some l =>
      rw [getD, hg] at h
      exact ⟨l, get?_eq_some_iff.mp hg, h⟩
  · rintro ⟨l, hl, hx⟩
    rwa [getD_of_mem hl]

/-- **The entries after a key was stored**: the new one, and those of the other keys. -/
lemma mem_set {d : Dict κ α} {k k' : κ} {v v' : α} :
    (k', v') ∈ (d.set k v).entries ↔ k' = k ∧ v' = v ∨ k' ≠ k ∧ (k', v') ∈ d.entries := by
  by_cases hk : k ∈ d.keys
  · simp only [set, if_pos hk, List.mem_map, Prod.mk.injEq, Prod.exists]
    constructor
    · rintro ⟨a, b, hm, rfl, rfl⟩
      by_cases ha : a = k
      · exact Or.inl ⟨ha, if_pos ha⟩
      · rw [if_neg ha]
        exact Or.inr ⟨ha, hm⟩
    · rintro (⟨rfl, rfl⟩ | ⟨hne, hm⟩)
      · obtain ⟨b, hb⟩ := mem_keys.mp hk
        exact ⟨_, b, hb, rfl, if_pos rfl⟩
      · exact ⟨_, _, hm, rfl, if_neg hne⟩
  · simp only [set, if_neg hk, List.mem_append, List.mem_singleton, Prod.mk.injEq]
    constructor
    · rintro (hm | hm)
      · exact Or.inr ⟨fun h => hk (mem_keys.mpr ⟨v', h ▸ hm⟩), hm⟩
      · exact Or.inl hm
    · rintro (hm | ⟨-, hm⟩)
      · exact Or.inr hm
      · exact Or.inl hm

/-- A new key comes last. -/
lemma keys_set_of_not_mem {d : Dict κ α} {k : κ} {v : α} (h : k ∉ d.keys) :
    (d.set k v).keys = d.keys ++ [k] := by
  change List.map Prod.fst (if k ∈ d.keys then _ else _) = _
  rw [if_neg h, List.map_append]
  rfl

end Dict

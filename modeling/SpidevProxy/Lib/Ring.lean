import Mathlib.Data.List.Basic
import Mathlib.Data.Nat.ModEq

set_option relaxedAutoImplicit false
set_option autoImplicit false

/-!
# Logs kept in a ring

A ring of `n` cells into which the entries of a log are written one after another, entry number `i` into
cell `i % n`. It always holds the last `n` entries of the log.

## Main definitions

* `Ring.Holds` — the ring holds the last `n` entries of a log.

## Main results

* `Ring.Holds.push` — one more entry is written.
* `Ring.Holds.window` — reading a window of the log back.
-/

namespace Ring

variable {n : ℕ} {α : Type*}

/-- **The ring holds the last `n` entries of the log**, each in the cell of its number. -/
def Holds [NeZero n] (cells : Fin n → α) (log : List α) : Prop :=
  ∀ i, i < log.length → log.length ≤ i + n → log[i]? = some (cells (Fin.ofNat n i))

variable [NeZero n] {cells : Fin n → α} {log : List α}

/-- An empty history. -/
lemma Holds.nil (cells : Fin n → α) : Holds cells [] := fun i hi _ => absurd hi (Nat.not_lt_zero i)

/-- Two entries less than a round apart are in different cells. -/
lemma ofNat_ne {i j : ℕ} (hij : i < j) (hj : j < i + n) : Fin.ofNat n i ≠ Fin.ofNat n j := by
  intro he
  have hm : i % n = j % n := congrArg Fin.val he
  have hd : n ∣ j - i := (Nat.modEq_iff_dvd' hij.le).mp hm
  have := Nat.le_of_dvd (by omega) hd
  omega

/-- **One more entry is written.** -/
lemma Holds.push (h : Holds cells log) (e : α) :
    Holds (Function.update cells (Fin.ofNat n log.length) e) (log ++ [e]) := by
  intro i hi hn
  rw [List.length_append, List.length_singleton] at hi hn
  rcases Nat.lt_or_ge i log.length with hlt | hge
  · rw [List.getElem?_append_left hlt, Function.update_of_ne (ofNat_ne hlt (by omega))]
    exact h i hlt (by omega)
  · obtain rfl : i = log.length := by omega
    rw [Function.update_self, List.getElem?_concat_length]

/-- The cell of an entry, when its number is only known up to rounds. -/
lemma ofNat_eq_of_mod {i j : ℕ} (h : i % n = j % n) : Fin.ofNat n i = Fin.ofNat n j := Fin.ext h

/-- **Reading a window back**: the last `k` entries of the log, the reader being off by whole rounds. -/
lemma Holds.window (h : Holds cells log) {w k : ℕ} (hk : k ≤ n) (hl : k ≤ log.length)
    (hw : (w + k) % n = log.length % n) :
    (List.range k).map (fun j => cells (Fin.ofNat n (w + j))) = log.drop (log.length - k) := by
  refine List.ext_getElem? fun j => ?_
  rcases Nat.lt_or_ge j k with hj | hj
  · have hcell : Fin.ofNat n (w + j) = Fin.ofNat n (log.length - k + j) := by
      apply ofNat_eq_of_mod
      have h₁ : (w + k) ≡ (log.length - k + k) [MOD n] := by
        rw [Nat.sub_add_cancel hl]
        exact hw
      exact (Nat.ModEq.add_right_cancel' k h₁).add_right j
    rw [List.getElem?_map, List.getElem?_range hj, Option.map_some, List.getElem?_drop, hcell]
    exact (h _ (by omega) (by omega)).symm
  · rw [List.getElem?_eq_none (by simpa using hj), List.getElem?_eq_none]
    rw [List.length_drop]
    omega

end Ring

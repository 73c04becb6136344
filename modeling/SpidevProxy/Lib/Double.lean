import Mathlib.Data.Nat.Log
import Mathlib.Tactic.Linarith
import Mathlib.Tactic.Ring

set_option relaxedAutoImplicit false
set_option autoImplicit false

/-!
# Truncated products of double precision

In C, `(int)(n * x)` with an `int` `n` and a constant `x` of type `double` is an integer: `x` is
`m / 2 ^ 53` for some number `m` below `2 ^ 53` if it lies between one half and one, the product is
rounded to 53 binary digits, to the nearest number and in case of a tie to the even one, and the
fraction is cut off.

## Main definitions

* `Double.round` — a natural number rounded to 53 binary digits.
* `Double.truncMul` — `(int)(n * x)`.

## Main results

* `Double.truncMul_lt` — for `x < 1` the integer is below `n`.
* `Double.truncMul_le_truncMul`, `Double.half_le_truncMul` — how it grows with `x`.
-/

namespace Double

/-- `m` rounded to a multiple of `2 ^ e`, to the nearest one and in case of a tie to the even one. -/
def roundTo (e m : ℕ) : ℕ :=
  let q := m / 2 ^ e
  let r := m % 2 ^ e
  if 2 * r < 2 ^ e ∨ 2 * r = 2 ^ e ∧ q % 2 = 0 then q * 2 ^ e else (q + 1) * 2 ^ e

/-- `m` rounded to 53 binary digits. -/
def round (m : ℕ) : ℕ := roundTo (Nat.log 2 m - 52) m

/-- `(int)(n * x)` for `x = m / 2 ^ 53`. -/
def truncMul (n m : ℕ) : ℕ := round (n * m) / 2 ^ 53

/-- Rounding moves a number by at most half of the unit. -/
lemma roundTo_bounds (e m : ℕ) :
    2 * roundTo e m ≤ 2 * m + 2 ^ e ∧ 2 * m ≤ 2 * roundTo e m + 2 ^ e := by
  have hm : 2 ^ e * (m / 2 ^ e) + m % 2 ^ e = m := Nat.div_add_mod m (2 ^ e)
  have hr : m % 2 ^ e < 2 ^ e := Nat.mod_lt _ (Nat.two_pow_pos e)
  have hq : m / 2 ^ e * 2 ^ e = 2 ^ e * (m / 2 ^ e) := Nat.mul_comm _ _
  have hq' : (m / 2 ^ e + 1) * 2 ^ e = 2 ^ e * (m / 2 ^ e) + 2 ^ e := by ring
  unfold roundTo
  dsimp only
  split_ifs with h
  · omega
  · rw [hq']
    omega

/-- The unit of rounding is small against the number. -/
lemma unit_mul_le {m : ℕ} (hm : 0 < m) (he : 52 ≤ Nat.log 2 m) :
    2 ^ (Nat.log 2 m - 52) * 2 ^ 52 ≤ m := by
  rw [← pow_add, Nat.sub_add_cancel he]
  exact Nat.pow_log_le_self 2 hm.ne'

/-- A number of at most 53 digits is not changed. -/
lemma round_of_log_lt {m : ℕ} (h : Nat.log 2 m < 52) : round m = m := by
  rw [round, Nat.sub_eq_zero_of_le h.le]
  simp [roundTo, Nat.mod_one]

/-- Rounding moves a number by at most one part in `2 ^ 53`. -/
lemma round_bounds (m : ℕ) :
    round m * 2 ^ 53 ≤ m * (2 ^ 53 + 1) ∧ m * (2 ^ 53 - 1) ≤ round m * 2 ^ 53 := by
  by_cases he : 52 ≤ Nat.log 2 m
  · have hm : 0 < m := Nat.pos_of_ne_zero fun h => by simp [h] at he
    obtain ⟨h₁, h₂⟩ := roundTo_bounds (Nat.log 2 m - 52) m
    have hu := unit_mul_le hm he
    have hround : round m * 2 ^ 53 = 2 * roundTo (Nat.log 2 m - 52) m * 2 ^ 52 := by
      rw [round]
      ring
    have hsub : m * (2 ^ 53 - 1) + m = 2 * m * 2 ^ 52 := by
      rw [Nat.mul_sub, Nat.mul_one, Nat.sub_add_cancel (Nat.le_mul_of_pos_right m (Nat.two_pow_pos 53))]
      ring
    constructor
    · calc round m * 2 ^ 53 = 2 * roundTo (Nat.log 2 m - 52) m * 2 ^ 52 := hround
        _ ≤ (2 * m + 2 ^ (Nat.log 2 m - 52)) * 2 ^ 52 := Nat.mul_le_mul_right _ h₁
        _ = m * 2 ^ 53 + 2 ^ (Nat.log 2 m - 52) * 2 ^ 52 := by ring
        _ ≤ m * 2 ^ 53 + m := Nat.add_le_add_left hu _
        _ = m * (2 ^ 53 + 1) := by ring
    · refine Nat.le_of_add_le_add_right (b := m) ?_
      calc m * (2 ^ 53 - 1) + m = 2 * m * 2 ^ 52 := hsub
        _ ≤ (2 * roundTo (Nat.log 2 m - 52) m + 2 ^ (Nat.log 2 m - 52)) * 2 ^ 52 :=
          Nat.mul_le_mul_right _ h₂
        _ = round m * 2 ^ 53 + 2 ^ (Nat.log 2 m - 52) * 2 ^ 52 := by rw [hround]; ring
        _ ≤ round m * 2 ^ 53 + m := Nat.add_le_add_left hu _
  · rw [round_of_log_lt (Nat.lt_of_not_le he)]
    exact ⟨Nat.mul_le_mul_left _ (Nat.le_succ _), Nat.mul_le_mul_left _ (Nat.sub_le _ _)⟩

/-- **The integer is below `n`** if the constant is less than one. -/
lemma truncMul_lt {n m : ℕ} (hn : 0 < n) (hm : m + 1 < 2 ^ 53) : truncMul n m < n := by
  unfold truncMul
  rw [Nat.div_lt_iff_lt_mul (Nat.two_pow_pos 53)]
  have h := (round_bounds (n * m)).1
  have hlt : n * m * (2 ^ 53 + 1) < n * 2 ^ 53 * 2 ^ 53 := by
    rw [Nat.mul_assoc, Nat.mul_assoc]
    exact Nat.mul_lt_mul_of_pos_left (by omega) hn
  exact Nat.lt_of_mul_lt_mul_right (h.trans_lt hlt)

/-- A larger constant gives a larger integer, if rounding cannot make up for the difference. -/
lemma truncMul_le_truncMul {m m' : ℕ} (h : m * (2 ^ 53 + 1) ≤ m' * (2 ^ 53 - 1)) (n : ℕ) :
    truncMul n m ≤ truncMul n m' := by
  refine Nat.div_le_div_right (Nat.le_of_mul_le_mul_right ?_ (Nat.two_pow_pos 53))
  calc round (n * m) * 2 ^ 53 ≤ n * m * (2 ^ 53 + 1) := (round_bounds (n * m)).1
    _ = n * (m * (2 ^ 53 + 1)) := Nat.mul_assoc ..
    _ ≤ n * (m' * (2 ^ 53 - 1)) := Nat.mul_le_mul_left n h
    _ = n * m' * (2 ^ 53 - 1) := (Nat.mul_assoc ..).symm
    _ ≤ round (n * m') * 2 ^ 53 := (round_bounds (n * m')).2

/-- A constant clearly above one half gives at least half of `n`. -/
lemma half_le_truncMul {m : ℕ} (h : 2 ^ 52 * 2 ^ 53 ≤ m * (2 ^ 53 - 1)) (n : ℕ) :
    n / 2 ≤ truncMul n m := by
  refine (Nat.le_div_iff_mul_le (Nat.two_pow_pos 53)).mpr
    (Nat.le_of_mul_le_mul_right ?_ (Nat.two_pow_pos 53))
  calc n / 2 * 2 ^ 53 * 2 ^ 53 = n / 2 * 2 * (2 ^ 52 * 2 ^ 53) := by ring
    _ ≤ n * (m * (2 ^ 53 - 1)) := Nat.mul_le_mul (Nat.div_mul_le_self n 2) h
    _ = n * m * (2 ^ 53 - 1) := (Nat.mul_assoc ..).symm
    _ ≤ round (n * m) * 2 ^ 53 := (round_bounds (n * m)).2

end Double

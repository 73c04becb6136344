import Mathlib.Algebra.BigOperators.Fin
import Mathlib.Algebra.Field.ZMod
import Mathlib.Data.ZMod.Basic
import Mathlib.Tactic.Ring

set_option relaxedAutoImplicit false
set_option autoImplicit false

/-!
# Cyclic redundancy checks

The shift register behind a CRC, over an arbitrary width and an arbitrary feedback polynomial. The
register is linear in its content and in the bits fed into it. Therefore two messages have the same
checksum exactly when the register, started at zero and fed with the bits in which they differ,
ends at zero. Which differences do that depends on the polynomial.

## Main definitions

* `Crc.shift` — one shift of the register; `Crc.feed`, `Crc.run` — one bit, a list of bits.
* `Crc.parity` — the sum of the bits of the register.
* `Crc.avoids` — a test that the register does not return to its top bit for a number of shifts.

## Main results

* `Crc.run_xor` — the register is linear.
* `Crc.parity_run` — with a polynomial divisible by `x + 1` the register keeps the parity of what is
  fed into it.
* `Crc.run_ne_zero` — an odd number of bits, or two bits that are not too far apart, never leave the
  register at zero.
-/

namespace Crc

variable {n : ℕ} (poly : BitVec (n + 1))

/-! ## The register -/

/-- The top bit of the register. -/
def top (n : ℕ) : BitVec (n + 1) := BitVec.twoPow (n + 1) n

/-- One shift: the polynomial is added when the top bit falls out. -/
def shift (c : BitVec (n + 1)) : BitVec (n + 1) := if c.msb then c <<< 1 ^^^ poly else c <<< 1

/-- A bit is added to the top bit, and the register is shifted. -/
def feed (c : BitVec (n + 1)) (b : Bool) : BitVec (n + 1) :=
  shift poly (c ^^^ if b then top n else 0)

/-- A list of bits is fed into the register. -/
def run (c : BitVec (n + 1)) (bs : List Bool) : BitVec (n + 1) := bs.foldl (feed poly) c

/-- No bit. -/
@[simp] lemma run_nil (c : BitVec (n + 1)) : run poly c [] = c := rfl

/-- The first bit. -/
@[simp] lemma run_cons (c : BitVec (n + 1)) (b : Bool) (bs : List Bool) :
    run poly c (b :: bs) = run poly (feed poly c b) bs := rfl

/-- One list of bits after another. -/
lemma run_append (c : BitVec (n + 1)) (bs bs' : List Bool) :
    run poly c (bs ++ bs') = run poly (run poly c bs) bs' := List.foldl_append

/-- The zero register stays. -/
@[simp] lemma shift_zero : shift poly 0 = 0 := by simp [shift]

/-- The inner two of four summands change places. -/
lemma xor_xor_xor_comm {w : ℕ} (a b c d : BitVec w) :
    a ^^^ b ^^^ (c ^^^ d) = a ^^^ c ^^^ (b ^^^ d) := by
  rw [BitVec.xor_assoc, BitVec.xor_assoc, ← BitVec.xor_assoc b, BitVec.xor_comm b,
    BitVec.xor_assoc c]

/-- A shift, as a sum. -/
lemma shift_eq (c : BitVec (n + 1)) : shift poly c = c <<< 1 ^^^ if c.msb then poly else 0 := by
  rw [shift]
  split_ifs <;> simp

/-- **A shift is linear.** -/
lemma shift_xor (a b : BitVec (n + 1)) : shift poly (a ^^^ b) = shift poly a ^^^ shift poly b := by
  have hfall : (if (a ^^^ b).msb then poly else 0) =
      (if a.msb then poly else 0) ^^^ if b.msb then poly else 0 := by
    rw [BitVec.msb_xor]
    cases a.msb <;> cases b.msb <;> simp
  rw [shift_eq, shift_eq, shift_eq, hfall, BitVec.shiftLeft_xor_distrib, xor_xor_xor_comm]

/-- So are several shifts. -/
lemma iterate_shift_xor (k : ℕ) (a b : BitVec (n + 1)) :
    (shift poly)^[k] (a ^^^ b) = (shift poly)^[k] a ^^^ (shift poly)^[k] b := by
  induction k generalizing a b with
  | zero => rfl
  | succ k ih => rw [Function.iterate_succ_apply, shift_xor, ih]; rfl

/-- A bit of zero only shifts. -/
lemma feed_false (c : BitVec (n + 1)) : feed poly c false = shift poly c := by simp [feed]

/-- A bit that is set goes into the top of the zero register. -/
lemma feed_zero_true : feed poly 0 true = shift poly (top n) := by simp [feed]

/-- **The register is linear** in its content and in what is fed into it. -/
lemma run_xor (a b : BitVec (n + 1)) {s t : List Bool} (h : s.length = t.length) :
    run poly (a ^^^ b) (List.zipWith xor s t) = run poly a s ^^^ run poly b t := by
  induction s generalizing a b t with
  | nil =>
    obtain rfl := List.eq_nil_of_length_eq_zero h.symm
    rfl
  | cons x s ih =>
    obtain ⟨y, t, rfl⟩ := List.exists_cons_of_length_pos (h ▸ Nat.succ_pos _ : 0 < t.length)
    have hbit : (if xor x y then top n else 0) = (if x then top n else 0) ^^^ if y then top n else 0 := by
      cases x <;> cases y <;> simp
    have hfeed : feed poly (a ^^^ b) (xor x y) = feed poly a x ^^^ feed poly b y := by
      rw [feed, feed, feed, ← shift_xor, hbit, xor_xor_xor_comm]
    rw [List.zipWith_cons_cons, run_cons, hfeed, ih _ _ (Nat.succ.inj h)]
    rfl

/-- Zeros only shift. -/
lemma run_of_notMem {bs : List Bool} (h : true ∉ bs) (c : BitVec (n + 1)) :
    run poly c bs = (shift poly)^[bs.length] c := by
  induction bs generalizing c with
  | nil => rfl
  | cons b bs ih =>
    rw [List.mem_cons, not_or] at h
    obtain rfl : b = false := by simpa using h.1
    rw [run_cons, feed_false, ih h.2]
    rfl

/-- The content of the register and what is fed into it add up. -/
lemma run_eq_xor (c : BitVec (n + 1)) (bs : List Bool) :
    run poly c bs = (shift poly)^[bs.length] c ^^^ run poly 0 bs := by
  have hz : List.zipWith xor (List.replicate bs.length false) bs = bs := by
    induction bs with
    | nil => rfl
    | cons b bs ih => simpa [List.replicate_succ] using ih
  have hl : (List.replicate bs.length false).length = bs.length := List.length_replicate
  have hs : run poly c (List.replicate bs.length false) = (shift poly)^[bs.length] c := by
    rw [run_of_notMem poly (by simp [List.mem_replicate]), hl]
  have h := run_xor poly c 0 hl
  rw [hz, hs] at h
  simpa using h

/-! ## Shifts that lose nothing -/

/-- If the polynomial has its lowest bit set, only zero is shifted to zero. -/
lemma eq_zero_of_shift (hp : poly.getLsbD 0 = true) {c : BitVec (n + 1)} (h : shift poly c = 0) :
    c = 0 := by
  have hmsb : c.msb = false := by
    by_contra hm
    rw [Bool.not_eq_false] at hm
    have h₀ : (c <<< 1 ^^^ poly).getLsbD 0 = false := by
      rw [shift, hm, if_pos rfl] at h
      rw [h]
      simp
    rw [BitVec.getLsbD_xor, hp] at h₀
    simp at h₀
  rw [shift, hmsb, if_neg (by simp)] at h
  ext i hi
  rcases Nat.lt_succ_iff_lt_or_eq.mp hi with hi' | rfl
  · have hbit := congrArg (BitVec.getLsbD · (i + 1)) h
    simpa [hi', BitVec.getLsbD_eq_getElem hi] using hbit
  · simpa [BitVec.msb_eq_getLsbD_last, BitVec.getLsbD_eq_getElem hi] using hmsb

/-- A shift loses nothing if the generator has a constant term. -/
lemma shift_injective (hp : poly.getLsbD 0 = true) : Function.Injective (shift poly) := by
  intro a b h
  have hz : shift poly (a ^^^ b) = 0 := by rw [shift_xor, h, BitVec.xor_self]; rfl
  exact BitVec.xor_eq_zero_iff.mp (eq_zero_of_shift poly hp hz)

/-! ## Parity -/

/-- The sum of the bits of the register. -/
def parity (c : BitVec (n + 1)) : ZMod 2 := ∑ i : Fin (n + 1), if c.getLsbD i then 1 else 0

/-- The parity of a sum. -/
lemma parity_xor (a b : BitVec (n + 1)) : parity (a ^^^ b) = parity a + parity b := by
  rw [parity, parity, parity, ← Finset.sum_add_distrib]
  refine Finset.sum_congr rfl fun i _ => ?_
  rw [BitVec.getLsbD_xor]
  cases a.getLsbD i <;> cases b.getLsbD i <;> decide

/-- A shift to the left loses the top bit. -/
lemma parity_shiftLeft (c : BitVec (n + 1)) :
    parity c = parity (c <<< 1) + if c.msb then 1 else 0 := by
  rw [parity, parity, Fin.sum_univ_castSucc, Fin.sum_univ_succ, BitVec.msb_eq_getLsbD_last]
  simp

/-- The top bit is one bit. -/
lemma parity_top : parity (top n) = 1 := by
  rw [parity, Finset.sum_eq_single (Fin.last n)]
  · simp [top]
  · intro i _ hi
    have hne : n ≠ i := fun h => hi (Fin.ext h.symm)
    simp [top, BitVec.getLsbD_twoPow, hne]
  · simp

/-- With an odd polynomial a shift keeps the parity. -/
lemma parity_shift (hp : parity poly = 1) (c : BitVec (n + 1)) : parity (shift poly c) = parity c := by
  rw [parity_shiftLeft c, shift]
  split_ifs
  · rw [parity_xor, hp]
  · rw [add_zero]

/-- **The register keeps the parity** of what is fed into it. -/
lemma parity_run (hp : parity poly = 1) (c : BitVec (n + 1)) (bs : List Bool) :
    parity (run poly c bs) = parity c + (bs.count true : ZMod 2) := by
  induction bs generalizing c with
  | nil => simp
  | cons b bs ih =>
    rw [run_cons, ih, feed, parity_shift poly hp, parity_xor]
    cases b with
    | false => simp [parity]
    | true =>
      rw [if_pos rfl, parity_top, List.count_cons_self, Nat.cast_succ]
      ring

/-! ## Detection -/

/-- **Small differences are detected.** With a polynomial that is divisible by `x + 1` and has a
constant term, an odd number of bits never leaves the register at zero, and neither do two bits
within a distance at which the top bit does not return.

**Proof sketch.** An odd number of bits leaves the register with odd parity. After the first of two
bits the register holds shifts of the top bit; if the second one cancels them, the top bit has
returned. -/
theorem run_ne_zero (hone : poly.getLsbD 0 = true) (hodd : parity poly = 1) {bs : List Bool}
    (hret : ∀ d, 0 < d → d < bs.length → (shift poly)^[d] (top n) ≠ top n)
    (hk : bs.count true = 2 ∨ Odd (bs.count true)) : run poly 0 bs ≠ 0 := by
  intro h
  rcases hk with hk | hk
  · -- cut the list at its two bits
    obtain ⟨pre, rest, rfl, hpre⟩ := List.eq_append_cons_of_mem
      (List.count_pos_iff.mp (by omega : 0 < bs.count true))
    rw [List.count_append, List.count_cons_self, List.count_eq_zero_of_not_mem hpre] at hk
    obtain ⟨mid, post, rfl, hmid⟩ := List.eq_append_cons_of_mem
      (List.count_pos_iff.mp (by omega : 0 < rest.count true))
    rw [List.count_append, List.count_cons_self, List.count_eq_zero_of_not_mem hmid] at hk
    have hpost : true ∉ post := List.count_eq_zero.mp (by omega)
    have hz : ∀ k, (shift poly)^[k] 0 = 0 := fun k => Function.iterate_fixed (shift_zero poly) k
    rw [run_append, run_of_notMem poly hpre, hz, run_cons, feed_zero_true, run_append,
      run_of_notMem poly hmid, ← Function.iterate_succ_apply, run_cons, feed, if_pos rfl,
      run_of_notMem poly hpost, ← Function.iterate_succ_apply] at h
    have hinj := (shift_injective poly hone).iterate (post.length + 1)
    have heq := BitVec.xor_eq_zero_iff.mp (hinj (h.trans (hz _).symm))
    exact hret _ (Nat.succ_pos _) (by simp; omega) heq
  · have hpar := parity_run poly hodd 0 bs
    rw [h, (ZMod.natCast_eq_one_iff_odd).mpr hk] at hpar
    simp [parity] at hpar

/-! ## The top bit does not return soon -/

/-- One shift, on numbers. -/
def shiftNat (n poly c : ℕ) : ℕ := if c < 2 ^ n then 2 * c else (2 * c - 2 ^ (n + 1)) ^^^ poly

/-- The value `t` is not met in the next `k` shifts. -/
def avoids (n poly t : ℕ) : ℕ → ℕ → Bool
  | 0, _ => true
  | k + 1, c => if shiftNat n poly c = t then false else avoids n poly t k (shiftNat n poly c)

/-- A shift, on numbers. -/
lemma toNat_shift (c : BitVec (n + 1)) : (shift poly c).toNat = shiftNat n poly.toNat c.toNat := by
  have hlt := c.isLt
  have hpow : 2 ^ (n + 1) = 2 * 2 ^ n := by ring
  have hleft : (c <<< 1).toNat = 2 * c.toNat % 2 ^ (n + 1) := by
    rw [BitVec.toNat_shiftLeft, Nat.shiftLeft_eq, pow_one, Nat.mul_comm]
  rw [shift, shiftNat, BitVec.msb_eq_decide, Nat.add_sub_cancel]
  by_cases h : c.toNat < 2 ^ n
  · rw [if_neg (by simpa using h), if_pos h, hleft, Nat.mod_eq_of_lt (by omega)]
  · rw [if_pos (by simpa using h), if_neg h, BitVec.toNat_xor, hleft, Nat.mod_eq_sub_mod (by omega),
      Nat.mod_eq_of_lt (by omega)]

/-- The test is sound. -/
lemma iterate_ne_of_avoids {t : BitVec (n + 1)} {k : ℕ} {c : BitVec (n + 1)}
    (h : avoids n poly.toNat t.toNat k c.toNat = true) :
    ∀ d, 0 < d → d ≤ k → (shift poly)^[d] c ≠ t := by
  induction k generalizing c with
  | zero => intro d h₀ h₁; omega
  | succ k ih =>
    intro d h₀ h₁
    rw [avoids, ← toNat_shift] at h
    split_ifs at h with hne
    obtain ⟨d, rfl⟩ := Nat.exists_eq_succ_of_ne_zero h₀.ne'
    rw [Function.iterate_succ_apply]
    rcases Nat.eq_zero_or_pos d with rfl | hd
    · exact fun he => hne (congrArg BitVec.toNat he)
    · exact ih h d hd (by omega)

end Crc

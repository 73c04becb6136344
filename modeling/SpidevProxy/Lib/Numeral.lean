import Mathlib.Data.List.Basic
import Mathlib.Data.List.TakeWhile

set_option relaxedAutoImplicit false
set_option autoImplicit false

/-!
# Numerals

The integers that C programs read: digits of a base between 2 and 36, or, in base 0, the integer
constants of C, whose base is told by how they begin. The file has the numerals as a grammar with
their values, and a scanner that finds the longest one at the beginning of a text.

## Main definitions

* `Numeral.isspace` — the white space of C.
* `Numeral.digit`, `Numeral.value` — the value of a digit, and of a list of digits.
* `Numeral.Denotes` — a text is a numeral of a base and has a value.
* `Numeral.scan` — the longest numeral at the beginning of a text.

## Main results

* `Numeral.scan_longest` — the scanner finds the longest numeral, if there is one.
* `Numeral.scan_eq_nil_iff` — it takes the whole text exactly if that is a numeral.
* `Numeral.value_toDigits` — a number that was printed is read back.
-/

namespace Numeral

/-! ## Characters -/

/-- `isspace` in the C locale. -/
def isspace (c : Char) : Bool := c.toNat = 32 || (9 ≤ c.toNat && c.toNat ≤ 13)

/-- The value of a digit: `0` to `9`, then the letters in either case. -/
def digit (c : Char) : Option ℕ :=
  if c.isDigit then some (c.toNat - 48)
  else if c.isLower then some (c.toNat - 87)
  else if c.isUpper then some (c.toNat - 55)
  else none

/-- A digit of base `b`. -/
def isDigit (b : ℕ) (c : Char) : Bool := (digit c).any (· < b)

/-- The value of a list of digits, the most significant one first. -/
def value (b : ℕ) (l : List Char) : ℕ := l.foldl (fun v c => v * b + (digit c).getD 0) 0

/-- No digit stands before `0` in the character set. -/
lemma le_toNat_of_digit {c : Char} (h : (digit c).isSome = true) : 48 ≤ c.toNat := by
  unfold digit at h
  split_ifs at h with h₁ h₂ h₃
  · have hle := of_decide_eq_true (Bool.and_eq_true_iff.mp h₁).1
    exact UInt32.le_iff_toNat_le.mp hle
  · have hle := of_decide_eq_true (Bool.and_eq_true_iff.mp h₂).1
    exact le_trans (by decide) (UInt32.le_iff_toNat_le.mp hle)
  · have hle := (of_decide_eq_true h₃).1
    exact le_trans (by decide) (UInt32.le_iff_toNat_le.mp hle)
  · exact absurd h (by decide)

/-- A digit of some base is a digit. -/
lemma isSome_of_isDigit {b : ℕ} {c : Char} (h : isDigit b c = true) : (digit c).isSome = true := by
  unfold isDigit at h
  cases hc : digit c with
  | none => simp [hc] at h
  | some d => rfl

/-- The value with one more digit. -/
lemma value_snoc (b : ℕ) (l : List Char) (c : Char) :
    value b (l ++ [c]) = value b l * b + (digit c).getD 0 := by
  simp [value]

/-- Zeros in front of the digits. -/
lemma value_zeros (b k : ℕ) (l : List Char) : value b (List.replicate k '0' ++ l) = value b l := by
  have hz : ∀ k, value b (List.replicate k '0') = 0 := by
    intro k
    induction k with
    | zero => rfl
    | succ k ih =>
      rw [List.replicate_succ', value_snoc, ih, Nat.zero_mul]
      rfl
  have h := hz k
  unfold value at h ⊢
  rw [List.foldl_append, h]

/-! ## Printed numbers -/

/-- The digits that are printed, in either case. -/
lemma digit_digitChar : ∀ d < 16, digit (Nat.digitChar d) = some d ∧
    digit (Nat.digitChar d).toUpper = some d := by decide

/-- **A number that was printed is read back.** -/
lemma value_toDigits {b : ℕ} (h₁ : 1 < b) (h₂ : b ≤ 16) {f : Char → Char}
    (hf : ∀ d < 16, digit (f (Nat.digitChar d)) = some d) (n : ℕ) :
    value b ((Nat.toDigits b n).map f) = n ∧ ∀ c ∈ (Nat.toDigits b n).map f, isDigit b c = true := by
  induction n using Nat.strong_induction_on with
  | _ n ih =>
    have hlast : ∀ d < b, isDigit b (f (Nat.digitChar d)) = true := fun d hd => by
      rw [isDigit, hf d (by omega)]
      simpa using hd
    rw [Nat.toDigits_eq_if h₁]
    split_ifs with hn
    · refine ⟨?_, ?_⟩
      · simp [value, hf n (by omega)]
      · simpa using hlast n hn
    · obtain ⟨hv, hd⟩ := ih (n / b) (Nat.div_lt_self (by omega) h₁)
      have hm : n % b < b := Nat.mod_lt _ (by omega)
      rw [List.map_append, List.map_singleton, value_snoc, hv, hf _ (by omega)]
      refine ⟨by rw [Option.getD_some, Nat.mul_comm]; exact Nat.div_add_mod n b, fun c hc => ?_⟩
      rcases List.mem_append.mp hc with hc | hc
      · exact hd c hc
      · rw [List.mem_singleton.mp hc]
        exact hlast _ hm

/-! ## Numerals and how they are found -/

/-- The letter of a hexadecimal constant. -/
def isX (c : Char) : Bool := c = 'x' || c = 'X'

/-- **A numeral and its value.** In base 0 it is a hexadecimal, octal or decimal constant; in base
16 it may begin like a hexadecimal constant. -/
inductive Denotes : ℕ → List Char → ℕ → Prop
  | plain {b : ℕ} {l : List Char} (hb : b ≠ 0) (hl : l ≠ []) (hd : ∀ c ∈ l, isDigit b c = true) :
      Denotes b l (value b l)
  | hex {b : ℕ} {x : Char} {l : List Char} (hb : b = 0 ∨ b = 16) (hx : isX x = true) (hl : l ≠ [])
      (hd : ∀ c ∈ l, isDigit 16 c = true) : Denotes b ('0' :: x :: l) (value 16 l)
  | octal {l : List Char} (hd : ∀ c ∈ l, isDigit 8 c = true) : Denotes 0 ('0' :: l) (value 8 ('0' :: l))
  | decimal {c : Char} {l : List Char} (hc : c ≠ '0') (hd : ∀ d ∈ c :: l, isDigit 10 d = true) :
      Denotes 0 (c :: l) (value 10 (c :: l))

/-- The text begins like a hexadecimal constant. -/
def startsHex : List Char → Bool
  | '0' :: x :: c :: _ => isX x && isDigit 16 c
  | _ => false

/-- The base in which digits are read when there is no `0x`. -/
def radix (b : ℕ) (s : List Char) : ℕ :=
  if b ≠ 0 then b else if s.head? = some '0' then 8 else 10

/-- **The longest numeral at the beginning of a text**: its value, and what follows it. -/
def scan (b : ℕ) (s : List Char) : Option (ℕ × List Char) :=
  if (b = 0 ∨ b = 16) ∧ startsHex s = true then
    some (value 16 ((s.drop 2).takeWhile (isDigit 16)), (s.drop 2).dropWhile (isDigit 16))
  else
    let d := s.takeWhile (isDigit (radix b s))
    if d = [] then none else some (value (radix b s) d, s.dropWhile (isDigit (radix b s)))

/-- The letter of a hexadecimal constant is no digit of the bases up to 16. -/
lemma not_isDigit_of_isX {b : ℕ} (hb : b ≤ 16) {x : Char} (hx : isX x = true) :
    isDigit b x = false := by
  have hdigit : digit x = some 33 := by
    simp only [isX, Bool.or_eq_true, decide_eq_true_eq] at hx
    rcases hx with rfl | rfl <;> decide
  simp only [isDigit, hdigit, Option.any_some, decide_eq_false_iff_not]
  omega

/-- A text has one value.

**Proof sketch.** Compare the two forms of the numeral. Equal forms have equal values; two
different ones contradict each other in the base, or in the second character, which is no digit if
it is an `x`. -/
lemma Denotes.unique {b : ℕ} {l : List Char} {v v' : ℕ} (h : Denotes b l v) (h' : Denotes b l v') :
    v = v' := by
  have hx8 : ∀ {x : Char} {l : List Char}, isX x = true → ¬∀ c ∈ x :: l, isDigit 8 c = true :=
    fun {x} {_} hx hd => by
      have h := hd x List.mem_cons_self
      rw [not_isDigit_of_isX (by decide) hx] at h
      exact absurd h (by decide)
  have hx16 : ∀ {b : ℕ} {x : Char} {l : List Char}, b ≠ 0 → (b = 0 ∨ b = 16) → isX x = true →
      ¬∀ c ∈ '0' :: x :: l, isDigit b c = true :=
    fun hb hb' hx hd => by
      have h := hd _ (List.mem_cons_of_mem _ List.mem_cons_self)
      rw [not_isDigit_of_isX (by omega) hx] at h
      exact absurd h (by decide)
  cases h with
  | plain hb hl hd =>
    cases h' with
    | plain => rfl
    | hex hb' hx => exact absurd hd (hx16 hb hb' hx)
    | octal => exact absurd rfl hb
    | decimal => exact absurd rfl hb
  | hex hb hx =>
    cases h' with
    | plain hb' _ hd' => exact absurd hd' (hx16 hb' hb hx)
    | hex => rfl
    | octal hd' => exact absurd hd' (hx8 hx)
    | decimal hc => exact absurd rfl hc
  | octal hd =>
    cases h' with
    | plain hb' => exact absurd rfl hb'
    | hex _ hx => exact absurd hd (hx8 hx)
    | octal => rfl
    | decimal hc => exact absurd rfl hc
  | decimal hc =>
    cases h' with
    | plain hb' => exact absurd rfl hb'
    | hex => exact absurd rfl hc
    | octal => exact absurd rfl hc
    | decimal => rfl

/-- A numeral begins with a digit. -/
lemma Denotes.head {b : ℕ} {l : List Char} {v : ℕ} (h : Denotes b l v) :
    ∃ c l', l = c :: l' ∧ (digit c).isSome = true := by
  cases h with
  | plain hb hl hd =>
    obtain ⟨c, l, rfl⟩ := List.exists_cons_of_ne_nil hl
    exact ⟨c, l, rfl, isSome_of_isDigit (hd c List.mem_cons_self)⟩
  | hex => exact ⟨_, _, rfl, by decide⟩
  | octal => exact ⟨_, _, rfl, by decide⟩
  | decimal hc hd => exact ⟨_, _, rfl, isSome_of_isDigit (hd _ List.mem_cons_self)⟩

/-- A text begins like a hexadecimal constant if it has the prefix and a digit. -/
lemma startsHex_iff {s : List Char} : startsHex s = true ↔
    ∃ x c t, s = '0' :: x :: c :: t ∧ isX x = true ∧ isDigit 16 c = true := by
  constructor
  · intro h
    unfold startsHex at h
    split at h
    · rw [Bool.and_eq_true] at h
      exact ⟨_, _, _, rfl, h.1, h.2⟩
    · exact absurd h (by decide)
  · rintro ⟨x, c, t, rfl, hx, hc⟩
    simp [startsHex, hx, hc]

variable {b v : ℕ} {s r l : List Char}

/-- What is found is a numeral.

**Proof sketch.** Follow the branches of `scan`: with a hexadecimal prefix the digits behind it are
taken, otherwise those of the base in force, which the first digit decides when the base is 0. -/
lemma scan_sound (h : scan b s = some (v, r)) : ∃ l, s = l ++ r ∧ Denotes b l v := by
  dsimp only [scan] at h
  split_ifs at h with hhex hnil
  · obtain ⟨hb, hs⟩ := hhex
    obtain ⟨x, c, t, rfl, hx, hc⟩ := startsHex_iff.mp hs
    obtain ⟨rfl, rfl⟩ := Prod.mk.inj (Option.some.inj h)
    refine ⟨'0' :: x :: (c :: t).takeWhile (isDigit 16), ?_, .hex hb hx ?_ fun d hd =>
      List.mem_takeWhile_imp hd⟩
    · exact congrArg (fun u => '0' :: x :: u) List.takeWhile_append_dropWhile.symm
    · rw [List.takeWhile_cons_of_pos hc]
      exact List.cons_ne_nil _ _
  · obtain ⟨rfl, rfl⟩ := Prod.mk.inj (Option.some.inj h)
    refine ⟨_, List.takeWhile_append_dropWhile.symm, ?_⟩
    have hd : ∀ c ∈ s.takeWhile (isDigit (radix b s)), isDigit (radix b s) c = true :=
      fun c hc => List.mem_takeWhile_imp hc
    -- the first digit decides about the base
    by_cases hb : b = 0
    · subst hb
      cases s with
      | nil => exact absurd rfl hnil
      | cons c s =>
        have hc : isDigit (radix 0 (c :: s)) c = true := by
          by_contra hc
          exact hnil (List.takeWhile_cons_of_neg hc)
        rw [List.takeWhile_cons_of_pos hc] at hd ⊢
        by_cases h0 : c = '0'
        · subst h0
          exact .octal fun d hd' => hd d (List.mem_cons_of_mem _ hd')
        · have hr : radix 0 (c :: s) = 10 := by simp [radix, h0]
          rw [hr] at hd ⊢
          exact .decimal h0 hd
    · have hr : radix b s = b := if_pos hb
      rw [hr] at hd hnil ⊢
      exact .plain hb hnil hd

/-- A numeral at the beginning of a text is not missed.

**Proof sketch.** For a list of digits of the base in force, `scan` finds at least these digits;
where it takes the text for a hexadecimal number instead, the list is the zero in front of the `x`.
Each form of a numeral is such a list, or has the hexadecimal prefix itself. -/
lemma scan_complete (h : Denotes b l v) (r : List Char) :
    ∃ v' r', scan b (l ++ r) = some (v', r') ∧ r'.length ≤ r.length := by
  -- a list of digits of the base that is in force
  have hdigits : ∀ {l : List Char}, l ≠ [] → (∀ c ∈ l, isDigit (radix b (l ++ r)) c = true) →
      ((b = 0 ∨ b = 16) → radix b (l ++ r) ≤ 16) →
      ∃ v' r', scan b (l ++ r) = some (v', r') ∧ r'.length ≤ r.length := by
    intro l hl hd hr
    dsimp only [scan]
    split_ifs with hhex hnil
    · obtain ⟨x, c, t, hs, hx, -⟩ := startsHex_iff.mp hhex.2
      refine ⟨_, _, rfl, ?_⟩
      -- after the zero stands a letter, so the digits end there
      have hlen : l.length = 1 := by
        rcases l with _ | ⟨d, _ | ⟨y, l⟩⟩
        · exact absurd rfl hl
        · rfl
        · obtain ⟨-, rfl, -⟩ : d = '0' ∧ y = x ∧ l ++ r = c :: t := by simpa using hs
          have hy := hd y (List.mem_cons_of_mem _ List.mem_cons_self)
          rw [not_isDigit_of_isX (hr hhex.1) hx] at hy
          exact absurd hy (by decide)
      have hdrop := List.length_dropWhile_le (isDigit 16) ((l ++ r).drop 2)
      rw [List.length_drop, List.length_append] at hdrop
      omega
    · obtain ⟨c, l, rfl⟩ := List.exists_cons_of_ne_nil hl
      rw [List.cons_append] at hd hnil
      rw [List.takeWhile_cons_of_pos (hd c List.mem_cons_self)] at hnil
      exact absurd hnil (List.cons_ne_nil _ _)
    · refine ⟨_, _, rfl, ?_⟩
      rw [List.dropWhile_append_of_pos hd]
      exact List.length_dropWhile_le _ _
  cases h with
  | plain hb hl hd =>
    have hr : radix b (l ++ r) = b := if_pos hb
    exact hdigits hl (fun c hc => by rw [hr]; exact hd c hc) fun h => by omega
  | @hex _ x l hb hx hl hd =>
    obtain ⟨c, l, rfl⟩ := List.exists_cons_of_ne_nil hl
    have hs : startsHex ('0' :: x :: (c :: l) ++ r) = true :=
      startsHex_iff.mpr ⟨x, c, l ++ r, rfl, hx, hd c List.mem_cons_self⟩
    refine ⟨_, _, if_pos ⟨hb, hs⟩, ?_⟩
    change (((c :: l) ++ r).dropWhile (isDigit 16)).length ≤ r.length
    rw [List.dropWhile_append_of_pos hd]
    exact List.length_dropWhile_le _ _
  | @octal l hd =>
    have hr : radix 0 ('0' :: l ++ r) = 8 := rfl
    refine hdigits (List.cons_ne_nil _ _) (fun c hc => ?_) fun _ => by omega
    rcases List.mem_cons.mp hc with rfl | hc
    · rw [hr]
      decide
    · rw [hr]
      exact hd c hc
  | @decimal c l hc hd =>
    have hr : radix 0 (c :: l ++ r) = 10 := by simp [radix, hc]
    exact hdigits (List.cons_ne_nil _ _) (fun d hd' => by rw [hr]; exact hd d hd') fun _ => by omega

/-- **The longest numeral.** The scanner finds a numeral if the text begins with one, and then no
longer one stands there. -/
theorem scan_longest : scan b s = some (v, r) ↔ ∃ l, s = l ++ r ∧ Denotes b l v ∧
    ∀ l' v', Denotes b l' v' → l' <+: s → l'.length ≤ l.length := by
  constructor
  · intro h
    obtain ⟨l, rfl, hl⟩ := scan_sound h
    refine ⟨l, rfl, hl, fun l' v' hl' hs => ?_⟩
    obtain ⟨r', hr'⟩ := hs
    obtain ⟨w, q, hq, hlen⟩ := scan_complete hl' r'
    rw [hr', h] at hq
    obtain ⟨-, rfl⟩ := Prod.mk.inj (Option.some.inj hq)
    have hlens := congrArg List.length hr'
    rw [List.length_append, List.length_append] at hlens
    omega
  · rintro ⟨l, rfl, hl, hmax⟩
    obtain ⟨w, q, hq, hlen⟩ := scan_complete hl r
    obtain ⟨l', hl', hd⟩ := scan_sound hq
    have hle := hmax l' w hd ⟨q, hl'.symm⟩
    have hlens := congrArg List.length hl'
    rw [List.length_append, List.length_append] at hlens
    obtain ⟨rfl, rfl⟩ := List.append_inj hl' (by omega)
    rw [hq, hl.unique hd]

/-- **A text that is a numeral** is what the scanner takes as a whole. -/
theorem scan_eq_nil_iff : scan b s = some (v, []) ↔ Denotes b s v := by
  rw [scan_longest]
  constructor
  · rintro ⟨l, hs, hl, -⟩
    rwa [hs, List.append_nil]
  · exact fun h => ⟨s, (List.append_nil s).symm, h, fun _ _ _ hs => hs.length_le⟩

end Numeral

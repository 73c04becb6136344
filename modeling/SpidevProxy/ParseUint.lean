import SpidevProxy.State
import SpidevProxy.Lib.Numeral

set_option relaxedAutoImplicit false
set_option autoImplicit false

/-!
# Numeric arguments

`parse_uint` of `parse.c`, through which every numeric option and argument of the daemon and of the
command line tool goes.

`strtoul` is libc's. It is the function of the C standard the project is compiled for (C11) in the C
locale, with an `unsigned long` of 64 bits: it skips white space, takes an optional sign and then
the longest numeral that follows, and a minus sign negates the value *in the return type*.

## Main definitions

* `Spid.CString`, `Spid.Base` — a text without a null character, and a base that `strtoul` knows.
* `Spid.strtoul`, `Spid.parseUint` — the functions.
* `Spid.Unsigned` — a text is white space, an optional `+` and a numeral with a value.
* `Spid.ParsedExactly` — what `parse_uint` should do.
* `Spid.Wraps` — the text has a minus sign, and its value comes back into the range when it is
  negated.

## Main results

* `Spid.parse_uint_exact` — `parse_uint` parses exactly, but for the texts that wrap.
* `Spid.not_wraps_of_lt` — the negative numbers that are too small in magnitude to wrap.
-/

namespace Spid

open Numeral

/-! ## `strtoul` -/

/-- A string in memory: the characters in front of the null character that ends it. -/
structure CString where
  chars : Text
  nul : '\x00' ∉ chars

/-- The bases of `strtoul`. -/
abbrev Base : Type := {b : ℕ // b = 0 ∨ 2 ≤ b ∧ b ≤ 36}

/-- The base that makes the text tell its base. -/
instance : OfNat Base 0 := ⟨⟨0, by decide⟩⟩

/-- What `strtoul` returns: the value, the position of the end pointer, and whether `errno` is
`ERANGE`. -/
structure Strtoul where
  val : UInt64
  endp : ℕ
  erange : Bool
  deriving DecidableEq

/-- Whether the number has a minus sign. -/
def hasMinus (s : Text) : Bool := (s.dropWhile isspace).head? = some '-'

/-- The text from the numeral on: white space is skipped, and one sign. -/
def subject (s : Text) : Text :=
  let t := s.dropWhile isspace
  if t.head? = some '-' ∨ t.head? = some '+' then t.tail else t

/-- The value of a numeral behind its sign. -/
def signed (minus : Bool) (v : ℕ) : UInt64 := if minus then -UInt64.ofNat v else UInt64.ofNat v

/-- `strtoul`. Without a numeral the end pointer is the beginning of the text. -/
def strtoul (s : Text) (base : Base) : Strtoul :=
  match scan base (subject s) with
  | none => ⟨0, 0, false⟩
  | some (v, rest) =>
    if 2 ^ 64 ≤ v then ⟨UInt64.ofNat (2 ^ 64 - 1), s.length - rest.length, true⟩
    else ⟨signed (hasMinus s) v, s.length - rest.length, false⟩

/-! ## `parse_uint` -/

/-- What `parse_uint` returns, what is then in `*out`, and what it has printed to `stderr`. -/
structure ParseUint where
  ok : Bool
  out : UInt64
  err : Text
  deriving DecidableEq

/-- `parse_uint`, with `out` in `*out`. -/
def parseUint (s : CString) (base : Base) (lo hi out : UInt64) : ParseUint :=
  let r := strtoul s.chars base
  if r.endp = 0 ∨ s.chars.getD r.endp '\x00' ≠ '\x00' ∨ r.erange = true ∨ r.val < lo ∨ hi < r.val then
    ⟨false, out, "invalid numeric argument '".toList ++ s.chars ++ "'\n".toList⟩
  else ⟨true, r.val, []⟩

/-! ## What it should do -/

/-- White space, an optional `+` and a numeral. -/
def Unsigned (base : Base) (s : Text) (v : ℕ) : Prop :=
  ∃ ws sgn l, s = ws ++ (sgn ++ l) ∧ (∀ c ∈ ws, isspace c = true) ∧ (sgn = [] ∨ sgn = ['+']) ∧
    Denotes base l v

/-- **Exact parsing**: the numbers in range are accepted and stored, and on every other text the
caller's variable is left alone. -/
structure ParsedExactly (s : CString) (base : Base) (lo hi out : UInt64) : Prop where
  returns_true : (parseUint s base lo hi out).ok = true ↔
    ∃ v, Unsigned base s.chars v ∧ lo.toNat ≤ v ∧ v ≤ hi.toNat
  stores : ∀ v, (parseUint s base lo hi out).ok = true → Unsigned base s.chars v →
    (parseUint s base lo hi out).out.toNat = v
  leaves : (parseUint s base lo hi out).ok = false → (parseUint s base lo hi out).out = out

/-- The text has a minus sign, and its number is in the range again once it is negated modulo
`2⁶⁴`. -/
def Wraps (s : CString) (base : Base) (lo hi : UInt64) : Prop :=
  ∃ ws l v, s.chars = ws ++ '-' :: l ∧ (∀ c ∈ ws, isspace c = true) ∧ Denotes base l v ∧ v < 2 ^ 64 ∧
    lo.toNat ≤ (2 ^ 64 - v) % 2 ^ 64 ∧ (2 ^ 64 - v) % 2 ^ 64 ≤ hi.toNat

/-! ## Signs and white space -/

/-- A numeral begins neither with white space nor with a sign. -/
lemma not_skipped {c : Char} (h : (digit c).isSome = true) : isspace c = false ∧ c ≠ '-' ∧ c ≠ '+' := by
  have hle := le_toNat_of_digit h
  refine ⟨?_, ?_, ?_⟩
  · simp only [isspace, Bool.or_eq_false_iff, Bool.and_eq_false_iff, decide_eq_false_iff_not]
    omega
  · rintro rfl
    exact absurd hle (by decide)
  · rintro rfl
    exact absurd hle (by decide)

/-- How a text is taken apart. -/
lemma split_subject (s : Text) : ∃ ws sgn, s = ws ++ (sgn ++ subject s) ∧ (∀ c ∈ ws, isspace c = true) ∧
    (hasMinus s = true ∧ sgn = ['-'] ∨ hasMinus s = false ∧ (sgn = [] ∨ sgn = ['+'])) := by
  have hs : s = s.takeWhile isspace ++ s.dropWhile isspace := List.takeWhile_append_dropWhile.symm
  have hws : ∀ c ∈ s.takeWhile isspace, isspace c = true := fun c hc => List.mem_takeWhile_imp hc
  have hskip : ∀ c, (s.dropWhile isspace).head? = some c →
      s.dropWhile isspace = [c] ++ (s.dropWhile isspace).tail := fun c hc =>
    List.eq_cons_of_mem_head? hc
  unfold subject hasMinus
  by_cases hm : (s.dropWhile isspace).head? = some '-'
  · refine ⟨_, ['-'], ?_, hws, Or.inl ⟨decide_eq_true hm, rfl⟩⟩
    rw [if_pos (Or.inl hm), ← hskip _ hm]
    exact hs
  · by_cases hp : (s.dropWhile isspace).head? = some '+'
    · refine ⟨_, ['+'], ?_, hws, Or.inr ⟨decide_eq_false hm, Or.inr rfl⟩⟩
      rw [if_pos (Or.inr hp), ← hskip _ hp]
      exact hs
    · refine ⟨_, [], ?_, hws, Or.inr ⟨decide_eq_false hm, Or.inl rfl⟩⟩
      rw [if_neg (not_or.mpr ⟨hm, hp⟩), List.nil_append]
      exact hs

/-- The text that is left of a sign and a numeral. -/
lemma subject_eq {base : Base} {ws sgn l : Text} {v : ℕ} (hws : ∀ c ∈ ws, isspace c = true)
    (hsgn : sgn = [] ∨ sgn = ['+'] ∨ sgn = ['-']) (hl : Denotes base l v) :
    subject (ws ++ (sgn ++ l)) = l ∧ hasMinus (ws ++ (sgn ++ l)) = decide (sgn = ['-']) := by
  obtain ⟨c, l, rfl, hc⟩ := hl.head
  obtain ⟨hspace, hminus, hplus⟩ := not_skipped hc
  unfold subject hasMinus
  rw [List.dropWhile_append_of_pos hws]
  rcases hsgn with rfl | rfl | rfl
  · rw [List.nil_append, List.dropWhile_cons_of_neg (by simp [hspace])]
    simp [hminus, hplus]
  · rw [List.singleton_append, List.dropWhile_cons_of_neg (by decide)]
    exact ⟨rfl, rfl⟩
  · rw [List.singleton_append, List.dropWhile_cons_of_neg (by decide)]
    exact ⟨rfl, rfl⟩

/-- A text is an unsigned number if it has no minus sign and what is to be read is a numeral. -/
lemma unsigned_iff {base : Base} {s : Text} {v : ℕ} :
    Unsigned base s v ↔ hasMinus s = false ∧ Denotes base (subject s) v := by
  constructor
  · rintro ⟨ws, sgn, l, rfl, hws, hsgn, hl⟩
    obtain ⟨h₁, h₂⟩ := subject_eq hws (hsgn.imp_right Or.inl) hl
    rw [h₁, h₂]
    refine ⟨?_, hl⟩
    rcases hsgn with rfl | rfl <;> rfl
  · rintro ⟨hm, hd⟩
    obtain ⟨ws, sgn, hs, hws, ⟨hm', -⟩ | ⟨-, hsgn⟩⟩ := split_subject s
    · exact absurd (hm.symm.trans hm') (by decide)
    · exact ⟨ws, sgn, _, hs, hws, hsgn, hd⟩

/-- It wraps if it has a minus sign and its value comes back into the range. -/
lemma wraps_iff {s : CString} {base : Base} {lo hi : UInt64} :
    Wraps s base lo hi ↔ hasMinus s.chars = true ∧ ∃ v, Denotes base (subject s.chars) v ∧ v < 2 ^ 64 ∧
      lo.toNat ≤ (2 ^ 64 - v) % 2 ^ 64 ∧ (2 ^ 64 - v) % 2 ^ 64 ≤ hi.toNat := by
  constructor
  · rintro ⟨ws, l, v, hs, hws, hl, hv⟩
    obtain ⟨h₁, h₂⟩ := subject_eq hws (Or.inr (Or.inr rfl)) hl
    rw [List.singleton_append, ← hs] at h₁ h₂
    rw [h₁, h₂]
    exact ⟨rfl, v, hl, hv⟩
  · rintro ⟨hm, v, hd, hv⟩
    obtain ⟨ws, sgn, hs, hws, ⟨-, rfl⟩ | ⟨hm', -⟩⟩ := split_subject s.chars
    · exact ⟨ws, _, v, hs, hws, hd, hv⟩
    · exact absurd (hm.symm.trans hm') (by decide)

/-! ## What is accepted -/

/-- A value without a minus sign, -/
lemma toNat_signed_false {v : ℕ} (h : v < 2 ^ 64) : (signed false v).toNat = v := by
  change (UInt64.ofNat v).toNat = v
  rw [UInt64.toNat_ofNat', Nat.mod_eq_of_lt h]

/-- and one with a minus sign. -/
lemma toNat_signed_true {v : ℕ} (h : v < 2 ^ 64) : (signed true v).toNat = (2 ^ 64 - v) % 2 ^ 64 := by
  change (-UInt64.ofNat v).toNat = _
  rw [UInt64.toNat_neg, UInt64.toNat_ofNat', Nat.mod_eq_of_lt h]
  rfl

variable {s : CString} {base : Base} {lo hi out : UInt64}

/-- The test `*end != '\0'`: the end pointer is at the null character exactly if nothing is left. -/
lemma getD_end {t rest : Text} (h : s.chars = t ++ rest) :
    s.chars.getD (s.chars.length - rest.length) '\x00' = '\x00' ↔ rest = [] := by
  have hend : s.chars.length - rest.length = t.length := by
    rw [h, List.length_append]
    omega
  rw [hend, h, List.getD_eq_getElem?_getD, List.getElem?_append_right le_rfl, Nat.sub_self]
  constructor
  · intro hnul
    cases rest with
    | nil => rfl
    | cons c rest =>
      refine absurd ?_ s.nul
      rw [h, ← hnul]
      exact List.mem_append_right _ List.mem_cons_self
  · rintro rfl
    rfl

/-- What the tests of the end pointer and of `errno` leave of `strtoul`.

**Proof sketch.** If `scan` finds nothing, the end pointer has not moved. Otherwise it has, since a
numeral is not empty, and what it points at is the terminator exactly if nothing is left behind the
numeral; `errno` tells whether the value is out of range. -/
lemma strtoul_whole {P : UInt64 → Prop} :
    ((strtoul s.chars base).endp ≠ 0 ∧
      s.chars.getD (strtoul s.chars base).endp '\x00' = '\x00' ∧ (strtoul s.chars base).erange = false ∧
      P (strtoul s.chars base).val) ↔
    ∃ v, Denotes base (subject s.chars) v ∧ v < 2 ^ 64 ∧ P (signed (hasMinus s.chars) v) := by
  have hall : ∀ v, Denotes base (subject s.chars) v ↔ scan base (subject s.chars) = some (v, []) :=
    fun v => scan_eq_nil_iff.symm
  simp only [hall]
  unfold strtoul
  cases hscan : scan base (subject s.chars) with
  | none => simp
  | some p =>
    obtain ⟨v, rest⟩ := p
    obtain ⟨l, hl, hd, -⟩ := scan_longest.mp hscan
    obtain ⟨ws, sgn, hs, -, -⟩ := split_subject s.chars
    rw [hl, ← List.append_assoc, ← List.append_assoc] at hs
    -- the numeral is not empty, so the end pointer has moved
    have hmoved : s.chars.length - rest.length ≠ 0 := by
      obtain ⟨c, l, rfl, -⟩ := hd.head
      have hlen := congrArg List.length hs
      simp only [List.length_append, List.length_cons] at hlen
      omega
    by_cases hbig : 2 ^ 64 ≤ v
    · simp only [if_pos hbig, Option.some.injEq, Prod.mk.injEq]
      constructor
      · rintro ⟨-, -, h, -⟩
        exact absurd h (by decide)
      · rintro ⟨w, ⟨rfl, -⟩, hw, -⟩
        exact absurd hbig (by omega)
    · simp only [if_neg hbig, Option.some.injEq, Prod.mk.injEq, getD_end hs]
      constructor
      · rintro ⟨-, hrest, -, hp⟩
        exact ⟨v, ⟨rfl, hrest⟩, by omega, hp⟩
      · rintro ⟨w, ⟨rfl, hrest⟩, -, hp⟩
        exact ⟨hmoved, hrest, trivial, hp⟩

/-- **What `parse_uint` accepts**: the whole text is a numeral behind white space and a sign, it
fits the type, and what the sign makes of it is in range. That is what is stored. -/
lemma parseUint_ok_iff {w : UInt64} :
    ((parseUint s base lo hi out).ok = true ∧ (parseUint s base lo hi out).out = w) ↔
      ∃ v, Denotes base (subject s.chars) v ∧ v < 2 ^ 64 ∧
        lo ≤ signed (hasMinus s.chars) v ∧ signed (hasMinus s.chars) v ≤ hi ∧
        signed (hasMinus s.chars) v = w := by
  rw [← strtoul_whole (P := fun x => lo ≤ x ∧ x ≤ hi ∧ x = w)]
  unfold parseUint
  dsimp only
  split_ifs with h
  · simp only [false_and, false_iff]
    rintro ⟨h₁, h₂, h₃, h₄, h₅, -⟩
    rcases h with h | h | h | h | h
    · exact h₁ h
    · exact h h₂
    · exact absurd (h₃.symm.trans h) (by decide)
    · exact absurd h₄ (UInt64.not_le.mpr h)
    · exact absurd h₅ (UInt64.not_le.mpr h)
  · push Not at h
    obtain ⟨h₁, h₂, h₃, h₄, h₅⟩ := h
    refine ⟨fun h => ⟨h₁, h₂, Bool.eq_false_iff.mpr h₃, ?_, ?_, h.2⟩, fun h => ⟨rfl, h.2.2.2.2.2⟩⟩
    · exact UInt64.not_lt.mp h₄
    · exact UInt64.not_lt.mp h₅

/-- A rejected text is reported, and `*out` is left alone. -/
lemma parseUint_of_not_ok (h : (parseUint s base lo hi out).ok = false) : parseUint s base lo hi out =
    ⟨false, out, "invalid numeric argument '".toList ++ s.chars ++ "'\n".toList⟩ := by
  unfold parseUint at h ⊢
  dsimp only at h ⊢
  split_ifs at h ⊢
  rfl

/-- A text with a minus sign is accepted if it wraps. -/
lemma parseUint_of_wraps (h : Wraps s base lo hi) : (parseUint s base lo hi out).ok = true := by
  obtain ⟨hm, v, hd, hv, hlo, hhi⟩ := wraps_iff.mp h
  refine (parseUint_ok_iff.mpr ⟨v, hd, hv, ?_, ?_, rfl⟩).1
  · rwa [hm, UInt64.le_iff_toNat_le, toNat_signed_true hv]
  · rwa [hm, UInt64.le_iff_toNat_le, toNat_signed_true hv]

/-- What is accepted wraps or is in range, and then it is what is stored. -/
lemma wraps_or_unsigned_of_ok (h : (parseUint s base lo hi out).ok = true) : Wraps s base lo hi ∨
    ∃ v, Unsigned base s.chars v ∧ lo.toNat ≤ v ∧ v ≤ hi.toNat ∧
      (parseUint s base lo hi out).out.toNat = v := by
  obtain ⟨v, hd, hv, hlo, hhi, hw⟩ := parseUint_ok_iff.mp ⟨h, rfl⟩
  rw [UInt64.le_iff_toNat_le] at hlo hhi
  cases hm : hasMinus s.chars with
  | true =>
    rw [hm, toNat_signed_true hv] at hlo hhi
    exact Or.inl (wraps_iff.mpr ⟨hm, v, hd, hv, hlo, hhi⟩)
  | false =>
    rw [hm, toNat_signed_false hv] at hlo hhi
    rw [← hw, hm, toNat_signed_false hv]
    exact Or.inr ⟨v, unsigned_iff.mpr ⟨hm, hd⟩, hlo, hhi, rfl⟩

/-- A text has one value. -/
lemma Unsigned.unique {t : Text} {v v' : ℕ} (h : Unsigned base t v) (h' : Unsigned base t v') :
    v = v' :=
  (unsigned_iff.mp h).2.unique (unsigned_iff.mp h').2

/-- An unsigned number does not wrap. -/
lemma Unsigned.not_wraps {v : ℕ} (h : Unsigned base s.chars v) : ¬Wraps s base lo hi := fun hw =>
  absurd ((unsigned_iff.mp h).1.symm.trans (wraps_iff.mp hw).1) (by decide)

/-- A number in range is accepted. -/
lemma parseUint_of_unsigned {v : ℕ} (h : Unsigned base s.chars v) (hlo : lo.toNat ≤ v)
    (hhi : v ≤ hi.toNat) : (parseUint s base lo hi out).ok = true := by
  obtain ⟨hm, hd⟩ := unsigned_iff.mp h
  have hv : v < 2 ^ 64 := lt_of_le_of_lt hhi hi.toNat_lt
  refine (parseUint_ok_iff.mpr ⟨v, hd, hv, ?_, ?_, rfl⟩).1
  · rwa [hm, UInt64.le_iff_toNat_le, toNat_signed_false hv]
  · rwa [hm, UInt64.le_iff_toNat_le, toNat_signed_false hv]

/-! ## Exactness -/

/-- **Numeric arguments are parsed exactly, unless they wrap.** In every base and for all bounds,
`parse_uint` accepts the numbers in range and stores their value, and it rejects every other text
and leaves `*out` alone; the texts for which that fails are those with a minus sign whose number is
in range modulo `2⁶⁴`.

**Proof sketch.** The tests of the end pointer and of `errno` leave the texts that are a numeral as
a whole behind white space and one sign (`parseUint_ok_iff`). Behind a `+` or no sign the value that
is compared with the bounds is the number; behind a `-` it is the number's negative modulo `2⁶⁴`,
and `parse_uint` does not look at the sign. -/
theorem parse_uint_exact (s : CString) (base : Base) (lo hi out : UInt64) :
    ParsedExactly s base lo hi out ↔ ¬Wraps s base lo hi := by
  constructor
  · intro h hw
    obtain ⟨v, hv, -⟩ := h.returns_true.mp (parseUint_of_wraps hw)
    exact hv.not_wraps hw
  · intro hw
    have hacc := fun h => (@wraps_or_unsigned_of_ok s base lo hi out h).resolve_left hw
    refine ⟨⟨fun h => ?_, ?_⟩, fun v h hv => ?_, fun h => by rw [parseUint_of_not_ok h]⟩
    · obtain ⟨v, hv, hlo, hhi, -⟩ := hacc h
      exact ⟨v, hv, hlo, hhi⟩
    · rintro ⟨v, hv, hlo, hhi⟩
      exact parseUint_of_unsigned hv hlo hhi
    · obtain ⟨v', hv', -, -, hout⟩ := hacc h
      rw [hout, hv'.unique hv]

/-- The text `-18446744073709551615`. -/
def minusMax : CString := ⟨"-18446744073709551615".toList, by decide⟩

/-- The largest `unsigned long` with a minus sign is accepted as `1`. -/
theorem parse_uint_minus_max :
    parseUint minusMax 0 0 0xff 0 = ⟨true, 1, []⟩ ∧ ¬ParsedExactly minusMax 0 0 0xff 0 := by
  have hp : parseUint minusMax 0 0 0xff 0 = ⟨true, 1, []⟩ := by decide +kernel
  refine ⟨hp, fun h => ?_⟩
  obtain ⟨v, hv, -⟩ := h.returns_true.mp (by rw [hp])
  exact absurd (unsigned_iff.mp hv).1 (by decide +kernel)

/-- **Small negative numbers are rejected.** A negative number comes back into the range only if it
lies within `hi` of `-2⁶⁴`. -/
lemma not_wraps_of_lt {v : ℕ} (hd : Denotes base (subject s.chars) v) (hpos : 0 < v)
    (hlt : v + hi.toNat < 2 ^ 64) : ¬Wraps s base lo hi := by
  intro hw
  obtain ⟨-, v', hd', hv', -, hhi⟩ := wraps_iff.mp hw
  obtain rfl := hd.unique hd'
  rw [Nat.mod_eq_of_lt (by omega)] at hhi
  omega

end Spid

import Mathlib.Data.List.Basic
import Mathlib.Tactic.Ring

set_option relaxedAutoImplicit false
set_option autoImplicit false

/-!
# Byte blocks and little-endian words

Memory as the programs below see it: a block of `n` bytes that is read and written in ranges,
and the little-endian layout of 16-bit and 32-bit words.

## Main definitions

* `Bytes.Block` — `n` bytes of memory; `Bytes.Block.read`, `Bytes.Block.write` — a range of it;
  `Bytes.Block.read?`, `Bytes.Block.write?` — the same, failing outside the block.
* `Bytes.le16`, `Bytes.le32` — the bytes of a word, least significant first;
  `Bytes.ofLe16`, `Bytes.ofLe32` — the word laid out in a list of bytes.

## Main results

* `Bytes.Block.read_write_self`, `Bytes.Block.read_write_of_disjoint` — a write is read back in
  its own range and leaves every disjoint range alone.
* `Bytes.ofLe16_le16`, `Bytes.ofLe32_le32`, `Bytes.le16_ofLe16`, `Bytes.le32_ofLe32` — the two
  layouts are inverse to each other.
-/

namespace Bytes

/-! ## Blocks -/

/-- A block of `n` bytes of memory. -/
def Block (n : ℕ) : Type := Fin n → UInt8

namespace Block

variable {n : ℕ}

/-- The block of `n` zero bytes. -/
def zero (n : ℕ) : Block n := fun _ => 0

/-- Byte `i` of the block, read as `0` out of range. -/
def get (b : Block n) (i : ℕ) : UInt8 := if h : i < n then b ⟨i, h⟩ else 0

/-- The `len` bytes from offset `off` on. -/
def read (b : Block n) (off len : ℕ) : List UInt8 :=
  (List.range len).map fun j => b.get (off + j)

/-- Overwrite the bytes from offset `off` on by `src`; what falls outside the block is lost. -/
def write (b : Block n) (off : ℕ) (src : List UInt8) : Block n := fun i =>
  if off ≤ i.val ∧ i.val < off + src.length then src.getD (i.val - off) 0 else b i

/-- A read of `len` bytes has length `len`. -/
@[simp] lemma length_read (b : Block n) (off len : ℕ) : (b.read off len).length = len := by
  simp [read]

/-- Entry `j` of a read is the byte at `off + j`. -/
lemma getElem?_read (b : Block n) (off len j : ℕ) (hj : j < len) :
    (b.read off len)[j]? = some (b.get (off + j)) := by
  simp [read, hj]

/-- Entry `j` of a read, with a default, is the byte at `off + j`. -/
lemma getD_read (b : Block n) (off len j : ℕ) (hj : j < len) :
    (b.read off len).getD j 0 = b.get (off + j) := by
  simp [List.getD_eq_getElem?_getD, getElem?_read b off len j hj]

/-- Two reads agree when the bytes under them do. -/
lemma read_congr {m : ℕ} (b : Block n) (b' : Block m) (off off' len : ℕ)
    (h : ∀ j < len, b.get (off + j) = b'.get (off' + j)) : b.read off len = b'.read off' len := by
  simp only [read]
  apply List.map_congr_left
  intro j hj
  exact h j (List.mem_range.mp hj)

/-- A read splits at any point. -/
lemma read_add (b : Block n) (off l₁ l₂ : ℕ) :
    b.read off (l₁ + l₂) = b.read off l₁ ++ b.read (off + l₁) l₂ := by
  simp only [read, List.range_add, List.map_append, List.map_map]
  congr 1
  apply List.map_congr_left
  intro j _
  simp only [Function.comp_apply, Nat.add_assoc]

/-- The first bytes of a read are a shorter read. -/
lemma take_read (b : Block n) (off l k : ℕ) (hk : k ≤ l) :
    (b.read off l).take k = b.read off k := by
  obtain ⟨d, rfl⟩ := Nat.exists_eq_add_of_le hk
  rw [read_add, List.take_append_of_le_length (by simp), List.take_of_length_le (by simp)]

/-- The last bytes of a read are a read further on. -/
lemma drop_read (b : Block n) (off l k : ℕ) (hk : k ≤ l) :
    (b.read off l).drop k = b.read (off + k) (l - k) := by
  obtain ⟨d, rfl⟩ := Nat.exists_eq_add_of_le hk
  rw [read_add, List.drop_append_of_le_length (by simp), List.drop_of_length_le (by simp)]
  simp

/-- Inside the written range the source is read back. -/
lemma get_write_of_mem (b : Block n) (off : ℕ) (src : List UInt8) (i : ℕ) (hi : i < n)
    (h₁ : off ≤ i) (h₂ : i < off + src.length) : (b.write off src).get i = src.getD (i - off) 0 := by
  simp [get, write, hi, h₁, h₂]

/-- Outside the written range nothing changes. -/
lemma get_write_of_notMem (b : Block n) (off : ℕ) (src : List UInt8) (i : ℕ)
    (h : i < off ∨ off + src.length ≤ i) : (b.write off src).get i = b.get i := by
  by_cases hi : i < n
  · have hc : ¬(off ≤ i ∧ i < off + src.length) := by omega
    simp [get, write, hi, hc]
  · simp [get, hi]

/-- A write inside the block is read back. -/
lemma read_write_self (b : Block n) (off : ℕ) (src : List UInt8) (h : off + src.length ≤ n) :
    (b.write off src).read off src.length = src := by
  apply List.ext_getElem?
  intro j
  by_cases hj : j < src.length
  · rw [getElem?_read _ _ _ _ hj, get_write_of_mem _ _ _ _ (by omega) (by omega) (by omega)]
    simp [List.getD_eq_getElem?_getD, List.getElem?_eq_getElem hj]
  · rw [List.getElem?_eq_none (by simpa using hj), List.getElem?_eq_none (by omega)]

/-- A write leaves every disjoint range alone. -/
lemma read_write_of_disjoint (b : Block n) (off : ℕ) (src : List UInt8) (o l : ℕ)
    (h : o + l ≤ off ∨ off + src.length ≤ o) : (b.write off src).read o l = b.read o l :=
  read_congr _ _ _ _ _ fun j hj => get_write_of_notMem _ _ _ _ (by omega)

/-- A write inside the range that is read. -/
lemma read_write_of_subset (b : Block n) (off : ℕ) (src : List UInt8) (o l : ℕ) (h₁ : o ≤ off)
    (h₂ : off + src.length ≤ o + l) (h₃ : off + src.length ≤ n) :
    (b.write off src).read o l =
      (b.read o l).take (off - o) ++ src ++ (b.read o l).drop (off - o + src.length) := by
  have hsplit : l = (off - o) + (src.length + (l - (off - o) - src.length)) := by omega
  rw [take_read _ _ _ _ (by omega), drop_read _ _ _ _ (by omega)]
  conv_lhs => rw [hsplit, read_add, read_add, show o + (off - o) = off by omega]
  rw [read_write_of_disjoint _ _ _ _ _ (Or.inl (by omega)), read_write_self _ _ _ h₃,
    read_write_of_disjoint _ _ _ _ _ (Or.inr le_rfl), List.append_assoc,
    show o + (off - o + src.length) = off + src.length by omega, Nat.sub_sub]

/-! ### Blocks with a common beginning -/

/-- Bytes under a common read are common. -/
lemma get_eq_of_read_eq {b b' : Block n} {l : ℕ} (h : b.read 0 l = b'.read 0 l) {j : ℕ}
    (hj : j < l) : b.get j = b'.get j := by
  have hget := congrArg (fun bs => bs.getD j 0) h
  simpa only [getD_read _ _ _ _ hj, Nat.zero_add] using hget

/-- A read inside the common beginning is common. -/
lemma read_eq_of_read_eq {b b' : Block n} {l : ℕ} (h : b.read 0 l = b'.read 0 l) {off k : ℕ}
    (hk : off + k ≤ l) : b.read off k = b'.read off k :=
  read_congr _ _ _ _ _ fun j hj => get_eq_of_read_eq h (by omega)

/-- The same write keeps the beginning common. -/
lemma read_write_eq_of_read_eq {b b' : Block n} {l : ℕ} (h : b.read 0 l = b'.read 0 l) (off : ℕ)
    (src : List UInt8) : (b.write off src).read 0 l = (b'.write off src).read 0 l := by
  refine read_congr _ _ _ _ _ fun j hj => ?_
  rw [Nat.zero_add]
  by_cases hn : j < n
  · by_cases hmem : off ≤ j ∧ j < off + src.length
    · rw [get_write_of_mem _ _ _ _ hn hmem.1 hmem.2, get_write_of_mem _ _ _ _ hn hmem.1 hmem.2]
    · have hout : j < off ∨ off + src.length ≤ j := by omega
      rw [get_write_of_notMem _ _ _ _ hout, get_write_of_notMem _ _ _ _ hout]
      exact get_eq_of_read_eq h hj
  · simp [get, hn]

/-- The same write right behind the common beginning extends it. -/
lemma read_write_append {b b' : Block n} {l : ℕ} (h : b.read 0 l = b'.read 0 l) (src : List UInt8) :
    (b.write l src).read 0 (l + src.length) = (b'.write l src).read 0 (l + src.length) := by
  rw [read_add, read_add, read_write_eq_of_read_eq h l src, Nat.zero_add]
  congr 1
  refine read_congr _ _ _ _ _ fun j hj => ?_
  by_cases hn : l + j < n
  · rw [get_write_of_mem _ _ _ _ hn (by omega) (by omega),
      get_write_of_mem _ _ _ _ hn (by omega) (by omega)]
  · simp [get, hn]

/-! ### Checked access -/

/-- Read `len` bytes from offset `off` on, if they all are in the block. -/
def read? (b : Block n) (off len : ℕ) : Option (List UInt8) :=
  if off + len ≤ n then some (b.read off len) else none

/-- Overwrite the bytes from offset `off` on by `src`, if they all are in the block. -/
def write? (b : Block n) (off : ℕ) (src : List UInt8) : Option (Block n) :=
  if off + src.length ≤ n then some (b.write off src) else none

/-- Reading inside the block. -/
lemma read?_eq (b : Block n) {off len : ℕ} (h : off + len ≤ n) :
    b.read? off len = some (b.read off len) := if_pos h

/-- Writing inside the block. -/
lemma write?_eq (b : Block n) {off : ℕ} {src : List UInt8} (h : off + src.length ≤ n) :
    b.write? off src = some (b.write off src) := if_pos h

end Block

/-! ## Little-endian words -/

/-- The two bytes of a 16-bit word, least significant first. -/
def le16 (x : UInt16) : List UInt8 := [x.toUInt8, (x >>> 8).toUInt8]

/-- The four bytes of a 32-bit word, least significant first. -/
def le32 (x : UInt32) : List UInt8 :=
  [x.toUInt8, (x >>> 8).toUInt8, (x >>> 16).toUInt8, (x >>> 24).toUInt8]

/-- The 16-bit word laid out in the first two bytes of a list. -/
def ofLe16 (l : List UInt8) : UInt16 :=
  UInt16.ofNat ((l.getD 0 0).toNat + 256 * (l.getD 1 0).toNat)

/-- The 32-bit word laid out in the first four bytes of a list. -/
def ofLe32 (l : List UInt8) : UInt32 :=
  UInt32.ofNat ((l.getD 0 0).toNat + 256 * (l.getD 1 0).toNat + 65536 * (l.getD 2 0).toNat +
    16777216 * (l.getD 3 0).toNat)

/-- A word of 16 bits has two bytes, -/
@[simp] lemma length_le16 (x : UInt16) : (le16 x).length = 2 := rfl

/-- and one of 32 bits has four. -/
@[simp] lemma length_le32 (x : UInt32) : (le32 x).length = 4 := rfl

/-- The bytes of a 16-bit word, as numbers. -/
lemma toNat_le16 (x : UInt16) :
    (le16 x).map UInt8.toNat = [x.toNat % 256, x.toNat / 256] := by
  have hx := x.toNat_lt
  simp only [le16, List.map_cons, List.map_nil, UInt16.toNat_toUInt8, UInt16.toNat_shiftRight,
    List.cons.injEq, and_true]
  simp [Nat.shiftRight_eq_div_pow]
  omega

/-- The bytes of a 32-bit word, as numbers. -/
lemma toNat_le32 (x : UInt32) : (le32 x).map UInt8.toNat =
    [x.toNat % 256, x.toNat / 256 % 256, x.toNat / 65536 % 256, x.toNat / 16777216] := by
  have hx := x.toNat_lt
  simp only [le32, List.map_cons, List.map_nil, UInt32.toNat_toUInt8, UInt32.toNat_shiftRight,
    List.cons.injEq, and_true]
  simp [Nat.shiftRight_eq_div_pow]
  omega

/-- A 16-bit word is read back from its bytes, whatever follows them. -/
lemma ofLe16_le16 (x : UInt16) (l : List UInt8) : ofLe16 (le16 x ++ l) = x := by
  have h := toNat_le16 x
  simp only [le16, List.map_cons, List.map_nil, List.cons.injEq, and_true] at h
  obtain ⟨h0, h1⟩ := h
  have hx := x.toNat_lt
  simp only [ofLe16, le16, List.cons_append, List.getD_cons_zero, List.getD_cons_succ, h0, h1]
  rw [show x.toNat % 256 + 256 * (x.toNat / 256) = x.toNat by omega]
  simp

/-- A 32-bit word is read back from its bytes, whatever follows them. -/
lemma ofLe32_le32 (x : UInt32) (l : List UInt8) : ofLe32 (le32 x ++ l) = x := by
  have h := toNat_le32 x
  simp only [le32, List.map_cons, List.map_nil, List.cons.injEq, and_true] at h
  obtain ⟨h0, h1, h2, h3⟩ := h
  have hx := x.toNat_lt
  simp only [ofLe32, le32, List.cons_append, List.getD_cons_zero, List.getD_cons_succ, h0, h1, h2,
    h3]
  rw [show x.toNat % 256 + 256 * (x.toNat / 256 % 256) + 65536 * (x.toNat / 65536 % 256) +
    16777216 * (x.toNat / 16777216) = x.toNat by omega]
  simp

/-- The bytes of the 16-bit word laid out in two bytes are these bytes. -/
lemma le16_ofLe16 (a b : UInt8) (l : List UInt8) : le16 (ofLe16 (a :: b :: l)) = [a, b] := by
  have ha := a.toNat_lt
  have hb := b.toNat_lt
  have h := toNat_le16 (ofLe16 (a :: b :: l))
  have hv : (ofLe16 (a :: b :: l)).toNat = a.toNat + 256 * b.toNat := by
    simp only [ofLe16, List.getD_cons_zero, List.getD_cons_succ]
    rw [UInt16.toNat_ofNat_of_lt' (by simp [UInt16.size]; omega)]
  rw [hv] at h
  have h' : (le16 (ofLe16 (a :: b :: l))).map UInt8.toNat = [a, b].map UInt8.toNat := by
    rw [h]
    simp only [List.map_cons, List.map_nil, List.cons.injEq, and_true]
    omega
  exact List.map_injective_iff.mpr (fun x y hxy => UInt8.toNat_inj.mp hxy) h'

/-- The bytes of the 32-bit word laid out in four bytes are these bytes. -/
lemma le32_ofLe32 (a b c d : UInt8) (l : List UInt8) :
    le32 (ofLe32 (a :: b :: c :: d :: l)) = [a, b, c, d] := by
  have ha := a.toNat_lt
  have hb := b.toNat_lt
  have hc := c.toNat_lt
  have hd := d.toNat_lt
  have h := toNat_le32 (ofLe32 (a :: b :: c :: d :: l))
  have hv : (ofLe32 (a :: b :: c :: d :: l)).toNat =
      a.toNat + 256 * b.toNat + 65536 * c.toNat + 16777216 * d.toNat := by
    simp only [ofLe32, List.getD_cons_zero, List.getD_cons_succ]
    rw [UInt32.toNat_ofNat_of_lt' (by simp [UInt32.size]; omega)]
  rw [hv] at h
  have h' : (le32 (ofLe32 (a :: b :: c :: d :: l))).map UInt8.toNat =
      [a, b, c, d].map UInt8.toNat := by
    rw [h]
    simp only [List.map_cons, List.map_nil, List.cons.injEq, and_true]
    omega
  exact List.map_injective_iff.mpr (fun x y hxy => UInt8.toNat_inj.mp hxy) h'

/-- Putting a number above `k` lower bits. -/
lemma or_shiftLeft_eq_add (x y : ℕ) (k : ℕ) (hx : x < 2 ^ k) : x ||| y <<< k = x + 2 ^ k * y := by
  rw [Nat.or_comm, Nat.shiftLeft_eq, Nat.mul_comm, ← Nat.two_pow_add_eq_or_of_lt hx, Nat.add_comm]

/-- The word of two bytes, put together by shifts. -/
lemma ofLe16_cons (a b : UInt8) (l : List UInt8) :
    ofLe16 (a :: b :: l) = a.toUInt16 ||| b.toUInt16 <<< 8 := by
  have ha := a.toNat_lt
  have hb := b.toNat_lt
  apply UInt16.toNat_inj.mp
  have h₁ : (b.toNat <<< 8) % 2 ^ 16 = b.toNat <<< 8 := by
    rw [Nat.shiftLeft_eq]
    omega
  have h₂ : (a.toUInt16 ||| b.toUInt16 <<< 8).toNat = a.toNat ||| (b.toNat <<< 8) % 2 ^ 16 := rfl
  rw [h₂, h₁, or_shiftLeft_eq_add _ _ 8 (by omega)]
  simp only [ofLe16, List.getD_cons_zero, List.getD_cons_succ, UInt16.toNat_ofNat']
  omega

/-- The word of four bytes, put together by shifts. -/
lemma ofLe32_cons (a b c d : UInt8) (l : List UInt8) :
    ofLe32 (a :: b :: c :: d :: l) =
      a.toUInt32 ||| b.toUInt32 <<< 8 ||| c.toUInt32 <<< 16 ||| d.toUInt32 <<< 24 := by
  have ha := a.toNat_lt
  have hb := b.toNat_lt
  have hc := c.toNat_lt
  have hd := d.toNat_lt
  apply UInt32.toNat_inj.mp
  have hs : ∀ k x, k ≤ 24 → x < 256 → (x <<< k) % 2 ^ 32 = x <<< k := by
    intro k x hk hx
    rw [Nat.shiftLeft_eq]
    apply Nat.mod_eq_of_lt
    calc x * 2 ^ k ≤ x * 2 ^ 24 := Nat.mul_le_mul_left x (Nat.pow_le_pow_right (by omega) hk)
      _ < 2 ^ 32 := by omega
  have h₂ : (a.toUInt32 ||| b.toUInt32 <<< 8 ||| c.toUInt32 <<< 16 ||| d.toUInt32 <<< 24).toNat =
      a.toNat ||| (b.toNat <<< 8) % 2 ^ 32 ||| (c.toNat <<< 16) % 2 ^ 32 |||
        (d.toNat <<< 24) % 2 ^ 32 := rfl
  rw [h₂, hs 8 _ (by omega) hb, hs 16 _ (by omega) hc, hs 24 _ (by omega) hd,
    or_shiftLeft_eq_add _ _ 8 (by omega), or_shiftLeft_eq_add _ _ 16 (by omega),
    or_shiftLeft_eq_add _ _ 24 (by omega)]
  simp only [ofLe32, List.getD_cons_zero, List.getD_cons_succ, UInt32.toNat_ofNat']
  omega

/-- The bytes of `n` words in a row. -/
def wordBytes (w : ℕ → UInt32) (n : ℕ) : List UInt8 := (List.range n).flatMap fun j => le32 (w j)

/-- The bytes of one more word. -/
lemma wordBytes_succ (w : ℕ → UInt32) (n : ℕ) :
    wordBytes w (n + 1) = wordBytes w n ++ le32 (w n) := by
  simp [wordBytes, List.range_succ]

/-- Four bytes for each word. -/
@[simp] lemma length_wordBytes (w : ℕ → UInt32) (n : ℕ) : (wordBytes w n).length = 4 * n := by
  induction n with
  | zero => rfl
  | succ n ih => rw [wordBytes_succ, List.length_append, ih, length_le32]; ring

/-- Words that hold a list of bytes four at a time, the bytes behind its end being arbitrary. -/
lemma take_wordBytes {w : ℕ → UInt32} {l : List UInt8} {n : ℕ}
    (h : ∀ j < n, (le32 (w j)).take (l.length - 4 * j) = (l.drop (4 * j)).take 4) :
    (wordBytes w n).take l.length = l.take (4 * n) := by
  induction n with
  | zero => simp [wordBytes]
  | succ n ih =>
    rw [wordBytes_succ, List.take_append, length_wordBytes, ih fun j hj => h j (by omega),
      h n (by omega), Nat.mul_succ, List.take_add]

end Bytes

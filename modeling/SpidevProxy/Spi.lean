import Mathlib.Tactic.Ring
import Mathlib.Tactic.NormNum
import SpidevProxy.Wire

set_option relaxedAutoImplicit false
set_option autoImplicit false

/-!
# The SPI core

The instruction word, the frames and the register accesses of `lan80xx_spid.c`, over an arbitrary
bus: `xfer s tx` is one `SPI_IOC_MESSAGE(1)` in bus state `s` with transmit buffer `tx`, which
fails or fills a receive buffer.

## Main definitions

* `Spid.spiAddr`, `Spid.spiFill` — the 23-bit address and the frame that carries it.
* `Spid.spiWriteReg`, `Spid.spiReadReg` — one register access.
* `Spid.Frame.decode` — what a frame says: bit 7 of byte 0 is the write flag, the other 23 bits of
  bytes 0 to 2 are slice, MMD and register, bytes 3 to 6 the value.

## Main results

* `Spid.decode_spiFill` — the frame of an access with `slice < 4` and `mmd < 32` says that access.
* `Spid.decode_mmd_lt` — no frame says an MMD of 32 or more.
-/

namespace Spid

/-! ## Constants -/

/-- `SPI_BYTES`: three address and four data bytes. -/
def spiBytes : ℕ := 7

/-- `SPI_BUF_MAX`: the size of the transfer buffers. -/
def spiBufMax : ℕ := 22

/-- `LAN80XX_MMD_GLOBAL`. -/
def mmdGlobal : UInt8 := 0x1e

/-- `LAN80XX_MMD_HOST_PMA`. -/
def mmdHostPma : UInt8 := 0x09

/-- `LAN80XX_MMD_LINE_PMA`. -/
def mmdLinePma : UInt8 := 0x01

/-- `LAN80XX_MMD_HOST_PCS`. -/
def mmdHostPcs : UInt8 := 0x0b

/-- `LAN80XX_MMD_MAC_LINE_PCS`. -/
def mmdMacLinePcs : UInt8 := 0x03

/-- `LAN80XX_HOST_PCS25G_BASER_STATUS2`. -/
def baserStatus2 : UInt16 := 0x0021

/-! ## Frames -/

/-- `spi_addr`: `slice << 21 | mmd << 16 | reg`. -/
def spiAddr (slice mmd : UInt8) (reg : UInt16) : UInt32 :=
  slice.toUInt32 <<< 21 ||| mmd.toUInt32 <<< 16 ||| reg.toUInt32

/-- `spi_fill`: the transmit buffer of one frame. -/
def spiFill (write : Bool) (addr val : UInt32) : List UInt8 :=
  [((if write then (0x80 : UInt32) else 0) ||| (addr >>> 16 &&& 0x7f)).toUInt8, (addr >>> 8).toUInt8,
    addr.toUInt8] ++
  (if write then [(val >>> 24).toUInt8, (val >>> 16).toUInt8, (val >>> 8).toUInt8, val.toUInt8]
    else List.replicate 4 0xff) ++ List.replicate 15 0xff

/-- What a receive buffer holds. -/
abbrev Rx : Type := ℕ → UInt8

/-- The data window of a receive buffer, bytes 3 to 6, most significant first. -/
def rxWord (rx : Rx) : UInt32 :=
  (rx 3).toUInt32 <<< 24 ||| (rx 4).toUInt32 <<< 16 ||| (rx 5).toUInt32 <<< 8 ||| (rx 6).toUInt32

section Access

variable {σ : Type} (xfer : σ → List UInt8 → Option Rx × σ)

/-- `spi_write_reg`: one frame; `false` when the transfer fails. -/
def spiWriteReg (s : σ) (slice mmd : UInt8) (reg : UInt16) (val : UInt32) : Bool × σ :=
  let r := xfer s ((spiFill true (spiAddr slice mmd reg) val).take spiBytes)
  (r.1.isSome, r.2)

/-- `spi_read_reg`: the frame of the access, then a second one, to `DEVICE_ID`, whose data window
carries the answer to the first; `none` when one of the two transfers fails. -/
def spiReadReg (pad : ℕ) (deviceIdReg : UInt16) (s : σ) (slice mmd : UInt8) (reg : UInt16) :
    Option UInt32 × σ :=
  let prime := xfer s ((spiFill false (spiAddr slice mmd reg) 0).take (spiBytes + pad))
  match prime.1 with
  | none => (none, prime.2)
  | some _ =>
    let capture := xfer prime.2
      ((spiFill false (spiAddr slice mmdGlobal deviceIdReg) 0).take (spiBytes + pad))
    (capture.1.map rxWord, capture.2)

end Access

/-! ## What a frame says -/

/-- The fields of a frame. -/
structure Frame where
  write : Bool
  slice : ℕ
  mmd : ℕ
  reg : ℕ
  val : Option ℕ
  deriving DecidableEq, Repr

/-- The 23 address bits of a frame. -/
def wireAddr (tx : List UInt8) : ℕ :=
  (tx.getD 0 0).toNat % 128 * 65536 + (tx.getD 1 0).toNat * 256 + (tx.getD 2 0).toNat

/-- Decode a frame; only a write carries a value. -/
def Frame.decode (tx : List UInt8) : Frame :=
  let write : Bool := decide (128 ≤ (tx.getD 0 0).toNat)
  { write := write
    slice := wireAddr tx / 2097152
    mmd := wireAddr tx / 65536 % 32
    reg := wireAddr tx % 65536
    val := if write then some ((tx.getD 3 0).toNat * 16777216 + (tx.getD 4 0).toNat * 65536 +
      (tx.getD 5 0).toNat * 256 + (tx.getD 6 0).toNat) else none }

/-- No frame says an MMD of 32 or more. -/
lemma decode_mmd_lt (tx : List UInt8) : (Frame.decode tx).mmd < 32 :=
  Nat.mod_lt _ (by norm_num)

/-- The first byte of a frame, as a number. -/
lemma toNat_fill_zero (write : Bool) (addr : UInt32) :
    (((if write then (0x80 : UInt32) else 0) ||| (addr >>> 16 &&& 0x7f)).toUInt8).toNat =
      (if write then 128 else 0) + addr.toNat / 65536 % 128 := by
  have hand : (addr >>> 16 &&& 0x7f).toNat = addr.toNat / 65536 % 128 := by
    rw [UInt32.toNat_and, UInt32.toNat_shiftRight]
    have h := Nat.and_two_pow_sub_one_eq_mod (addr.toNat >>> 16) 7
    simpa [Nat.shiftRight_eq_div_pow] using h
  have hlt : addr.toNat / 65536 % 128 < 2 ^ 7 := Nat.mod_lt _ (by norm_num)
  cases write with
  | false =>
    simp only [Bool.false_eq_true, if_false, UInt32.toNat_toUInt8, UInt32.toNat_or, hand]
    simp
    omega
  | true =>
    simp only [if_true, UInt32.toNat_toUInt8, UInt32.toNat_or, hand]
    have h := Nat.two_pow_add_eq_or_of_lt hlt 1
    have h80 : (0x80 : UInt32).toNat = 2 ^ 7 * 1 := rfl
    rw [h80, ← h]
    omega

/-- The address bits of a frame are the low 23 bits of the address it was built from. -/
lemma wireAddr_spiFill (write : Bool) (addr val : UInt32) (k : ℕ) (hk : 3 ≤ k) :
    wireAddr ((spiFill write addr val).take k) = addr.toNat % 8388608 := by
  obtain ⟨d, rfl⟩ := Nat.exists_eq_add_of_le' hk
  have h0 := toNat_fill_zero write addr
  have hm : ((if write then 128 else 0) + addr.toNat / 65536 % 128) % 128 =
      addr.toNat / 65536 % 128 := by
    cases write <;> simp
  simp only [wireAddr, spiFill, List.cons_append, List.take_succ_cons, List.getD_cons_zero,
    List.getD_cons_succ, h0, hm]
  simp only [UInt32.toNat_toUInt8, UInt32.toNat_shiftRight]
  simp [Nat.shiftRight_eq_div_pow]
  omega

/-- The address of an access with `slice < 4` and `mmd < 32`: its fields do not overlap. -/
lemma toNat_spiAddr {slice mmd : UInt8} {reg : UInt16} (hs : slice.toNat < 4)
    (hm : mmd.toNat < 32) :
    (spiAddr slice mmd reg).toNat = slice.toNat * 2097152 + mmd.toNat * 65536 + reg.toNat := by
  have hr := reg.toNat_lt
  have e₁ : (slice.toUInt32 <<< 21).toNat = 2 ^ 21 * slice.toNat := by
    simp [UInt32.toNat_shiftLeft, Nat.shiftLeft_eq]
    omega
  have e₂ : (mmd.toUInt32 <<< 16).toNat = 2 ^ 16 * mmd.toNat := by
    simp [UInt32.toNat_shiftLeft, Nat.shiftLeft_eq]
    omega
  have h₁ : 2 ^ 16 * mmd.toNat < 2 ^ 21 := by omega
  have h₂ := Nat.two_pow_add_eq_or_of_lt h₁ slice.toNat
  have h₃ := Nat.two_pow_add_eq_or_of_lt (show reg.toNat < 2 ^ 16 by omega)
    (2 ^ 5 * slice.toNat + mmd.toNat)
  rw [spiAddr, UInt32.toNat_or, UInt32.toNat_or, e₁, e₂, ← h₂, UInt16.toNat_toUInt32,
    show 2 ^ 21 * slice.toNat + 2 ^ 16 * mmd.toNat =
      2 ^ 16 * (2 ^ 5 * slice.toNat + mmd.toNat) by ring, ← h₃]
  ring

/-- The value bytes of a write frame. -/
lemma be32_toNat (val : UInt32) :
    (val >>> 24).toUInt8.toNat * 16777216 + (val >>> 16).toUInt8.toNat * 65536 +
      (val >>> 8).toUInt8.toNat * 256 + val.toUInt8.toNat = val.toNat := by
  have hv := val.toNat_lt
  simp only [UInt32.toNat_toUInt8, UInt32.toNat_shiftRight]
  simp [Nat.shiftRight_eq_div_pow]
  omega

/-- The first byte of a frame says whether it is a write. -/
lemma decode_write (write : Bool) (addr val : UInt32) :
    (Frame.decode (spiFill write addr val)).write = write := by
  have h0 := toNat_fill_zero write addr
  have hlt : addr.toNat / 65536 % 128 < 128 := Nat.mod_lt _ (by norm_num)
  change decide (128 ≤ ((spiFill write addr val).getD 0 0).toNat) = write
  simp only [spiFill, List.cons_append, List.getD_cons_zero, h0]
  cases write <;> simp
  omega

/-- A write frame carries its value. -/
lemma decode_val (write : Bool) (addr val : UInt32) :
    (Frame.decode (spiFill write addr val)).val = if write then some val.toNat else none := by
  have hw : decide (128 ≤ ((spiFill write addr val).getD 0 0).toNat) = write :=
    decode_write write addr val
  simp only [Frame.decode, hw]
  cases write with
  | false => rfl
  | true =>
    have hb := be32_toNat val
    simpa [spiFill] using hb

/-- **The frame of an access says that access**, as long as its MMD fits in the five bits of the
instruction word. -/
lemma decode_spiFill (write : Bool) {slice mmd : UInt8} {reg : UInt16} (val : UInt32)
    (hs : slice.toNat < 4) (hm : mmd.toNat < 32) :
    Frame.decode (spiFill write (spiAddr slice mmd reg) val) =
      ⟨write, slice.toNat, mmd.toNat, reg.toNat, if write then some val.toNat else none⟩ := by
  have hr := reg.toNat_lt
  have ha := wireAddr_spiFill write (spiAddr slice mmd reg) val spiBufMax (by decide)
  have hlen : (spiFill write (spiAddr slice mmd reg) val).take spiBufMax =
      spiFill write (spiAddr slice mmd reg) val := by
    cases write <;> rfl
  rw [hlen, toNat_spiAddr hs hm] at ha
  have hd : ∀ tx, Frame.decode tx = ⟨(Frame.decode tx).write, wireAddr tx / 2097152,
    wireAddr tx / 65536 % 32, wireAddr tx % 65536, (Frame.decode tx).val⟩ := fun _ => rfl
  rw [hd, decode_write, decode_val, ha, Frame.mk.injEq]
  exact ⟨rfl, by omega, by omega, by omega, rfl⟩

end Spid

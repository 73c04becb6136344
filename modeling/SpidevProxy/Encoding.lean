import SpidevProxy.Registers

set_option relaxedAutoImplicit false
set_option autoImplicit false

/-!
# The instruction encoding of executed operations

`exec_op` admits every operation with `slice < 4`, whatever its MMD; `spi_addr` has five bits for the
MMD. The frame of an operation says that operation exactly when the MMD fits. A larger MMD runs into
the bits of the slice, so that the operation reaches a register of another slice and slips past the
mailbox guard, which compares the MMD as it was sent.

## Main definitions

* `Spid.opFrame` — the frame by which an operation addresses the device.
* `Spid.Op.fields` — the fields that the frame should carry.

## Main results

* `Spid.op_encoding` — the frame says the operation exactly when its MMD is below 32, and then wire
  addresses tell operations apart.
-/

namespace Spid

/-- The frame by which an operation addresses the device: that of `spi_write_reg`, or the first one
of `spi_read_reg`. -/
def opFrame (pad : ℕ) (op : Op) : List UInt8 :=
  if op.write ≠ 0 then (spiFill true (spiAddr op.slice op.mmd op.reg) op.val).take spiBytes
  else (spiFill false (spiAddr op.slice op.mmd op.reg) 0).take (spiBytes + pad)

/-- What the frame of an operation should say. -/
def Op.fields (op : Op) : Frame where
  write := op.write ≠ 0
  slice := op.slice.toNat
  mmd := op.mmd.toNat
  reg := op.reg.toNat
  val := if op.write ≠ 0 then some op.val.toNat else none

section

variable {σ : Type} (xfer : σ → List UInt8 → Option Rx × σ)

/-- A write sends the frame of its operation. -/
lemma spiWriteReg_eq_opFrame (pad : ℕ) (s : σ) {op : Op} (hw : op.write ≠ 0) :
    spiWriteReg xfer s op.slice op.mmd op.reg op.val =
      ((xfer s (opFrame pad op)).1.isSome, (xfer s (opFrame pad op)).2) := by
  rw [opFrame, if_pos hw]
  rfl

/-- A read sends the frame of its operation first. -/
lemma spiReadReg_eq_opFrame (pad : ℕ) (dev : UInt16) (s : σ) {op : Op} (hw : op.write = 0) :
    spiReadReg xfer pad dev s op.slice op.mmd op.reg =
      match (xfer s (opFrame pad op)).1 with
      | none => (none, (xfer s (opFrame pad op)).2)
      | some _ =>
        let capture := xfer (xfer s (opFrame pad op)).2
          ((spiFill false (spiAddr op.slice mmdGlobal dev) 0).take (spiBytes + pad))
        (capture.1.map rxWord, capture.2) := by
  rw [opFrame, if_neg (not_not.mpr hw)]
  rfl

end

/-- A frame is decoded from its first seven bytes. -/
lemma decode_take (tx : List UInt8) {k : ℕ} (hk : spiBytes ≤ k) :
    Frame.decode (tx.take k) = Frame.decode tx := by
  have hget : ∀ i < 7, (tx.take k).getD i 0 = tx.getD i 0 := by
    intro i hi
    have hik : i < k := hi.trans_le hk
    simp [List.getD_eq_getElem?_getD, hik]
  simp only [Frame.decode, wireAddr, hget 0 (by omega), hget 1 (by omega), hget 2 (by omega),
    hget 3 (by omega), hget 4 (by omega), hget 5 (by omega), hget 6 (by omega)]

/-- The frame of an operation with an MMD below 32 says that operation. -/
lemma decode_opFrame (pad : ℕ) {op : Op} (hs : op.slice.toNat < 4) (hm : op.mmd.toNat < 32) :
    Frame.decode (opFrame pad op) = op.fields := by
  unfold opFrame
  split_ifs with hw
  · rw [decode_take _ le_rfl, decode_spiFill true _ hs hm]
    simp [Op.fields, hw]
  · rw [decode_take _ (Nat.le_add_right _ _), decode_spiFill false _ hs hm]
    rw [not_not] at hw
    simp [Op.fields, hw]

/-- The wire address of an operation with an MMD below 32. -/
lemma wireAddr_opFrame (pad : ℕ) {op : Op} (hs : op.slice.toNat < 4) (hm : op.mmd.toNat < 32) :
    wireAddr (opFrame pad op) =
      op.slice.toNat * 2097152 + op.mmd.toNat * 65536 + op.reg.toNat := by
  have hr := op.reg.toNat_lt
  have ha : (spiAddr op.slice op.mmd op.reg).toNat = _ := toNat_spiAddr hs hm
  unfold opFrame
  split_ifs with hw
  · rw [wireAddr_spiFill _ _ _ _ (by decide), ha]
    omega
  · rw [wireAddr_spiFill _ _ _ _ (by simp only [spiBytes]; omega), ha]
    omega

/-- Wire addresses tell operations with MMDs below 32 apart. -/
lemma eq_of_wireAddr_eq (pad : ℕ) {op op' : Op} (hs : op.slice.toNat < 4) (hm : op.mmd.toNat < 32)
    (hs' : op'.slice.toNat < 4) (hm' : op'.mmd.toNat < 32)
    (h : wireAddr (opFrame pad op) = wireAddr (opFrame pad op')) :
    op.slice = op'.slice ∧ op.mmd = op'.mmd ∧ op.reg = op'.reg := by
  rw [wireAddr_opFrame pad hs hm, wireAddr_opFrame pad hs' hm'] at h
  have hr := op.reg.toNat_lt
  have hr' := op'.reg.toNat_lt
  refine ⟨UInt8.toNat_inj.mp ?_, UInt8.toNat_inj.mp ?_, UInt16.toNat_inj.mp ?_⟩ <;> omega

/-- An operation that is not refused as invalid has a slice below 4. -/
lemma slice_lt_of_opRefusal {inflight : Bool} {c : Option Slot} {op : Op}
    (h : opRefusal inflight c op ≠ some .einval) : op.slice.toNat < 4 := by
  by_contra hne
  exact h (if_pos (by omega))

/-- What the mailbox guard refuses. -/
lemma inGuard_of_ebusy {inflight : Bool} {c : Option Slot} {op : Op}
    (h : opRefusal inflight c op = some .ebusy) :
    inflight = true ∧ inGuard op.mmd op.reg = true ∧ c.isSome = true := by
  unfold opRefusal at h
  split_ifs at h with h₁ h₂
  · exact absurd h (by decide)
  · simpa [and_assoc] using h₂

/-- **The instruction encoding.** The frame of an operation that `exec_op` admits says that operation
if and only if its MMD is below 32. Two such operations address the same register only if they agree
on slice, MMD and register, and none of them reaches a register at which the mailbox guard refuses
another operation of a client. -/
theorem op_encoding (pad : ℕ) {inflight : Bool} {c : Option Slot} {op : Op}
    (h : opRefusal inflight c op = none) :
    (Frame.decode (opFrame pad op) = op.fields ↔ op.mmd.toNat < 32) ∧
    (op.mmd.toNat < 32 →
      (∀ inflight' c' op', opRefusal inflight' c' op' = none → op'.mmd.toNat < 32 →
        wireAddr (opFrame pad op) = wireAddr (opFrame pad op') →
        op.slice = op'.slice ∧ op.mmd = op'.mmd ∧ op.reg = op'.reg) ∧
      ∀ op', opRefusal inflight c op' = some .ebusy →
        wireAddr (opFrame pad op) ≠ wireAddr (opFrame pad op')) := by
  have hs : op.slice.toNat < 4 := slice_lt_of_opRefusal (by rw [h]; simp)
  refine ⟨⟨fun hd => ?_, decode_opFrame pad hs⟩, fun hm => ⟨fun inflight' c' op' h' hm' => ?_, ?_⟩⟩
  · -- no frame says a larger MMD
    have hlt := decode_mmd_lt (opFrame pad op)
    rwa [hd] at hlt
  · exact eq_of_wireAddr_eq pad hs hm (slice_lt_of_opRefusal (by rw [h']; simp)) hm'
  · intro op' h' he
    obtain ⟨hi, hg, hc⟩ := inGuard_of_ebusy h'
    have hm' : op'.mmd.toNat < 32 := by
      simp only [inGuard, Bool.and_eq_true, decide_eq_true_eq] at hg
      rw [hg.1.1]
      decide
    obtain ⟨-, hmmd, hreg⟩ := eq_of_wireAddr_eq pad hs hm
      (slice_lt_of_opRefusal (by rw [h']; decide)) hm' he
    -- the guard would have refused this one as well
    rw [← hmmd, ← hreg] at hg
    have hne : ¬4 ≤ op.slice.toNat := by omega
    rw [opRefusal, if_neg hne, hi, hg, hc] at h
    exact absurd h (by decide)

/-- A write to `MB_FLAG` of slice 1, as the guard sees it. -/
def flagWrite : Op := ⟨1, 1, mmdGlobal, 0, 0xda00, 0, 0x02000000⟩

/-- The same write, with the low bit of the slice in the MMD. -/
def flagAlias : Op := ⟨0, 1, 0x3e, 0, 0xda00, 0, 0x02000000⟩

/-- The theorem at a write to `MB_FLAG` outside every mailbox call. -/
theorem op_encoding_flagWrite :
    opRefusal false (some 0) flagWrite = none ∧ Frame.decode (opFrame 0 flagWrite) = flagWrite.fields := by
  have h : opRefusal false (some 0) flagWrite = none := by decide
  exact ⟨h, (op_encoding 0 h).1.mpr (by decide)⟩

/-- **A large MMD is encoded as another slice**: while a mailbox call is in flight, the guard refuses
the write to `MB_FLAG` of slice 1 and admits its alias, which has the same wire address. -/
theorem op_encoding_flagAlias :
    opRefusal true (some 0) flagAlias = none ∧ Frame.decode (opFrame 0 flagAlias) ≠ flagAlias.fields ∧
      opRefusal true (some 0) flagWrite = some .ebusy ∧
      wireAddr (opFrame 0 flagAlias) = wireAddr (opFrame 0 flagWrite) ∧
      flagAlias.slice ≠ flagWrite.slice := by
  decide

end Spid

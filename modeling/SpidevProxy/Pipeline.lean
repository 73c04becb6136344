import Mathlib.Logic.Relation
import SpidevProxy.Encoding
import SpidevProxy.Lib.History

set_option relaxedAutoImplicit false
set_option autoImplicit false

/-!
# Pipelined reads

The LAN80xx answers a frame in the data window of the next one. `spi_read_reg` therefore sends two
frames and takes the answer from the second. An access that fails half way leaves the pipeline in
any position, but the next read starts with a frame of its own, and what it returns is the answer
to that frame. Above the pipeline there is a flat register file.

## Main definitions

* `Spid.Chip`, `Spid.Chip.Takes`, `Spid.Chip.Xfer` — the device as `spi_read_reg` assumes it.
* `Spid.Call`, `Spid.perform` — sequences of `spi_read_reg` and `spi_write_reg`.
* `Spid.FlatStep` — the flat register file.

## Main results

* `Spid.pipelined_reads` — the calls refine the flat register file, and every value that is returned
  is the answer to the first frame of its own call.
-/

namespace Spid

open History

/-! ## The device -/

/-- The device: its registers, the number of frames it has received, and the answer that it shows in
the next data window, with the number of the frame that it answers. -/
structure Chip where
  regs : ℕ → UInt32
  frames : ℕ
  answer : ℕ × UInt32

section

variable (drift : (ℕ → UInt32) → (ℕ → UInt32) → Prop)

/-- A frame arrives: a read is answered with the content of the register, a write stores its value
and is answered anyhow. Until the next frame the registers may change as `drift` allows. -/
inductive Chip.Takes (c : Chip) (tx : List UInt8) : Chip → Prop
  | read {regs : ℕ → UInt32} (hw : (Frame.decode tx).write = false) (hd : drift c.regs regs) :
      Takes c tx ⟨regs, c.frames + 1, (c.frames, c.regs (wireAddr tx))⟩
  | write {regs : ℕ → UInt32} {val any : UInt32} (hw : (Frame.decode tx).write = true)
      (hv : (Frame.decode tx).val = some val.toNat)
      (hd : drift (Function.update c.regs (wireAddr tx) val) regs) :
      Takes c tx ⟨regs, c.frames + 1, (c.frames, any)⟩

/-- A transfer: the data window shows the answer to the frame before. A transfer that fails may have
delivered its frame or not. -/
inductive Chip.Xfer (c : Chip) (tx : List UInt8) : Option Rx → Chip → Prop
  | done {rx : Rx} {c' : Chip} (hrx : rxWord rx = c.answer.2) (ht : c.Takes drift tx c') :
      Xfer c tx (some rx) c'
  | failed {c' : Chip} (ht : c.Takes drift tx c') : Xfer c tx none c'
  | lost {regs : ℕ → UInt32} (hd : drift c.regs regs) : Xfer c tx none { c with regs := regs }

end

/-! ## Calls -/

/-- A call of `spi_read_reg` or `spi_write_reg`. -/
inductive Call
  | read (slice mmd : UInt8) (reg : UInt16)
  | write (slice mmd : UInt8) (reg : UInt16) (val : UInt32)
  deriving DecidableEq

/-- What a call returns: the value read, if it succeeds, or whether the write succeeds. -/
inductive Reply
  | value (v : Option UInt32)
  | done (ok : Bool)
  deriving DecidableEq

/-- The register that a call addresses. -/
def Call.addr : Call → ℕ
  | .read slice mmd reg => (spiAddr slice mmd reg).toNat % 2 ^ 23
  | .write slice mmd reg _ => (spiAddr slice mmd reg).toNat % 2 ^ 23

section

variable {σ : Type} (xfer : σ → List UInt8 → Option Rx × σ) (pad : ℕ) (deviceIdReg : UInt16)

/-- One call. -/
def perform (s : σ) : Call → Reply × σ
  | .read slice mmd reg =>
    let r := spiReadReg xfer pad deviceIdReg s slice mmd reg
    (.value r.1, r.2)
  | .write slice mmd reg val =>
    let r := spiWriteReg xfer s slice mmd reg val
    (.done r.1, r.2)

/-- A sequence of calls, with what they return. -/
def performAll (s : σ) : List Call → List (Call × Reply) × σ
  | [] => ([], s)
  | call :: calls =>
    let r := perform xfer pad deviceIdReg s call
    let rest := performAll r.2 calls
    ((call, r.1) :: rest.1, rest.2)

/-- A read frame; the first one of `spi_read_reg` addresses its register, the second one
`DEVICE_ID`. -/
def readFrame (slice mmd : UInt8) (reg : UInt16) : List UInt8 :=
  (spiFill false (spiAddr slice mmd reg) 0).take (spiBytes + pad)

variable {xfer pad deviceIdReg}

/-- The first transfer of `spi_read_reg` fails. -/
lemma spiReadReg_of_none {s : σ} {slice mmd : UInt8} {reg : UInt16}
    (h : (xfer s (readFrame pad slice mmd reg)).1 = none) :
    spiReadReg xfer pad deviceIdReg s slice mmd reg =
      (none, (xfer s (readFrame pad slice mmd reg)).2) := by
  unfold readFrame at *
  simp only [spiReadReg, h]

/-- The first transfer of `spi_read_reg` succeeds. -/
lemma spiReadReg_of_some {s : σ} {slice mmd : UInt8} {reg : UInt16} {rx : Rx}
    (h : (xfer s (readFrame pad slice mmd reg)).1 = some rx) :
    spiReadReg xfer pad deviceIdReg s slice mmd reg =
      ((xfer (xfer s (readFrame pad slice mmd reg)).2
          (readFrame pad slice mmdGlobal deviceIdReg)).1.map rxWord,
        (xfer (xfer s (readFrame pad slice mmd reg)).2
          (readFrame pad slice mmdGlobal deviceIdReg)).2) := by
  unfold readFrame at *
  simp only [spiReadReg, h]

end

/-! ## The flat register file -/

/-- A register file without a pipeline: a read that succeeds returns the content of its register, a
write that succeeds stores its value, and one that fails may have stored it. In between the
registers may change. -/
inductive FlatStep (drift : (ℕ → UInt32) → (ℕ → UInt32) → Prop) :
    (ℕ → UInt32) → Call × Reply → (ℕ → UInt32) → Prop
  | read {regs regs' : ℕ → UInt32} {slice mmd : UInt8} {reg : UInt16} {v : Option UInt32}
      (hv : ∀ x, v = some x → x = regs (Call.addr (.read slice mmd reg)))
      (hd : Relation.ReflTransGen drift regs regs') :
      FlatStep drift regs (.read slice mmd reg, .value v) regs'
  | write {regs regs' : ℕ → UInt32} {slice mmd : UInt8} {reg : UInt16} {val : UInt32} {ok : Bool}
      (hd : Relation.ReflTransGen drift
        (Function.update regs (Call.addr (.write slice mmd reg val)) val) regs') :
      FlatStep drift regs (.write slice mmd reg val, .done ok) regs'
  | lost {regs regs' : ℕ → UInt32} {slice mmd : UInt8} {reg : UInt16} {val : UInt32}
      (hd : Relation.ReflTransGen drift regs regs') :
      FlatStep drift regs (.write slice mmd reg val, .done false) regs'

/-! ## Refinement -/

section

variable {drift : (ℕ → UInt32) → (ℕ → UInt32) → Prop} {c c' : Chip} {tx : List UInt8}
  {r : Option Rx}

/-- A read frame that arrives, or not, stores nothing. -/
lemma Chip.Xfer.regs_of_read (h : c.Xfer drift tx r c') (hw : (Frame.decode tx).write = false) :
    drift c.regs c'.regs := by
  cases h with
  | done _ ht =>
    cases ht with
    | read _ hd => exact hd
    | write hw' => simp [hw] at hw'
  | failed ht =>
    cases ht with
    | read _ hd => exact hd
    | write hw' => simp [hw] at hw'
  | lost hd => exact hd

/-- After a read frame that was delivered, its answer is the next to be shown. -/
lemma Chip.Xfer.answer_of_read {rx : Rx} (h : c.Xfer drift tx (some rx) c')
    (hw : (Frame.decode tx).write = false) : c'.answer = (c.frames, c.regs (wireAddr tx)) := by
  cases h with
  | done _ ht =>
    cases ht with
    | read => rfl
    | write hw' => simp [hw] at hw'

/-- The data window shows the answer. -/
lemma Chip.Xfer.rxWord_eq {rx : Rx} (h : c.Xfer drift tx (some rx) c') :
    rxWord rx = c.answer.2 := by
  cases h with
  | done hrx _ => exact hrx

/-- A write frame stores its value, or is lost with its transfer. -/
lemma Chip.Xfer.regs_of_write {val : UInt32} (h : c.Xfer drift tx r c')
    (hw : (Frame.decode tx).write = true) (hv : (Frame.decode tx).val = some val.toNat) :
    drift (Function.update c.regs (wireAddr tx) val) c'.regs ∨ r = none ∧ drift c.regs c'.regs := by
  have hstore : ∀ {c'' : Chip}, c.Takes drift tx c'' →
      drift (Function.update c.regs (wireAddr tx) val) c''.regs := by
    intro c'' ht
    cases ht with
    | read hw' => simp [hw] at hw'
    | @write _ val' _ _ hv' hd =>
      rw [hv, Option.some.injEq, UInt32.toNat_inj] at hv'
      rwa [hv']
  cases h with
  | done _ ht => exact Or.inl (hstore ht)
  | failed ht => exact Or.inl (hstore ht)
  | lost hd => exact Or.inr ⟨rfl, hd⟩

variable {σ : Type} {xfer : σ → List UInt8 → Option Rx × σ} {chip : σ → Chip} (pad : ℕ)
  (deviceIdReg : UInt16)

/-- A read frame says that it is one, and where. -/
lemma decode_readFrame (slice mmd : UInt8) (reg : UInt16) :
    (Frame.decode (readFrame pad slice mmd reg)).write = false ∧
      wireAddr (readFrame pad slice mmd reg) = (spiAddr slice mmd reg).toNat % 2 ^ 23 := by
  rw [readFrame, decode_take _ (Nat.le_add_right _ _), decode_write,
    wireAddr_spiFill _ _ _ _ (by simp only [spiBytes]; omega)]
  exact ⟨rfl, rfl⟩

/-- **A read returns the answer to its own first frame**, whatever the pipeline held before. -/
lemma spiReadReg_answer (hx : ∀ s tx, (chip s).Xfer drift tx (xfer s tx).1 (chip (xfer s tx).2))
    (s : σ) (slice mmd : UInt8) (reg : UInt16) {v : UInt32}
    (hv : (spiReadReg xfer pad deviceIdReg s slice mmd reg).1 = some v) :
    (chip (xfer s (readFrame pad slice mmd reg)).2).answer = ((chip s).frames, v) ∧
      v = (chip s).regs ((spiAddr slice mmd reg).toNat % 2 ^ 23) := by
  obtain ⟨hw, ha⟩ := decode_readFrame pad slice mmd reg
  have h₁ := hx s (readFrame pad slice mmd reg)
  cases hp : (xfer s (readFrame pad slice mmd reg)).1 with
  | none => simp [spiReadReg_of_none hp] at hv
  | some rx =>
    rw [spiReadReg_of_some hp] at hv
    obtain ⟨rx', hrx', rfl⟩ := Option.map_eq_some_iff.mp hv
    -- the second frame shows the answer to the first
    have h₂ := hx (xfer s (readFrame pad slice mmd reg)).2 (readFrame pad slice mmdGlobal deviceIdReg)
    rw [hrx'] at h₂
    rw [hp] at h₁
    rw [h₂.rxWord_eq, h₁.answer_of_read hw, ha]
    exact ⟨rfl, rfl⟩

/-- A read stores nothing, whether it succeeds, fails or stops half way. -/
lemma spiReadReg_regs (hx : ∀ s tx, (chip s).Xfer drift tx (xfer s tx).1 (chip (xfer s tx).2))
    (s : σ) (slice mmd : UInt8) (reg : UInt16) :
    Relation.ReflTransGen drift (chip s).regs
      (chip (spiReadReg xfer pad deviceIdReg s slice mmd reg).2).regs := by
  have h₁ := (hx s (readFrame pad slice mmd reg)).regs_of_read (decode_readFrame pad _ _ _).1
  cases hp : (xfer s (readFrame pad slice mmd reg)).1 with
  | none =>
    rw [spiReadReg_of_none hp]
    exact .single h₁
  | some rx =>
    rw [spiReadReg_of_some hp]
    exact .tail (.single h₁) ((hx _ _).regs_of_read (decode_readFrame pad _ _ _).1)

/-- One call is a step of the flat register file. -/
lemma perform_flat (hx : ∀ s tx, (chip s).Xfer drift tx (xfer s tx).1 (chip (xfer s tx).2)) (s : σ)
    (call : Call) :
    FlatStep drift (chip s).regs (call, (perform xfer pad deviceIdReg s call).1)
      (chip (perform xfer pad deviceIdReg s call).2).regs := by
  cases call with
  | read slice mmd reg =>
    exact FlatStep.read (fun v hv => (spiReadReg_answer pad deviceIdReg hx s slice mmd reg hv).2)
      (spiReadReg_regs pad deviceIdReg hx s slice mmd reg)
  | write slice mmd reg val =>
    have h := hx s ((spiFill true (spiAddr slice mmd reg) val).take spiBytes)
    have hdec := decode_take (spiFill true (spiAddr slice mmd reg) val) le_rfl
    have hstore := h.regs_of_write (by rw [hdec, decode_write]) (by rw [hdec, decode_val]; rfl)
    rw [wireAddr_spiFill _ _ _ _ (by decide)] at hstore
    simp only [perform, spiWriteReg]
    rcases hstore with hd | ⟨hr, hd⟩
    · exact FlatStep.write (.single hd)
    · rw [hr]
      exact FlatStep.lost (.single hd)

/-- **Pipelined reads refine a flat register file.** Whatever the pipeline holds at the start and
whichever transfers fail, the calls are a run of the flat register file, with the registers of the
device as its content. In every state of the bus, a read that succeeds returns the content of its
register at the time of its first frame, and what it returns is the answer to that frame and to no
other. -/
theorem pipelined_reads (hx : ∀ s tx, (chip s).Xfer drift tx (xfer s tx).1 (chip (xfer s tx).2))
    (s : σ) (calls : List Call) :
    Steps (FlatStep drift) (chip s).regs (performAll xfer pad deviceIdReg s calls).1
      (chip (performAll xfer pad deviceIdReg s calls).2).regs ∧
    ∀ s₀ slice mmd reg v, (spiReadReg xfer pad deviceIdReg s₀ slice mmd reg).1 = some v →
      (chip (xfer s₀ (readFrame pad slice mmd reg)).2).answer = ((chip s₀).frames, v) ∧
        v = (chip s₀).regs ((spiAddr slice mmd reg).toNat % 2 ^ 23) := by
  refine ⟨?_, fun s₀ slice mmd reg v hv => spiReadReg_answer pad deviceIdReg hx s₀ slice mmd reg hv⟩
  induction calls generalizing s with
  | nil => exact Steps.nil _
  | cons call calls ih => exact Steps.cons (perform_flat pad deviceIdReg hx s call) (ih _)

end

/-! ## A device -/

/-- A receive buffer that shows the word `v` in its data window. -/
def showing (v : UInt32) : Rx := fun i => (spiFill true 0 v).getD i 0

/-- It shows the word. -/
lemma rxWord_showing (v : UInt32) : rxWord (showing v) = v := by
  have hle := Bytes.ofLe32_le32 v []
  rw [Bytes.le32, List.append_nil, Bytes.ofLe32_cons] at hle
  conv_rhs => rw [← hle]
  have hrev : ∀ a b c d : UInt32, a ||| b ||| c ||| d = d ||| c ||| b ||| a := by
    intro a b c d
    rw [UInt32.or_comm, UInt32.or_comm (a ||| b), UInt32.or_comm a, ← UInt32.or_assoc,
      ← UInt32.or_assoc]
  exact hrev _ _ _ _

/-- A device that receives every frame and whose registers change only when they are written. -/
def Chip.take (c : Chip) (tx : List UInt8) : Chip :=
  match (Frame.decode tx).val with
  | some v => ⟨Function.update c.regs (wireAddr tx) (UInt32.ofNat v), c.frames + 1, (c.frames, 0)⟩
  | none => ⟨c.regs, c.frames + 1, (c.frames, c.regs (wireAddr tx))⟩

/-- A bus with this device on which the transfers with the numbers in `fails` fail. -/
def flakyBus (fails : List ℕ) (s : ℕ × Chip) (tx : List UInt8) : Option Rx × (ℕ × Chip) :=
  (if s.1 ∈ fails then none else some (showing s.2.answer.2), (s.1 + 1, s.2.take tx))

/-- The value in a frame is a 32-bit number. -/
lemma decode_val_lt {tx : List UInt8} {v : ℕ} (h : (Frame.decode tx).val = some v) :
    v < UInt32.size ∧ (Frame.decode tx).write = true := by
  have hval : (Frame.decode tx).val = if (Frame.decode tx).write then
      some ((tx.getD 3 0).toNat * 16777216 + (tx.getD 4 0).toNat * 65536 +
        (tx.getD 5 0).toNat * 256 + (tx.getD 6 0).toNat) else none := rfl
  rw [hval] at h
  split_ifs at h with hw
  refine ⟨?_, hw⟩
  have h₃ := (tx.getD 3 0).toNat_lt
  have h₄ := (tx.getD 4 0).toNat_lt
  have h₅ := (tx.getD 5 0).toNat_lt
  have h₆ := (tx.getD 6 0).toNat_lt
  simp only [Option.some.injEq] at h
  simp only [UInt32.size]
  omega

/-- It is a device as assumed. -/
lemma flakyBus_xfer (fails : List ℕ) (s : ℕ × Chip) (tx : List UInt8) :
    s.2.Xfer Eq tx (flakyBus fails s tx).1 (flakyBus fails s tx).2.2 := by
  have ht : s.2.Takes Eq tx (s.2.take tx) := by
    unfold Chip.take
    cases hv : (Frame.decode tx).val with
    | none =>
      refine Chip.Takes.read ?_ rfl
      by_contra hw
      have hval : (Frame.decode tx).val = if (Frame.decode tx).write then some _ else none := rfl
      rw [hval, if_pos (by simpa using hw)] at hv
      simp at hv
    | some v =>
      obtain ⟨hlt, hw⟩ := decode_val_lt hv
      refine Chip.Takes.write hw ?_ rfl
      rw [UInt32.toNat_ofNat_of_lt' hlt, hv]
  unfold flakyBus
  dsimp only
  split_ifs
  · exact Chip.Xfer.failed ht
  · exact Chip.Xfer.done (rxWord_showing _) ht

/-- Register `a` holds `a`. -/
def countingChip : Chip := ⟨fun a => UInt32.ofNat a, 0, (0, 0)⟩

/-- The theorem at a read that stops half way, followed by one that succeeds. -/
theorem pipelined_reads_halfRead :
    (performAll (flakyBus [1]) 0 0 (0, countingChip) [.read 0 0 7, .read 0 0 9]).1 =
        [(.read 0 0 7, .value none), (.read 0 0 9, .value (some 9))] ∧
      Steps (FlatStep Eq) countingChip.regs
        [(.read 0 0 7, .value none), (.read 0 0 9, .value (some 9))] countingChip.regs := by
  have hrun : (performAll (flakyBus [1]) 0 0 (0, countingChip) [.read 0 0 7, .read 0 0 9]).1 =
      [(.read 0 0 7, .value none), (.read 0 0 9, .value (some 9))] := by decide +kernel
  have hx : ∀ (s : ℕ × Chip) tx,
      (Prod.snd s).Xfer Eq tx (flakyBus [1] s tx).1 (Prod.snd (flakyBus [1] s tx).2) :=
    flakyBus_xfer [1]
  have h := (pipelined_reads 0 0 hx (0, countingChip) [.read 0 0 7, .read 0 0 9]).1
  rw [hrun] at h
  exact ⟨hrun, h⟩

end Spid

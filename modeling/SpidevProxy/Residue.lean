import SpidevProxy.Requests

set_option relaxedAutoImplicit false
set_option autoImplicit false

/-!
# What a packet buffer holds before the packet

`exec_mailbox` builds its packet in a local buffer that nothing has initialised, and sends it in
words of four bytes. A packet whose length is not a multiple of four leaves bytes of its last word
unassigned, and these go to the device as the stack happened to hold them. Everything else that the
call writes, before its wait and after it, is determined by the request and the answers of the device.

## Main definitions

* `Spid.Env.withPkt` — the same surroundings, with a given content of the packet buffer.
* `Spid.requestWrites` — what `exec_mailbox` writes to the device up to its wait loop.
* `Spid.LastWordReached` — the device lets the call come as far as its last request word.

## Main results

* `Spid.mailbox_words_determined` — when the words that are sent do not depend on what the buffer held,
  and that nothing else ever does.
-/

namespace Spid

open Bytes

/-- The surroundings with another content of the packet buffers. -/
def Env.withPkt (env : Env) (p : Block pktSize) : Env := { env with pkt := fun _ => p }

/-- What a write to the device says: slice, MMD, register and value. -/
def Event.written : Event → Option (UInt8 × UInt8 × UInt16 × UInt32)
  | .access x => if x.write then some (x.slice, x.mmd, x.reg, x.val) else none
  | _ => none

/-- The writes to the device between two states of a run, in order. -/
def writesBetween (g g' : Daemon) : List (UInt8 × UInt8 × UInt16 × UInt32) :=
  (since g g').filterMap Event.written

/-- The mailbox structure in an item. -/
def Daemon.mbOf (g : Daemon) (it : Ptr) : Mb := Mb.decode ((g.item it).body.read 0 mbSize)

/-- The payload behind it. -/
def Daemon.payloadOf (g : Daemon) (it : Ptr) : List UInt8 :=
  (g.item it).body.read mbSize (g.mbOf it).payloadLen.toNat

/-- As many bytes as `payload_len` says. -/
@[simp] lemma length_payloadOf (g : Daemon) (it : Ptr) :
    (g.payloadOf it).length = (g.mbOf it).payloadLen.toNat := Block.length_read _ _ _

section

variable (env : Env) (cfg : Config)

/-- The writes of `exec_mailbox` up to its wait loop, when its packet buffer held `p`. -/
def requestWrites (g : Daemon) (it : Ptr) (p : Block pktSize) :
    List (UInt8 × UInt8 × UInt16 × UInt32) :=
  writesBetween g (execMailboxStart (env.withPkt p) cfg g it).2

/-- The frame that writes request word `j`, read off a packet. -/
def wordFrame (slice : UInt8) (pkt : Block pktSize) (j : ℕ) : List UInt8 :=
  (spiFill true (spiAddr slice mmdGlobal (mbCmdAddr + UInt16.ofNat j)) (pktWord pkt j)).take spiBytes

/-- The frame that asks for a register of the `GLOBAL` MMD. -/
def askFrame (slice : UInt8) (reg : UInt16) : List UInt8 :=
  (spiFill false (spiAddr slice mmdGlobal reg) 0).take (spiBytes + cfg.pad)

/-- **The device lets the call come as far as its last request word**: the request is in range, the
two transfers that read `MB_FLAG` succeed and show that no request is pending, and every request word
before the last one is written. -/
structure LastWordReached (g : Daemon) (it : Ptr) : Prop where
  len : (g.mbOf it).payloadLen.toNat ≤ mbMax
  slice : (g.mbOf it).slice.toNat < 4
  prime : (env.ioctl g.io.nIoctl (askFrame cfg (g.mbOf it).slice mbFlag)).isSome = true
  ready : ∃ rx, env.ioctl (g.io.nIoctl + 1) (askFrame cfg (g.mbOf it).slice cfg.deviceIdReg) = some rx ∧
    rxWord rx &&& mbFBusy = 0
  words : ∀ j < wordCount (g.mbOf it).pktLen - 1, (env.ioctl (g.io.nIoctl + 2 + j)
    (wordFrame (g.mbOf it).slice (buildPacket (Block.zero _) (g.mbOf it) (g.payloadOf it)) j)).isSome =
      true

/-! ## Words of a packet -/

/-- A byte of the packet does not depend on what the buffer held. -/
lemma get_buildPacket {mb : Mb} {payload : List UInt8} (hl : payload.length = mb.payloadLen.toNat)
    (hm : mb.payloadLen.toNat ≤ mbMax) (p p' : Block pktSize) {j : ℕ}
    (hj : j < 6 + mb.payloadLen.toNat) :
    (buildPacket p mb payload).get j = (buildPacket p' mb payload).get j := by
  have h₁ := read_buildPacket p mb payload hl hm
  have h₂ := read_buildPacket p' mb payload hl hm
  have hH : mbHdrLen = 4 := rfl
  have hC : mbCrcLen = 2 := rfl
  exact Block.get_eq_of_read_eq (h₁.trans h₂.symm) (by omega)

/-- A byte behind the packet is what the buffer held. -/
lemma get_buildPacket_of_le {mb : Mb} {payload : List UInt8}
    (hl : payload.length = mb.payloadLen.toNat) (p : Block pktSize) {j : ℕ}
    (hj : 6 + mb.payloadLen.toNat ≤ j) : (buildPacket p mb payload).get j = p.get j := by
  have hH : mbHdrLen = 4 := rfl
  unfold buildPacket
  dsimp only
  rw [Block.get_write_of_notMem _ _ _ _ (Or.inr (by simp; omega)),
    Block.get_write_of_notMem _ _ _ _ (Or.inr (by omega)),
    Block.get_write_of_notMem _ _ _ _ (Or.inr (by simp; omega))]

/-- A word all of whose bytes belong to the packet does not depend on what the buffer held. -/
lemma pktWord_buildPacket {mb : Mb} {payload : List UInt8}
    (hl : payload.length = mb.payloadLen.toNat) (hm : mb.payloadLen.toNat ≤ mbMax)
    (p p' : Block pktSize) {j : ℕ} (hj : 4 * j + 4 ≤ 6 + mb.payloadLen.toNat) :
    pktWord (buildPacket p mb payload) j = pktWord (buildPacket p' mb payload) j := by
  have hget : ∀ k, k < 4 → (buildPacket p mb payload).get (4 * j + k) =
      (buildPacket p' mb payload).get (4 * j + k) := fun k hk =>
    get_buildPacket hl hm p p' (by omega)
  have h0 := hget 0 (by omega)
  rw [Nat.add_zero] at h0
  unfold pktWord
  rw [h0, hget 1 (by omega), hget 2 (by omega), hget 3 (by omega)]

/-- The last byte of a word. -/
lemma get_of_pktWord_eq {p p' : Block pktSize} {j : ℕ} (h : pktWord p j = pktWord p' j) :
    p.get (4 * j + 3) = p'.get (4 * j + 3) := by
  have hb : p.read (4 * j) 4 = p'.read (4 * j) 4 := by
    rw [← le32_pktWord, ← le32_pktWord, h]
  have hget := congrArg (fun bs => bs.getD 3 0) hb
  simpa only [Block.getD_read _ _ _ _ (show 3 < 4 by omega)] using hget

/-! ## The request words -/

variable (ag : Agent)

/-- Words are written until one fails. -/
lemma mbWriteWords_succ (slice : UInt8) (pkt : Block pktSize) : ∀ (k i : ℕ) (g : Daemon),
    mbWriteWords env cfg ag slice pkt (k + 1) i g =
      if (mbWriteWords env cfg ag slice pkt k i g).1 = true then
        mbWr env cfg (mbWriteWords env cfg ag slice pkt k i g).2 ag slice
          (mbCmdAddr + UInt16.ofNat (i + k)) (pktWord pkt (i + k))
      else mbWriteWords env cfg ag slice pkt k i g := by
  intro k
  induction k with
  | zero =>
    intro i g
    simp only [mbWriteWords, if_true, Nat.add_zero]
    generalize mbWr env cfg g ag slice (mbCmdAddr + UInt16.ofNat i) (pktWord pkt i) = r
    obtain ⟨b, g'⟩ := r
    cases b <;> rfl
  | succ k ih =>
    intro i g
    conv_lhs => rw [mbWriteWords]
    conv_rhs => rw [mbWriteWords]
    by_cases h : (mbWr env cfg g ag slice (mbCmdAddr + UInt16.ofNat i) (pktWord pkt i)).1 = true
    · simp only [if_pos h]
      rw [ih, show i + 1 + k = i + (k + 1) by omega]
    · simp only [if_neg h, Bool.false_eq_true, if_false]

/-- The words are all that a packet contributes. -/
lemma mbWriteWords_congr (slice : UInt8) {pkt pkt' : Block pktSize} : ∀ (k i : ℕ) (g : Daemon),
    (∀ j < k, pktWord pkt (i + j) = pktWord pkt' (i + j)) →
      mbWriteWords env cfg ag slice pkt k i g = mbWriteWords env cfg ag slice pkt' k i g := by
  intro k
  induction k with
  | zero => exact fun _ _ _ => rfl
  | succ k ih =>
    intro i g h
    rw [mbWriteWords_succ, mbWriteWords_succ, ih i g fun j hj => h j (by omega), h k (by omega)]

/-- The content of the packet buffers is not asked for while the words are written. -/
lemma mbWriteWords_withPkt (p : Block pktSize) (slice : UInt8) (pkt : Block pktSize) :
    ∀ (k i : ℕ) (g : Daemon), mbWriteWords (env.withPkt p) cfg ag slice pkt k i g =
      mbWriteWords env cfg ag slice pkt k i g := by
  intro k
  induction k with
  | zero => exact fun _ _ => rfl
  | succ k ih =>
    intro i g
    rw [mbWriteWords_succ, mbWriteWords_succ, ih]
    rfl

/-- One register write takes one transfer, and succeeds when that does. -/
lemma mbWr_fst (g : Daemon) (slice : UInt8) (reg : UInt16) (val : UInt32) :
    (mbWr env cfg g ag slice reg val).1 = (env.ioctl g.io.nIoctl
      ((spiFill true (spiAddr slice mmdGlobal reg) val).take spiBytes)).isSome := rfl

/-- The event log makes no transfer, -/
lemma nIoctl_logMb (g : Daemon) (write : Bool) (slice : UInt8) (reg : UInt16) (val : UInt32)
    (ok : Bool) : (logMb cfg g ag write slice reg val ok).io.nIoctl = g.io.nIoctl := by
  unfold logMb
  split_ifs <;> rfl

/-- and a write of a mailbox call makes one. -/
lemma nIoctl_mbWr (g : Daemon) (slice : UInt8) (reg : UInt16) (val : UInt32) :
    (mbWr env cfg g ag slice reg val).2.io.nIoctl = g.io.nIoctl + 1 := by
  unfold mbWr
  dsimp only
  rw [nIoctl_logMb]
  unfold regWrite spiWriteReg busXfer
  dsimp only [Daemon.emit]
  split_ifs <;> rfl

/-- The words are written when every transfer succeeds, and take one transfer each. -/
lemma mbWriteWords_fst (slice : UInt8) (pkt : Block pktSize) (g : Daemon) : ∀ k,
    ((mbWriteWords env cfg ag slice pkt k 0 g).1 = true ↔
      ∀ j < k, (env.ioctl (g.io.nIoctl + j) (wordFrame slice pkt j)).isSome = true) ∧
    ((mbWriteWords env cfg ag slice pkt k 0 g).1 = true →
      (mbWriteWords env cfg ag slice pkt k 0 g).2.io.nIoctl = g.io.nIoctl + k) := by
  intro k
  induction k with
  | zero => exact ⟨⟨fun _ j hj => absurd hj (Nat.not_lt_zero j), fun _ => rfl⟩, fun _ => rfl⟩
  | succ k ih =>
    rw [mbWriteWords_succ, Nat.zero_add]
    split_ifs with hk
    · rw [mbWr_fst, nIoctl_mbWr, ih.2 hk]
      refine ⟨⟨fun hlast j hj => ?_, fun hall => hall k (by omega)⟩, fun _ => by omega⟩
      rcases Nat.lt_succ_iff_lt_or_eq.mp hj with hj | rfl
      · exact ih.1.mp hk j hj
      · exact hlast
    · refine ⟨⟨fun h => absurd h hk, fun hall => ?_⟩, fun h => absurd h hk⟩
      exact ih.1.mpr fun j hj => hall j (by omega)

/-- A register read in terms of its two transfers. -/
lemma spiReadReg_busXfer (io : Io) (slice : UInt8) (reg : UInt16) :
    (spiReadReg (busXfer env) cfg.pad cfg.deviceIdReg io slice mmdGlobal reg).1 =
      ((env.ioctl io.nIoctl (askFrame cfg slice reg)).bind fun _ =>
        (env.ioctl (io.nIoctl + 1) (askFrame cfg slice cfg.deviceIdReg)).map rxWord) ∧
    ((spiReadReg (busXfer env) cfg.pad cfg.deviceIdReg io slice mmdGlobal reg).1.isSome = true →
      (spiReadReg (busXfer env) cfg.pad cfg.deviceIdReg io slice mmdGlobal reg).2.nIoctl =
        io.nIoctl + 2) := by
  unfold spiReadReg busXfer askFrame
  dsimp only
  cases env.ioctl io.nIoctl
      (List.take (spiBytes + cfg.pad) (spiFill false (spiAddr slice mmdGlobal reg) 0)) with
  | none => exact ⟨rfl, fun h => absurd h (by simp)⟩
  | some rx => exact ⟨rfl, fun _ => rfl⟩

/-- `mb_rd` succeeds when both its transfers do, -/
lemma mbRd_fst (g : Daemon) (slice : UInt8) (reg : UInt16) (old : UInt32) :
    (mbRd env cfg g ag slice reg old).1 =
      (spiReadReg (busXfer env) cfg.pad cfg.deviceIdReg g.io slice mmdGlobal reg).1.isSome := rfl

/-- leaves the value alone when it fails, -/
lemma mbRd_val (g : Daemon) (slice : UInt8) (reg : UInt16) (old : UInt32) :
    (mbRd env cfg g ag slice reg old).2.1 =
      (spiReadReg (busXfer env) cfg.pad cfg.deviceIdReg g.io slice mmdGlobal reg).1.getD old := rfl

/-- and makes the transfers of the read below it. -/
lemma nIoctl_mbRd (g : Daemon) (slice : UInt8) (reg : UInt16) (old : UInt32) :
    (mbRd env cfg g ag slice reg old).2.2.io.nIoctl =
      (spiReadReg (busXfer env) cfg.pad cfg.deviceIdReg g.io slice mmdGlobal reg).2.nIoctl := by
  unfold mbRd
  dsimp only
  rw [nIoctl_logMb]
  unfold regRead
  dsimp only [Daemon.emit]
  split_ifs <;> rfl

/-! ## The two parts of the call -/

/-- The read of `MB_FLAG` with which `exec_mailbox` starts. -/
def mbFlagRead (g : Daemon) (it : Ptr) : Bool × UInt32 × Daemon :=
  mbRd env cfg { g with io := { g.io with nPkt := g.io.nPkt + 1 } }
    (.request (g.item it).rid (g.item it).c) (g.mbOf it).slice mbFlag 0

/-- The checks that `exec_mailbox` makes before its first write. -/
def MbSends (g : Daemon) (it : Ptr) : Prop :=
  (g.mbOf it).payloadLen.toNat ≤ mbMax ∧ (g.mbOf it).slice.toNat < 4 ∧
    (mbFlagRead env cfg g it).1 = true ∧ (mbFlagRead env cfg g it).2.1 &&& mbFBusy = 0

/-- The request of a mailbox call does not depend on the garbage in later packets, -/
lemma execMailboxRequest_withPkt (p : Block pktSize) (g : Daemon) (it : Ptr) (mb : Mb)
    (pkt : Block pktSize) : execMailboxRequest (env.withPkt p) cfg g it mb pkt =
      execMailboxRequest env cfg g it mb pkt := by
  unfold execMailboxRequest
  simp only [mbWriteWords_withPkt]
  rfl

/-- The state in which `exec_mailbox` goes on to send its packet. -/
def mbReady (g : Daemon) (it : Ptr) : Daemon :=
  { (mbFlagRead env cfg g it).2.2 with mbInflight := true }.emit
    (.mbSet (g.item it).rid (g.item it).c (mbFlagRead env cfg g it).2.2.mbInflight)

/-- and its start only on that in its own packet. -/
lemma execMailboxStart_withPkt (p : Block pktSize) (g : Daemon) (it : Ptr) :
    execMailboxStart (env.withPkt p) cfg g it =
      if mbMax < (g.mbOf it).payloadLen.toNat ∨ 4 ≤ (g.mbOf it).slice.toNat then
        (.inl .einval, { g with io := { g.io with nPkt := g.io.nPkt + 1 } })
      else if !(mbFlagRead env cfg g it).1 then (.inl .eio, (mbFlagRead env cfg g it).2.2)
      else if (mbFlagRead env cfg g it).2.1 &&& mbFBusy ≠ 0 then
        (.inl .ebusy, (mbFlagRead env cfg g it).2.2)
      else execMailboxRequest env cfg (mbReady env cfg g it) it (g.mbOf it)
        (buildPacket p (g.mbOf it) (g.payloadOf it)) := by
  rw [← execMailboxRequest_withPkt env cfg p]
  rfl

/-- A call that gets past its checks sends the packet. -/
lemma execMailboxStart_of_sends {g : Daemon} {it : Ptr} (h : MbSends env cfg g it)
    (p : Block pktSize) : execMailboxStart (env.withPkt p) cfg g it =
      execMailboxRequest env cfg (mbReady env cfg g it) it (g.mbOf it)
        (buildPacket p (g.mbOf it) (g.payloadOf it)) := by
  rw [execMailboxStart_withPkt, if_neg (not_or.mpr ⟨by simpa using h.1, by simpa using h.2.1⟩),
    if_neg (by simp [h.2.2.1]), if_neg (not_not.mpr h.2.2.2)]

/-- A call that does not has never looked at the packet buffer. -/
lemma execMailboxStart_of_not_sends {g : Daemon} {it : Ptr} (h : ¬MbSends env cfg g it)
    (p p' : Block pktSize) :
    execMailboxStart (env.withPkt p) cfg g it = execMailboxStart (env.withPkt p') cfg g it := by
  rw [execMailboxStart_withPkt, execMailboxStart_withPkt]
  split_ifs with h₁ h₂ h₃
  · rfl
  · rfl
  · rfl
  · rw [not_or] at h₁
    exact absurd ⟨not_lt.mp h₁.1, not_le.mp h₁.2, by simpa using h₂, not_not.mp h₃⟩ h

/-! ### The last word -/

/-- A flag that is up took two transfers to read. -/
lemma io_mbReady_nIoctl {g : Daemon} {it : Ptr} (h : (mbFlagRead env cfg g it).1 = true) :
    (mbReady env cfg g it).io.nIoctl = g.io.nIoctl + 2 := by
  have hf := (spiReadReg_busXfer env cfg { g.io with nPkt := g.io.nPkt + 1 } (g.mbOf it).slice
    mbFlag).2 h
  change (mbFlagRead env cfg g it).2.2.io.nIoctl = g.io.nIoctl + 2
  unfold mbFlagRead
  rw [nIoctl_mbRd]
  exact hf

/-- The checks of `exec_mailbox`, in terms of the two transfers of its first read. -/
lemma mbSends_iff (g : Daemon) (it : Ptr) : MbSends env cfg g it ↔
    (g.mbOf it).payloadLen.toNat ≤ mbMax ∧ (g.mbOf it).slice.toNat < 4 ∧
    (env.ioctl g.io.nIoctl (askFrame cfg (g.mbOf it).slice mbFlag)).isSome = true ∧
    ∃ rx, env.ioctl (g.io.nIoctl + 1) (askFrame cfg (g.mbOf it).slice cfg.deviceIdReg) = some rx ∧
      rxWord rx &&& mbFBusy = 0 := by
  have hv := (spiReadReg_busXfer env cfg { g.io with nPkt := g.io.nPkt + 1 } (g.mbOf it).slice
    mbFlag).1
  unfold MbSends mbFlagRead
  rw [mbRd_fst, mbRd_val]
  dsimp only at hv ⊢
  rw [hv]
  cases env.ioctl g.io.nIoctl (askFrame cfg (g.mbOf it).slice mbFlag) with
  | none => simp
  | some rx =>
    cases env.ioctl (g.io.nIoctl + 1) (askFrame cfg (g.mbOf it).slice cfg.deviceIdReg) with
    | none => simp
    | some rx' => simp

/-- The call comes as far as its last word when it sends the packet and every word before the last is
written. -/
lemma lastWordReached_iff (g : Daemon) (it : Ptr) : LastWordReached env cfg g it ↔
    MbSends env cfg g it ∧
    (mbWriteWords env cfg ag (g.mbOf it).slice
      (buildPacket (Block.zero _) (g.mbOf it) (g.payloadOf it)) (wordCount (g.mbOf it).pktLen - 1) 0
      (mbReady env cfg g it)).1 = true := by
  rw [(mbWriteWords_fst env cfg _ _ _ _ _).1]
  constructor
  · intro h
    have hs := (mbSends_iff env cfg g it).mpr ⟨h.len, h.slice, h.prime, h.ready⟩
    refine ⟨hs, fun j hj => ?_⟩
    rw [io_mbReady_nIoctl env cfg hs.2.2.1]
    exact h.words j hj
  · rintro ⟨hs, hw⟩
    obtain ⟨hl, hsl, hp, hr⟩ := (mbSends_iff env cfg g it).mp hs
    refine ⟨hl, hsl, hp, hr, fun j hj => ?_⟩
    rw [← io_mbReady_nIoctl env cfg hs.2.2.1]
    exact hw j hj

/-! ### Where the packet counts -/

/-- Two frames of `exec_mailbox` that differ only in their packet buffer. -/
def MbFrame.forget (f : MbFrame) : MbFrame := { f with pkt := Block.zero _ }

/-- Packets whose words are written alike and whose last words agree lead to the same state. -/
lemma execMailboxRequest_congr {g : Daemon} {it : Ptr} {mb : Mb} {pkt pkt' : Block pktSize}
    (hw : mbWriteWords env cfg (.request (g.item it).rid (g.item it).c) mb.slice pkt
        (wordCount mb.pktLen) 0 g =
      mbWriteWords env cfg (.request (g.item it).rid (g.item it).c) mb.slice pkt'
        (wordCount mb.pktLen) 0 g)
    (hl : (mbWriteWords env cfg (.request (g.item it).rid (g.item it).c) mb.slice pkt
        (wordCount mb.pktLen) 0 g).1 = true →
      pktWord pkt (wordCount mb.pktLen - 1) = pktWord pkt' (wordCount mb.pktLen - 1)) :
    Prod.map (Sum.map id MbFrame.forget) id (execMailboxRequest env cfg g it mb pkt) =
      Prod.map (Sum.map id MbFrame.forget) id (execMailboxRequest env cfg g it mb pkt') := by
  unfold execMailboxRequest
  dsimp only
  rw [← hw]
  generalize mbWriteWords env cfg (.request (g.item it).rid (g.item it).c) mb.slice pkt
    (wordCount mb.pktLen) 0 g = w at hl ⊢
  cases hok : w.1 with
  | false => simp only [Bool.not_false, if_true]
  | true =>
    rw [← hl hok]
    simp only [Bool.not_true, Bool.false_eq_true, if_false]
    split_ifs
    · rfl
    · rfl
    · rfl
    · simp only [Prod.map, Sum.map_inr, MbFrame.forget]
    · simp only [Prod.map, Sum.map_inr, MbFrame.forget]

/-- The words that lie inside the packet are written alike, whatever the buffer held. -/
lemma mbWriteWords_buildPacket {mb : Mb} {payload : List UInt8}
    (hl : payload.length = mb.payloadLen.toNat) (hm : mb.payloadLen.toNat ≤ mbMax)
    (p p' : Block pktSize) {k : ℕ} (hk : 4 * k ≤ 6 + mb.payloadLen.toNat) (g : Daemon) :
    mbWriteWords env cfg ag mb.slice (buildPacket p mb payload) k 0 g =
      mbWriteWords env cfg ag mb.slice (buildPacket p' mb payload) k 0 g :=
  mbWriteWords_congr env cfg _ _ _ _ _ fun j hj => pktWord_buildPacket hl hm p p' (by omega)

/-- The number of words of a packet in range. -/
lemma wordCount_pktLen {mb : Mb} (h : mb.payloadLen.toNat ≤ mbMax) :
    wordCount mb.pktLen = (6 + mb.payloadLen.toNat + 3) / 4 := by
  rw [wordCount, Mb.toNat_pktLen h]

/-- When one of the words before the last is not written, the last one is not tried. -/
lemma mbWriteWords_of_not_reached {g : Daemon} {it : Ptr} (hs : MbSends env cfg g it)
    (h : ¬LastWordReached env cfg g it) (p : Block pktSize) :
    mbWriteWords env cfg ag (g.mbOf it).slice (buildPacket p (g.mbOf it) (g.payloadOf it))
        (wordCount (g.mbOf it).pktLen) 0 (mbReady env cfg g it) =
      mbWriteWords env cfg ag (g.mbOf it).slice
        (buildPacket (Block.zero _) (g.mbOf it) (g.payloadOf it)) (wordCount (g.mbOf it).pktLen - 1) 0
        (mbReady env cfg g it) ∧
    (mbWriteWords env cfg ag (g.mbOf it).slice (buildPacket p (g.mbOf it) (g.payloadOf it))
        (wordCount (g.mbOf it).pktLen) 0 (mbReady env cfg g it)).1 = false := by
  have hno : ¬(mbWriteWords env cfg ag (g.mbOf it).slice
      (buildPacket (Block.zero _) (g.mbOf it) (g.payloadOf it)) (wordCount (g.mbOf it).pktLen - 1) 0
        (mbReady env cfg g it)).1 = true := fun hw =>
    h ((lastWordReached_iff env cfg _ g it).mpr ⟨hs, hw⟩)
  have hn := wordCount_pktLen hs.1
  obtain ⟨m, hm⟩ : ∃ m, wordCount (g.mbOf it).pktLen = m + 1 :=
    ⟨wordCount (g.mbOf it).pktLen - 1, by omega⟩
  rw [hm, Nat.add_sub_cancel] at hno ⊢
  rw [mbWriteWords_succ, mbWriteWords_buildPacket env cfg _ (length_payloadOf g it) hs.1 p
    (Block.zero _) (by omega), if_neg hno]
  exact ⟨rfl, Bool.eq_false_of_not_eq_true hno⟩

/-- **When the last word is not reached, or has no byte behind the packet**, the part of the call up
to its wait does not depend on what the buffer held. -/
lemma execMailboxStart_congr {g : Daemon} {it : Ptr}
    (h : (g.mbOf it).payloadLen.toNat % 4 = 2 ∨ ¬LastWordReached env cfg g it)
    (p p' : Block pktSize) :
    Prod.map (Sum.map id MbFrame.forget) id (execMailboxStart (env.withPkt p) cfg g it) =
      Prod.map (Sum.map id MbFrame.forget) id (execMailboxStart (env.withPkt p') cfg g it) := by
  by_cases hs : MbSends env cfg g it
  swap
  · rw [execMailboxStart_of_not_sends env cfg hs p p']
  have hl := length_payloadOf g it
  have hn := wordCount_pktLen hs.1
  rw [execMailboxStart_of_sends env cfg hs, execMailboxStart_of_sends env cfg hs]
  rcases h with h | h
  · exact execMailboxRequest_congr env cfg
      (mbWriteWords_buildPacket env cfg _ hl hs.1 p p' (by omega) _) fun _ =>
        pktWord_buildPacket hl hs.1 p p' (by omega)
  · have hp := mbWriteWords_of_not_reached env cfg
      (.request ((mbReady env cfg g it).item it).rid ((mbReady env cfg g it).item it).c) hs h
    refine execMailboxRequest_congr env cfg ((hp p).1.trans (hp p').1.symm) fun hw => ?_
    exact absurd ((hp p).2.symm.trans hw) (by decide)

/-! ### The writes of the call -/

/-- `g'` is `g` later on. -/
def Later (g g' : Daemon) : Prop := g.evs <+: g'.evs

/-- Later than later. -/
lemma Later.trans {g₁ g₂ g₃ : Daemon} (h : Later g₁ g₂) (h' : Later g₂ g₃) : Later g₁ g₃ :=
  List.IsPrefix.trans h h'

/-- An access comes later. -/
lemma Accessed.later {g g' : Daemon} {a : Access} (h : Accessed g g' a) : Later g g' := by
  obtain ⟨es, he, _⟩ := h
  exact ⟨_, he.2.symm⟩

/-- The writes of a stretch are those of its first part, then those of its second. -/
lemma writesBetween_trans {g₁ g₂ g₃ : Daemon} (h : Later g₁ g₂) (h' : Later g₂ g₃) :
    writesBetween g₁ g₃ = writesBetween g₁ g₂ ++ writesBetween g₂ g₃ := by
  obtain ⟨es, he⟩ := h
  obtain ⟨es', he'⟩ := h'
  unfold writesBetween
  rw [since_eq he.symm, since_eq he'.symm,
    since_eq (show g₃.evs = g₁.evs ++ (es ++ es') by rw [← he', ← he, List.append_assoc]),
    List.filterMap_append]

/-- One access and some notes: what the access writes. -/
lemma Accessed.writesBetween {g g' : Daemon} {a : Access} (h : Accessed g g' a) :
    writesBetween g g' = (Event.access a).written.toList := by
  obtain ⟨es, he, hn⟩ := h
  have hnone : es.filterMap Event.written = [] := by
    refine List.filterMap_eq_nil_iff.mpr fun e hm => ?_
    have hnote := hn e hm
    cases e <;> simp [Event.isNote] at hnote <;> rfl
  unfold Spid.writesBetween
  rw [since_eq he.2, List.filterMap_cons, hnone]
  cases (Event.access a).written <;> rfl

/-- Nothing happens. -/
lemma Later.refl (g : Daemon) : Later g g := List.prefix_rfl

/-- One event. -/
lemma Later.emit (g : Daemon) (e : Event) : Later g (g.emit e) := ⟨[e], rfl⟩

/-- `mb_rd`, -/
lemma Later.mbRd (g : Daemon) (slice : UInt8) (reg : UInt16) (old : UInt32) :
    Later g (mbRd env cfg g ag slice reg old).2.2 := (mbRd_spec env cfg g ag slice reg old).later

/-- `mb_wr`, -/
lemma Later.mbWr (g : Daemon) (slice : UInt8) (reg : UInt16) (val : UInt32) :
    Later g (mbWr env cfg g ag slice reg val).2 := (mbWr_spec env cfg g ag slice reg val).later

/-- and the loop of writes. -/
lemma Later.mbWriteWords (slice : UInt8) (pkt : Block pktSize) (g : Daemon) :
    ∀ k, Later g (mbWriteWords env cfg ag slice pkt k 0 g).2 := by
  intro k
  induction k with
  | zero => exact Later.refl g
  | succ k ih =>
    rw [mbWriteWords_succ]
    split_ifs
    · exact ih.trans (Later.mbWr env cfg _ _ _ _ _)
    · exact ih

/-- What follows the request words. -/
lemma Later.execMailboxRequest (g : Daemon) (it : Ptr) (mb : Mb) (pkt : Block pktSize) :
    Later (Spid.mbWriteWords env cfg (.request (g.item it).rid (g.item it).c) mb.slice pkt
      (wordCount mb.pktLen) 0 g).2 (execMailboxRequest env cfg g it mb pkt).2 := by
  unfold Spid.execMailboxRequest
  dsimp only
  generalize Spid.mbWriteWords env cfg (.request (g.item it).rid (g.item it).c) mb.slice pkt
    (wordCount mb.pktLen) 0 g = w
  have hr := Later.mbRd env cfg (.request (g.item it).rid (g.item it).c) w.2 mb.slice mbMcuMask
    (pktWord pkt (wordCount mb.pktLen - 1))
  generalize Spid.mbRd env cfg w.2 _ mb.slice mbMcuMask _ = r at hr ⊢
  have hm := hr.trans (Later.mbWr env cfg (.request (g.item it).rid (g.item it).c) r.2.2 mb.slice
    mbMcuMask (r.2.1 ||| 1))
  generalize Spid.mbWr env cfg r.2.2 _ mb.slice mbMcuMask _ = m at hm ⊢
  have hd := hm.trans (Later.mbWr env cfg (.request (g.item it).rid (g.item it).c) m.2 mb.slice
    mbFlag mbSetReq)
  generalize Spid.mbWr env cfg m.2 _ mb.slice mbFlag _ = d at hd ⊢
  split_ifs
  · exact Later.emit _ _
  · exact hr.trans (Later.emit _ _)
  · exact hm.trans (Later.emit _ _)
  · exact hd.trans (Later.emit _ _)
  · exact hd
  · exact hd

/-- **When the last word is reached**, it is among the writes: behind the same writes for every content
of the buffer, and with a value that includes the bytes behind the packet.

**Proof sketch.** The start of the call is the same for every content of the buffer, and so are the
writes of all words but the last, which lie within the packet. The last word is then written by one
access; whatever follows comes behind it. -/
lemma requestWrites_of_reached {g : Daemon} {it : Ptr} (h : LastWordReached env cfg g it) :
    ∃ ws, ∀ p, ∃ rest, requestWrites env cfg g it p = ws ++
      ((g.mbOf it).slice, mmdGlobal, mbCmdAddr + UInt16.ofNat (wordCount (g.mbOf it).pktLen - 1),
        pktWord (buildPacket p (g.mbOf it) (g.payloadOf it)) (wordCount (g.mbOf it).pktLen - 1)) ::
      rest := by
  obtain ⟨hs, hw⟩ := (lastWordReached_iff env cfg (.request ((mbReady env cfg g it).item it).rid
    ((mbReady env cfg g it).item it).c) g it).mp h
  have hn := wordCount_pktLen hs.1
  obtain ⟨m, hm⟩ : ∃ m, wordCount (g.mbOf it).pktLen = m + 1 :=
    ⟨wordCount (g.mbOf it).pktLen - 1, by omega⟩
  rw [hm, Nat.add_sub_cancel] at hw
  rw [hm, Nat.add_sub_cancel]
  have hstart : Later g (mbReady env cfg g it) := by
    have hf := Later.mbRd env cfg (.request (g.item it).rid (g.item it).c)
      { g with io := { g.io with nPkt := g.io.nPkt + 1 } } (g.mbOf it).slice mbFlag 0
    exact hf.trans (Later.emit _ _)
  refine ⟨writesBetween g (mbWriteWords env cfg (.request ((mbReady env cfg g it).item it).rid
    ((mbReady env cfg g it).item it).c) (g.mbOf it).slice (buildPacket (Block.zero _) (g.mbOf it)
      (g.payloadOf it)) m 0 (mbReady env cfg g it)).2, fun p => ?_⟩
  have htail := Later.execMailboxRequest env cfg (mbReady env cfg g it) it (g.mbOf it)
    (buildPacket p (g.mbOf it) (g.payloadOf it))
  have hwords := Later.mbWriteWords env cfg (.request ((mbReady env cfg g it).item it).rid
    ((mbReady env cfg g it).item it).c) (g.mbOf it).slice (buildPacket (Block.zero _) (g.mbOf it)
      (g.payloadOf it)) (mbReady env cfg g it) m
  rw [hm, mbWriteWords_succ, mbWriteWords_buildPacket env cfg _ (length_payloadOf g it) hs.1 p
    (Block.zero _) (by omega), if_pos hw, Nat.zero_add] at htail
  unfold requestWrites
  rw [execMailboxStart_of_sends env cfg hs]
  generalize mbWriteWords env cfg _ _ _ m 0 (mbReady env cfg g it) = w at htail hwords ⊢
  have hlast := mbWr_spec env cfg w.2 (.request ((mbReady env cfg g it).item it).rid
    ((mbReady env cfg g it).item it).c) (g.mbOf it).slice (mbCmdAddr + UInt16.ofNat m)
    (pktWord (buildPacket p (g.mbOf it) (g.payloadOf it)) m)
  rw [writesBetween_trans (hstart.trans hwords) (hlast.later.trans htail),
    writesBetween_trans hlast.later htail, hlast.writesBetween]
  exact ⟨_, rfl⟩

/-- A buffer full of `0xff`. -/
def pktOnes : Block pktSize := fun _ => 0xff

/-- **Bytes behind the packet reach the device**: with two contents of the buffer the call writes two
different words. -/
lemma requestWrites_ne {g : Daemon} {it : Ptr} (h : LastWordReached env cfg g it)
    (hmod : (g.mbOf it).payloadLen.toNat % 4 ≠ 2) :
    requestWrites env cfg g it (Block.zero _) ≠ requestWrites env cfg g it pktOnes := by
  intro heq
  obtain ⟨ws, hws⟩ := requestWrites_of_reached env cfg h
  obtain ⟨r₁, h₁⟩ := hws (Block.zero _)
  obtain ⟨r₂, h₂⟩ := hws pktOnes
  rw [h₁, h₂, List.append_cancel_left_eq, List.cons.injEq, Prod.mk.injEq, Prod.mk.injEq,
    Prod.mk.injEq] at heq
  have hn := wordCount_pktLen h.len
  have hmax : (g.mbOf it).payloadLen.toNat ≤ 1018 := h.len
  have hget := get_of_pktWord_eq heq.1.2.2.2
  rw [get_buildPacket_of_le (length_payloadOf g it) _ (by omega),
    get_buildPacket_of_le (length_payloadOf g it) _ (by omega)] at hget
  have hlt : 4 * (wordCount (g.mbOf it).pktLen - 1) + 3 < pktSize := by
    have hsz : pktSize = 1027 := rfl
    omega
  simp [Block.get, Block.zero, pktOnes, hlt] at hget

/-! ### The wait and the response -/

/-- Response words are stored behind one another, so what they cover does not depend on what the
buffer held. -/
lemma mbReadWords_congr (slice : UInt8) : ∀ (k i : ℕ) (p p' : Block pktSize) (v : UInt32) (g : Daemon),
    p.read 0 (4 * i) = p'.read 0 (4 * i) →
    (mbReadWords env cfg ag slice k i p v g).2 = (mbReadWords env cfg ag slice k i p' v g).2 ∧
    (mbReadWords env cfg ag slice k i p v g).1.map (·.read 0 (4 * (i + k))) =
      (mbReadWords env cfg ag slice k i p' v g).1.map (·.read 0 (4 * (i + k))) := by
  intro k
  induction k with
  | zero =>
    intro i p p' v g h
    exact ⟨rfl, by simp only [mbReadWords, Option.map_some, Nat.add_zero, h]⟩
  | succ k ih =>
    intro i p p' v g h
    simp only [mbReadWords]
    split_ifs
    · rw [show i + (k + 1) = i + 1 + k by omega]
      refine ih (i + 1) _ _ _ _ ?_
      exact Block.read_write_append h (le32 _)
    · exact ⟨rfl, rfl⟩

/-- The decoded response depends on the bytes that its length covers. -/
lemma mbDecode_congr {p p' : Block pktSize} {len : UInt16} {m : ℕ} (hlen : 6 ≤ len.toNat)
    (hm : len.toNat ≤ m) (h : p.read 0 m = p'.read 0 m) : mbDecode p len = mbDecode p' len := by
  have hH : mbHdrLen = 4 := rfl
  have hC : mbCrcLen = 2 := rfl
  have hcrc : p.read 0 (len.toNat - mbCrcLen) = p'.read 0 (len.toNat - mbCrcLen) :=
    Block.read_eq_of_read_eq h (by omega)
  have hbody : p.read mbHdrLen (len.toNat - mbHdrLen - mbCrcLen) =
      p'.read mbHdrLen (len.toNat - mbHdrLen - mbCrcLen) := Block.read_eq_of_read_eq h (by omega)
  unfold mbDecode
  dsimp only
  rw [Block.get_eq_of_read_eq h (j := len.toNat - 2) (by omega),
    Block.get_eq_of_read_eq h (j := len.toNat - 1) (by omega), hcrc, hbody]

/-- **The response** does not depend on what the buffer held.

**Proof sketch.** The first word of the buffer is overwritten, and the words read behind it cover
the length that the response claims; the decoding and the command byte look at these bytes only. -/
lemma execMailboxFinish_congr (g : Daemon) (f : MbFrame) (v : UInt32) (p p' : Block pktSize) :
    execMailboxFinish env cfg g { f with pkt := p } v =
      execMailboxFinish env cfg g { f with pkt := p' } v := by
  unfold execMailboxFinish
  dsimp only
  generalize mbRd env cfg g _ _ mbRespAddr v = r
  generalize hlen : (r.2.1 >>> 16).toUInt16 = len
  split_ifs with h₁ h₂
  · rfl
  · rfl
  · have hH : mbHdrLen = 4 := rfl
    have hC : mbCrcLen = 2 := rfl
    have hw := mbReadWords_congr env cfg
      (.request (g.item f.it).rid (g.item f.it).c)
      (Mb.decode ((g.item f.it).body.read 0 mbSize)).slice (wordCount len - 1) 1
      (p.write 0 (le32 r.2.1)) (p'.write 0 (le32 r.2.1)) r.2.1 r.2.2
      (Block.read_write_append rfl (le32 r.2.1))
    generalize mbReadWords env cfg _ _ (wordCount len - 1) 1 (p.write 0 (le32 r.2.1)) r.2.1 r.2.2 = w
      at hw ⊢
    generalize mbReadWords env cfg _ _ (wordCount len - 1) 1 (p'.write 0 (le32 r.2.1)) r.2.1 r.2.2 = w'
      at hw ⊢
    obtain ⟨o, g₁⟩ := w
    obtain ⟨o', g₁'⟩ := w'
    obtain ⟨rfl, ho⟩ := hw
    cases o with
    | none =>
      cases o' with
      | none => rfl
      | some q' => exact absurd ho (by simp)
    | some q =>
      cases o' with
      | none => exact absurd ho (by simp)
      | some q' =>
        have hq : q.read 0 (4 * (1 + (wordCount len - 1))) = q'.read 0 (4 * (1 + (wordCount len - 1))) := by
          simpa using ho
        have hcov : len.toNat ≤ 4 * (1 + (wordCount len - 1)) := by
          unfold wordCount
          omega
        dsimp only
        rw [mbDecode_congr (by omega) hcov hq, Block.get_eq_of_read_eq hq (j := 0) (by omega)]

/-- **A round of the wait loop** does not depend on what the buffer held. -/
lemma execMailboxPoll_congr (g : Daemon) (f : MbFrame) (p p' : Block pktSize) :
    Prod.map (Sum.map id MbFrame.forget) id (execMailboxPoll env cfg g { f with pkt := p }) =
      Prod.map (Sum.map id MbFrame.forget) id (execMailboxPoll env cfg g { f with pkt := p' }) := by
  unfold execMailboxPoll
  dsimp only
  generalize mbRd env cfg g _ _ mbFlag f.v = r
  split_ifs
  · rfl
  · rw [execMailboxFinish_congr env cfg r.2.2 f r.2.1 p p']
  · rfl
  · rfl

/-- **What the request words depend on.** Take two executions of `exec_mailbox` on the same request,
with the same answers of the device, whose packet buffers held `p` and `p'` before.

* Up to the wait they write the same words for all `p` and `p'` exactly if the length of the payload is
  2 modulo 4, so that the packet fills its last word, or the call never comes to write that word.
* In these cases they agree in everything, up to the buffer itself.
* A round of the wait loop agrees in everything, up to the buffer, in any case; so nothing that is
  written after the last word depends on `p`. -/
theorem mailbox_words_determined (g : Daemon) (it : Ptr) :
    ((∀ p p', requestWrites env cfg g it p = requestWrites env cfg g it p') ↔
      (g.mbOf it).payloadLen.toNat % 4 = 2 ∨ ¬LastWordReached env cfg g it) ∧
    ((g.mbOf it).payloadLen.toNat % 4 = 2 ∨ ¬LastWordReached env cfg g it → ∀ p p',
      Prod.map (Sum.map id MbFrame.forget) id (execMailboxStart (env.withPkt p) cfg g it) =
        Prod.map (Sum.map id MbFrame.forget) id (execMailboxStart (env.withPkt p') cfg g it)) ∧
    ∀ (f : MbFrame) (p p' : Block pktSize),
      Prod.map (Sum.map id MbFrame.forget) id (execMailboxPoll env cfg g { f with pkt := p }) =
        Prod.map (Sum.map id MbFrame.forget) id (execMailboxPoll env cfg g { f with pkt := p' }) := by
  refine ⟨⟨fun h => ?_, fun h p p' => ?_⟩, execMailboxStart_congr env cfg,
    execMailboxPoll_congr env cfg g⟩
  · by_contra hno
    rw [not_or, not_not] at hno
    exact requestWrites_ne env cfg hno.2 hno.1 (h _ _)
  · have hstate := congrArg Prod.snd (execMailboxStart_congr env cfg h p p')
    unfold requestWrites
    rw [show (execMailboxStart (env.withPkt p) cfg g it).2 =
      (execMailboxStart (env.withPkt p') cfg g it).2 from hstate]

end

/-- Client 0 sends a `MAILBOX` with an empty payload, to a device that is not busy; the packet buffer
held `p`. -/
def emptyMailbox (p : Block pktSize) : Daemon :=
  run ((Env.still 0).withPkt p) Config.plain
    (connects [(7, ['a'])] ++
      [⟨[.client 0 (datagram .mailbox 0 1 [0, 5, 0, 0, 0, 0, 0, 0])], 64⟩, .none])

/-- The six bytes of its packet leave two bytes of the second request word to the stack: the device is
sent `0x00005d40` or `0xffff5d40`. -/
theorem mailbox_sends_residue :
    (emptyMailbox (Block.zero _)).evs.filterMap Event.written =
      [(0, 0x1e, 0xd800, 0x0006ff05), (0, 0x1e, 0xd801, 0x00005d40), (0, 0x1e, 0xda01, 1),
        (0, 0x1e, 0xda00, 0x00010000)] ∧
    (emptyMailbox pktOnes).evs.filterMap Event.written =
      [(0, 0x1e, 0xd800, 0x0006ff05), (0, 0x1e, 0xd801, 0xffff5d40), (0, 0x1e, 0xda01, 1),
        (0, 0x1e, 0xda00, 0x00010000)] := by
  constructor
  · decide +kernel
  · decide +kernel

end Spid

import Mathlib.Data.List.Basic
import SpidevProxy.Lib.Bytes

set_option relaxedAutoImplicit false
set_option autoImplicit false

/-!
# The wire protocol (`spiproxy.h`)

The message types, the status codes and the structures that the daemon and its clients exchange,
with their layout in bytes. The layout is that of the C structures on a little-endian machine;
none of them has padding.

## Main definitions

* `Spid.MsgType`, `Spid.Status` — `enum spiproxy_type`, `enum spiproxy_status`.
* `Spid.Hdr`, `Spid.Op`, `Spid.ClaimReq`, `Spid.Mb`, `Spid.ResetReq` — `struct spiproxy_hdr`,
  `spiproxy_op`, `spiproxy_claim`, `spiproxy_mb` and `spiproxy_reset`, each with its `decode`.

## Main results

* `Spid.Op.decode_encode`, `Spid.Op.encode_decode` — the layout of a register operation loses
  nothing; `Spid.Hdr.decode_encode` — nor does that of a header.
-/

namespace Spid

open Bytes

/-! ## Constants -/

-- named, so that a literal of these types holds no proof of its own

/-- There are three queues. -/
instance neZeroQueues : NeZero 3 := ⟨by decide⟩

/-- `MAX_CLIENTS` is positive. -/
instance neZeroClients : NeZero 16 := ⟨by decide⟩

/-- `MAX_QITEMS` is positive. -/
instance neZeroItems : NeZero 256 := ⟨by decide⟩

/-- `SPIPROXY_VER`. -/
def spiproxyVer : UInt8 := 1

/-- `SPIPROXY_BATCH_MAX`. -/
def batchMax : ℕ := 64

/-- `SPIPROXY_MB_MAX`: the longest mailbox payload. -/
def mbMax : ℕ := 1018

/-- `SPIPROXY_MSG_MAX`: the longest message body. -/
def msgMax : ℕ := 4096

/-- `SPIPROXY_RESP`: the bit that marks a response. -/
def respBit : UInt8 := 0x80

/-- `sizeof(struct spiproxy_hdr)`. -/
def hdrSize : ℕ := 12

/-- `sizeof(struct spiproxy_op)`. -/
def opSize : ℕ := 12

/-- `sizeof(struct spiproxy_claim)`. -/
def claimSize : ℕ := 8

/-- `sizeof(struct spiproxy_mb)`. -/
def mbSize : ℕ := 8

/-- `sizeof(struct spiproxy_reset)`. -/
def resetSize : ℕ := 8

/-! ## Message types and status codes -/

/-- `enum spiproxy_type`. -/
inductive MsgType
  | read
  | write
  | batch
  | claim
  | release
  | mailbox
  | stats
  | trace
  | tsfifoSub
  | berWindow
  | dfu
  | reset
  deriving DecidableEq, Repr

/-- The number of a message type on the wire. -/
def MsgType.code : MsgType → UInt8
  | .read => 1
  | .write => 2
  | .batch => 3
  | .claim => 4
  | .release => 5
  | .mailbox => 6
  | .stats => 7
  | .trace => 8
  | .tsfifoSub => 9
  | .berWindow => 10
  | .dfu => 11
  | .reset => 12

/-- The message type with a given number; `none` for a number outside the enumeration. -/
def MsgType.ofCode (t : UInt8) : Option MsgType :=
  [MsgType.read, .write, .batch, .claim, .release, .mailbox, .stats, .trace, .tsfifoSub,
    .berWindow, .dfu, .reset].find? fun ty => ty.code == t

/-- A number names a message type exactly when it is that type's number. -/
lemma MsgType.ofCode_eq_some {t : UInt8} {ty : MsgType} : ofCode t = some ty ↔ t = ty.code := by
  constructor
  · intro h
    have h' := List.find?_some h
    simp only [beq_iff_eq] at h'
    exact h'.symm
  · rintro rfl
    cases ty <;> decide

/-- `enum spiproxy_status`. -/
inductive Status
  | ok
  | einval
  | eio
  | ebusy
  | etimedout
  | enosys
  | ecrc
  deriving DecidableEq, Repr

/-- The number of a status on the wire. -/
def Status.code : Status → UInt16
  | .ok => 0
  | .einval => 1
  | .eio => 2
  | .ebusy => 3
  | .etimedout => 4
  | .enosys => 5
  | .ecrc => 6

/-! ## Structures -/

/-- `struct spiproxy_hdr`. -/
structure Hdr where
  ver : UInt8
  type : UInt8
  flags : UInt16
  seq : UInt32
  len : UInt32
  deriving DecidableEq, Repr

/-- The header laid out in the first twelve bytes. -/
def Hdr.decode (l : List UInt8) : Hdr where
  ver := l.getD 0 0
  type := l.getD 1 0
  flags := ofLe16 (l.drop 2)
  seq := ofLe32 (l.drop 4)
  len := ofLe32 (l.drop 8)

/-- The bytes of a header. -/
def Hdr.encode (h : Hdr) : List UInt8 :=
  [h.ver, h.type] ++ le16 h.flags ++ le32 h.seq ++ le32 h.len

/-- The size of a header. -/
@[simp] lemma Hdr.length_encode (h : Hdr) : h.encode.length = hdrSize := rfl

/-- A header is read back from its bytes, whatever follows them. -/
lemma Hdr.decode_encode (h : Hdr) (l : List UInt8) : decode (h.encode ++ l) = h := by
  obtain ⟨v, t, f, s, n⟩ := h
  have h₁ : ofLe16 ((encode ⟨v, t, f, s, n⟩ ++ l).drop 2) = f := ofLe16_le16 f (le32 s ++ le32 n ++ l)
  have h₂ : ofLe32 ((encode ⟨v, t, f, s, n⟩ ++ l).drop 4) = s := ofLe32_le32 s (le32 n ++ l)
  have h₃ : ofLe32 ((encode ⟨v, t, f, s, n⟩ ++ l).drop 8) = n := ofLe32_le32 n l
  simp only [decode, h₁, h₂, h₃]
  rfl

/-- The header is read from the first twelve bytes. -/
lemma Hdr.decode_take (l : List UInt8) {k : ℕ} (hk : hdrSize ≤ k) : decode (l.take k) = decode l := by
  have hget : ∀ i, i < hdrSize → (l.take k).getD i 0 = l.getD i 0 := by
    intro i hi
    simp only [List.getD_eq_getElem?_getD, List.getElem?_take]
    rw [if_pos (by omega)]
  have hdrop : ∀ i j, i + j < hdrSize → ((l.take k).drop i).getD j 0 = (l.drop i).getD j 0 := by
    intro i j hij
    have h := hget (i + j) hij
    simpa only [List.getD_eq_getElem?_getD, List.getElem?_drop] using h
  simp only [decode, ofLe16, ofLe32, hget _ (show 0 < hdrSize by decide),
    hget _ (show 1 < hdrSize by decide), hdrop 2 0 (by decide), hdrop 2 1 (by decide),
    hdrop 4 0 (by decide), hdrop 4 1 (by decide), hdrop 4 2 (by decide), hdrop 4 3 (by decide),
    hdrop 8 0 (by decide), hdrop 8 1 (by decide), hdrop 8 2 (by decide), hdrop 8 3 (by decide)]

/-- The datagram of a request: its header, with the length of its body, and its body. -/
def datagram (type : MsgType) (flags : UInt16) (seq : UInt32) (body : List UInt8) : List UInt8 :=
  Hdr.encode ⟨spiproxyVer, type.code, flags, seq, UInt32.ofNat body.length⟩ ++ body

/-- The priority class of a request, the index of its queue: `0` for `PRIO_HIGH`, `2` for
`PRIO_LOW`, `1` for `PRIO_NORMAL` and for the unused value `3`. -/
def Hdr.prio (h : Hdr) : Fin 3 :=
  if h.flags &&& 3 = 1 then 0 else if h.flags &&& 3 = 2 then 2 else 1

/-- `struct spiproxy_op`: one register access. -/
structure Op where
  slice : UInt8
  write : UInt8
  mmd : UInt8
  rsvd : UInt8
  reg : UInt16
  rsvd2 : UInt16
  val : UInt32
  deriving DecidableEq, Repr

/-- The operation laid out in the first twelve bytes. -/
def Op.decode (l : List UInt8) : Op where
  slice := l.getD 0 0
  write := l.getD 1 0
  mmd := l.getD 2 0
  rsvd := l.getD 3 0
  reg := ofLe16 (l.drop 4)
  rsvd2 := ofLe16 (l.drop 6)
  val := ofLe32 (l.drop 8)

/-- The bytes of an operation. -/
def Op.encode (op : Op) : List UInt8 :=
  [op.slice, op.write, op.mmd, op.rsvd] ++ le16 op.reg ++ le16 op.rsvd2 ++ le32 op.val

/-- The size of an operation. -/
@[simp] lemma Op.length_encode (op : Op) : op.encode.length = opSize := rfl

/-- An operation is read back from its bytes, whatever follows them. -/
lemma Op.decode_encode (op : Op) (l : List UInt8) : decode (op.encode ++ l) = op := by
  obtain ⟨s, w, mm, r, rg, r2, v⟩ := op
  have h₁ : ofLe16 ((encode ⟨s, w, mm, r, rg, r2, v⟩ ++ l).drop 4) = rg :=
    ofLe16_le16 rg (le16 r2 ++ le32 v ++ l)
  have h₂ : ofLe16 ((encode ⟨s, w, mm, r, rg, r2, v⟩ ++ l).drop 6) = r2 :=
    ofLe16_le16 r2 (le32 v ++ l)
  have h₃ : ofLe32 ((encode ⟨s, w, mm, r, rg, r2, v⟩ ++ l).drop 8) = v := ofLe32_le32 v l
  simp only [decode, h₁, h₂, h₃]
  rfl

/-- Writing back an operation that was read restores its twelve bytes. -/
lemma Op.encode_decode (l : List UInt8) (h : opSize ≤ l.length) :
    (decode l).encode = l.take opSize := by
  obtain ⟨b0, l, rfl⟩ := List.exists_cons_of_length_pos (show 0 < l.length by simp [opSize] at h; omega)
  match l, h with
  | b1 :: b2 :: b3 :: b4 :: b5 :: b6 :: b7 :: b8 :: b9 :: b10 :: b11 :: l, _ =>
    have h₁ : le16 (ofLe16 (b4 :: b5 :: b6 :: b7 :: b8 :: b9 :: b10 :: b11 :: l)) = [b4, b5] :=
      le16_ofLe16 ..
    have h₂ : le16 (ofLe16 (b6 :: b7 :: b8 :: b9 :: b10 :: b11 :: l)) = [b6, b7] :=
      le16_ofLe16 ..
    have h₃ : le32 (ofLe32 (b8 :: b9 :: b10 :: b11 :: l)) = [b8, b9, b10, b11] :=
      le32_ofLe32 ..
    simp [encode, decode, opSize, h₁, h₂, h₃]

/-- `struct spiproxy_claim`: the fixed part of a `CLAIM` body. -/
structure ClaimReq where
  maxMs : UInt32
  ncleanup : UInt16
  rsvd : UInt16
  deriving DecidableEq, Repr

/-- The claim structure laid out in the first eight bytes. -/
def ClaimReq.decode (l : List UInt8) : ClaimReq where
  maxMs := ofLe32 l
  ncleanup := ofLe16 (l.drop 4)
  rsvd := ofLe16 (l.drop 6)

/-- The bytes of a claim structure. -/
def ClaimReq.encode (cl : ClaimReq) : List UInt8 := le32 cl.maxMs ++ le16 cl.ncleanup ++ le16 cl.rsvd

/-- The size of a claim request. -/
@[simp] lemma ClaimReq.length_encode (cl : ClaimReq) : cl.encode.length = claimSize := rfl

/-- A claim structure is read back from its bytes, whatever follows them. -/
lemma ClaimReq.decode_encode (cl : ClaimReq) (l : List UInt8) : decode (cl.encode ++ l) = cl := by
  obtain ⟨m, n, r⟩ := cl
  have h₁ : ofLe32 (encode ⟨m, n, r⟩ ++ l) = m := ofLe32_le32 m (le16 n ++ le16 r ++ l)
  have h₂ : ofLe16 ((encode ⟨m, n, r⟩ ++ l).drop 4) = n := ofLe16_le16 n (le16 r ++ l)
  have h₃ : ofLe16 ((encode ⟨m, n, r⟩ ++ l).drop 6) = r := ofLe16_le16 r l
  simp only [decode, h₁, h₂, h₃]

/-- `struct spiproxy_mb`: the fixed part of a `MAILBOX` body. -/
structure Mb where
  slice : UInt8
  cmd : UInt8
  payloadLen : UInt16
  timeoutMs : UInt32
  deriving DecidableEq, Repr

/-- The mailbox structure laid out in the first eight bytes. -/
def Mb.decode (l : List UInt8) : Mb where
  slice := l.getD 0 0
  cmd := l.getD 1 0
  payloadLen := ofLe16 (l.drop 2)
  timeoutMs := ofLe32 (l.drop 4)

/-- The bytes of a mailbox structure. -/
def Mb.encode (mb : Mb) : List UInt8 :=
  [mb.slice, mb.cmd] ++ le16 mb.payloadLen ++ le32 mb.timeoutMs

/-- The size of a mailbox request. -/
@[simp] lemma Mb.length_encode (mb : Mb) : mb.encode.length = mbSize := rfl

/-- A mailbox structure is read back from its bytes, whatever follows them. -/
lemma Mb.decode_encode (mb : Mb) (l : List UInt8) : decode (mb.encode ++ l) = mb := by
  obtain ⟨s, c, n, t⟩ := mb
  have h₁ : ofLe16 ((encode ⟨s, c, n, t⟩ ++ l).drop 2) = n := ofLe16_le16 n (le32 t ++ l)
  have h₂ : ofLe32 ((encode ⟨s, c, n, t⟩ ++ l).drop 4) = t := ofLe32_le32 t l
  simp only [decode, h₁, h₂]
  rfl

/-- Writing back a mailbox structure that was read restores its eight bytes. -/
lemma Mb.encode_decode (l : List UInt8) (h : mbSize ≤ l.length) :
    (decode l).encode = l.take mbSize := by
  match l, h with
  | b0 :: b1 :: b2 :: b3 :: b4 :: b5 :: b6 :: b7 :: l, _ =>
    have h₁ : le16 (ofLe16 (b2 :: b3 :: b4 :: b5 :: b6 :: b7 :: l)) = [b2, b3] := le16_ofLe16 ..
    have h₂ : le32 (ofLe32 (b4 :: b5 :: b6 :: b7 :: l)) = [b4, b5, b6, b7] := le32_ofLe32 ..
    simp [encode, decode, mbSize, h₁, h₂]

/-- `struct spiproxy_reset`. -/
structure ResetReq where
  assertUs : UInt32
  deassertUs : UInt32
  deriving DecidableEq, Repr

/-- The reset structure laid out in the first eight bytes. -/
def ResetReq.decode (l : List UInt8) : ResetReq where
  assertUs := ofLe32 l
  deassertUs := ofLe32 (l.drop 4)

/-- The bytes of a reset structure. -/
def ResetReq.encode (rq : ResetReq) : List UInt8 := le32 rq.assertUs ++ le32 rq.deassertUs

/-- The size of a reset request. -/
@[simp] lemma ResetReq.length_encode (rq : ResetReq) : rq.encode.length = resetSize := rfl

end Spid

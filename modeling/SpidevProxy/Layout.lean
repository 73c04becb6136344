import SpidevProxy.View

set_option relaxedAutoImplicit false
set_option autoImplicit false

/-!
# Bodies and packets in memory

The daemon works in place: it decodes and overwrites the body of a queue item, and it builds and
receives mailbox packets in a local buffer. The lemmas here say what these blocks of memory hold in
terms of the request as it was received.

## Main definitions

* `Spid.Laid` — a block holds a list of register operations.

## Main results

* `Spid.laid_opsFrom`, `Spid.Laid.write` — the operations of a request are in its body, and stay
  there but for the one that is overwritten.
* `Spid.claimValid_eq`, `Spid.mailboxValid_eq`, `Spid.claimOps_eq` — the checks on the item are
  those on the request.
* `Spid.read_buildPacket`, `Spid.mbDecode_eq` — the packet that is sent, the response that is
  decoded.
-/

namespace Spid

open Bytes

/-! ## Requests in items -/

section

variable {g : Daemon} {it : Ptr}

/-- The first bytes of a request are those of its item. -/
lemma take_req_body {k : ℕ} (hk : k ≤ (g.item it).hdr.len.toNat) :
    (g.req it).body.take k = (g.item it).body.read 0 k :=
  Block.take_read _ _ _ _ hk

/-- Bytes in the middle of a request are those of its item. -/
lemma drop_take_req_body {off k : ℕ} (hk : off + k ≤ (g.item it).hdr.len.toNat) :
    ((g.req it).body.drop off).take k = (g.item it).body.read off k := by
  change (((g.item it).body.read 0 _).drop off).take k = _
  rw [Block.drop_read _ _ _ _ (by omega), Block.take_read _ _ _ _ (by omega), Nat.zero_add]

/-- The mailbox structure of a request is the one in its item. -/
lemma req_mb (h : mbSize ≤ (g.item it).hdr.len.toNat) :
    (g.req it).mb = Mb.decode ((g.item it).body.read 0 mbSize) := by
  rw [Req.mb, take_req_body h]

/-- The length check of `CLAIM` on the item. -/
lemma claimValid_eq (hk : (g.req it).kind = some .claim) :
    claimValid (g.item it).hdr (g.item it).body = (g.req it).sized := by
  have hlen : (g.req it).len = (g.item it).hdr.len.toNat := rfl
  by_cases h : claimSize ≤ (g.item it).hdr.len.toNat
  · simp only [claimValid, Req.sized, hk, Req.claimReq, take_req_body h, hlen]
  · simp [claimValid, Req.sized, hk, hlen, h]

/-- The length check of `MAILBOX` on the item. -/
lemma mailboxValid_eq (hk : (g.req it).kind = some .mailbox) :
    mailboxValid (g.item it).hdr (g.item it).body = (g.req it).sized := by
  have hlen : (g.req it).len = (g.item it).hdr.len.toNat := rfl
  by_cases h : mbSize ≤ (g.item it).hdr.len.toNat
  · simp only [mailboxValid, Req.sized, hk, req_mb h, hlen]
  · have h₁ : ∀ k, (g.item it).hdr.len.toNat ≠ mbSize + k := fun k => by omega
    simp [mailboxValid, Req.sized, hk, hlen, h₁]

/-- The operations of a request are decoded from its item. -/
lemma opsFrom_eq {off n : ℕ} (h : off + opSize * n ≤ (g.item it).hdr.len.toNat) :
    (g.req it).opsFrom off n = (List.range n).map (opAt (g.item it).body off) := by
  apply List.map_congr_left
  intro i hi
  have hin : i < n := List.mem_range.mp hi
  have hle : opSize * i + opSize ≤ opSize * n := by
    rw [← Nat.mul_succ]
    exact Nat.mul_le_mul_left _ hin
  rw [drop_take_req_body (by omega)]
  rfl

/-- The cleanup list of a `CLAIM` is decoded from its item. -/
lemma claimOps_eq (hk : (g.req it).kind = some .claim) (hs : (g.req it).sized = true) :
    claimOps (g.item it).body = (g.req it).cleanup := by
  have hlen : (g.req it).len = (g.item it).hdr.len.toNat := rfl
  simp only [Req.sized, hk, Bool.and_eq_true, decide_eq_true_eq, hlen] at hs
  obtain ⟨⟨h₁, -⟩, h₂⟩ := hs
  rw [Req.cleanup, opsFrom_eq (by rw [Nat.mul_comm opSize]; exact h₂.ge), claimOps, Req.claimReq,
    take_req_body h₁]

end

/-! ## Register operations in a body -/

/-- The block starts with the operations `l`. -/
def Laid (b : Block msgMax) (l : List Op) : Prop :=
  ∀ i op, l[i]? = some op → b.read (opSize * i) opSize = op.encode

namespace Laid

variable {b : Block msgMax} {l : List Op}

/-- Operation `i` is read back. -/
lemma opAt_eq (h : Laid b l) {i : ℕ} {op : Op} (hi : l[i]? = some op) : opAt b 0 i = op := by
  rw [opAt, Nat.zero_add, h i op hi]
  simpa using op.decode_encode []

/-- Overwriting operation `i` leaves the others. -/
lemma write (h : Laid b l) {i : ℕ} {op : Op} (hi : i < l.length)
    (hfit : opSize * l.length ≤ msgMax) : Laid (b.write (opSize * i) op.encode) (l.set i op) := by
  intro j op' hj
  have hlen := op.length_encode
  by_cases hij : i = j
  · subst hij
    have hop : op = op' := by simpa [List.getElem?_set, hi] using hj
    subst hop
    have hle : opSize * i + opSize ≤ opSize * l.length := by
      rw [← Nat.mul_succ]
      exact Nat.mul_le_mul_left _ hi
    have hrw := b.read_write_self (opSize * i) op.encode (by omega)
    rwa [hlen] at hrw
  · rw [Block.read_write_of_disjoint _ _ _ _ _ (by rw [hlen]; simp only [opSize]; omega)]
    exact h j op' (by rwa [List.getElem?_set_ne hij] at hj)

/-- The bytes of all the operations. -/
lemma read_eq : ∀ {l : List Op}, Laid b l →
    b.read 0 (opSize * l.length) = l.flatMap Op.encode := by
  intro l
  induction l using List.reverseRecOn with
  | nil => intro _; simp [Block.read]
  | append_singleton l op ih =>
    intro h
    have hl : Laid b l := fun i op' hi => h i op' (by
      rw [List.getElem?_append_left (List.getElem?_eq_some_iff.mp hi).1]
      exact hi)
    have hop := h l.length op (by simp)
    rw [List.length_append, List.length_singleton, Nat.mul_succ, Block.read_add, ih hl,
      Nat.zero_add, hop]
    simp

end Laid

/-- The operations of a request are laid out in its item. -/
lemma laid_opsFrom {g : Daemon} {it : Ptr} {n : ℕ} (h : opSize * n ≤ (g.item it).hdr.len.toNat) :
    Laid (g.item it).body ((g.req it).opsFrom 0 n) := by
  intro i op hi
  rw [opsFrom_eq (by omega)] at hi
  obtain ⟨_, rfl⟩ := List.getElem?_eq_some_iff.mp hi
  rw [List.getElem_map, List.getElem_range, opAt, Nat.zero_add, Op.encode_decode _ (by simp), List.take_of_length_le (by simp)]

/-- Setting the type of a single operation in the body, as `READ` and `WRITE` do. -/
lemma Laid.setWrite {b : Block msgMax} {l : List Op} (h : Laid b l) (hl : l.length = 1)
    (write : UInt8) : Laid (b.write 1 [write]) (l.map fun op => { op with write := write }) := by
  obtain ⟨op, rfl⟩ := List.length_eq_one_iff.mp hl
  intro i op' hi
  obtain ⟨rfl, rfl⟩ : i = 0 ∧ { op with write := write } = op' := by
    cases i <;> simp_all
  have hop := h 0 op rfl
  rw [Nat.mul_zero] at hop ⊢
  rw [Block.read_write_of_subset _ _ _ _ _ (by omega) (by simp [opSize]) (by simp [msgMax]), hop]
  rfl

/-- The mailbox structure at the start of a body. -/
lemma read_mb (b : Block msgMax) : b.read 0 mbSize = (Mb.decode (b.read 0 mbSize)).encode := by
  rw [Mb.encode_decode _ (by simp), List.take_of_length_le (by simp)]

/-- Setting the payload length of a mailbox structure in place. -/
lemma read_setPayloadLen {b : Block msgMax} {mb : Mb} (h : b.read 0 mbSize = mb.encode)
    (n : UInt16) :
    (b.write 2 (le16 n)).read 0 mbSize = { mb with payloadLen := n }.encode := by
  rw [Block.read_write_of_subset _ _ _ _ _ (by omega) (by simp [mbSize]) (by simp [msgMax]), h]
  rfl

/-- Setting the command of a mailbox structure in place. -/
lemma read_setCmd {b : Block msgMax} {mb : Mb} (h : b.read 0 mbSize = mb.encode) (cmd : UInt8) :
    (b.write 1 [cmd]).read 0 mbSize = { mb with cmd := cmd }.encode := by
  rw [Block.read_write_of_subset _ _ _ _ _ (by omega) (by simp [mbSize]) (by simp [msgMax]), h]
  rfl

/-! ## Mailbox packets -/

/-- A word of a packet is four bytes of its buffer. -/
lemma le32_pktWord (pkt : Block pktSize) (i : ℕ) : le32 (pktWord pkt i) = pkt.read (4 * i) 4 := by
  rw [pktWord, ← ofLe32_cons _ _ _ _ [], le32_ofLe32]
  rfl

/-- The bytes of the packet that `exec_mailbox` builds. -/
lemma read_buildPacket (pkt : Block pktSize) (mb : Mb) (payload : List UInt8)
    (hlen : payload.length = mb.payloadLen.toNat) (hmax : mb.payloadLen.toNat ≤ mbMax) :
    (buildPacket pkt mb payload).read 0 (mbHdrLen + mb.payloadLen.toNat + mbCrcLen) =
      ([mb.cmd, 0xff] ++ le16 mb.pktLen ++ payload) ++
        le16 (crc16Ccitt ([mb.cmd, 0xff] ++ le16 mb.pktLen ++ payload)) := by
  have hmb : mbMax = 1018 := rfl
  have hps : pktSize = 1027 := rfl
  -- the header and the payload
  have hread : ∀ b : Block pktSize,
      ((b.write 0 ([mb.cmd, 0xff] ++ le16 mb.pktLen)).write mbHdrLen payload).read 0
        (mbHdrLen + mb.payloadLen.toNat) = [mb.cmd, 0xff] ++ le16 mb.pktLen ++ payload := by
    intro b
    have h₁ := b.read_write_self 0 ([mb.cmd, 0xff] ++ le16 mb.pktLen) (by simp [pktSize])
    have h₂ := (b.write 0 ([mb.cmd, 0xff] ++ le16 mb.pktLen)).read_write_self mbHdrLen payload
      (by simp only [mbHdrLen]; omega)
    rw [Block.read_add, Nat.zero_add, Block.read_write_of_disjoint _ _ _ _ _ (Or.inl (by simp)),
      ← hlen, h₂]
    exact congrArg (· ++ payload) h₁
  unfold buildPacket
  dsimp only
  have hr := hread pkt
  rw [show [mb.cmd, 0xff, mb.pktLen.toUInt8, (mb.pktLen >>> 8).toUInt8] =
    [mb.cmd, 0xff] ++ le16 mb.pktLen from rfl, hr]
  rw [Block.read_add, Block.read_write_of_disjoint _ _ _ _ _ (Or.inl (by simp)), hr, Nat.zero_add]
  congr 1
  exact Block.read_write_self _ _ (le16 _) (by simp [mbHdrLen]; omega)

/-- The words of the packet that is sent carry its bytes. -/
lemma take_le32_pktWord {pkt : Block pktSize} {p : List UInt8} (h : pkt.read 0 p.length = p)
    (i : ℕ) : (le32 (pktWord pkt i)).take (p.length - 4 * i) = (p.drop (4 * i)).take 4 := by
  rw [le32_pktWord]
  by_cases hi : 4 * i ≤ p.length
  · conv_rhs => rw [← h, Block.drop_read _ _ _ _ hi, Nat.zero_add]
    rcases Nat.le_total 4 (p.length - 4 * i) with h4 | h4
    · rw [Block.take_read _ _ _ _ h4, List.take_of_length_le (by simpa using h4)]
    · rw [Block.take_read _ _ _ _ h4, List.take_of_length_le (by simpa using h4)]
  · rw [Nat.sub_eq_zero_of_le (by omega), List.drop_eq_nil_of_le (by omega)]
    rfl

/-- The lengths that `exec_mailbox` accepts. -/
lemma respSized_iff {ws : List UInt32} :
    respSized ws = true ↔ 6 ≤ (respLen ws).toNat ∧ (respLen ws).toNat ≤ 1024 := by
  rw [respSized, Bool.and_eq_true, decide_eq_true_eq, decide_eq_true_eq]
  rfl

/-- What `exec_mailbox` makes of the words of a response. -/
lemma mbDecode_eq {pkt : Block pktSize} {ws : List UInt32} (cmd : UInt8)
    (hr : pkt.read 0 (4 * ws.length) = ws.flatMap le32) (hs : respSized ws = true)
    (hl : ws.length = wordCount (respLen ws)) :
    respOutcome cmd ws = ((mbDecode pkt (respLen ws)).1,
      if (mbDecode pkt (respLen ws)).1 = .ok then pkt.get 0 else cmd,
      (mbDecode pkt (respLen ws)).2) := by
  obtain ⟨h₁, h₂⟩ := respSized_iff.mp hs
  have hl' : ws.length = ((respLen ws).toNat + 3) / 4 := hl
  have hcrc : ofLe16 ((ws.flatMap le32).drop ((respLen ws).toNat - 2)) =
      (pkt.get ((respLen ws).toNat - 2)).toUInt16 |||
        (pkt.get ((respLen ws).toNat - 1)).toUInt16 <<< 8 := by
    rw [← hr, Block.drop_read _ _ _ _ (by omega), Nat.zero_add,
      show 4 * ws.length - ((respLen ws).toNat - 2) =
        2 + (4 * ws.length - (respLen ws).toNat) by omega, Block.read_add,
      show (respLen ws).toNat - 1 = (respLen ws).toNat - 2 + 1 by omega]
    exact ofLe16_cons _ _ _
  have htake : (ws.flatMap le32).take ((respLen ws).toNat - 2) =
      pkt.read 0 ((respLen ws).toNat - 2) := by
    rw [← hr, Block.take_read _ _ _ _ (by omega)]
  have hpay : ((ws.flatMap le32).drop 4).take ((respLen ws).toNat - 4 - 2) =
      pkt.read 4 ((respLen ws).toNat - 4 - 2) := by
    rw [← hr, Block.drop_read _ _ _ _ (by omega), Block.take_read _ _ _ _ (by omega)]
  have hget : (ws.flatMap le32).getD 0 0 = pkt.get 0 := by
    rw [← hr, Block.getD_read _ _ _ _ (by omega)]
  simp only [respOutcome, mbDecode, hs, mbCrcLen, mbHdrLen, hcrc, htake, hpay, hget]
  split_ifs <;> simp_all

end Spid

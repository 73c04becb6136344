import SpidevProxy.Lib.Crc
import SpidevProxy.RoundTrip

set_option relaxedAutoImplicit false
set_option autoImplicit false

/-!
# Corrupted responses

The checksum of a mailbox packet is a CRC over its bytes, most significant bit first, stored with
its low byte first. With its two bytes swapped it is the remainder that the shift register expects,
so that an accepted packet is one that leaves the register at zero. A response in which one bit, two
bits or an odd number of bits are wrong, none of them in the length field, is answered with
`SPIPROXY_ECRC`.

## Main definitions

* `Spid.byteBits`, `Spid.codeword` — the bits of a packet in the order in which the register sees
  them.
* `Spid.flipped` — the number of bits in which two packets differ.

## Main results

* `Spid.crc_iff_run` — the check of `exec_mailbox` in terms of the register.
* `Spid.mailbox_crc_detects` — small corruptions are detected.
-/

namespace Spid

open Bytes Crc

/-! ## `crc16_ccitt` as a shift register -/

/-- The polynomial of `crc16_ccitt`. -/
def crcPoly : BitVec 16 := 0x1021#16

/-- The bits of a byte, most significant first. -/
def byteBits (b : UInt8) : List Bool := (List.range 8).map fun i => b.toBitVec.getMsbD i

/-- A byte has eight bits. -/
@[simp] lemma length_byteBits (b : UInt8) : (byteBits b).length = 8 := by simp [byteBits]

/-- A byte in the upper half of the register. -/
def upper (b : UInt8) : BitVec 16 := b.toBitVec.setWidth 16 <<< 8

/-- A byte in the lower half of the register. -/
def lower (b : UInt8) : BitVec 16 := b.toBitVec.setWidth 16

/-- One round of the inner loop is a shift. -/
lemma toBitVec_round (crc : UInt16) :
    (if crc &&& 0x8000 ≠ 0 then crc <<< 1 ^^^ 0x1021 else crc <<< 1).toBitVec =
      shift crcPoly crc.toBitVec := by
  have htop : (crc &&& 0x8000).toBitVec = if crc.toBitVec.msb then BitVec.twoPow 16 15 else 0#16 := by
    rw [BitVec.msb_eq_getLsbD_last]
    exact BitVec.and_twoPow crc.toBitVec 15
  have hiff : crc &&& 0x8000 ≠ 0 ↔ crc.toBitVec.msb = true := by
    rw [ne_eq, ← UInt16.toBitVec_inj, htop]
    cases crc.toBitVec.msb <;> decide
  rw [shift]
  by_cases h : crc.toBitVec.msb = true
  · rw [if_pos (hiff.mpr h), if_pos h]
    rfl
  · rw [if_neg (mt hiff.mp h), if_neg h]
    rfl

/-- One byte of `crc16_ccitt`. -/
lemma toBitVec_crcByte (crc : UInt16) (b : UInt8) :
    (crcByte crc b).toBitVec = (shift crcPoly)^[8] (crc.toBitVec ^^^ upper b) := by
  have hloop : ∀ (l : List ℕ) (c : UInt16),
      (l.foldl (fun (crc : UInt16) _ => if crc &&& 0x8000 ≠ 0 then crc <<< 1 ^^^ 0x1021 else crc <<< 1)
        c).toBitVec = (shift crcPoly)^[l.length] c.toBitVec := by
    intro l
    induction l with
    | nil => exact fun _ => rfl
    | cons _ l ih =>
      intro c
      rw [List.foldl_cons, ih, toBitVec_round]
      rfl
  exact hloop _ _

/-- Eight shifts bring a byte from the lower half to the upper half. -/
lemma iterate_lower : ∀ b : BitVec 8,
    (shift crcPoly)^[8] (b.setWidth 16) = b.setWidth 16 <<< 8 := by
  decide +kernel

/-- The bits of a byte, fed into an empty register. -/
lemma run_zero_bits : ∀ b : BitVec 8,
    Crc.run crcPoly 0 ((List.range 8).map fun i => b.getMsbD i) =
      (shift crcPoly)^[8] (b.setWidth 16 <<< 8) := by
  decide +kernel

/-- The bits of a byte, fed into the register. -/
lemma run_byteBits (c : BitVec 16) (b : UInt8) :
    Crc.run crcPoly c (byteBits b) = (shift crcPoly)^[8] (c ^^^ upper b) := by
  rw [run_eq_xor, iterate_shift_xor, length_byteBits]
  exact congrArg _ (run_zero_bits b.toBitVec)

/-- **`crc16_ccitt` runs the register** over the bits of the bytes. -/
lemma toBitVec_crc16Ccitt (l : List UInt8) :
    (crc16Ccitt l).toBitVec = Crc.run crcPoly 0xffff#16 (l.flatMap byteBits) := by
  have hfold : ∀ (l : List UInt8) (c : UInt16),
      (l.foldl crcByte c).toBitVec = Crc.run crcPoly c.toBitVec (l.flatMap byteBits) := by
    intro l
    induction l with
    | nil => exact fun _ => rfl
    | cons b l ih =>
      intro c
      rw [List.foldl_cons, ih, toBitVec_crcByte, List.flatMap_cons, run_append, run_byteBits]
  exact hfold l 0xffff

/-! ## The check -/

/-- The bits of a packet with data `d` and the checksum bytes `lo` and `hi`, as the register sees
them. -/
def codeword (d : List UInt8) (lo hi : UInt8) : List Bool :=
  d.flatMap byteBits ++ (byteBits hi ++ byteBits lo)

/-- The word of two bytes, as a sum. -/
lemma toBitVec_ofLe16 (lo hi : UInt8) : (ofLe16 [lo, hi]).toBitVec = upper hi ^^^ lower lo := by
  rw [ofLe16_cons]
  change lower lo ||| upper hi = _
  ext i hi'
  by_cases h : i < 8
  · simp [upper, lower, h]
  · simp [upper, lower, h, BitVec.getLsbD_of_ge lo.toBitVec i (by omega)]

/-- **The check of `exec_mailbox`** passes when the register ends at zero. -/
lemma crc_iff_run (d : List UInt8) (lo hi : UInt8) :
    crc16Ccitt d = ofLe16 [lo, hi] ↔ Crc.run crcPoly 0xffff#16 (codeword d lo hi) = 0 := by
  have hinj := (shift_injective crcPoly (by decide)).iterate 16
  have hz : (shift crcPoly)^[16] 0 = 0 := Function.iterate_fixed (shift_zero _) 16
  have hrun : Crc.run crcPoly 0xffff#16 (codeword d lo hi) =
      (shift crcPoly)^[16] ((crc16Ccitt d).toBitVec ^^^ (upper hi ^^^ lower lo)) := by
    have hlow : upper lo = (shift crcPoly)^[8] (lower lo) := (iterate_lower lo.toBitVec).symm
    rw [codeword, run_append, ← toBitVec_crc16Ccitt, run_append, run_byteBits, run_byteBits, hlow,
      ← iterate_shift_xor, ← Function.iterate_add_apply, BitVec.xor_assoc]
  rw [hrun, ← hz, hinj.eq_iff, ← toBitVec_ofLe16]
  exact UInt16.toBitVec_inj.symm.trans BitVec.xor_eq_zero_iff.symm

/-! ## Differences -/

/-- The number of bits in which two lists of bytes differ. -/
def flipped (p p' : List UInt8) : ℕ :=
  (List.zipWith (fun a b => (List.zipWith xor (byteBits a) (byteBits b)).count true) p p').sum

/-- The bits in which two packets differ, counted at once or byte by byte. -/
lemma count_flatMap {d d' : List UInt8} (h : d.length = d'.length) :
    (List.zipWith xor (d.flatMap byteBits) (d'.flatMap byteBits)).count true = flipped d d' := by
  induction d generalizing d' with
  | nil =>
    obtain rfl := List.eq_nil_of_length_eq_zero h.symm
    rfl
  | cons a d ih =>
    obtain ⟨b, d', rfl⟩ := List.exists_cons_of_length_pos (h ▸ Nat.succ_pos _ : 0 < d'.length)
    rw [List.flatMap_cons, List.flatMap_cons, List.zipWith_append (by simp), List.count_append,
      ih (Nat.succ.inj h)]
    rfl

/-- The register sees as many differences as there are. -/
lemma count_codeword {d d' : List UInt8} (h : d.length = d'.length) (lo hi lo' hi' : UInt8) :
    (List.zipWith xor (codeword d lo hi) (codeword d' lo' hi')).count true =
      flipped (d ++ [lo, hi]) (d' ++ [lo', hi']) := by
  have hlen : ∀ l : List UInt8, (l.flatMap byteBits).length = 8 * l.length := fun l => by
    simp [List.length_flatMap, Nat.mul_comm]
  rw [codeword, codeword, List.zipWith_append (by rw [hlen, hlen, h]), List.count_append,
    count_flatMap h, List.zipWith_append (by simp), List.count_append, flipped, flipped,
    List.zipWith_append h, List.sum_append]
  simp [Nat.add_comm]

/-- The top bit does not return within the length of a packet. -/
lemma crcPoly_avoids : avoids 15 crcPoly.toNat (top 15).toNat 8192 (top 15).toNat = true := by
  decide +kernel

/-- The generator has an odd number of terms besides the leading one. -/
lemma parity_crcPoly : parity crcPoly = 1 := by decide

/-- **Small differences are detected**: if a packet passes the check, one that differs from it in one
bit, in two bits or in an odd number of bits does not. -/
lemma crc_ne_of_flipped {d d' : List UInt8} {lo hi lo' hi' : UInt8} (h : d.length = d'.length)
    (hmax : d.length ≤ 1022) (hc : crc16Ccitt d = ofLe16 [lo, hi])
    (hk : flipped (d ++ [lo, hi]) (d' ++ [lo', hi']) = 2 ∨
      Odd (flipped (d ++ [lo, hi]) (d' ++ [lo', hi']))) : crc16Ccitt d' ≠ ofLe16 [lo', hi'] := by
  intro hc'
  rw [crc_iff_run] at hc hc'
  have hlen : ∀ (l : List UInt8) (a b : UInt8), (codeword l a b).length = 8 * l.length + 16 := by
    intro l a b
    simp [codeword, List.length_flatMap, Nat.mul_comm]
  have hrun := run_xor crcPoly 0xffff#16 0xffff#16
    (s := codeword d lo hi) (t := codeword d' lo' hi') (by rw [hlen, hlen, h])
  rw [hc, hc', BitVec.xor_self, BitVec.xor_self] at hrun
  refine run_ne_zero crcPoly (by decide) parity_crcPoly (fun d₀ h₀ h₁ => ?_) ?_ hrun
  · refine iterate_ne_of_avoids crcPoly crcPoly_avoids d₀ h₀ ?_
    rw [List.length_zipWith, hlen, hlen] at h₁
    omega
  · rwa [count_codeword h]

/-! ## Responses -/

/-- A list of at least two bytes, cut before its last two. -/
lemma exists_snoc_snoc {p : List UInt8} (h : 2 ≤ p.length) :
    ∃ d lo hi, p = d ++ [lo, hi] ∧ d.length = p.length - 2 := by
  have hlen : (p.drop (p.length - 2)).length = 2 := by
    rw [List.length_drop]
    omega
  obtain ⟨lo, hi, hp⟩ := List.length_eq_two.mp hlen
  refine ⟨p.take (p.length - 2), lo, hi, ?_, by simp⟩
  rw [← hp, List.take_append_drop]

/-- **Small corruptions are detected.** Let `p` be a packet with a correct length field and a correct
checksum, and let `p'` differ from it in one bit, in two bits or in an odd number of bits, but not in
the length field. A call that is shown words that carry `p'`, without a failed transfer, is answered
`SPIPROXY_ECRC`. -/
theorem mailbox_crc_detects {env : Env} {cfg : Config} {g : Daemon} (h : Reachable env cfg g)
    {r : Req} {o : Option Slot} {w q : List Entry}
    (hd : Event.dispatch r.toEntry r.body o w q ∈ g.evs) (hk : r.kind = some .mailbox)
    {p p' : List UInt8} {ws : List UInt32} (hp : Labelled p)
    (hcrc : p.drop (p.length - 2) = le16 (crc16Ccitt (p.take (p.length - 2))))
    (hlen : p'.length = p.length) (hfield : (p'.drop 2).take 2 = (p.drop 2).take 2)
    (hflip : flipped p p' = 1 ∨ flipped p p' = 2 ∨ Odd (flipped p p')) (hc : Carries p' ws)
    (hok : ∀ x ∈ accessesFor r.agent g.evs, x.ok = true)
    (hh : heard (accessesFor r.agent g.evs) ≠ []) (hx : Shows ws (accessesFor r.agent g.evs)) :
    ∃ fd type seq, Event.send r.rid r.c fd type .ecrc seq (r.mbReply r.mb.cmd []) ∈ g.evs := by
  have hp' : Labelled p' := ⟨hlen ▸ hp.ge, hlen ▸ hp.le, by rw [hfield, hlen, hp.label]⟩
  have hge := hp.ge
  have hle := hp.le
  obtain ⟨d, lo, hi, rfl, hdl⟩ := exists_snoc_snoc (p := p) (by omega)
  obtain ⟨d', lo', hi', rfl, hdl'⟩ := exists_snoc_snoc (p := p') (by omega)
  have hdd : d.length = d'.length := by omega
  rw [← hdl, List.drop_left, List.take_left] at hcrc
  have hpass : crc16Ccitt d = ofLe16 [lo, hi] := by
    have hback := ofLe16_le16 (crc16Ccitt d) []
    rw [List.append_nil, ← hcrc] at hback
    exact hback.symm
  have hfail : crc16Ccitt d' ≠ ofLe16 [lo', hi'] := crc_ne_of_flipped hdd (by omega) hpass
    (hflip.elim (fun h₁ => Or.inr (h₁ ▸ odd_one)) id)
  have hans := Run.answered_of_shows h.good.run rfl hd hk hok hh hc hp' hx
  rwa [respOutcome_carries hc hp', ← hdl', List.take_left, List.drop_left, if_pos hfail] at hans

/-- The MCU responds with command 5 and no payload, but the first bit of the response is read
wrongly. -/
def spoiltResponse : Daemon :=
  run (Env.script fun k =>
      if k = 11 then 2 else if k = 13 then 0x0006ff04 else if k = 15 then 0x5d40 else 0)
    Config.plain
    (connects [(7, ['a'])] ++ [⟨[.client 0 (mailboxMsg 1 5)], 64⟩, .none, .none])

/-- The theorem at a response with one wrong bit. -/
theorem mailbox_crc_detects_spoiltResponse :
    flipped (mbPacket 5 []) [4, 0xff, 6, 0, 0x40, 0x5d] = 1 ∧
      heard (accessesFor (.request 0 0) spoiltResponse.evs) = indexed [0x0006ff04, 0x5d40] ∧
      ∃ fd type seq, Event.send 0 0 fd type .ecrc seq
        ((frameReq 0 0 (mailboxMsg 1 5)).mbReply 5 []) ∈ spoiltResponse.evs := by
  have hd : Event.dispatch (frameReq 0 0 (mailboxMsg 1 5)).toEntry
      (frameReq 0 0 (mailboxMsg 1 5)).body none [] [] ∈ spoiltResponse.evs := by decide +kernel
  have hc : Carries [4, 0xff, 6, 0, 0x40, 0x5d] [0x0006ff04, 0x5d40] := by
    unfold Carries
    decide +kernel
  have hflip : flipped (mbPacket 5 []) [4, 0xff, 6, 0, 0x40, 0x5d] = 1 := by decide +kernel
  have hh : heard (accessesFor (.request 0 0) spoiltResponse.evs) =
      indexed [0x0006ff04, 0x5d40] := by decide +kernel
  have hok : ∀ x ∈ accessesFor (.request 0 0) spoiltResponse.evs, x.ok = true := by decide +kernel
  have hne : heard (accessesFor (.request 0 0) spoiltResponse.evs) ≠ [] := by simp [hh]
  exact ⟨hflip, hh, mailbox_crc_detects (Reachable.run _ _ _) hd (by decide +kernel)
    (labelled_mbPacket 5 (Nat.zero_le _)) (by decide +kernel) (by decide +kernel)
    (by decide +kernel) (Or.inl hflip) hc hok hne (shows_of_heard hh)⟩

end Spid

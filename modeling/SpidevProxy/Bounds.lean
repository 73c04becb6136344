import SpidevProxy.RoundTrip

set_option relaxedAutoImplicit false
set_option autoImplicit false

/-!
# Buffers of a mailbox call

The blocks of memory in this model are total: a read behind the end gives zeros, and a write behind
the end is lost. To show that nothing relies on this, `exec_mailbox` is written once more with every
access to the packet buffer, to the received payload and to the response buffer checked, and it is
proved that no check ever fails, whatever lengths the client and the device send.

## Main definitions

* `Spid.buildPacket?`, `Spid.mbWriteWords?`, `Spid.mbReadWords?`, `Spid.mbDecode?` — the steps of a
  call that use the packet buffer, checked.
* `Spid.execMailboxStart?`, `Spid.execMailboxPoll?` — `exec_mailbox`, checked.

## Main results

* `Spid.mailbox_bounds` — no check fails, every register access stays in the windows, and the body
  of the answer has the length it says.
-/

namespace Spid

open Bytes

section

variable (env : Env) (cfg : Config)

/-! ## Checked steps -/

/-- `buildPacket`, checked. -/
def buildPacket? (pkt : Block pktSize) (mb : Mb) (payload : List UInt8) : Option (Block pktSize) := do
  let pkt ← pkt.write? 0 [mb.cmd, 0xff, mb.pktLen.toUInt8, (mb.pktLen >>> 8).toUInt8]
  let pkt ← pkt.write? mbHdrLen payload
  let data ← pkt.read? 0 (mbHdrLen + mb.payloadLen.toNat)
  let crc := crc16Ccitt data
  pkt.write? (mbHdrLen + mb.payloadLen.toNat) [crc.toUInt8, (crc >>> 8).toUInt8]

/-- `mbWriteWords`, with the four bytes of every word checked. -/
def mbWriteWords? (agent : Agent) (slice : UInt8) (pkt : Block pktSize) :
    ℕ → ℕ → Daemon → Option (Bool × Daemon)
  | 0, _, g => some (true, g)
  | k + 1, i, g => do
    let _ ← pkt.read? (4 * i) 4
    let r := mbWr env cfg g agent slice (mbCmdAddr + UInt16.ofNat i) (pktWord pkt i)
    if r.1 then mbWriteWords? agent slice pkt k (i + 1) r.2 else some (false, r.2)

/-- `mbReadWords`, checked. -/
def mbReadWords? (agent : Agent) (slice : UInt8) :
    ℕ → ℕ → Block pktSize → UInt32 → Daemon → Option (Option (Block pktSize) × Daemon)
  | 0, _, pkt, _, g => some (some pkt, g)
  | k + 1, i, pkt, v, g => do
    let r := mbRd env cfg g agent slice (mbRespAddr + UInt16.ofNat i) v
    if r.1 then
      let pkt ← pkt.write? (4 * i) (le32 r.2.1)
      mbReadWords? agent slice k (i + 1) pkt r.2.1 r.2.2
    else some (none, r.2.2)

/-- `mbDecode`, checked; the response buffer holds `SPIPROXY_MB_MAX` bytes. -/
def mbDecode? (pkt : Block pktSize) (len : UInt16) : Option (Status × List UInt8) := do
  let n := len.toNat
  let _ ← pkt.read? (n - 2) 2
  let crc := (pkt.get (n - 2)).toUInt16 ||| (pkt.get (n - 1)).toUInt16 <<< 8
  let data ← pkt.read? 0 (n - mbCrcLen)
  if crc16Ccitt data ≠ crc then some (.ecrc, [])
  else
    let payload ← pkt.read? mbHdrLen (n - mbHdrLen - mbCrcLen)
    if payload.length ≤ mbMax then some (.ok, payload) else none

/-! ## The checked call -/

/-- `execMailboxRequest`, checked. -/
def execMailboxRequest? (g : Daemon) (it : Ptr) (mb : Mb) (pkt : Block pktSize) :
    Option ((Status ⊕ MbFrame) × Daemon) := do
  let x := g.item it
  let agent := Agent.request x.rid x.c
  let n := wordCount mb.pktLen
  let w ← mbWriteWords? env cfg agent mb.slice pkt n 0 g
  if !w.1 then some (.inl .eio, mbLeave w.2 x)
  else
    let r := mbRd env cfg w.2 agent mb.slice mbMcuMask (pktWord pkt (n - 1))
    if !r.1 then some (.inl .eio, mbLeave r.2.2 x)
    else
      let m := mbWr env cfg r.2.2 agent mb.slice mbMcuMask (r.2.1 ||| 1)
      if !m.1 then some (.inl .eio, mbLeave m.2 x)
      else
        let d := mbWr env cfg m.2 agent mb.slice mbFlag mbSetReq
        if !d.1 then some (.inl .eio, mbLeave d.2 x)
        else
          let timeout := if mb.timeoutMs ≠ 0 then mb.timeoutMs else mbTimeoutMs
          let t := nowUs env d.2
          some (.inr ⟨it, t.1 + timeout.toUInt64 * 1000, pkt, r.2.1⟩, t.2)

/-- `execMailboxStart`, checked; of the body only the received bytes may be read. -/
def execMailboxStart? (g : Daemon) (it : Ptr) : Option ((Status ⊕ MbFrame) × Daemon) := do
  let x := g.item it
  let agent := Agent.request x.rid x.c
  let mb := Mb.decode (x.body.read 0 mbSize)
  let pkt := env.pkt g.io.nPkt
  let g := { g with io := { g.io with nPkt := g.io.nPkt + 1 } }
  if mbMax < mb.payloadLen.toNat ∨ 4 ≤ mb.slice.toNat then some (.inl .einval, g)
  else if x.hdr.len.toNat < mbSize + mb.payloadLen.toNat then none
  else
    let payload ← x.body.read? mbSize mb.payloadLen.toNat
    let pkt ← buildPacket? pkt mb payload
    let r := mbRd env cfg g agent mb.slice mbFlag 0
    if !r.1 then some (.inl .eio, r.2.2)
    else if r.2.1 &&& mbFBusy ≠ 0 then some (.inl .ebusy, r.2.2)
    else
      let g := { r.2.2 with mbInflight := true }.emit (.mbSet x.rid x.c r.2.2.mbInflight)
      execMailboxRequest? env cfg g it mb pkt

/-- `execMailboxFinish`, checked. -/
def execMailboxFinish? (g : Daemon) (f : MbFrame) (v : UInt32) :
    Option ((Status × List UInt8) × Daemon) := do
  let x := g.item f.it
  let agent := Agent.request x.rid x.c
  let mb := Mb.decode (x.body.read 0 mbSize)
  let r := mbRd env cfg g agent mb.slice mbRespAddr v
  if !r.1 then some ((.eio, []), mbLeave r.2.2 x)
  else
    let len := (r.2.1 >>> 16).toUInt16
    if len.toNat < mbHdrLen + mbCrcLen ∨ mbHdrLen + mbMax + mbCrcLen < len.toNat then
      let c := mbWr env cfg r.2.2 agent mb.slice mbFlag mbClrResp
      some ((.einval, []), mbLeave c.2 x)
    else
      let pkt ← f.pkt.write? 0 (le32 r.2.1)
      let w ← mbReadWords? env cfg agent mb.slice (wordCount len - 1) 1 pkt r.2.1 r.2.2
      match w.1 with
      | none => some ((.eio, []), mbLeave w.2 x)
      | some pkt =>
        let c := mbWr env cfg w.2 agent mb.slice mbFlag mbClrResp
        let g := mbLeave c.2 x
        let d ← mbDecode? pkt len
        if d.1 = .ok then
          let id ← pkt.read? 0 1
          let body ← (g.item f.it).body.write? 1 id
          some (d, g.setBody f.it body)
        else some (d, g)

/-- `execMailboxPoll`, checked. -/
def execMailboxPoll? (g : Daemon) (f : MbFrame) :
    Option (((Status × List UInt8) ⊕ MbFrame) × Daemon) := do
  let x := g.item f.it
  let agent := Agent.request x.rid x.c
  let mb := Mb.decode (x.body.read 0 mbSize)
  let r := mbRd env cfg g agent mb.slice mbFlag f.v
  if !r.1 then some (.inl (.eio, []), mbLeave r.2.2 x)
  else if r.2.1 &&& mbFResp ≠ 0 then
    let d ← execMailboxFinish? env cfg r.2.2 f r.2.1
    some (.inl d.1, d.2)
  else
    let t := nowUs env r.2.2
    if f.tEnd < t.1 then
      let c := mbWr env cfg t.2 agent mb.slice mbFlag mbClrReq
      some (.inl (.etimedout, []), mbLeave c.2 x)
    else some (.inr { f with v := r.2.1 }, t.2)

/-! ## No check fails -/

/-- Building a packet stays inside the buffer. -/
lemma buildPacket?_eq (pkt : Block pktSize) {mb : Mb} {payload : List UInt8}
    (hlen : payload.length = mb.payloadLen.toNat) (hmax : mb.payloadLen.toNat ≤ mbMax) :
    buildPacket? pkt mb payload = some (buildPacket pkt mb payload) := by
  have hm : mbMax = 1018 := rfl
  have hh : mbHdrLen = 4 := rfl
  have hs : pktSize = 1027 := rfl
  unfold buildPacket? buildPacket
  simp only [Option.bind_eq_bind]
  rw [Block.write?_eq _ (by simp [pktSize]), Option.bind_some, Block.write?_eq _ (by omega),
    Option.bind_some, Block.read?_eq _ (by omega), Option.bind_some, Block.write?_eq _ (by simp; omega)]

/-- So does writing its words, -/
lemma mbWriteWords?_eq (agent : Agent) (slice : UInt8) (pkt : Block pktSize) (k i : ℕ) (g : Daemon)
    (h : 4 * (i + k) ≤ pktSize) :
    mbWriteWords? env cfg agent slice pkt k i g = some (mbWriteWords env cfg agent slice pkt k i g) := by
  induction k generalizing i g with
  | zero => rfl
  | succ k ih =>
    rw [mbWriteWords?, mbWriteWords, Block.read?_eq _ (by omega)]
    dsimp only [Option.bind_eq_bind, Option.bind_some]
    split_ifs
    · exact ih _ _ (by omega)
    · rfl

/-- reading the words of a response, -/
lemma mbReadWords?_eq (agent : Agent) (slice : UInt8) (k i : ℕ) (pkt : Block pktSize) (v : UInt32)
    (g : Daemon) (h : 4 * (i + k) ≤ pktSize) :
    mbReadWords? env cfg agent slice k i pkt v g =
      some (mbReadWords env cfg agent slice k i pkt v g) := by
  induction k generalizing i pkt v g with
  | zero => rfl
  | succ k ih =>
    rw [mbReadWords?, mbReadWords]
    split_ifs
    · rw [Block.write?_eq _ (by simp; omega)]
      exact ih _ _ _ _ (by omega)
    · rfl

/-- and decoding it. -/
lemma mbDecode?_eq (pkt : Block pktSize) {len : UInt16} (h₁ : 6 ≤ len.toNat) (h₂ : len.toNat ≤ 1024) :
    mbDecode? pkt len = some (mbDecode pkt len) := by
  have hh : mbHdrLen = 4 := rfl
  have hc : mbCrcLen = 2 := rfl
  have hm : mbMax = 1018 := rfl
  have hs : pktSize = 1027 := rfl
  unfold mbDecode? mbDecode
  simp only [Option.bind_eq_bind]
  rw [Block.read?_eq _ (by omega), Option.bind_some, Block.read?_eq _ (by omega), Option.bind_some]
  split_ifs
  · rfl
  · rw [Block.read?_eq _ (by omega), Option.bind_some, if_pos (by simp; omega)]

/-- The request part of a mailbox call stays inside the buffer. -/
lemma execMailboxRequest?_eq (g : Daemon) (it : Ptr) {mb : Mb} (pkt : Block pktSize)
    (h : wordCount mb.pktLen ≤ 256) :
    execMailboxRequest? env cfg g it mb pkt = some (execMailboxRequest env cfg g it mb pkt) := by
  have hs : pktSize = 1027 := rfl
  unfold execMailboxRequest? execMailboxRequest
  simp only [Option.bind_eq_bind]
  rw [mbWriteWords?_eq _ _ _ _ _ _ _ _ (by omega), Option.bind_some]
  split_ifs <;> rfl

/-- **Up to the doorbell** no check fails, if the request has passed the length check. -/
lemma execMailboxStart?_eq (g : Daemon) (it : Ptr)
    (h : mailboxValid (g.item it).hdr (g.item it).body = true) :
    execMailboxStart? env cfg g it = some (execMailboxStart env cfg g it) := by
  have hm : mbMax = 1018 := rfl
  have hz : mbSize = 8 := rfl
  have hx : msgMax = 4096 := rfl
  simp only [mailboxValid, decide_eq_true_eq] at h
  unfold execMailboxStart? execMailboxStart
  simp only [Option.bind_eq_bind]
  generalize Mb.decode ((g.item it).body.read 0 mbSize) = mb at *
  by_cases hr : mbMax < mb.payloadLen.toNat ∨ 4 ≤ mb.slice.toNat
  · rw [if_pos hr, if_pos hr]
  · have hmax : mb.payloadLen.toNat ≤ mbMax := by omega
    have hlen : mb.pktLen.toNat = 6 + mb.payloadLen.toNat := by
      simp [Mb.pktLen]
      omega
    rw [if_neg hr, if_neg hr, if_neg (by omega), Block.read?_eq _ (by omega), Option.bind_some,
      buildPacket?_eq _ (by simp) hmax, Option.bind_some]
    split_ifs
    · rfl
    · rfl
    · refine execMailboxRequest?_eq env cfg _ _ _ ?_
      rw [wordCount, hlen]
      omega

/-- The end of a call.

**Proof sketch.** Each read and write of a buffer is within it: the total length of the response
has passed the check, so its words fill at most 256 words of the packet, and the payload is at most
as long as the body of the item. -/
lemma execMailboxFinish?_eq (g : Daemon) (f : MbFrame) (v : UInt32) :
    execMailboxFinish? env cfg g f v = some (execMailboxFinish env cfg g f v) := by
  have hh : mbHdrLen = 4 := rfl
  have hc : mbCrcLen = 2 := rfl
  have hm : mbMax = 1018 := rfl
  have hs : pktSize = 1027 := rfl
  have hx : msgMax = 4096 := rfl
  unfold execMailboxFinish? execMailboxFinish
  simp only [Option.bind_eq_bind]
  generalize mbRd env cfg g (Agent.request (g.item f.it).rid (g.item f.it).c)
    (Mb.decode ((g.item f.it).body.read 0 mbSize)).slice mbRespAddr v = r
  by_cases h₁ : (!r.1) = true
  · rw [if_pos h₁, if_pos h₁]
  rw [if_neg h₁, if_neg h₁]
  by_cases h₂ : (r.2.1 >>> 16).toUInt16.toNat < mbHdrLen + mbCrcLen ∨
      mbHdrLen + mbMax + mbCrcLen < (r.2.1 >>> 16).toUInt16.toNat
  · rw [if_pos h₂, if_pos h₂]
  · rw [if_neg h₂, if_neg h₂]
    rw [not_or, not_lt, not_lt] at h₂
    have hwc : wordCount (r.2.1 >>> 16).toUInt16 ≤ 256 := by
      rw [wordCount]
      omega
    have hpos : 1 ≤ wordCount (r.2.1 >>> 16).toUInt16 := by
      rw [wordCount]
      omega
    rw [Block.write?_eq _ (by simp; omega), Option.bind_some,
      mbReadWords?_eq _ _ _ _ _ _ _ _ _ (by omega), Option.bind_some]
    generalize mbReadWords env cfg _ _ _ _ _ _ _ = w
    obtain ⟨_ | pkt, g'⟩ := w
    · rfl
    · dsimp only
      rw [mbDecode?_eq _ (by omega) (by omega), Option.bind_some]
      split_ifs
      · rw [Block.read?_eq _ (by omega), Option.bind_some, Block.write?_eq _ (by simp; omega)]
        rfl
      · rfl

/-- **In every round of the wait loop** no check fails. -/
lemma execMailboxPoll?_eq (g : Daemon) (f : MbFrame) :
    execMailboxPoll? env cfg g f = some (execMailboxPoll env cfg g f) := by
  unfold execMailboxPoll? execMailboxPoll
  simp only [Option.bind_eq_bind, execMailboxFinish?_eq, Option.bind_some]
  split_ifs <;> rfl

end

/-! ## Answers -/

/-- What is handed over of a response. -/
lemma length_respOutcome (cmd : UInt8) (ws : List UInt32) :
    (respOutcome cmd ws).2.2.length ≤ mbMax ∧
      ((respOutcome cmd ws).1 ≠ .ok → (respOutcome cmd ws).2.2 = []) := by
  have hm : mbMax = 1018 := rfl
  simp only [respOutcome]
  split_ifs with hs
  · simp
  · simp
  · rw [Bool.not_eq_true', Bool.not_eq_false, respSized_iff] at hs
    refine ⟨?_, fun h => absurd rfl h⟩
    rw [List.length_take]
    simp only [mbHdrLen, mbCrcLen]
    omega

/-- So it is with every call that returns. -/
lemma Closed.length_le {r : Req} {xs : List Access} {st : Status} {cmd : UInt8}
    {payload : List UInt8} (h : Closed r xs st cmd payload) :
    payload.length ≤ mbMax ∧ (st ≠ .ok → payload = []) := by
  cases h with
  | response => exact length_respOutcome _ _
  | cut => simp

/-- The length of the body of an answer, and what it says about it. -/
lemma Req.mbReply_length (r : Req) (cmd : UInt8) {payload : List UInt8}
    (h : payload.length ≤ mbMax) :
    (r.mbReply cmd payload).length = mbSize + payload.length ∧
      (Mb.decode (r.mbReply cmd payload)).payloadLen.toNat = payload.length := by
  have hm : mbMax = 1018 := rfl
  refine ⟨by simp [Req.mbReply], ?_⟩
  have hfield : (Mb.decode (r.mbReply cmd payload)).payloadLen = UInt16.ofNat payload.length :=
    ofLe16_le16 _ _
  rw [hfield, UInt16.toNat_ofNat_of_lt' (by simp [UInt16.size]; omega)]

/-- **Mailbox buffers and register windows are never overrun.** For a request that passes the length
check no check of the packet buffer, the received payload or the response buffer fails, neither up
to the doorbell nor in any round of the wait loop. In every run the accesses of a `MAILBOX` stay in
the two windows and the two control registers of its slice, and the body of its answer has eight
bytes and, on `SPIPROXY_OK` only, the payload, whose length it gives. -/
theorem mailbox_bounds (env : Env) (cfg : Config) :
    (∀ g it, mailboxValid (g.item it).hdr (g.item it).body = true →
      execMailboxStart? env cfg g it = some (execMailboxStart env cfg g it)) ∧
    (∀ g f, execMailboxPoll? env cfg g f = some (execMailboxPoll env cfg g f)) ∧
    ∀ g, Reachable env cfg g → ∀ (r : Req) (o : Option Slot) (w q : List Entry),
      Event.dispatch r.toEntry r.body o w q ∈ g.evs → r.kind = some .mailbox → r.sized = true →
      (∀ x ∈ accessesFor r.agent g.evs, InReach r x) ∧
      ∀ c fd type st seq body, Event.send r.rid c fd type st seq body ∈ g.evs →
        body.length = 8 + (Mb.decode body).payloadLen.toNat ∧
        (Mb.decode body).payloadLen.toNat ≤ 1018 ∧ (st ≠ .ok → body.length = 8) := by
  refine ⟨execMailboxStart?_eq env cfg, execMailboxPoll?_eq env cfg, ?_⟩
  intro g h r o w q hd hk hs
  have hrun := h.good.run
  refine ⟨?_, fun c fd type st seq body hsend => ?_⟩
  · rcases Run.executing_or_answered hrun hd with hex | ⟨fd, type, st, seq, body, hsend⟩
    · exact ((Run.scripts hrun).waiting r hex).registers hk
    · exact (Run.answered hrun hd hsend).registers hk
  · rcases (Run.answered hrun hd hsend).told hk with ⟨-, hs', -⟩ | ⟨cmd, payload, rfl, hclosed⟩
    · simp [hs] at hs'
    · obtain ⟨hmax, hnil⟩ := hclosed.length_le
      obtain ⟨h₁, h₂⟩ := r.mbReply_length cmd hmax
      rw [h₁, h₂]
      exact ⟨rfl, hmax, fun hst => by rw [hnil hst]; rfl⟩

/-- The theorem at a run in which the MCU responds at once. -/
theorem mailbox_bounds_promptResponse :
    (∀ x ∈ accessesFor (.request 0 0) promptResponse.evs,
      InReach (frameReq 0 0 (mailboxMsg 1 5)) x) ∧
      Event.send 0 0 0 0x86 .ok 1 [0, 5, 0, 0, 1, 0, 0, 0] ∈ promptResponse.evs := by
  have hd : Event.dispatch (frameReq 0 0 (mailboxMsg 1 5)).toEntry
      (frameReq 0 0 (mailboxMsg 1 5)).body none [] [] ∈ promptResponse.evs := by decide +kernel
  exact ⟨((mailbox_bounds _ _).2.2 promptResponse (Reachable.run _ _ _) _ none [] [] hd
    (by decide +kernel) (by decide +kernel)).1, by decide +kernel⟩

end Spid

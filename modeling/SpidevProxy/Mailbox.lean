import SpidevProxy.Registers

set_option relaxedAutoImplicit false
set_option autoImplicit false

/-!
# Mailbox transactions

`exec_mailbox`, cut where it waits. The call runs without interruption from its entry to the
doorbell (`Spid.execMailboxStart`); each round of its wait loop is one poll
(`Spid.execMailboxPoll`), after which it either returns, having read the response
(`Spid.execMailboxFinish`), or calls `drain_queues` and polls again.

## Main definitions

* `Spid.crc16Ccitt`, `Spid.buildPacket`, `Spid.pktWord` — the packet and its words.
* `Spid.execMailboxStart`, `Spid.execMailboxPoll`, `Spid.execMailboxFinish` — the three parts of
  `exec_mailbox`.
-/

namespace Spid

open Bytes

/-! ## Constants -/

/-- `MB_CMD_ADDR`: the request window. -/
def mbCmdAddr : UInt16 := 0xd800

/-- `MB_RESP_ADDR`: the response window. -/
def mbRespAddr : UInt16 := 0xd900

/-- `MB_FLAG`. -/
def mbFlag : UInt16 := 0xda00

/-- `MB_MCU_MASK`. -/
def mbMcuMask : UInt16 := 0xda01

/-- `MB_F_BUSY`: a request is pending. -/
def mbFBusy : UInt32 := 0x00000001

/-- `MB_F_RESP`: a response is ready. -/
def mbFResp : UInt32 := 0x00000002

/-- `MB_SET_REQ`: the doorbell. -/
def mbSetReq : UInt32 := 0x00010000

/-- `MB_CLR_REQ`. -/
def mbClrReq : UInt32 := 0x01000000

/-- `MB_CLR_RESP`. -/
def mbClrResp : UInt32 := 0x02000000

/-- `MB_HDR_LEN`. -/
def mbHdrLen : ℕ := 4

/-- `MB_CRC_LEN`. -/
def mbCrcLen : ℕ := 2

/-- `MB_TIMEOUT_MS`. -/
def mbTimeoutMs : UInt32 := 500

/-! ## Packets -/

/-- One byte of `crc16_ccitt`. -/
def crcByte (crc : UInt16) (b : UInt8) : UInt16 :=
  (List.range 8).foldl
    (fun crc _ => if crc &&& 0x8000 ≠ 0 then crc <<< 1 ^^^ 0x1021 else crc <<< 1)
    (crc ^^^ b.toUInt16 <<< 8)

/-- `crc16_ccitt`. -/
def crc16Ccitt (p : List UInt8) : UInt16 := p.foldl crcByte 0xffff

/-- The length field of a request packet, as `uint16_t`. -/
def Mb.pktLen (mb : Mb) : UInt16 := 4 + mb.payloadLen + 2

/-- It does not overflow if the payload is within its limit. -/
lemma Mb.toNat_pktLen {mb : Mb} (h : mb.payloadLen.toNat ≤ mbMax) :
    mb.pktLen.toNat = 6 + mb.payloadLen.toNat := by
  have hm : mbMax = 1018 := rfl
  simp [Mb.pktLen]
  omega

/-- The packet `{id, 0xff, len_le} + payload + crc16`, built in the local buffer. -/
def buildPacket (pkt : Block pktSize) (mb : Mb) (payload : List UInt8) : Block pktSize :=
  let pkt := pkt.write 0 [mb.cmd, 0xff, mb.pktLen.toUInt8, (mb.pktLen >>> 8).toUInt8]
  let pkt := pkt.write mbHdrLen payload
  let crc := crc16Ccitt (pkt.read 0 (mbHdrLen + mb.payloadLen.toNat))
  pkt.write (mbHdrLen + mb.payloadLen.toNat) [crc.toUInt8, (crc >>> 8).toUInt8]

/-- The number of words of a packet of `len` bytes: `(len + 3) & ~3` over four. -/
def wordCount (len : UInt16) : ℕ := (len.toNat + 3) / 4

/-- Word `i` of a packet. -/
def pktWord (pkt : Block pktSize) (i : ℕ) : UInt32 :=
  (pkt.get (4 * i)).toUInt32 ||| (pkt.get (4 * i + 1)).toUInt32 <<< 8 |||
    (pkt.get (4 * i + 2)).toUInt32 <<< 16 ||| (pkt.get (4 * i + 3)).toUInt32 <<< 24

section

variable (env : Env) (cfg : Config)

/-! ## The transaction -/

/-- `g.mb_inflight = 0` on the way out of `exec_mailbox`. -/
def mbLeave (g : Daemon) (x : Item) : Daemon :=
  { g with mbInflight := false }.emit (.mbClear x.rid x.c)

/-- Write `k` words of the packet, from word `i` on, to the request window; `false` at the first
failure. -/
def mbWriteWords (agent : Agent) (slice : UInt8) (pkt : Block pktSize) :
    ℕ → ℕ → Daemon → Bool × Daemon
  | 0, _, g => (true, g)
  | k + 1, i, g =>
    let r := mbWr env cfg g agent slice (mbCmdAddr + UInt16.ofNat i) (pktWord pkt i)
    if r.1 then mbWriteWords agent slice pkt k (i + 1) r.2 else (false, r.2)

/-- Read `k` words of the response, from word `i` on, into the packet buffer; `none` at the first
failure. -/
def mbReadWords (agent : Agent) (slice : UInt8) :
    ℕ → ℕ → Block pktSize → UInt32 → Daemon → Option (Block pktSize) × Daemon
  | 0, _, pkt, _, g => (some pkt, g)
  | k + 1, i, pkt, v, g =>
    let r := mbRd env cfg g agent slice (mbRespAddr + UInt16.ofNat i) v
    if r.1 then mbReadWords agent slice k (i + 1) (pkt.write (4 * i) (le32 r.2.1)) r.2.1 r.2.2
    else (none, r.2.2)

/-- `exec_mailbox` once `g.mb_inflight` is set, up to the wait loop. -/
def execMailboxRequest (g : Daemon) (it : Ptr) (mb : Mb) (pkt : Block pktSize) :
    (Status ⊕ MbFrame) × Daemon :=
  let x := g.item it
  let agent := Agent.request x.rid x.c
  let n := wordCount mb.pktLen
  let w := mbWriteWords env cfg agent mb.slice pkt n 0 g
  if !w.1 then (.inl .eio, mbLeave w.2 x)
  else
    let r := mbRd env cfg w.2 agent mb.slice mbMcuMask (pktWord pkt (n - 1))
    if !r.1 then (.inl .eio, mbLeave r.2.2 x)
    else
      let m := mbWr env cfg r.2.2 agent mb.slice mbMcuMask (r.2.1 ||| 1)
      if !m.1 then (.inl .eio, mbLeave m.2 x)
      else
        let d := mbWr env cfg m.2 agent mb.slice mbFlag mbSetReq
        if !d.1 then (.inl .eio, mbLeave d.2 x)
        else
          let timeout := if mb.timeoutMs ≠ 0 then mb.timeoutMs else mbTimeoutMs
          let t := nowUs env d.2
          (.inr ⟨it, t.1 + timeout.toUInt64 * 1000, pkt, r.2.1⟩, t.2)

/-- `exec_mailbox` from its entry to the wait loop: the status it returns at once, or the frame in
which it waits. -/
def execMailboxStart (g : Daemon) (it : Ptr) : (Status ⊕ MbFrame) × Daemon :=
  let x := g.item it
  let agent := Agent.request x.rid x.c
  let mb := Mb.decode (x.body.read 0 mbSize)
  let pkt := env.pkt g.io.nPkt
  let g := { g with io := { g.io with nPkt := g.io.nPkt + 1 } }
  if mbMax < mb.payloadLen.toNat ∨ 4 ≤ mb.slice.toNat then (.inl .einval, g)
  else
    let pkt := buildPacket pkt mb (x.body.read mbSize mb.payloadLen.toNat)
    let r := mbRd env cfg g agent mb.slice mbFlag 0
    if !r.1 then (.inl .eio, r.2.2)
    else if r.2.1 &&& mbFBusy ≠ 0 then (.inl .ebusy, r.2.2)
    else
      let g := { r.2.2 with mbInflight := true }.emit (.mbSet x.rid x.c r.2.2.mbInflight)
      execMailboxRequest env cfg g it mb pkt

/-- What `exec_mailbox` makes of the response in its packet buffer: its length is `len`. -/
def mbDecode (pkt : Block pktSize) (len : UInt16) : Status × List UInt8 :=
  let n := len.toNat
  let crc := (pkt.get (n - 2)).toUInt16 ||| (pkt.get (n - 1)).toUInt16 <<< 8
  if crc16Ccitt (pkt.read 0 (n - mbCrcLen)) ≠ crc then (.ecrc, [])
  else (.ok, pkt.read mbHdrLen (n - mbHdrLen - mbCrcLen))

/-- The end of `exec_mailbox`, from the response flag on: the status and the payload. -/
def execMailboxFinish (g : Daemon) (f : MbFrame) (v : UInt32) : (Status × List UInt8) × Daemon :=
  let x := g.item f.it
  let agent := Agent.request x.rid x.c
  let mb := Mb.decode (x.body.read 0 mbSize)
  let r := mbRd env cfg g agent mb.slice mbRespAddr v
  if !r.1 then ((.eio, []), mbLeave r.2.2 x)
  else
    let len := (r.2.1 >>> 16).toUInt16
    if len.toNat < mbHdrLen + mbCrcLen ∨ mbHdrLen + mbMax + mbCrcLen < len.toNat then
      let c := mbWr env cfg r.2.2 agent mb.slice mbFlag mbClrResp
      ((.einval, []), mbLeave c.2 x)
    else
      let w := mbReadWords env cfg agent mb.slice (wordCount len - 1) 1
        (f.pkt.write 0 (le32 r.2.1)) r.2.1 r.2.2
      match w.1 with
      | none => ((.eio, []), mbLeave w.2 x)
      | some pkt =>
        let c := mbWr env cfg w.2 agent mb.slice mbFlag mbClrResp
        let g := mbLeave c.2 x
        let d := mbDecode pkt len
        -- `mb->cmd = pkt[0]` on success only
        if d.1 = .ok then (d, g.setBody f.it ((g.item f.it).body.write 1 [pkt.get 0])) else (d, g)

/-- One round of the wait loop: what the call returns, or the frame in which it goes on waiting
after `drain_queues(4)`. -/
def execMailboxPoll (g : Daemon) (f : MbFrame) : ((Status × List UInt8) ⊕ MbFrame) × Daemon :=
  let x := g.item f.it
  let agent := Agent.request x.rid x.c
  let mb := Mb.decode (x.body.read 0 mbSize)
  let r := mbRd env cfg g agent mb.slice mbFlag f.v
  if !r.1 then (.inl (.eio, []), mbLeave r.2.2 x)
  else if r.2.1 &&& mbFResp ≠ 0 then
    let d := execMailboxFinish env cfg r.2.2 f r.2.1
    (.inl d.1, d.2)
  else
    let t := nowUs env r.2.2
    if f.tEnd < t.1 then
      let c := mbWr env cfg t.2 agent mb.slice mbFlag mbClrReq
      (.inl (.etimedout, []), mbLeave c.2 x)
    else (.inr { f with v := r.2.1 }, t.2)

end

end Spid

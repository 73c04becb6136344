import SpidevProxy.Lib.History
import SpidevProxy.Machine

set_option relaxedAutoImplicit false
set_option autoImplicit false

/-!
# The daemon as a protocol

What the daemon is for, event by event: requests are received, queued by priority, picked when the
claim allows it, executed, and answered. There are no pointers, buffers or counters here, only the
requests themselves, who is connected, who holds the claim, which mailbox calls wait, and what is
being done at the moment. Every event of a run is one transition of `Spid.Step`, so that the
transitions see inside a request, where the steps of the state machine do not.

## Main definitions

* `Spid.Req` — a request as it was received, with what its body asks for.
* `Spid.Progress`, `Spid.Activity`, `Spid.Abs` — how far a request has come, what is going on, the
  state.
* `Spid.Touch`, `Spid.Wake`, `Spid.Answer` — the register accesses of a request, the end of a
  mailbox wait, the possible answers.
* `Spid.Step` — the transitions.
-/

namespace Spid

open Bytes

/-! ## Requests -/

/-- The type of a request. -/
def Entry.kind (e : Entry) : Option MsgType := MsgType.ofCode e.hdr.type

/-- A request with the bytes of its body. -/
structure Req extends Entry where
  body : List UInt8
  deriving DecidableEq

namespace Req

/-- The length of the body according to the header. -/
def len (r : Req) : ℕ := r.hdr.len.toNat

/-- The agent of the accesses made for a request. -/
def agent (r : Req) : Agent := .request r.rid r.c

/-- The register operations in the body from offset `off` on. -/
def opsFrom (r : Req) (off n : ℕ) : List Op :=
  (List.range n).map fun i => Op.decode ((r.body.drop (off + opSize * i)).take opSize)

/-- The claim structure of a `CLAIM`. -/
def claimReq (r : Req) : ClaimReq := ClaimReq.decode (r.body.take claimSize)

/-- The cleanup list of a `CLAIM`. -/
def cleanup (r : Req) : List Op := r.opsFrom claimSize r.claimReq.ncleanup.toNat

/-- The mailbox structure of a `MAILBOX`. -/
def mb (r : Req) : Mb := Mb.decode (r.body.take mbSize)

/-- The length of the body fits the type of the request. -/
def sized (r : Req) : Bool :=
  match r.kind with
  | some .read => r.len = opSize
  | some .write => r.len = opSize
  | some .batch => 1 ≤ r.len / opSize && r.len / opSize ≤ batchMax && r.len % opSize = 0
  | some .claim => claimSize ≤ r.len && r.claimReq.ncleanup.toNat ≤ batchMax &&
      r.len = claimSize + r.claimReq.ncleanup.toNat * opSize
  | some .mailbox => r.len = mbSize + r.mb.payloadLen.toNat
  | some .reset => r.len = resetSize
  | _ => true

/-- The register operations a request asks for, the type of a single one set by the type of the
request; `none` for a request that is not `READ`, `WRITE` or `BATCH`. -/
def ops (r : Req) : Option (List Op) :=
  match r.kind with
  | some .read => some ((r.opsFrom 0 1).map fun op => { op with write := 0 })
  | some .write => some ((r.opsFrom 0 1).map fun op => { op with write := 1 })
  | some .batch => some (r.opsFrom 0 (r.len / opSize))
  | _ => none

/-- A `MAILBOX` that `exec_mailbox` does not turn down at once. -/
def inRange (r : Req) : Bool := r.mb.payloadLen.toNat ≤ mbMax && r.mb.slice.toNat < 4

/-- The request packet of a `MAILBOX`. -/
def packet (r : Req) : List UInt8 :=
  let p := [r.mb.cmd, 0xff] ++ le16 r.mb.pktLen ++ (r.body.drop mbSize).take r.mb.payloadLen.toNat
  p ++ le16 (crc16Ccitt p)

/-- The body of the answer to a `MAILBOX`. -/
def mbReply (r : Req) (cmd : UInt8) (payload : List UInt8) : List UInt8 :=
  { r.mb with cmd := cmd, payloadLen := UInt16.ofNat payload.length }.encode ++ payload

end Req

/-- `item_eligible` for a request while `owner` holds the claim. -/
def eligible (owner : Option Slot) (e : Entry) : Bool :=
  owner = none || owner = some e.c ||
    (MsgType.claim.code ≤ e.hdr.type && e.hdr.type ≠ MsgType.mailbox.code)

/-! ## Responses of the mailbox -/

/-- The length field of a response whose words so far are `ws`. -/
def respLen (ws : List UInt32) : UInt16 := (ws.headD 0 >>> 16).toUInt16

/-- The length field of the response is one that `exec_mailbox` accepts. -/
def respSized (ws : List UInt32) : Bool :=
  mbHdrLen + mbCrcLen ≤ (respLen ws).toNat && (respLen ws).toNat ≤ mbHdrLen + mbMax + mbCrcLen

/-- Another word of the response is to be read. -/
def respMore (ws : List UInt32) : Bool :=
  ws.isEmpty || (respSized ws && ws.length < wordCount (respLen ws))

/-- The status, the response id and the payload that a response stands for; `cmd` is the id kept
when it is not accepted. -/
def respOutcome (cmd : UInt8) (ws : List UInt32) : Status × UInt8 × List UInt8 :=
  let p := ws.flatMap le32
  let n := (respLen ws).toNat
  if !respSized ws then (.einval, cmd, [])
  else if crc16Ccitt (p.take (n - mbCrcLen)) ≠ ofLe16 (p.drop (n - mbCrcLen)) then (.ecrc, cmd, [])
  else (.ok, p.getD 0 0, (p.drop mbHdrLen).take (n - mbHdrLen - mbCrcLen))

/-! ## States -/

/-- How far the request being executed has come. -/
inductive Progress
  /-- The operations executed so far, as they were returned, and the status of the last one. -/
  | ops (out : List Op) (st : Status)
  /-- `exec_mailbox` has found the mailbox free. -/
  | checked
  /-- It has set `g.mb_inflight` and written these words of the packet. -/
  | request (ws : List UInt32)
  /-- It has read the interrupt mask. -/
  | masked (ws : List UInt32) (v : UInt32)
  /-- It is about to ring the doorbell. -/
  | armed (ws : List UInt32)
  /-- It has seen the response flag and read these words of the response. -/
  | response (ws : List UInt32)
  /-- It is about to clear `g.mb_inflight` and to return. -/
  | leave (st : Status) (cmd : UInt8) (payload : List UInt8)
  /-- Only the answer is left. -/
  | answer (st : Status) (body : List UInt8)

/-- What is going on: nothing, the framing of a datagram, the execution of a request, or the rest of
a cleanup list. -/
inductive Activity
  | idle
  | received (rid : ℕ) (c : Slot) (msg : List UInt8)
  | exec (r : Req) (p : Progress)
  | cleaning (rid : ℕ) (c : Slot) (todo : List Op)

/-- The state: the open connections, the queues, the mailbox calls that wait (innermost first), the
claim, `g.mb_inflight`, and what is going on. -/
structure Abs where
  conn : Slot → Option ℕ
  queue : Fin 3 → List Req
  waiting : List Req
  claim : Claim
  inflight : Bool
  nConn : ℕ
  nRecv : ℕ
  act : Activity

namespace Abs

/-- The state in which `main` enters its loop. -/
def init : Abs where
  conn := fun _ => none
  queue := fun _ => []
  waiting := []
  claim := ⟨none, 0, [], 0⟩
  inflight := false
  nConn := 0
  nRecv := 0
  act := .idle

/-- The queued requests, queue by queue. -/
def queued (a : Abs) : List Req := a.queue 0 ++ a.queue 1 ++ a.queue 2

/-- The claim after `claim_end`. -/
def ended (a : Abs) : Claim := { a.claim with owner := none, deadline := 0, cleanup := [] }

/-- The state with the operations `todo` of the cleanup list left: with none, the claim is over. -/
def cleaning (a : Abs) (rid : ℕ) (c : Slot) : List Op → Abs
  | [] => { a with claim := a.ended, act := .idle }
  | op :: todo => { a with act := .cleaning rid c (op :: todo) }

/-- A register access in this state. -/
def access (a : Abs) (agent : Agent) (write : Bool) (slice mmd : UInt8) (reg : UInt16)
    (val : UInt32) (ok : Bool) : Access :=
  ⟨agent, write, slice, mmd, reg, val, ok, a.claim.owner, a.inflight⟩

/-- An access of `mb_rd` or `mb_wr` for a `MAILBOX`. -/
def mbAccess (a : Abs) (r : Req) (write : Bool) (reg : UInt16) (val : UInt32) (ok : Bool) :
    Access :=
  a.access r.agent write r.mb.slice mmdGlobal reg val ok

end Abs

/-! ## Transitions -/

/-- An access during the execution of a request, and how far the request has come by it. -/
inductive Touch (a : Abs) (r : Req) : Progress → Access → Progress → Prop
  /-- `exec_op` on the next operation. -/
  | op {ops out : List Op} {op : Op} {val : UInt32} {ok : Bool} (hops : r.ops = some ops)
      (hsized : r.sized = true) (hop : ops[out.length]? = some op)
      (hok : opRefusal a.inflight (some r.c) op = none)
      (hval : op.write ≠ 0 ∨ ok = false → val = op.val) :
      Touch a r (.ops out .ok)
        (a.access r.agent (op.write ≠ 0) op.slice op.mmd op.reg val ok)
        (.ops (out ++ [op.after val]) (if ok then .ok else .eio))
  /-- The first look at `MB_FLAG`. -/
  | probe {v : UInt32} {ok : Bool} (hk : r.kind = some .mailbox) (hsized : r.sized = true)
      (hr : r.inRange = true) :
      Touch a r (.ops [] .ok) (a.mbAccess r false mbFlag v ok)
        (if !ok then .answer .eio (r.mbReply r.mb.cmd [])
          else if v &&& mbFBusy ≠ 0 then .answer .ebusy (r.mbReply r.mb.cmd [])
          else .checked)
  /-- A word of the request packet; bytes of the last word behind the packet are arbitrary. -/
  | word {ws : List UInt32} {v : UInt32} {ok : Bool} (hws : ws.length < wordCount r.mb.pktLen)
      (hv : (le32 v).take (r.packet.length - 4 * ws.length) =
        (r.packet.drop (4 * ws.length)).take 4) :
      Touch a r (.request ws) (a.mbAccess r true (mbCmdAddr + UInt16.ofNat ws.length) v ok)
        (if ok then .request (ws ++ [v]) else .leave .eio r.mb.cmd [])
  /-- The interrupt mask is read. -/
  | mask {ws : List UInt32} {v : UInt32} {ok : Bool} (hws : ws.length = wordCount r.mb.pktLen) :
      Touch a r (.request ws) (a.mbAccess r false mbMcuMask v ok)
        (if ok then .masked ws v else .leave .eio r.mb.cmd [])
  /-- The interrupt is enabled. -/
  | enable {ws : List UInt32} {v : UInt32} {ok : Bool} :
      Touch a r (.masked ws v) (a.mbAccess r true mbMcuMask (v ||| 1) ok)
        (if ok then .armed ws else .leave .eio r.mb.cmd [])
  /-- The doorbell fails. -/
  | noBell {ws : List UInt32} :
      Touch a r (.armed ws) (a.mbAccess r true mbFlag mbSetReq false) (.leave .eio r.mb.cmd [])
  /-- A word of the response. -/
  | fetch {ws : List UInt32} {v : UInt32} {ok : Bool} (hws : respMore ws = true) :
      Touch a r (.response ws) (a.mbAccess r false (mbRespAddr + UInt16.ofNat ws.length) v ok)
        (if ok then .response (ws ++ [v]) else .leave .eio r.mb.cmd [])
  /-- The response flag is cleared, whether the write succeeds or not. -/
  | clear {ws : List UInt32} {ok : Bool} (hws : respMore ws = false) :
      Touch a r (.response ws) (a.mbAccess r true mbFlag mbClrResp ok)
        (.leave (respOutcome r.mb.cmd ws).1 (respOutcome r.mb.cmd ws).2.1
          (respOutcome r.mb.cmd ws).2.2)

/-- The access that ends the wait of a mailbox call, and how the call goes on. -/
inductive Wake (a : Abs) (r : Req) : Access → Progress → Prop
  | fail {v : UInt32} : Wake a r (a.mbAccess r false mbFlag v false) (.leave .eio r.mb.cmd [])
  | resp {v : UInt32} (hv : v &&& mbFResp ≠ 0) :
      Wake a r (a.mbAccess r false mbFlag v true) (.response [])
  | timeout {ok : Bool} :
      Wake a r (a.mbAccess r true mbFlag mbClrReq ok) (.leave .etimedout r.mb.cmd [])

/-- The answers that a request may get when it has come so far; `rst` tells whether there is a reset
line. -/
inductive Answer (rst : Bool) (owner : Option Slot) (r : Req) :
    Progress → Status → List UInt8 → Prop
  | done {st : Status} {body : List UInt8} : Answer rst owner r (.answer st body) st body
  | ops {ops out : List Op} {st : Status} (hops : r.ops = some ops) (hsized : r.sized = true)
      (hne : out ≠ []) (hlen : out.length ≤ ops.length)
      (hst : st = .ok → out.length = ops.length) :
      Answer rst owner r (.ops out st) st ((out ++ ops.drop out.length).flatMap Op.encode)
  | invalid (h : r.sized = false) : Answer rst owner r (.ops [] .ok) .einval []
  | claimed {d : Slot} (hk : r.kind = some .claim) (hsized : r.sized = true)
      (ho : owner = some d) (hd : d ≠ r.c) : Answer rst owner r (.ops [] .ok) .ebusy []
  | released (hk : r.kind = some .release) (ho : owner ≠ some r.c) :
      Answer rst owner r (.ops [] .ok) .ok []
  | outOfRange (hk : r.kind = some .mailbox) (hsized : r.sized = true) (hr : r.inRange = false) :
      Answer rst owner r (.ops [] .ok) .einval (r.mbReply r.mb.cmd [])
  | text {body : List UInt8} (hk : r.kind = some .stats ∨ r.kind = some .trace) :
      Answer rst owner r (.ops [] .ok) .ok body
  | noLine (hk : r.kind = some .reset) (hsized : r.sized = true) (hrst : rst = false) :
      Answer rst owner r (.ops [] .ok) .enosys []
  | unknown (hk : r.kind = some .tsfifoSub ∨ r.kind = some .berWindow ∨ r.kind = some .dfu ∨
      r.kind = none) : Answer rst owner r (.ops [] .ok) .enosys []

/-- The header that answers a datagram. -/
def frameHdr (msg : List UInt8) : Hdr := if hdrSize ≤ msg.length then Hdr.decode msg else badHdr

/-- The request in a datagram that passes the framing check. -/
def frameReq (rid : ℕ) (c : Slot) (msg : List UInt8) : Req :=
  ⟨⟨rid, c, Hdr.decode msg⟩, msg.drop hdrSize⟩

/-- A datagram that passes the framing check has the length its header says. -/
lemma frameOk_len {msg : List UInt8} (h : frameOk msg = true) :
    (Hdr.decode msg).len.toNat = (msg.drop hdrSize).length ∧
      (Hdr.decode msg).len.toNat ≤ msgMax ∧ hdrSize ≤ msg.length := by
  simp only [frameOk, Bool.and_eq_true, decide_eq_true_eq] at h
  rw [List.length_drop]
  exact ⟨h.1.2, h.2, h.1.1.1⟩

/-- **The transitions of the daemon**, one for each event. -/
inductive Step (rst : Bool) : Abs → Event → Abs → Prop
  | note {a : Abs} {e : Event} (h : e.isNote = true) : Step rst a e a
  | connect {a : Abs} {c : Slot} (hact : a.act = .idle) (hw : a.waiting = [])
      (hc : a.conn c = none) :
      Step rst a (.connect c a.nConn)
        { a with conn := Function.update a.conn c (some a.nConn), nConn := a.nConn + 1 }
  | disconnect {a : Abs} {c : Slot} {fd : ℕ} (hact : a.act = .idle) (hw : a.waiting = [])
      (hc : a.conn c = some fd) (ho : a.claim.owner ≠ some c) :
      Step rst a (.disconnect c fd)
        { a with conn := Function.update a.conn c none
                 queue := fun q => (a.queue q).filter fun r => !decide (r.c = c) }
  | recv {a : Abs} {c : Slot} {fd : ℕ} {msg : List UInt8} (hact : a.act = .idle)
      (hw : a.waiting = []) (hc : a.conn c = some fd) (hm : msg ≠ []) :
      Step rst a (.recv a.nRecv c fd msg)
        { a with nRecv := a.nRecv + 1, act := .received a.nRecv c msg }
  | reject {a : Abs} {rid : ℕ} {c : Slot} {msg : List UInt8} {fd : ℕ} {st : Status}
      (hact : a.act = .received rid c msg) (hc : a.conn c = some fd)
      (hst : st = if frameOk msg then .ebusy else .einval) :
      Step rst a (.send rid c fd ((frameHdr msg).type ||| respBit) st (frameHdr msg).seq [])
        { a with act := .idle }
  | enqueue {a : Abs} {rid : ℕ} {c : Slot} {msg : List UInt8}
      (hact : a.act = .received rid c msg) (hok : frameOk msg = true) :
      Step rst a
        (.enqueue (frameReq rid c msg).toEntry (frameReq rid c msg).body a.claim.owner)
        { a with
          queue := Function.update a.queue (Hdr.decode msg).prio
            (a.queue (Hdr.decode msg).prio ++ [frameReq rid c msg])
          act := .idle }
  | claimEnd {a : Abs} {c : Slot} {how : ClaimEnd} (hact : a.act = .idle) (hw : a.waiting = [])
      (ho : a.claim.owner = some c) (hh : how.abnormal = true) :
      Step rst a (.claimEnd a.claim.rid c how) (a.cleaning a.claim.rid c a.claim.cleanup)
  | cleanupAccess {a : Abs} {rid : ℕ} {c : Slot} {op : Op} {todo : List Op} {val : UInt32}
      {ok : Bool} (hact : a.act = .cleaning rid c (op :: todo))
      (hok : opRefusal a.inflight none op = none)
      (hval : op.write ≠ 0 ∨ ok = false → val = op.val) :
      Step rst a (.access (a.access (.cleanup rid c) (op.write ≠ 0) op.slice op.mmd op.reg val ok))
        (a.cleaning rid c todo)
  | cleanupRefused {a : Abs} {rid : ℕ} {c : Slot} {op : Op} {todo : List Op} {st : Status}
      (hact : a.act = .cleaning rid c (op :: todo))
      (hst : opRefusal a.inflight none op = some st) :
      Step rst a (.refused (.cleanup rid c) op st) (a.cleaning rid c todo)
  | dispatch {a : Abs} {q : Fin 3} {pre post : List Req} {r : Req} (hact : a.act = .idle)
      (hq : a.queue q = pre ++ r :: post) (hr : eligible a.claim.owner r.toEntry = true)
      (hpre : ∀ r' ∈ pre, eligible a.claim.owner r'.toEntry = false)
      (hlt : ∀ q' < q, ∀ r' ∈ a.queue q', eligible a.claim.owner r'.toEntry = false) :
      Step rst a
        (.dispatch r.toEntry r.body a.claim.owner (a.waiting.map Req.toEntry)
          ((Abs.queued { a with queue := Function.update a.queue q (pre ++ post) }).map
            Req.toEntry))
        { a with queue := Function.update a.queue q (pre ++ post), act := .exec r (.ops [] .ok) }
  | access {a : Abs} {r : Req} {p p' : Progress} {x : Access} (hact : a.act = .exec r p)
      (h : Touch a r p x p') : Step rst a (.access x) { a with act := .exec r p' }
  | doorbell {a : Abs} {r : Req} {ws : List UInt32} (hact : a.act = .exec r (.armed ws)) :
      Step rst a (.access (a.mbAccess r true mbFlag mbSetReq true))
        { a with waiting := r :: a.waiting, act := .idle }
  | poll {a : Abs} {r : Req} {rest : List Req} {v : UInt32} (hact : a.act = .idle)
      (hw : a.waiting = r :: rest) (hv : v &&& mbFResp = 0) :
      Step rst a (.access (a.mbAccess r false mbFlag v true)) a
  | wake {a : Abs} {r : Req} {rest : List Req} {p : Progress} {x : Access} (hact : a.act = .idle)
      (hw : a.waiting = r :: rest) (h : Wake a r x p) :
      Step rst a (.access x) { a with waiting := rest, act := .exec r p }
  | refused {a : Abs} {r : Req} {ops out : List Op} {op : Op} {st : Status}
      (hact : a.act = .exec r (.ops out .ok)) (hops : r.ops = some ops) (hsized : r.sized = true)
      (hop : ops[out.length]? = some op) (hst : opRefusal a.inflight (some r.c) op = some st) :
      Step rst a (.refused r.agent op st) { a with act := .exec r (.ops (out ++ [op]) st) }
  | mbSet {a : Abs} {r : Req} (hact : a.act = .exec r .checked) :
      Step rst a (.mbSet r.rid r.c a.inflight)
        { a with inflight := true, act := .exec r (.request []) }
  | mbClear {a : Abs} {r : Req} {st : Status} {cmd : UInt8} {payload : List UInt8}
      (hact : a.act = .exec r (.leave st cmd payload)) :
      Step rst a (.mbClear r.rid r.c)
        { a with inflight := false, act := .exec r (.answer st (r.mbReply cmd payload)) }
  | grant {a : Abs} {r : Req} {deadline : UInt64} (hact : a.act = .exec r (.ops [] .ok))
      (hk : r.kind = some .claim) (hsized : r.sized = true)
      (ho : a.claim.owner = none ∨ a.claim.owner = some r.c) :
      Step rst a (.grant r.toEntry deadline r.cleanup)
        { a with claim := ⟨some r.c, deadline, r.cleanup, r.rid⟩, act := .exec r (.answer .ok []) }
  | release {a : Abs} {r : Req} (hact : a.act = .exec r (.ops [] .ok))
      (hk : r.kind = some .release) (ho : a.claim.owner = some r.c) :
      Step rst a (.claimEnd a.claim.rid r.c .release)
        { a with claim := a.ended, act := .exec r (.answer .ok []) }
  | reset {a : Abs} {r : Req} {assertUs deassertUs : UInt32} (hact : a.act = .exec r (.ops [] .ok))
      (hk : r.kind = some .reset) (hsized : r.sized = true) (hrst : rst = true) :
      Step rst a
        (.reset r.toEntry a.claim.owner (a.waiting.map Req.toEntry) assertUs deassertUs)
        { a with inflight := false, act := .exec r (.answer .ok []) }
  | send {a : Abs} {r : Req} {p : Progress} {st : Status} {body : List UInt8} {fd : ℕ}
      (hact : a.act = .exec r p) (hc : a.conn r.c = some fd)
      (h : Answer rst a.claim.owner r p st body) :
      Step rst a (.send r.rid r.c fd (r.hdr.type ||| respBit) st r.hdr.seq body)
        { a with act := .idle }

/-- A run of the protocol from the start. -/
abbrev Run (rst : Bool) (es : List Event) (a : Abs) : Prop :=
  History.Steps (Step rst) Abs.init es a

end Spid

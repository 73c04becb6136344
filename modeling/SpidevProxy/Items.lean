import SpidevProxy.Mailbox

set_option relaxedAutoImplicit false
set_option autoImplicit false

/-!
# Requests

`send_resp`, `claim_end` and `exec_item` with all its branches. A `MAILBOX` request whose call of
`exec_mailbox` has to wait leaves `exec_item` unfinished: `Spid.execItem` then returns the frame,
and `Spid.mailboxReply` is the rest of the branch, run when the call returns.

## Main definitions

* `Spid.sendResp`, `Spid.claimEnd`.
* `Spid.statsText`, `Spid.traceText` — the texts of `STATS` and `TRACE`, printed into a buffer of
  4096 bytes.
* `Spid.execItem`, `Spid.mailboxReply`.
-/

namespace Spid

open Bytes

section

variable (env : Env) (cfg : Config)

/-! ## Messages -/

/-- `send_resp`: the answer to datagram `rid` of client `c`, whose header is `req`. -/
def sendResp (g : Daemon) (rid : ℕ) (c : Slot) (req : Hdr) (st : Status) (body : List UInt8) :
    Daemon :=
  let ok := env.send g.io.nSend
  let g := { g with io := { g.io with nSend := g.io.nSend + 1 } }.emit
    (.send rid c (g.cl c).fd (req.type ||| respBit) st req.seq body)
  if ok then g else g.setClient c { g.cl c with nErr := (g.cl c).nErr + 1 }

/-! ## Claims -/

/-- The loop over `g.claim_cleanup`: every operation is executed, whatever the status of the
earlier ones. -/
def runCleanup (agent : Agent) : List Op → Daemon → Daemon
  | [], g => g
  | op :: ops, g => runCleanup agent ops (execOp env cfg g agent none op).2.2

/-- `claim_end`. Its callers have checked that there is an owner. -/
def claimEnd (g : Daemon) (how : ClaimEnd) : Daemon :=
  match g.claim.owner with
  | none => { g with claim := { g.claim with owner := none, deadline := 0, cleanup := [] } }
  | some c =>
    let g := g.emit (.claimEnd g.claim.rid c how)
    let g := if how.abnormal && !g.claim.cleanup.isEmpty then
        let g := { g with lctx := ⟨(g.cl c).id, (g.cl c).comm, 0, .cleanup⟩ }
        let g := runCleanup env cfg (.cleanup g.claim.rid c) g.claim.cleanup g
        { g with lctx := { g.lctx with tag := .none } }
      else g
    { g with claim := { g.claim with owner := none, deadline := 0, cleanup := [] } }

/-! ## Texts -/

/-- A text buffer that `snprintf` appends to: the memory from the buffer on, and the length that
the calls have returned so far, which may exceed what was stored. -/
structure Txt where
  mem : ℕ → UInt8
  len : ℕ

/-- The size argument `sizeof(txt) - len`, in `size_t` arithmetic. -/
def Txt.room (t : Txt) : ℕ := (msgMax + 2 ^ 64 - t.len % 2 ^ 64) % 2 ^ 64

/-- `len += snprintf(txt + len, sizeof(txt) - len, ...)`: what does not fit in the room given is
cut, and a null byte is stored behind what is kept. -/
def Txt.snprintf (t : Txt) (s : Text) : Txt where
  mem := fun i =>
    let kept := min s.length (t.room - 1)
    if t.len ≤ i ∧ i < t.len + kept then UInt8.ofNat (s.getD (i - t.len) ' ').toNat
    else if i = t.len + kept ∧ 0 < t.room then 0
    else t.mem i
  len := t.len + s.length

/-- The first `len` bytes of a text buffer. -/
def Txt.bytes (t : Txt) : List UInt8 := (List.range t.len).map t.mem

/-- `%u`, `%llu`. -/
def dec (n : ℕ) : Text := Nat.toDigits 10 n

/-- `%d`. -/
def decInt (z : ℤ) : Text := if z < 0 then '-' :: dec z.natAbs else dec z.natAbs

/-- `%0<w>x`. -/
def hex (w n : ℕ) : Text :=
  let d := Nat.toDigits 16 n
  List.replicate (w - d.length) '0' ++ d

/-- The first line of `STATS`. -/
def statsHead (g : Daemon) : Text :=
  "dev=".toList ++ cfg.dev ++ " freq=".toList ++ dec cfg.freq ++ " pad=".toList ++ dec cfg.pad ++
    " rst=".toList ++ (if cfg.rst then cfg.rstLine.getD "on".toList else "off".toList) ++
    " reads=".toList ++ dec g.io.nReads.toNat ++ " writes=".toList ++ dec g.io.nWrites.toNat ++
    " io_err=".toList ++ dec g.io.nIoErr.toNat ++ " warns=".toList ++
    dec g.io.lint.nWarns.toNat ++ " queued=".toList ++ decInt g.pool.count ++
    " claim=".toList ++ dec ((g.claim.owner.map fun c => (g.cl c).id.toNat).getD 0) ++
    " mb_inflight=".toList ++ dec g.mbInflight.toNat ++ "\n".toList

/-- A client line of `STATS`. -/
def statsClient (x : Client) : Text :=
  "client ".toList ++ dec x.id.toNat ++ "(".toList ++ x.comm ++ ") pid ".toList ++ decInt x.pid ++
    " msgs=".toList ++ dec x.nMsgs.toNat ++ " ops=".toList ++ dec x.nOps.toNat ++
    " err=".toList ++ dec x.nErr.toNat ++ "\n".toList

/-- The text of `STATS`. -/
def statsText (g : Daemon) : Txt :=
  ((List.finRange 16).filter fun c => (g.cl c).used).foldl
    (fun t c => t.snprintf (statsClient (g.cl c)))
    (Txt.snprintf ⟨fun _ => 0, 0⟩ (statsHead cfg g))

/-- A line of `TRACE`. -/
def traceLine (e : TraceEnt) : Text :=
  dec e.ts.toNat ++ " c".toList ++ dec e.cid.toNat ++ " ".toList ++
    [if e.write ≠ 0 then 'W' else 'R'] ++ " ".toList ++ dec e.slice.toNat ++ " ".toList ++
    hex 2 e.mmd.toNat ++ " ".toList ++ hex 4 e.reg.toNat ++ " ".toList ++ hex 8 e.val.toNat ++
    "\n".toList

/-- The loop of `TRACE` over `k` entries of the ring from `w` on; it stops when a line might not
fit. -/
def traceLoop (io : Io) : ℕ → ℕ → Txt → Txt
  | 0, _, t => t
  | k + 1, w, t =>
    if t.len < msgMax - 64 then
      traceLoop io k (w + 1) (t.snprintf (traceLine (io.ring (Fin.ofNat 1024 (w % 1024)))))
    else t

/-- One round of the loop. -/
lemma traceLoop_succ (io : Io) (k w : ℕ) (t : Txt) : traceLoop io (k + 1) w t =
    if t.len < msgMax - 64 then
      traceLoop io k (w + 1) (t.snprintf (traceLine (io.ring (Fin.ofNat 1024 (w % 1024)))))
    else t :=
  rfl

/-- The text of `TRACE`: the last `TRACE_TAIL_MAX` entries below the write index. -/
def traceText (io : Io) : Txt :=
  let w := io.ringW.toNat
  let start := if 64 < w then w - 64 else 0
  traceLoop io (w - start) start ⟨fun _ => 0, 0⟩

/-! ## The dispatcher -/

/-- Operation `i` of the array that starts at offset `off` of a body. -/
def opAt (b : Block msgMax) (off i : ℕ) : Op := Op.decode (b.read (off + opSize * i) opSize)

/-- `exec_op` on operation `i` of the body of an item, in place. -/
def execBodyOp (g : Daemon) (it : Ptr) (i : ℕ) : Status × Daemon :=
  let x := g.item it
  let r := execOp env cfg g (.request x.rid x.c) (some x.c) (opAt x.body 0 i)
  (r.1, r.2.2.setBody it ((r.2.2.item it).body.write (opSize * i) r.2.1.encode))

/-- The loop of `BATCH` over `k` operations from `i` on: it stops after the first one whose status
is not OK. The number of operations executed is returned with the status. -/
def batchLoop (it : Ptr) : ℕ → ℕ → Daemon → Status × ℕ × Daemon
  | 0, i, g => (.ok, i, g)
  | k + 1, i, g =>
    let r := execBodyOp env cfg g it i
    if r.1 = .ok then batchLoop it k (i + 1) r.2 else (r.1, i + 1, r.2)

/-- `c->n_ops += n`. -/
def addOps (g : Daemon) (c : Slot) (n : ℕ) : Daemon :=
  g.setClient c { g.cl c with nOps := (g.cl c).nOps + UInt64.ofNat n }

/-- Answer the request in an item. -/
def reply (g : Daemon) (it : Ptr) (st : Status) (body : List UInt8) : Daemon :=
  sendResp env g (g.item it).rid (g.item it).c (g.item it).hdr st body

/-- The branch `READ`, `WRITE`. -/
def execReadWrite (g : Daemon) (it : Ptr) (write : UInt8) : Daemon :=
  let x := g.item it
  if x.hdr.len.toNat ≠ opSize then reply env g it .einval []
  else
    let r := execBodyOp env cfg (g.setBody it (x.body.write 1 [write])) it 0
    let g := addOps r.2 x.c 1
    reply env g it r.1 ((g.item it).body.read 0 opSize)

/-- The branch `BATCH`. -/
def execBatch (g : Daemon) (it : Ptr) : Daemon :=
  let x := g.item it
  let n := x.hdr.len.toNat / opSize
  if n < 1 ∨ batchMax < n ∨ x.hdr.len.toNat % opSize ≠ 0 then reply env g it .einval []
  else
    let r := batchLoop env cfg it n 0 g
    let g := addOps r.2.2 x.c r.2.1
    reply env g it r.1 ((g.item it).body.read 0 x.hdr.len.toNat)

/-- The length check of `CLAIM`. -/
def claimValid (h : Hdr) (b : Block msgMax) : Bool :=
  let cl := ClaimReq.decode (b.read 0 claimSize)
  claimSize ≤ h.len.toNat && cl.ncleanup.toNat ≤ batchMax &&
    h.len.toNat = claimSize + cl.ncleanup.toNat * opSize

/-- The cleanup operations of a `CLAIM` body. -/
def claimOps (b : Block msgMax) : List Op :=
  (List.range (ClaimReq.decode (b.read 0 claimSize)).ncleanup.toNat).map (opAt b claimSize)

/-- The branch `CLAIM`. -/
def execClaim (g : Daemon) (it : Ptr) : Daemon :=
  let x := g.item it
  let cl := ClaimReq.decode (x.body.read 0 claimSize)
  if !claimValid x.hdr x.body then reply env g it .einval []
  else if g.claim.owner.isSome && g.claim.owner ≠ some x.c then reply env g it .ebusy []
  else
    let t := nowUs env g
    let deadline := t.1 + cl.maxMs.toUInt64 * 1000
    let g := { t.2 with claim := ⟨some x.c, deadline, claimOps x.body, x.rid⟩ }.emit
      (.grant (g.entry it) deadline (claimOps x.body))
    reply env g it .ok []

/-- The branch `RELEASE`. -/
def execRelease (g : Daemon) (it : Ptr) : Daemon :=
  let g := if g.claim.owner = some (g.item it).c then claimEnd env cfg g .release else g
  reply env g it .ok []

/-- The end of the branch `MAILBOX`, once `exec_mailbox` has returned a status and a payload. -/
def mailboxReply (g : Daemon) (it : Ptr) (st : Status) (payload : List UInt8) : Daemon :=
  let g := g.setBody it ((g.item it).body.write 2 (le16 (UInt16.ofNat payload.length)))
  reply env g it st ((g.item it).body.read 0 mbSize ++ if st = .ok then payload else [])

/-- The length check of `MAILBOX`. -/
def mailboxValid (h : Hdr) (b : Block msgMax) : Bool :=
  h.len.toNat = mbSize + (Mb.decode (b.read 0 mbSize)).payloadLen.toNat

/-- The branch `MAILBOX`. -/
def execMailbox (g : Daemon) (it : Ptr) : Option MbFrame × Daemon :=
  let x := g.item it
  if !mailboxValid x.hdr x.body then (none, reply env g it .einval [])
  else
    let r := execMailboxStart env cfg g it
    match r.1 with
    | .inl st => (none, mailboxReply env r.2 it st [])
    | .inr f => (some f, r.2)

/-- The branch `RESET`. -/
def execReset (g : Daemon) (it : Ptr) : Daemon :=
  let x := g.item it
  if x.hdr.len.toNat ≠ resetSize then reply env g it .einval []
  else if !cfg.rst then reply env g it .enosys []
  else
    let rq := ResetReq.decode (x.body.read 0 resetSize)
    let a := if rq.assertUs ≠ 0 then rq.assertUs else 10000
    let d := if rq.deassertUs ≠ 0 then rq.deassertUs else 100000
    let g := { g with mbInflight := false }.emit (.reset (g.entry it) g.claim.owner g.waiting a d)
    reply env g it .ok []

/-- `exec_item`: the frame in which a mailbox call waits, if it does, and the state. -/
def execItem (g : Daemon) (it : Ptr) : Option MbFrame × Daemon :=
  let x := g.item it
  let g := { g with lctx := ⟨(g.cl x.c).id, (g.cl x.c).comm, x.hdr.seq, .none⟩ }
  match MsgType.ofCode x.hdr.type with
  | some .read => (none, execReadWrite env cfg g it 0)
  | some .write => (none, execReadWrite env cfg g it 1)
  | some .batch => (none, execBatch env cfg g it)
  | some .claim => (none, execClaim env g it)
  | some .release => (none, execRelease env cfg g it)
  | some .mailbox => execMailbox env cfg g it
  | some .stats => (none, reply env g it .ok (statsText cfg g).bytes)
  | some .trace => (none, reply env g it .ok (traceText g.io).bytes)
  | some .reset => (none, execReset env cfg g it)
  | some .tsfifoSub => (none, reply env g it .enosys [])
  | some .berWindow => (none, reply env g it .enosys [])
  | some .dfu => (none, reply env g it .enosys [])
  | none => (none, reply env g it .enosys [])

end

end Spid

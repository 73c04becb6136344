import SpidevProxy.Lib.Pool
import SpidevProxy.Spi

set_option relaxedAutoImplicit false
set_option autoImplicit false

/-!
# The state of the daemon

The global record `g` of `lan80xx_spid.c`, the surroundings of the daemon (device, clock, sockets)
as oracles, and the events that a run leaves behind.

The events, the numbers `rid` of received datagrams, the numbers of connections and the request
that granted the claim are bookkeeping: no branch of the daemon reads them. They name the request
on whose behalf something happens, which the C code leaves to the reader.

## Main definitions

* `Spid.Env`, `Spid.Config` — what the surroundings answer; how `main` was started.
* `Spid.Event` — what a run does, one constructor for each kind of action.
* `Spid.Daemon` — the state, with the call stack of the scheduler explicit.
-/

namespace Spid

open Bytes Intrusive

/-- A pointer into `g.cl`: one of `MAX_CLIENTS` client slots. -/
abbrev Slot : Type := Fin 16

/-- A pointer into `g.pool`: one of `MAX_QITEMS` queue items. -/
abbrev Ptr : Type := Fin 256

/-- A C string or a line of text. -/
abbrev Text : Type := List Char

/-! ## Surroundings -/

/-- The size of the local packet buffer of `exec_mailbox`. -/
def pktSize : ℕ := 1027

/-- The surroundings of a run: what the `k`-th `SPI_IOC_MESSAGE` answers to a frame (`none` when
the `ioctl` fails), what the `k`-th reading of the clock gives, whether the `k`-th `send` succeeds,
and what the uninitialised packet buffer of the `k`-th call of `exec_mailbox` holds. -/
structure Env where
  ioctl : ℕ → List UInt8 → Option Rx
  clock : ℕ → UInt64
  send : ℕ → Bool
  pkt : ℕ → Block pktSize

/-- The configuration `main` reads from its arguments, `rst` telling whether the reset line was
found (`g.rst_fd >= 0`), and the register number of `DEVICE_ID`, which the generated header
`lan80xx_regs.h` supplies. -/
structure Config where
  dev : Text
  freq : ℕ
  pad : ℕ
  rstLine : Option Text
  rst : Bool
  log : Bool
  deviceIdReg : UInt16

/-! ## Events -/

/-- On whose behalf a register is accessed: for a request, or for the cleanup list of the claim
that request `rid` was granted. -/
inductive Agent
  | request (rid : ℕ) (c : Slot)
  | cleanup (rid : ℕ) (c : Slot)
  deriving DecidableEq

/-- The client behind an agent. -/
def Agent.client : Agent → Slot
  | .request _ c => c
  | .cleanup _ c => c

/-- One access to a device register, with the owner of the claim and the mailbox flag at that
moment. `val` is the value written, or the value read when the access succeeds. -/
structure Access where
  agent : Agent
  write : Bool
  slice : UInt8
  mmd : UInt8
  reg : UInt16
  val : UInt32
  ok : Bool
  owner : Option Slot
  inflight : Bool
  deriving DecidableEq

/-- A request as the scheduler sees it. -/
structure Entry where
  rid : ℕ
  c : Slot
  hdr : Hdr
  deriving DecidableEq

/-- Why a claim ends: `RELEASE`, or abnormally. -/
inductive ClaimEnd
  | release
  | disconnect
  | expired
  deriving DecidableEq

/-- The argument of `claim_end`. -/
def ClaimEnd.abnormal : ClaimEnd → Bool
  | .release => false
  | .disconnect => true
  | .expired => true

/-- A warning of the lint layer: the client, the operation, the other client and, where the
warning prints it, the time elapsed. -/
inductive Warning
  | pageRide (cid : UInt32) (op : Op) (owner : UInt32)
  | corPoach (cid : UInt32) (op : Op) (last : UInt32) (elapsed : UInt64)
  | rmwRace (cid : UInt32) (op : Op) (reader : UInt32) (elapsed : UInt64)
  deriving DecidableEq

/-- The tag of a line of the event log: `""`, `"cleanup"` or `"mb"`. -/
inductive Tag
  | none
  | cleanup
  | mb
  deriving DecidableEq

/-- An `OP` line of the event log. -/
structure OpLine where
  cid : UInt32
  comm : Text
  seq : UInt32
  tag : Tag
  write : Bool
  slice : UInt8
  mmd : UInt8
  reg : UInt16
  val : UInt32
  ok : Bool
  deriving DecidableEq

/-- What a run of the daemon does. -/
inductive Event
  /-- `accept_client` filled slot `c` with connection `fd`. -/
  | connect (c : Slot) (fd : ℕ)
  /-- `client_drop` closed connection `fd`. -/
  | disconnect (c : Slot) (fd : ℕ)
  /-- `recv` returned the datagram number `rid` of the run. -/
  | recv (rid : ℕ) (c : Slot) (fd : ℕ) (msg : List UInt8)
  /-- `enqueue` put a request on its queue while `owner` held the claim. -/
  | enqueue (e : Entry) (body : List UInt8) (owner : Option Slot)
  /-- `drain_queues` picked a request, in the presence of these mailbox calls on the stack and
  these requests still queued. -/
  | dispatch (e : Entry) (body : List UInt8) (owner : Option Slot) (waiting queued : List Entry)
  /-- A register access of `exec_op`, `mb_rd` or `mb_wr`. -/
  | access (a : Access)
  /-- `exec_op` refused an operation without touching the device. -/
  | refused (agent : Agent) (op : Op) (st : Status)
  /-- `exec_item` granted the claim. -/
  | grant (e : Entry) (deadline : UInt64) (cleanup : List Op)
  /-- `claim_end` was called for the claim granted to request `rid` of client `c`. -/
  | claimEnd (rid : ℕ) (c : Slot) (how : ClaimEnd)
  /-- `exec_mailbox` set `g.mb_inflight`, which was `was`. -/
  | mbSet (rid : ℕ) (c : Slot) (was : Bool)
  /-- `exec_mailbox` cleared `g.mb_inflight` and returned. -/
  | mbClear (rid : ℕ) (c : Slot)
  /-- `exec_item` cleared `g.mb_inflight` and pulsed the reset line. -/
  | reset (e : Entry) (owner : Option Slot) (waiting : List Entry) (assertUs deassertUs : UInt32)
  /-- `send_resp` answered datagram `rid` on connection `fd`. -/
  | send (rid : ℕ) (c : Slot) (fd : ℕ) (type : UInt8) (status : Status) (seq : UInt32)
      (body : List UInt8)
  /-- A line of the event log. -/
  | opLine (agent : Agent) (line : OpLine)
  /-- `warn_line`. -/
  | warn (w : Warning)
  deriving DecidableEq

/-! ## State -/

/-- `client_t`; `fd` is the number of the connection. -/
structure Client where
  fd : ℕ
  used : Bool
  id : UInt32
  pid : ℤ
  comm : Text
  nOps : UInt64
  nMsgs : UInt64
  nErr : UInt64

/-- `qitem_t` less its link, with the number of the datagram it was made from. -/
structure Item where
  c : Slot
  hdr : Hdr
  body : Block msgMax
  rid : ℕ

/-- `trace_ent_t`. -/
structure TraceEnt where
  ts : UInt64
  cid : UInt32
  slice : UInt8
  write : UInt8
  mmd : UInt8
  reg : UInt16
  val : UInt32

/-- An entry of `g.page_owner`. -/
structure PageOwner where
  cid : UInt32
  comm : Text

/-- An entry of `g.cor_last`. -/
structure CorLast where
  cid : UInt32
  comm : Text
  ts : UInt64

/-- An entry of `g.rd_ring`. -/
structure RdEnt where
  slice : UInt8
  mmd : UInt8
  reg : UInt16
  cid : UInt32
  comm : Text
  ts : UInt64

/-- The lint state. -/
structure Lint where
  pageOwner : Fin 4 → Fin 2 → PageOwner
  corLast : Fin 2 → CorLast
  rdRing : Fin 16 → RdEnt
  rdW : UInt32
  nWarns : UInt64

/-- What register accesses, messages and the clock leave behind: how often each oracle has been
asked, the counters, the trace ring, the lint state and the events. -/
structure Io where
  nIoctl : ℕ
  nClock : ℕ
  nSend : ℕ
  nPkt : ℕ
  nReads : UInt64
  nWrites : UInt64
  nIoErr : UInt64
  ring : Fin 1024 → TraceEnt
  ringW : UInt32
  lint : Lint
  evs : List Event

/-- `g.claim_*`, with the request that was granted the claim last. `cleanup` is the list of the
first `g.claim_ncleanup` entries of `g.claim_cleanup`. -/
structure Claim where
  owner : Option Slot
  deadline : UInt64
  cleanup : List Op
  rid : ℕ

/-- `g.lctx`. -/
structure LogCtx where
  cid : UInt32
  comm : Text
  seq : UInt32
  tag : Tag

/-- A call of `exec_mailbox` in its wait loop: the item it runs for, its deadline, its packet
buffer and its local variable `v`. -/
structure MbFrame where
  it : Ptr
  tEnd : UInt64
  pkt : Block pktSize
  v : UInt32

/-- An activation on the call stack: `drain_queues` with what is left of its budget, or
`exec_mailbox` in its wait loop. -/
inductive Activation
  | drain (budget : ℤ)
  | wait (f : MbFrame)

/-- The state of the daemon. The innermost activation is the first of `stack`; with an empty stack
the daemon is in the loop of `main`. -/
structure Daemon where
  cl : Slot → Client
  nextCid : UInt32
  nConn : ℕ
  nRecv : ℕ
  pool : Pool 256 3
  item : Ptr → Item
  claim : Claim
  mbInflight : Bool
  lctx : LogCtx
  stack : List Activation
  io : Io

namespace Daemon

/-- The events so far, oldest first. -/
def evs (g : Daemon) : List Event := g.io.evs

/-- Record an event. -/
def emit (g : Daemon) (e : Event) : Daemon := { g with io := { g.io with evs := g.io.evs ++ [e] } }

/-- Replace a queue item. -/
def setItem (g : Daemon) (it : Ptr) (x : Item) : Daemon :=
  { g with item := Function.update g.item it x }

/-- Replace the body of a queue item. -/
def setBody (g : Daemon) (it : Ptr) (b : Block msgMax) : Daemon :=
  g.setItem it { g.item it with body := b }

/-- Replace a client slot. -/
def setClient (g : Daemon) (c : Slot) (x : Client) : Daemon :=
  { g with cl := Function.update g.cl c x }

/-- What the scheduler sees of a queue item. -/
def entry (g : Daemon) (it : Ptr) : Entry := ⟨(g.item it).rid, (g.item it).c, (g.item it).hdr⟩

/-- The items of the mailbox calls on the stack, innermost first. -/
def waitingPtrs (g : Daemon) : List Ptr :=
  g.stack.filterMap fun
    | .drain _ => none
    | .wait f => some f.it

/-- The mailbox calls on the stack, innermost first. -/
def waiting (g : Daemon) : List Entry := g.waitingPtrs.map g.entry

/-- The queued requests, queue by queue. -/
def queued (g : Daemon) : List Entry :=
  (g.pool.queue 0 ++ g.pool.queue 1 ++ g.pool.queue 2).map g.entry

/-- The bytes that were received for the request in an item. -/
def bodyOf (g : Daemon) (it : Ptr) : List UInt8 := (g.item it).body.read 0 (g.item it).hdr.len.toNat

end Daemon

/-- The events from one state to a later one. -/
def since (g g' : Daemon) : List Event := g'.evs.drop g.evs.length

/-- They are the ones that have been added. -/
lemma since_eq {g g' : Daemon} {es : List Event} (h : g'.evs = g.evs ++ es) : since g g' = es := by
  rw [since, h, List.drop_left]

/-- `now_us`. -/
def nowUs (env : Env) (g : Daemon) : UInt64 × Daemon :=
  (env.clock g.io.nClock, { g with io := { g.io with nClock := g.io.nClock + 1 } })

end Spid

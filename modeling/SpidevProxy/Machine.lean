import SpidevProxy.Items

set_option relaxedAutoImplicit false
set_option autoImplicit false

/-!
# The daemon as a state machine

`drain_queues`, `enqueue`, `client_drop`, `client_frame`, `client_msg`, `accept_client` and the loop
of `main`. The scheduler is re-entrant: `exec_mailbox` calls `drain_queues` while it waits. The
model makes the call stack explicit, so that one step is

* one round of the loop of `drain_queues` (`Spid.drainStep`), when that is the innermost call;
* one round of the wait loop of `exec_mailbox` (`Spid.waitStep`), when that is;
* the part of one round of the loop of `main` up to its call of `drain_queues` (`Spid.mainStep`),
  when the stack is empty.

## Main definitions

* `Spid.itemEligible`, `Spid.drainStep`, `Spid.waitStep` — the scheduler.
* `Spid.clientFrame`, `Spid.clientMsg`, `Spid.clientDrop`, `Spid.acceptClient` — the clients.
* `Spid.step`, `Spid.boot`, `Spid.Reachable` — the runs of the daemon.
-/

namespace Spid

open Bytes Intrusive

section

variable (env : Env) (cfg : Config)

/-! ## The scheduler -/

/-- `item_eligible`. -/
def itemEligible (g : Daemon) (it : Ptr) : Bool :=
  let x := g.item it
  g.claim.owner = none || g.claim.owner = some x.c ||
    (MsgType.claim.code ≤ x.hdr.type && x.hdr.type ≠ MsgType.mailbox.code)

/-- Return from the innermost activation. -/
def popStack (g : Daemon) : Daemon := { g with stack := g.stack.tail }

/-- `it->next = g.freel; g.freel = it`. -/
def freeItem (g : Daemon) (it : Ptr) : Daemon := { g with pool := g.pool.release it }

/-- One round of the loop of `drain_queues`, `budget` being what is left of its budget: return when
it is used up or when no queued item is eligible, else unlink the first eligible item and execute
it. -/
def drainStep (g : Daemon) (budget : ℤ) : Daemon :=
  if budget = 0 then popStack g
  else match g.pool.take (itemEligible g) with
    | none => popStack g
    | some (it, pool) =>
      let g := { g with pool := pool, stack := .drain (budget - 1) :: g.stack.tail }
      let g := g.emit (.dispatch (g.entry it) (g.bodyOf it) g.claim.owner g.waiting g.queued)
      let r := execItem env cfg g it
      match r.1 with
      | none => freeItem r.2 it
      | some f => { r.2 with stack := .wait f :: r.2.stack }

/-- The state in which `drain_queues` calls `exec_item` on the item it has unlinked. -/
def picked (g : Daemon) (budget : ℤ) (it : Ptr) (pool : Pool 256 3) : Daemon :=
  let g := { g with pool := pool, stack := .drain (budget - 1) :: g.stack.tail }
  g.emit (.dispatch (g.entry it) (g.bodyOf it) g.claim.owner g.waiting g.queued)

/-- What `drain_queues` does with item `it` once `exec_item` has returned. -/
def settle (it : Ptr) (r : Option MbFrame × Daemon) : Daemon :=
  match r.1 with
  | none => freeItem r.2 it
  | some f => { r.2 with stack := .wait f :: r.2.stack }

/-- A round of `drain_queues` returns, or executes the first eligible item. -/
lemma drainStep_cases (g : Daemon) (budget : ℤ) :
    (budget = 0 ∨ g.pool.take (itemEligible g) = none) ∧ drainStep env cfg g budget = popStack g ∨
      ∃ it pool, budget ≠ 0 ∧ g.pool.take (itemEligible g) = some (it, pool) ∧
        drainStep env cfg g budget = settle it (execItem env cfg (picked g budget it pool) it) := by
  unfold drainStep
  split_ifs with hb
  · exact Or.inl ⟨Or.inl hb, rfl⟩
  · cases ht : g.pool.take (itemEligible g) with
    | none => exact Or.inl ⟨Or.inr rfl, rfl⟩
    | some p => exact Or.inr ⟨p.1, p.2, hb, rfl, rfl⟩

/-- One round of the wait loop of `exec_mailbox`. When the call returns, `exec_item` answers the
request and `drain_queues` frees the item; when it goes on waiting, it calls `drain_queues(4)`. -/
def waitStep (g : Daemon) (f : MbFrame) : Daemon :=
  let r := execMailboxPoll env cfg g f
  match r.1 with
  | .inl d => freeItem (popStack (mailboxReply env r.2 f.it d.1 d.2)) f.it
  | .inr f' => { r.2 with stack := .drain 4 :: .wait f' :: r.2.stack.tail }

/-! ## Clients -/

/-- `enqueue`. -/
def enqueue (g : Daemon) (rid : ℕ) (c : Slot) (h : Hdr) (body : List UInt8) : Daemon :=
  match g.pool.put h.prio with
  | none => sendResp env g rid c h .ebusy []
  | some (it, pool) =>
    let x : Item := ⟨c, h, (g.item it).body.write 0 (body.take h.len.toNat), rid⟩
    let g := ({ g with pool := pool }.setItem it x)
    g.emit (.enqueue (g.entry it) (g.bodyOf it) g.claim.owner)

/-- `client_drop`. -/
def clientDrop (g : Daemon) (c : Slot) : Daemon :=
  let g := if g.claim.owner = some c then claimEnd env cfg g .disconnect else g
  let g := { g with pool := g.pool.purge fun it => (g.item it).c = c }
  let g := g.emit (.disconnect c (g.cl c).fd)
  g.setClient c { g.cl c with used := false }

/-- The header that answers a datagram too short to have one. -/
def badHdr : Hdr := ⟨0, 0, 0, 0, 0⟩

/-- The framing check of `client_frame`. -/
def frameOk (msg : List UInt8) : Bool :=
  let h := Hdr.decode msg
  hdrSize ≤ msg.length && h.ver = spiproxyVer && h.len.toNat = msg.length - hdrSize &&
    h.len.toNat ≤ msgMax

/-- `client_frame`. -/
def clientFrame (g : Daemon) (rid : ℕ) (c : Slot) (msg : List UInt8) : Daemon :=
  if frameOk msg then
    let g := g.setClient c { g.cl c with nMsgs := (g.cl c).nMsgs + 1 }
    enqueue env g rid c (Hdr.decode msg) (msg.drop hdrSize)
  else sendResp env g rid c (if hdrSize ≤ msg.length then Hdr.decode msg else badHdr) .einval []

/-- `client_msg`: `recv` returns at most `hdrSize + msgMax` bytes of the datagram; an empty one
stands for the end of the connection or an error. -/
def clientMsg (g : Daemon) (c : Slot) (datagram : List UInt8) : Daemon :=
  let msg := datagram.take (hdrSize + msgMax)
  if msg = [] then clientDrop env cfg g c
  else
    let rid := g.nRecv
    let g := { g with nRecv := rid + 1 }.emit (.recv rid c (g.cl c).fd msg)
    clientFrame env g rid c msg

/-- The client name that `accept_client` reads from `/proc/<pid>/comm`. -/
def commOf (line : Text) : Text :=
  let comm := (line.take 19).takeWhile (· ≠ '\n')
  if comm = [] then ['?'] else comm

/-- `accept_client`, for a peer with the given process: the first unused slot is filled; with all
slots in use the connection is closed. -/
def acceptClient (g : Daemon) (pid : ℤ) (line : Text) : Daemon :=
  match (List.finRange 16).find? fun c => !(g.cl c).used with
  | none => g
  | some c =>
    let x : Client := ⟨g.nConn, true, g.nextCid + 1, pid, commOf line, 0, 0, 0⟩
    { g.setClient c x with nextCid := g.nextCid + 1, nConn := g.nConn + 1 }.emit
      (.connect c g.nConn)

/-! ## The loop of `main` -/

/-- What `epoll_wait` reports: a connection on the listening socket, or a datagram (an empty one for
a hang-up) on the socket of a client. -/
inductive EpollEvent
  | listen (pid : ℤ) (line : Text)
  | client (c : Slot) (datagram : List UInt8)

/-- The socket of an event; `none` is the listening socket. -/
def EpollEvent.source : EpollEvent → Option Slot
  | .listen _ _ => Option.none
  | .client c _ => some c

/-- The socket of an event is registered: it is the listening socket or that of an open connection. -/
def EpollEvent.registered (g : Daemon) : EpollEvent → Bool
  | .listen _ _ => true
  | .client c _ => (g.cl c).used

/-- What `epoll_wait` reports of `evs`: at most eight events, one for each socket that is registered
when it is called. A socket that has more is reported again in a later round. -/
def epollWait (g : Daemon) (evs : List EpollEvent) : List EpollEvent :=
  ((evs.filter (EpollEvent.registered g)).pwFilter fun e e' => e.source ≠ e'.source).take 8

/-- With nothing there, nothing is reported. -/
@[simp] lemma epollWait_nil (g : Daemon) : epollWait g [] = [] := rfl

/-- `epoll_wait` reports only what there is. -/
lemma epollWait_subset (g : Daemon) (evs : List EpollEvent) : epollWait g evs ⊆ evs := by
  intro e he
  have hw := List.mem_of_mem_take he
  exact List.mem_of_mem_filter (List.pwFilter_subset _ hw)

/-- The handling of one epoll event: `accept_client` or `client_msg`. -/
def handleEvent (g : Daemon) : EpollEvent → Daemon
  | .listen pid line => acceptClient g pid line
  | .client c datagram => if (g.cl c).used then clientMsg env cfg g c datagram else g

/-- The expiry check: `if (g.claim_owner && now_us() > g.claim_deadline) claim_end(1)`. -/
def checkExpiry (g : Daemon) : Daemon :=
  if g.claim.owner.isSome then
    let t := nowUs env g
    if g.claim.deadline < t.1 then claimEnd env cfg t.2 .expired else t.2
  else g

/-- One round of the loop of `main` up to its call of `drain_queues`, which `main` makes with
`budget = 64`. -/
def mainStep (g : Daemon) (evs : List EpollEvent) (budget : ℤ) : Daemon :=
  let g := checkExpiry env cfg ((epollWait g evs).foldl (handleEvent env cfg) g)
  { g with stack := [.drain budget] }

/-- What the surroundings contribute to a step: the events from which `epoll_wait` reports and the
budget, when the step is one of `main`. -/
structure Input where
  evs : List EpollEvent
  budget : ℤ

/-- One step of the daemon. -/
def step (i : Input) (g : Daemon) : Daemon :=
  match g.stack with
  | [] => mainStep env cfg g i.evs i.budget
  | .drain budget :: _ => drainStep env cfg g budget
  | .wait f :: _ => waitStep env cfg g f

/-- The state in which `main` enters its loop: the free list holds all items, and `DEVICE_ID` has
been read once. -/
def boot : Daemon :=
  let io : Io :=
    { nIoctl := 0, nClock := 0, nSend := 0, nPkt := 0, nReads := 0, nWrites := 0, nIoErr := 0
      ring := fun _ => ⟨0, 0, 0, 0, 0, 0, 0⟩, ringW := 0
      lint := ⟨fun _ _ => ⟨0, []⟩, fun _ => ⟨0, [], 0⟩, fun _ => ⟨0, 0, 0, 0, [], 0⟩, 0, 0⟩
      evs := [] }
  let r := spiReadReg (busXfer env) cfg.pad cfg.deviceIdReg io 0 mmdGlobal cfg.deviceIdReg
  { cl := fun _ => ⟨0, false, 0, 0, [], 0, 0, 0⟩
    nextCid := 0
    nConn := 0
    nRecv := 0
    pool :=
      { next := fun i => if h : i.val + 1 < 256 then some ⟨i.val + 1, h⟩ else none
        freel := some 0, qh := fun _ => none, qt := fun _ => none, count := 0 }
    item := fun _ => ⟨0, ⟨0, 0, 0, 0, 0⟩, Block.zero _, 0⟩
    claim := ⟨none, 0, [], 0⟩
    mbInflight := false
    lctx := ⟨0, [], 0, .none⟩
    stack := []
    io := if r.1.isSome then { r.2 with nReads := 1 } else { r.2 with nIoErr := 1 } }

/-- The states that runs of the daemon reach. -/
inductive Reachable : Daemon → Prop
  | boot : Reachable (boot env cfg)
  | step {g : Daemon} (h : Reachable g) (i : Input) : Reachable (step env cfg i g)

/-- The state after the steps with the given inputs. -/
def run (is : List Input) : Daemon := is.foldl (fun g i => step env cfg i g) (boot env cfg)

/-- A run leads to a reachable state. -/
lemma Reachable.run (is : List Input) : Reachable env cfg (run env cfg is) := by
  have key : ∀ (is : List Input) (g : Daemon), Reachable env cfg g →
      Reachable env cfg (is.foldl (fun g i => Spid.step env cfg i g) g) := by
    intro is
    induction is with
    | nil => exact fun g h => h
    | cons i is ih => exact fun g h => ih _ (h.step i)
  exact key is _ Reachable.boot

end

/-! ## Sample surroundings -/

/-- A step to which the surroundings contribute nothing new. -/
def Input.none : Input := ⟨[], 64⟩

/-- The rounds in which the given peers connect, one after another. -/
def connects (peers : List (ℤ × Text)) : List Input :=
  peers.flatMap fun p => [⟨[.listen p.1 p.2], 64⟩, .none]

/-- A device that answers every frame with the byte `b`, a clock that stands still, and packet
buffers that happen to be zero. -/
def Env.still (b : UInt8) : Env where
  ioctl := fun _ _ => some fun _ => b
  clock := fun _ => 0
  send := fun _ => true
  pkt := fun _ => Block.zero _

/-- The daemon started without a reset line and without a log. -/
def Config.plain : Config := ⟨"/dev/spidev0.0".toList, 5000000, 1, Option.none, false, false, 0x0000⟩

end Spid

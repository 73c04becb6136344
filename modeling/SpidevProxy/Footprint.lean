import SpidevProxy.RegDeeds
import SpidevProxy.Simulation.Items

set_option relaxedAutoImplicit false
set_option autoImplicit false

/-!
# What register work leaves behind

Whatever `exec_op` and `exec_mailbox` do to the registers, they do for one agent: every access and every
line of the event log is made for it, under the log context that is set when the work begins, no datagram
is received or queued, no request is picked, and the clock is only read forwards. It is enough to look at
the deeds of which the work is made.

## Main definitions

* `Spid.Footprint` — the events between two states are of a certain kind, and what does not change.
* `Spid.Event.By` — the events of register accesses for one agent.
* `Spid.Toil` — what register work for one agent leaves behind.

## Main results

* `Spid.RegDeeds.toil` — the footprint of register work.
* `Spid.execOp_footprint`, `Spid.execMailboxStart_footprint`, `Spid.execMailboxPoll_footprint`.
* `Spid.claimEnd_evs` — the events of the end of a claim.
-/

namespace Spid

open Bytes

/-- Who a client is: its connection, whether it is open, and its identifier. -/
def Client.ident (x : Client) : ℕ × Bool × UInt32 := (x.fd, x.used, x.id)

/-- **What a piece of work leaves behind.** Its events are of the kind `P`; the log context, the
clients apart from their counters, the identity of the requests, the call stack and the pool stay; the
clock is not read backwards. -/
structure Footprint (P : Event → Prop) (g g' : Daemon) : Prop where
  evs : ∃ es, g'.evs = g.evs ++ es ∧ ∀ e ∈ es, P e
  lctx : g'.lctx = g.lctx
  ident : ∀ c, (g'.cl c).ident = (g.cl c).ident
  conns : g'.nextCid = g.nextCid ∧ g'.nConn = g.nConn
  entry : ∀ it, g'.entry it = g.entry it
  stack : g'.stack = g.stack
  pool : g'.pool = g.pool
  clock : g.io.nClock ≤ g'.io.nClock

namespace Footprint

variable {P Q : Event → Prop} {g g₁ g₂ : Daemon}

/-- A change of the `Io` part without events. -/
lemma of_io {io : Io} (he : io.evs = g.io.evs) (hc : g.io.nClock ≤ io.nClock) :
    Footprint P g { g with io := io } :=
  ⟨⟨[], by simpa [Daemon.evs] using he, by simp⟩, rfl, fun _ => rfl, ⟨rfl, rfl⟩, fun _ => rfl, rfl, rfl, hc⟩

/-- Nothing is done. -/
lemma refl : Footprint P g g := of_io rfl le_rfl

/-- One piece of work after another. -/
lemma trans (h : Footprint P g g₁) (h' : Footprint P g₁ g₂) : Footprint P g g₂ where
  evs := by
    obtain ⟨es, he, hP⟩ := h.evs
    obtain ⟨es', he', hP'⟩ := h'.evs
    refine ⟨es ++ es', by rw [he', he, List.append_assoc], fun e hm => ?_⟩
    rcases List.mem_append.mp hm with hm | hm
    · exact hP e hm
    · exact hP' e hm
  lctx := h'.lctx.trans h.lctx
  ident c := (h'.ident c).trans (h.ident c)
  conns := ⟨h'.conns.1.trans h.conns.1, h'.conns.2.trans h.conns.2⟩
  entry it := (h'.entry it).trans (h.entry it)
  stack := h'.stack.trans h.stack
  pool := h'.pool.trans h.pool
  clock := h.clock.trans h'.clock

/-- A footprint with fewer kinds of events is one with more. -/
lemma mono (h : Footprint P g g₁) (hPQ : ∀ e, P e → Q e) : Footprint Q g g₁ where
  evs := by
    obtain ⟨es, he, hP⟩ := h.evs
    exact ⟨es, he, fun e hm => hPQ e (hP e hm)⟩
  lctx := h.lctx
  ident := h.ident
  conns := h.conns
  entry := h.entry
  stack := h.stack
  pool := h.pool
  clock := h.clock

/-- One event. -/
lemma emit {e : Event} (he : P e) : Footprint P g (g.emit e) :=
  ⟨⟨[e], rfl, by simpa using he⟩, rfl, fun _ => rfl, ⟨rfl, rfl⟩, fun _ => rfl, rfl, rfl, le_rfl⟩

/-- Changing the counters of a client. -/
lemma setClient {c : Slot} {x : Client} (hx : x.ident = (g.cl c).ident) :
    Footprint P g (g.setClient c x) := by
  refine ⟨⟨[], (List.append_nil _).symm, by simp⟩, rfl, fun d => ?_, ⟨rfl, rfl⟩, fun _ => rfl, rfl, rfl, le_rfl⟩
  by_cases hd : d = c
  · subst hd
    simpa [Daemon.setClient] using hx
  · simp [Daemon.setClient, hd]

/-- Writing into the body of an item. -/
lemma setBody (it : Ptr) (b : Block msgMax) : Footprint P g (g.setBody it b) := by
  refine ⟨⟨[], (List.append_nil _).symm, by simp⟩, rfl, fun _ => rfl, ⟨rfl, rfl⟩, fun j => ?_,
    rfl, rfl, le_rfl⟩
  by_cases hj : j = it
  · subst hj
    simp [Daemon.setBody, Daemon.setItem, Daemon.entry]
  · simp [Daemon.setBody, Daemon.setItem, Daemon.entry, hj]

end Footprint

/-- The agent of the request in an item stays. -/
lemma Footprint.agent {P : Event → Prop} {g g₁ : Daemon} (h : Footprint P g g₁) (it : Ptr) :
    g₁.agent it = g.agent it :=
  congrArg (fun e : Entry => Agent.request e.rid e.c) (h.entry it)

/-! ## Registers -/

/-- The events of register accesses for one agent: the accesses and refusals, the lines of the log,
with the client and the sequence number of the log context, the warnings, and the marks of
`g.mb_inflight`. -/
def Event.By (ag : Agent) (ctx : LogCtx) : Event → Prop
  | .access x => x.agent = ag
  | .refused a _ _ => a = ag
  | .opLine a l => a = ag ∧ l.cid = ctx.cid ∧ l.seq = ctx.seq
  | .warn _ => True
  | .mbSet _ _ _ => True
  | .mbClear _ _ => True
  | _ => False

/-- Register accesses for one agent lead from `g` to `g'`. -/
abbrev Toil (ag : Agent) (g g' : Daemon) : Prop := Footprint (Event.By ag g.lctx) g g'

/-- Work for one agent goes on under the same log context. -/
lemma Toil.trans {ag : Agent} {g g₁ g₂ : Daemon} (h : Toil ag g g₁) (h' : Toil ag g₁ g₂) :
    Toil ag g g₂ := by
  unfold Toil at h'
  rw [h.lctx] at h'
  exact Footprint.trans h h'

section

variable (env : Env) (cfg : Config) {ag : Agent}

/-- The SPI core only makes transfers. -/
lemma spiReadReg_io (io : Io) (slice mmd : UInt8) (reg : UInt16) :
    ∃ n, (spiReadReg (busXfer env) cfg.pad cfg.deviceIdReg io slice mmd reg).2 =
      { io with nIoctl := n } := by
  unfold spiReadReg
  dsimp only
  split <;> exact ⟨_, rfl⟩

/-- A register write. -/
lemma regWrite_footprint (g : Daemon) (slice mmd : UInt8) (reg : UInt16) (val : UInt32) :
    Toil ag g (regWrite env g ag slice mmd reg val).2 := by
  unfold regWrite
  dsimp only
  refine Footprint.trans (Footprint.of_io ?_ ?_) (Footprint.emit rfl)
  · split_ifs <;> rfl
  · split_ifs <;> exact le_rfl

/-- A register read. -/
lemma regRead_footprint (g : Daemon) (slice mmd : UInt8) (reg : UInt16) (old : UInt32) :
    Toil ag g (regRead env cfg g ag slice mmd reg old).2.2 := by
  obtain ⟨n, hn⟩ := spiReadReg_io env cfg g.io slice mmd reg
  unfold regRead
  dsimp only
  rw [hn]
  refine Footprint.trans (Footprint.of_io ?_ ?_) (Footprint.emit rfl)
  · split_ifs <;> rfl
  · split_ifs <;> exact le_rfl

/-- A warning. -/
lemma warnLine_footprint (g : Daemon) (w : Warning) : Toil ag g (warnLine g w) :=
  ⟨⟨_, rfl, by simp [Event.By]⟩, rfl, fun _ => rfl, ⟨rfl, rfl⟩, fun _ => rfl, rfl, rfl, le_rfl⟩

variable {env cfg} {g g₁ : Daemon}

/-- **Every deed of register work** is done for the agent. -/
lemma RegDeed.toil (h : RegDeed env cfg ag g g₁) : Toil ag g g₁ := by
  cases h with
  | write slice mmd reg val => exact regWrite_footprint env g slice mmd reg val
  | read slice mmd reg old => exact regRead_footprint env cfg g slice mmd reg old
  | refuse op st => exact Footprint.emit rfl
  | line hc hs => exact Footprint.emit ⟨rfl, hc, hs⟩
  | lint h =>
    cases h with
    | warn w => exact warnLine_footprint g w
    | write hl => exact Footprint.of_io rfl le_rfl
  | trace c op => exact Footprint.of_io rfl (Nat.le_succ _)
  | clock => exact Footprint.of_io rfl (Nat.le_succ _)
  | packet => exact Footprint.of_io rfl le_rfl
  | set rid c was =>
    exact ⟨⟨_, rfl, by simp [Event.By]⟩, rfl, fun _ => rfl, ⟨rfl, rfl⟩, fun _ => rfl, rfl, rfl, le_rfl⟩
  | leave x =>
    exact ⟨⟨_, rfl, by simp [Event.By]⟩, rfl, fun _ => rfl, ⟨rfl, rfl⟩, fun _ => rfl, rfl, rfl, le_rfl⟩
  | body it b => exact Footprint.setBody it b

/-- **Register work** is done for the agent. -/
lemma RegDeeds.toil (h : RegDeeds env cfg ag g g₁) : Toil ag g g₁ := by
  induction h with
  | refl => exact Footprint.refl
  | tail _ hd ih => exact ih.trans hd.toil

/-- A deed of register work leaves the clients alone. -/
lemma RegDeed.cl_eq (h : RegDeed env cfg ag g g₁) : g₁.cl = g.cl := by
  cases h with
  | write slice mmd reg val => rw [(extends_regWrite env g ag slice mmd reg val).1]
  | read slice mmd reg old => rw [(extends_regRead env cfg g ag slice mmd reg old).1]
  | lint h => cases h <;> rfl
  | _ => rfl

/-- Register work leaves the clients alone. -/
lemma RegDeeds.cl_eq (h : RegDeeds env cfg ag g g₁) : g₁.cl = g.cl := by
  induction h with
  | refl => rfl
  | tail _ hd ih => rw [hd.cl_eq, ih]

variable (env cfg)

/-- Reading the clock. -/
lemma nowUs_footprint {P : Event → Prop} (g : Daemon) : Footprint P g (nowUs env g).2 :=
  Footprint.of_io rfl (Nat.le_succ _)

/-- **`exec_op`** works for its agent. -/
lemma execOp_footprint (g : Daemon) (c : Option Slot) (op : Op) :
    Toil ag g (execOp env cfg g ag c op).2.2 :=
  (regDeeds_execOp env cfg g ag c op).toil

/-- **`exec_mailbox` up to its wait loop** works for its request. -/
lemma execMailboxStart_footprint (g : Daemon) (it : Ptr) :
    Toil (g.agent it) g (execMailboxStart env cfg g it).2 :=
  (MbWork.start it).regDeeds.toil

/-- **One round of the wait loop** works for the request that waits. -/
lemma execMailboxPoll_footprint (g : Daemon) (f : MbFrame) :
    Toil (g.agent f.it) g (execMailboxPoll env cfg g f).2 :=
  (MbWork.poll f).regDeeds.toil

/-! ## Answers -/

/-- **`send_resp`** sends one answer. -/
lemma sendResp_footprint {P : Event → Prop} (g : Daemon) (rid : ℕ) (c : Slot) (req : Hdr)
    (st : Status) (body : List UInt8)
    (hP : P (.send rid c (g.cl c).fd (req.type ||| respBit) st req.seq body)) :
    Footprint P g (sendResp env g rid c req st body) := by
  have h₁ : Footprint P g ({ g with io := { g.io with nSend := g.io.nSend + 1 } }.emit
      (.send rid c (g.cl c).fd (req.type ||| respBit) st req.seq body)) :=
    ⟨⟨_, rfl, by simpa using hP⟩, rfl, fun _ => rfl, ⟨rfl, rfl⟩, fun _ => rfl, rfl, rfl, le_rfl⟩
  unfold sendResp
  dsimp only
  split_ifs
  · exact h₁
  · exact h₁.trans (Footprint.setClient rfl)

/-! ## The end of a claim -/

/-- A cleanup list. -/
lemma runCleanup_footprint (ag : Agent) : ∀ (ops : List Op) (g : Daemon),
    Toil ag g (runCleanup env cfg ag ops g) := by
  intro ops
  induction ops with
  | nil => exact fun _ => Footprint.refl
  | cons op ops ih => exact fun g => (execOp_footprint env cfg g none op).trans (ih _)

/-- **`claim_end`** works for the cleanup list of the claim, in the name of the client that held it
and with the sequence number 0. -/
lemma claimEnd_evs {g : Daemon} {c : Slot} (ho : g.claim.owner = some c) (how : ClaimEnd) :
    ∃ es, (claimEnd env cfg g how).evs = g.evs ++ .claimEnd g.claim.rid c how :: es ∧
      ∀ e ∈ es, e.By (.cleanup g.claim.rid c) ⟨(g.cl c).id, (g.cl c).comm, 0, .cleanup⟩ := by
  simp only [claimEnd, ho]
  split_ifs
  · obtain ⟨es, he, hP⟩ := (runCleanup_footprint env cfg (.cleanup g.claim.rid c) g.claim.cleanup
      { g.emit (.claimEnd g.claim.rid c how) with
        lctx := ⟨(g.cl c).id, (g.cl c).comm, 0, .cleanup⟩ }).evs
    refine ⟨es, he.trans ?_, hP⟩
    simp [Daemon.evs, Daemon.emit]
  · exact ⟨[], rfl, by simp⟩

/-- The events of the end of the claim that client `c` holds. -/
def Event.Ends (g : Daemon) (c : Slot) (e : Event) : Prop :=
  g.claim.owner = some c ∧ ((∃ how, e = .claimEnd g.claim.rid c how) ∨
    e.By (.cleanup g.claim.rid c) ⟨(g.cl c).id, (g.cl c).comm, 0, .cleanup⟩)

/-- **The events of the end of a claim** are its end and the accesses of its cleanup list. -/
lemma claimEnd_ends {g : Daemon} {c : Slot} (ho : g.claim.owner = some c) (how : ClaimEnd) :
    ∃ es, (claimEnd env cfg g how).evs = g.evs ++ es ∧ ∀ e ∈ es, e.Ends g c := by
  obtain ⟨es, he, hP⟩ := claimEnd_evs env cfg ho how
  refine ⟨_, he, fun e hm => ⟨ho, ?_⟩⟩
  exact (List.mem_cons.mp hm).imp (fun h => ⟨how, h⟩) (hP e)

/-- **`client_drop`** ends the claim of the client, and then the connection. -/
lemma clientDrop_evs (g : Daemon) (c : Slot) :
    ∃ es fd, (clientDrop env cfg g c).evs = g.evs ++ es ++ [.disconnect c fd] ∧
      ∀ e ∈ es, e.Ends g c := by
  unfold clientDrop
  dsimp only
  split_ifs with ho
  · obtain ⟨es, he, hP⟩ := claimEnd_ends env cfg ho .disconnect
    exact ⟨es, _, by rw [← he]; rfl, hP⟩
  · exact ⟨[], _, by rw [List.append_nil]; rfl, by simp⟩

/-- The expiry check ends the claim, or reads the clock at most. -/
lemma checkExpiry_evs (g : Daemon) :
    ∃ es, (checkExpiry env cfg g).evs = g.evs ++ es ∧ ∀ e ∈ es, ∃ c, e.Ends g c := by
  unfold checkExpiry
  split_ifs with ho
  · dsimp only
    split_ifs
    · obtain ⟨c, hc⟩ := Option.isSome_iff_exists.mp ho
      obtain ⟨es, he, hP⟩ := claimEnd_ends env cfg (g := (nowUs env g).2) hc .expired
      exact ⟨es, he, fun e hm => ⟨c, hP e hm⟩⟩
    · exact ⟨[], (List.append_nil _).symm, by simp⟩
  · exact ⟨[], (List.append_nil _).symm, by simp⟩

end

/-- **`client_frame`** answers the datagram with an empty body, or enqueues it; the clients stay who
they are.

**Proof sketch.** A bad frame and a full pool are answered at once, and an answer changes no
identity; a good frame is counted for its client, which keeps its identity, and is enqueued. -/
lemma clientFrame_evs (env : Env) (g : Daemon) (rid : ℕ) (c : Slot) (msg : List UInt8) :
    (∃ e, (clientFrame env g rid c msg).evs = g.evs ++ [e] ∧
      ((∃ fd type st seq, e = .send rid c fd type st seq []) ∨
        ∃ en body o, e = .enqueue en body o ∧ en.rid = rid)) ∧
    (∀ d, ((clientFrame env g rid c msg).cl d).ident = (g.cl d).ident) ∧
    (clientFrame env g rid c msg).nextCid = g.nextCid ∧
    (clientFrame env g rid c msg).nConn = g.nConn := by
  -- an answer
  have hsend : ∀ (g : Daemon) (req : Hdr) (st : Status),
      (∃ e, (sendResp env g rid c req st []).evs = g.evs ++ [e] ∧
        ((∃ fd type st seq, e = .send rid c fd type st seq []) ∨
          ∃ en body o, e = .enqueue en body o ∧ en.rid = rid)) ∧
      (∀ d, ((sendResp env g rid c req st []).cl d).ident = (g.cl d).ident) ∧
      (sendResp env g rid c req st []).nextCid = g.nextCid ∧
      (sendResp env g rid c req st []).nConn = g.nConn := by
    intro g req st
    have hf := sendResp_footprint (P := fun _ => True) env g rid c req st [] trivial
    exact ⟨⟨_, (sendResp_spec env g rid c req st []).1, Or.inl ⟨_, _, _, _, rfl⟩⟩, hf.ident, hf.conns⟩
  unfold clientFrame
  by_cases hok : frameOk msg = true
  · rw [if_pos hok]
    dsimp only
    have hset : Footprint (fun _ => True) g
        (g.setClient c { g.cl c with nMsgs := (g.cl c).nMsgs + 1 }) := Footprint.setClient rfl
    have hid := hset.ident
    unfold enqueue
    split
    · obtain ⟨⟨e, hev, he⟩, hcl, hn⟩ := hsend (g.setClient c
        { g.cl c with nMsgs := (g.cl c).nMsgs + 1 }) (Hdr.decode msg) .ebusy
      exact ⟨⟨e, hev, he⟩, fun d => (hcl d).trans (hid d), hn⟩
    · refine ⟨⟨_, rfl, Or.inr ⟨_, _, _, rfl, ?_⟩⟩, hid, rfl, rfl⟩
      simp [Daemon.entry, Daemon.setItem]
  · rw [if_neg hok]
    exact hsend g _ .einval

/-- `accept_client` makes a connection at most. -/
lemma acceptClient_evs (g : Daemon) (pid : ℤ) (line : Text) :
    ∃ es, (acceptClient g pid line).evs = g.evs ++ es ∧ ∀ e ∈ es, ∃ c fd, e = .connect c fd := by
  unfold acceptClient
  split
  · exact ⟨[], (List.append_nil _).symm, by simp⟩
  · exact ⟨_, rfl, fun e he => ⟨_, _, List.mem_singleton.mp he⟩⟩

end Spid

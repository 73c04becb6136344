import SpidevProxy.Requests
import SpidevProxy.ProgramOrder
import SpidevProxy.Responses

set_option relaxedAutoImplicit false
set_option autoImplicit false

/-!
# Who a line of the event log names

The `OP` lines of the event log take the client and the sequence number from one global context,
`g.lctx`, which `exec_item` and `claim_end` set. A mailbox call lets other requests run while it
waits, and does not set the context again when it goes on. So a line names the request that was
picked last, which is the one the access is made for unless that is a `MAILBOX` in whose wait another
request was picked.

## Main definitions

* `Spid.clientId` — the identifier that `accept_client` gives to a connection.
* `Spid.Attributed` — the line names the client and the sequence number of its request.
* `Spid.lastPicked` — the request picked last.
* `Spid.Undisturbed` — the request picked last has the client and the sequence number of the request
  that the access is made for.

## Main results

* `Spid.Run.origin`, `Spid.Run.claim_origin` — a live request, and the claim, come from the connection
  that is open in their slot.
* `Spid.Reachable.lined` — every line names the request picked last, or the client whose claim ended.
* `Spid.op_line_attribution` — when a line names the right request.
-/

namespace Spid

open History

/-! ## Where requests and claims come from -/

section

variable {rst : Bool} {es : List Event} {a : Abs}

/-- A live request was received on the connection that is open in its slot. -/
lemma Run.origin (h : Run rst es a) {r : Req} (hr : r ∈ a.live) :
    ∃ fd msg, a.conn r.c = some fd ∧ Event.recv r.rid r.c fd msg ∈ es ∧ r.hdr = Hdr.decode msg := by
  have hA := Run.accounts h
  have howed : (r.c, r.key) ∈ a.owed :=
    List.mem_append_right _ (List.mem_map_of_mem (f := fun r : Req => (r.c, r.key)) hr)
  obtain ⟨fd, hc⟩ := hA.connected _ howed
  have hkey : r.key ∈ a.owedTo r.c := by
    rw [Abs.owedTo, List.mem_map]
    exact ⟨(r.c, r.key), List.mem_filter.mpr ⟨howed, by simp⟩, rfl⟩
  obtain ⟨e, he, hk⟩ := List.mem_filterMap.mp
    ((hA.balance r.c fd hc).mem_iff.mpr (List.mem_append_right _ hkey))
  obtain ⟨rid, c, msg, rfl, hmk⟩ := recvKey_eq_some hk
  obtain rfl : r.rid = rid := congrArg Prod.fst hmk
  obtain ⟨fd', msg', hm, -, hreq⟩ := (Run.ledger h).known hr
  obtain ⟨rfl, rfl, rfl⟩ := (Run.ledger h).recv_unique hm he
  exact ⟨fd', msg', hc, hm, by rw [hreq]; rfl⟩

/-- The claim was granted to a request received on the connection of its owner.

**Proof sketch.** Induction on the run. A grant goes to the request that is executing, which was
received on its connection; every other event leaves the owner and the identifier of the claim
alone, and the owner stays connected because a client is dropped only after its claim has ended. -/
lemma Run.claim_origin (h : Run rst es a) {c : Slot} (ho : a.claim.owner = some c) :
    ∃ fd msg, a.conn c = some fd ∧ Event.recv a.claim.rid c fd msg ∈ es := by
  revert c
  refine Steps.invariant (P := fun es a => ∀ {c}, a.claim.owner = some c →
    ∃ fd msg, a.conn c = some fd ∧ Event.recv a.claim.rid c fd msg ∈ es) (by simp [Abs.init]) ?_ h
  intro es a e a' hr ih hs c ho
  -- a claim that stays with its owner
  have hkeep : a'.claim.rid = a.claim.rid → a.claim.owner = some c →
      (∀ fd, e ≠ .disconnect c fd) →
      ∃ fd msg, a'.conn c = some fd ∧ Event.recv a'.claim.rid c fd msg ∈ es ++ [e] := by
    intro hrid ho he
    obtain ⟨fd, msg, hc, hm⟩ := ih ho
    refine ⟨fd, msg, (hs.conn_keep hc).resolve_right (he fd), ?_⟩
    rw [hrid]
    exact List.mem_append_left _ hm
  have hclean : ∀ {rid d todo}, (a.cleaning rid d todo).claim.owner = some c →
      a.claim.owner = some c ∧ (a.cleaning rid d todo).claim.rid = a.claim.rid := by
    intro rid d todo hx
    cases todo with
    | nil => simp [Abs.cleaning, Abs.ended] at hx
    | cons op todo => exact ⟨hx, rfl⟩
  cases hs with
  | @disconnect d fd hact hw hd hne =>
    refine hkeep rfl ho fun fd' he => hne ?_
    obtain ⟨rfl, -⟩ := Event.disconnect.inj he
    exact ho
  | claimEnd => exact hkeep (hclean ho).2 (hclean ho).1 (by simp)
  | cleanupAccess => exact hkeep (hclean ho).2 (hclean ho).1 (by simp)
  | cleanupRefused => exact hkeep (hclean ho).2 (hclean ho).1 (by simp)
  | @grant r deadline hact hk hsz hown =>
    obtain rfl := Option.some.inj ho
    obtain ⟨fd, msg, hc, hm, -⟩ := Run.origin hr
      (List.mem_append_left _ (Abs.mem_executing.mpr (Or.inr ⟨_, hact⟩)))
    exact ⟨fd, msg, hc, List.mem_append_left _ hm⟩
  | release => simp [Abs.ended] at ho
  | note hn => exact hkeep rfl ho fun fd he => by simp [he, Event.isNote] at hn
  | _ => exact hkeep rfl ho (by simp)

end

/-! ## Lines -/

/-- The identifier of the client on connection number `fd`. -/
def clientId (fd : ℕ) : UInt32 := UInt32.ofNat (fd + 1)

/-- The number of the request that an agent acts for, or whose claim it cleans up after. -/
def Agent.rid : Agent → ℕ
  | .request rid _ => rid
  | .cleanup rid _ => rid

/-- The sequence number that a line of this agent should carry: that of the request, or 0 for a
cleanup list. -/
def Agent.seq (h : Hdr) : Agent → UInt32
  | .request _ _ => h.seq
  | .cleanup _ _ => 0

/-- The datagram is the one that the agent acts for, and the line carries the identifier of its client
and the sequence number. -/
def Event.names (ag : Agent) (l : OpLine) : Event → Bool
  | .recv rid c fd msg => rid = ag.rid && c = ag.client && l.cid = clientId fd &&
      l.seq = ag.seq (Hdr.decode msg)
  | _ => false

/-- **The line names the request** on whose behalf the access is made, or the client whose claim
ended. -/
def Attributed (es : List Event) (ag : Agent) (l : OpLine) : Prop := ∃ e ∈ es, e.names ag l = true

/-- The request picked last. -/
def lastPicked (es : List Event) : Option Entry := (es.filterMap Event.picks).getLast?

/-- A request that has just been picked is the last one. -/
lemma lastPicked_dispatch (es : List Event) (en : Entry) (body : List UInt8) (o : Option Slot)
    (w q : List Entry) : lastPicked (es ++ [.dispatch en body o w q]) = some en := by
  rw [lastPicked, List.filterMap_append]
  exact List.getLast?_concat

/-- It remains so while no other is picked. -/
lemma lastPicked_append {es es' : List Event} (h : ∀ e ∈ es', e.picks = none) :
    lastPicked (es ++ es') = lastPicked es := by
  rw [lastPicked, List.filterMap_append, List.filterMap_eq_nil_iff.mpr h, List.append_nil, lastPicked]

/-- The context `cid`, `seq` is that of the request picked last. -/
def InName (es : List Event) (cid seq : UInt32) (en : Entry) : Prop :=
  lastPicked es = some en ∧ ∃ fd msg, Event.recv en.rid en.c fd msg ∈ es ∧ en.hdr = Hdr.decode msg ∧
    cid = clientId fd ∧ seq = en.hdr.seq

/-- A line remains in the name of the request while no other is picked. -/
lemma InName.append {es es' : List Event} {cid seq : UInt32} {en : Entry} (h : InName es cid seq en)
    (hes : ∀ e ∈ es', e.picks = none) : InName (es ++ es') cid seq en := by
  obtain ⟨hl, fd, msg, hm, h⟩ := h
  exact ⟨by rw [lastPicked_append hes, hl], fd, msg, List.mem_append_left _ hm, h⟩

/-- What is known of a line: for a cleanup list it is right; for a request it names the one picked
last, and that is the request itself or the request is a `MAILBOX`. -/
def LineOk (pre : List Event) : Event → Prop
  | .opLine (.request rid c) l => ∃ en, InName pre l.cid l.seq en ∧
      ∃ fd msg, Event.recv rid c fd msg ∈ pre ∧
        (en.rid = rid ∨ MsgType.ofCode (Hdr.decode msg).type = some .mailbox)
  | .opLine (.cleanup rid c) l => Attributed pre (.cleanup rid c) l
  | _ => True

/-- The identifiers of the clients are those of their connections. -/
structure Ids (g : Daemon) : Prop where
  next : g.nextCid = UInt32.ofNat g.nConn
  id : ∀ c, (g.cl c).used = true → (g.cl c).id = clientId (g.cl c).fd

/-- Only the identity of the clients that are connected matters. -/
lemma Ids.congr {g g' : Daemon} (h : Ids g) (hn : g'.nextCid = g.nextCid ∧ g'.nConn = g.nConn)
    (hi : ∀ c, (g'.cl c).used = true → (g'.cl c).ident = (g.cl c).ident) : Ids g' := by
  refine ⟨by rw [hn.1, hn.2, h.next], fun c hc => ?_⟩
  have hid := hi c hc
  simp only [Client.ident, Prod.mk.injEq] at hid
  rw [hid.1, hid.2.2]
  exact h.id c (hid.2.1 ▸ hc)

/-- The invariant: the identifiers, the context while a mailbox call waits, and the lines. -/
structure Lined (g : Daemon) : Prop where
  ids : Ids g
  ctx : g.waitingPtrs ≠ [] → ∃ en, InName g.evs g.lctx.cid g.lctx.seq en
  lines : Before LineOk g.evs

section

variable {env : Env} {cfg : Config} {g g' : Daemon}

/-- A request in the view of the daemon comes from the connection of its client. -/
lemma Good.origin (h : Good cfg g) (hi : Ids g) {r : Req}
    (hr : r ∈ (g.abs g.waitingPtrs .idle).live) :
    ∃ fd msg, Event.recv r.rid r.c fd msg ∈ g.evs ∧ r.hdr = Hdr.decode msg ∧
      (g.cl r.c).id = clientId fd := by
  obtain ⟨fd, msg, hc, hm, hh⟩ := Run.origin h.run hr
  simp only [Daemon.abs, Option.ite_none_right_eq_some, Option.some.injEq] at hc
  exact ⟨fd, msg, hm, hh, by rw [hi.id _ hc.1, hc.2]⟩

/-- **The end of a claim**: its lines name the client that held it. -/
lemma LineOk.of_ends (h : Good cfg g) (hi : Ids g) {c : Slot} {e : Event} {pre : List Event}
    (he : e.Ends g c) : LineOk (g.evs ++ pre) e := by
  obtain ⟨ho, ⟨how, rfl⟩ | hby⟩ := he
  · trivial
  · cases e with
    | opLine ag l =>
      obtain ⟨rfl, hcid, hseq⟩ := hby
      obtain ⟨fd, msg, hc, hm⟩ := Run.claim_origin h.run ho
      simp only [Daemon.abs, Option.ite_none_right_eq_some, Option.some.injEq] at hc
      have hcid' : l.cid = clientId fd := by
        rw [hcid, ← hc.2]
        exact hi.id c hc.1
      have hseq' : l.seq = 0 := hseq
      have hm' : Event.recv g.claim.rid c fd msg ∈ g.evs := hm
      exact ⟨_, List.mem_append_left _ hm', by simp [Event.names, Agent.rid, Agent.client, Agent.seq,
        hcid', hseq']⟩
    | _ => trivial

/-- **Register accesses for a request**: their lines carry the context. -/
lemma LineOk.of_by {es pre : List Event} {rid : ℕ} {c : Slot} {ctx : LogCtx} {en : Entry} {e : Event}
    (hn : InName (es ++ pre) ctx.cid ctx.seq en) {fd : ℕ} {msg : List UInt8}
    (hm : Event.recv rid c fd msg ∈ es)
    (hor : en.rid = rid ∨ MsgType.ofCode (Hdr.decode msg).type = some .mailbox)
    (he : e.By (.request rid c) ctx) : LineOk (es ++ pre) e := by
  cases e with
  | opLine ag l =>
    obtain ⟨rfl, hcid, hseq⟩ := he
    refine ⟨en, ?_, fd, msg, List.mem_append_left _ hm, hor⟩
    rw [hcid, hseq]
    exact hn
  | _ => trivial

/-- **Work on a request**: its lines carry the context, which stays. -/
lemma Lined.of_executes {it : Ptr} {en : Entry} (hf : Executes it g g')
    (hn : InName g.evs g.lctx.cid g.lctx.seq en) {fd : ℕ} {msg : List UInt8}
    (hm : Event.recv (g.entry it).rid (g.entry it).c fd msg ∈ g.evs)
    (hor : en.rid = (g.entry it).rid ∨ MsgType.ofCode (Hdr.decode msg).type = some .mailbox)
    (hl : Before LineOk g.evs) :
    Before LineOk g'.evs ∧ InName g'.evs g'.lctx.cid g'.lctx.seq en := by
  obtain ⟨es, hev, hes⟩ := hf.evs
  rw [hev, hf.lctx]
  refine ⟨hl.append fun pre e post he => ?_, hn.append fun e he => Event.Of.picks (hes e he)⟩
  subst he
  have hpre : InName (g.evs ++ pre) g.lctx.cid g.lctx.seq en :=
    hn.append fun e he => Event.Of.picks (hes e (List.mem_append_left _ he))
  have hlast := hes e (List.mem_append_right _ List.mem_cons_self)
  cases e with
  | opLine ag l => exact LineOk.of_by hpre hm hor (hlast.resolve_right id)
  | _ => trivial

/-- **One round of `drain_queues`.**

**Proof sketch.** When the loop ends nothing is said. Otherwise the request that is picked was
received (`Good.origin`), the log context is set from its item, and everything that is logged until
the item is freed or its call waits is in that name (`Lined.of_executes`). -/
lemma Lined.drainStep (h : Lined g) (hg : Good cfg g) {budget : ℤ} {rest : List Activation}
    (hs : g.stack = .drain budget :: rest) : Lined (drainStep env cfg g budget) := by
  rcases drainStep_cases env cfg g budget with ⟨-, hd⟩ | ⟨it, pool, -, ht, hd⟩
  · rw [hd]
    have hw : (popStack g).waitingPtrs = g.waitingPtrs := by simp [popStack, Daemon.waitingPtrs, hs]
    exact ⟨h.ids.congr ⟨rfl, rfl⟩ fun _ _ => rfl, fun hne => h.ctx (hw ▸ hne), h.lines⟩
  · rw [hd]
    -- the request that is picked was queued
    obtain ⟨-, es, hev, hst⟩ := take_sim cfg.rst hg.wf hs ht
    have hev' : (picked g budget it pool).evs = g.evs ++ [.dispatch _ _ _ _ _] := rfl
    rw [hev', List.append_cancel_left_eq] at hev
    subst hev
    obtain ⟨-, hq, -⟩ := hst.single_inv.dispatch_inv
    obtain ⟨fd, msg, hm, hh, hid⟩ := hg.origin h.ids (List.mem_append_right _ hq)
    have hf := execItem_executes env cfg (picked g budget it pool) it
    -- it is worked for in its own name
    generalize hg₀ : ({ picked g budget it pool with
      lctx := (picked g budget it pool).logFor it } : Daemon) = g₀ at hf
    have hname : InName g₀.evs g₀.lctx.cid g₀.lctx.seq (g₀.entry it) := by
      subst hg₀
      exact ⟨lastPicked_dispatch _ _ _ _ _ _, fd, msg, List.mem_append_left _ hm, hh, hid, rfl⟩
    have hl : Before LineOk g₀.evs := by
      subst hg₀
      refine h.lines.append fun pre e post he => ?_
      cases pre with
      | nil =>
        obtain ⟨rfl, -⟩ := List.cons.inj he
        trivial
      | cons x pre => simp at he
    have hm₀ : Event.recv (g₀.entry it).rid (g₀.entry it).c fd msg ∈ g₀.evs := by
      subst hg₀
      exact List.mem_append_left _ hm
    have hids : Ids g₀ := by
      subst hg₀
      exact h.ids.congr ⟨rfl, rfl⟩ fun _ _ => rfl
    clear hg₀
    generalize execItem env cfg (picked g budget it pool) it = res at *
    obtain ⟨hl₂, hn₂⟩ := Lined.of_executes hf hname hm₀ (Or.inl rfl) hl
    have hids₂ : Ids res.2 := hids.congr hf.conns fun c _ => hf.ident c
    obtain ⟨_ | f, g₂⟩ := res
    · exact ⟨⟨hids₂.next, hids₂.id⟩, fun _ => ⟨_, hn₂⟩, hl₂⟩
    · exact ⟨⟨hids₂.next, hids₂.id⟩, fun _ => ⟨_, hn₂⟩, hl₂⟩

/-- **One round of the wait loop.** -/
lemma Lined.waitStep (h : Lined g) (hg : Good cfg g) {f : MbFrame} {rest : List Activation}
    (hs : g.stack = .wait f :: rest) : Lined (waitStep env cfg g f) := by
  have hmem : f.it ∈ g.waitingPtrs := by simp [Daemon.waitingPtrs, hs]
  obtain ⟨en, hn⟩ := h.ctx (List.ne_nil_of_mem hmem)
  -- the call that waits is a `MAILBOX`
  have hw : g.req f.it ∈ (g.abs g.waitingPtrs .idle).waiting := List.mem_map_of_mem hmem
  obtain ⟨fd, msg, hm, hh, -⟩ := hg.origin h.ids
    (List.mem_append_left _ (Abs.mem_executing.mpr (Or.inl hw)))
  have hk : MsgType.ofCode (Hdr.decode msg).type = some .mailbox := by
    rw [← hh]
    exact ((Run.basics hg.run).waiting _ hw).kind
  obtain ⟨g₁, hf, hw⟩ := waitStep_cases env cfg g f
  obtain ⟨hl₁, hn₁⟩ := Lined.of_executes hf hn hm (Or.inr hk) h.lines
  have hids : Ids g₁ := h.ids.congr hf.conns fun c _ => hf.ident c
  rcases hw with hw | ⟨v, m, hw, -⟩
  · rw [hw]
    exact ⟨⟨hids.next, hids.id⟩, fun _ => ⟨en, hn₁⟩, hl₁⟩
  · rw [hw]
    exact ⟨⟨hids.next, hids.id⟩, fun _ => ⟨en, hn₁⟩, hl₁⟩

/-- The identifiers after `claim_end`. -/
lemma Ids.claimEnd (h : Ids g) (how : ClaimEnd) : Ids (claimEnd env cfg g how) := by
  obtain ⟨io, lctx, he⟩ := claimEnd_fields env cfg g how
  rw [he]
  exact h.congr ⟨rfl, rfl⟩ fun _ _ => rfl

/-- The identifiers after `accept_client`: the new client gets the next one. -/
lemma Ids.acceptClient (h : Ids g) (pid : ℤ) (line : Text) : Ids (acceptClient g pid line) := by
  unfold Spid.acceptClient
  split
  · exact h
  · rename_i c _
    have hnext : g.nextCid + 1 = UInt32.ofNat (g.nConn + 1) := by
      rw [h.next, UInt32.ofNat_add]
      rfl
    refine ⟨hnext, fun d hd => ?_⟩
    change (Function.update g.cl c _ d).used = true at hd
    change (Function.update g.cl c _ d).id = clientId (Function.update g.cl c _ d).fd
    by_cases hdc : d = c
    · subst hdc
      rw [Function.update_self]
      exact hnext
    · rw [Function.update_of_ne hdc] at hd ⊢
      exact h.id d hd

/-- The identifiers after `client_drop`: the slot is free. -/
lemma Ids.clientDrop (h : Ids g) (c : Slot) : Ids (clientDrop env cfg g c) := by
  have hg₁ : Ids (if g.claim.owner = some c then Spid.claimEnd env cfg g .disconnect else g) := by
    split_ifs
    · exact h.claimEnd _
    · exact h
  refine hg₁.congr ⟨rfl, rfl⟩ fun d hd => ?_
  by_cases hdc : d = c
  · subst hdc
    simp [Spid.clientDrop, Daemon.setClient] at hd
  · simp [Spid.clientDrop, Daemon.setClient, Daemon.emit, hdc]

/-- The identifiers after one epoll event. -/
lemma Ids.handleEvent (h : Ids g) (e : EpollEvent) : Ids (handleEvent env cfg g e) := by
  cases e with
  | listen pid line => exact h.acceptClient pid line
  | client c datagram =>
    simp only [Spid.handleEvent]
    split_ifs with hu
    · unfold clientMsg
      dsimp only
      split_ifs
      · exact h.clientDrop c
      · obtain ⟨-, hid, hn⟩ := clientFrame_evs env ({ g with nRecv := g.nRecv + 1 }.emit
          (.recv g.nRecv c (g.cl c).fd (datagram.take (hdrSize + msgMax)))) g.nRecv c
          (datagram.take (hdrSize + msgMax))
        exact h.congr hn fun d _ => hid d
    · exact h

/-- Lines of the main loop: only those of a cleanup list are `OP` lines. -/
lemma Lined.of_evs (h : Lined g) (hs : g'.stack = []) (hi : Ids g') {es : List Event}
    (hev : g'.evs = g.evs ++ es) (hes : ∀ e ∈ es, ∀ pre, LineOk (g.evs ++ pre) e) : Lined g' := by
  refine ⟨hi, fun hne => absurd (waitingPtrs_nil hs) hne, ?_⟩
  rw [hev]
  refine h.lines.append fun pre e post he => ?_
  subst he
  exact hes e (List.mem_append_right _ List.mem_cons_self) pre

/-- **One epoll event.**

**Proof sketch.** Go through the events. A new client, a message and an answer are no lines about
registers; a client that hangs up may lose its claim, and the lines of the cleanup name the claim
(`LineOk.of_ends`). -/
lemma Lined.handleEvent (h : Lined g) (hg : Good cfg g) (hs : g.stack = []) (e : EpollEvent) :
    Lined (handleEvent env cfg g e) := by
  have hq : Quiet cfg.rst g (Spid.handleEvent env cfg g e) :=
    handleEvent_quiet cfg.rst (hg.wf_nil hs) e
  have hi : Ids (Spid.handleEvent env cfg g e) := h.ids.handleEvent e
  have hs' := hq.stack.trans hs
  cases e with
  | listen pid line =>
    obtain ⟨es, hev, hes⟩ := acceptClient_evs g pid line
    refine h.of_evs hs' hi hev fun e he pre => ?_
    obtain ⟨c, fd, rfl⟩ := hes e he
    trivial
  | client c datagram =>
    simp only [Spid.handleEvent] at hi hs' ⊢
    split_ifs at hi hs' ⊢ with hu
    · unfold clientMsg at hi hs' ⊢
      dsimp only at hi hs' ⊢
      split_ifs at hi hs' ⊢ with hm
      · obtain ⟨es, fd, hev, hes⟩ := clientDrop_evs env cfg g c
        rw [List.append_assoc] at hev
        refine h.of_evs hs' hi hev fun e he pre => ?_
        rcases List.mem_append.mp he with he | he
        · exact LineOk.of_ends hg h.ids (hes e he)
        · rw [List.mem_singleton.mp he]
          trivial
      · obtain ⟨⟨e', hev, hor⟩, -⟩ := clientFrame_evs env ({ g with nRecv := g.nRecv + 1 }.emit
          (.recv g.nRecv c (g.cl c).fd (datagram.take (hdrSize + msgMax)))) g.nRecv c
          (datagram.take (hdrSize + msgMax))
        have hev' := hev.trans (List.append_assoc g.evs [_] [e'])
        refine h.of_evs hs' hi hev' fun e he pre => ?_
        rcases List.mem_cons.mp he with rfl | he
        · trivial
        · rw [List.mem_singleton.mp he]
          rcases hor with ⟨fd, type, st, seq, rfl⟩ | ⟨en, body, o, rfl, -⟩
          · trivial
          · trivial
    · exact h

/-- The expiry check. -/
lemma Lined.checkExpiry (h : Lined g) (hg : Good cfg g) (hs : g.stack = []) :
    Lined (checkExpiry env cfg g) := by
  have hq := checkExpiry_quiet env cfg cfg.rst (hg.wf_nil hs)
  obtain ⟨es, hev, hes⟩ := checkExpiry_evs env cfg g
  have hi : Ids (Spid.checkExpiry env cfg g) := by
    unfold Spid.checkExpiry
    dsimp only
    split_ifs
    · have hnow : Ids (nowUs env g).2 := h.ids.congr ⟨rfl, rfl⟩ fun _ _ => rfl
      exact hnow.claimEnd _
    · exact h.ids.congr ⟨rfl, rfl⟩ fun _ _ => rfl
    · exact h.ids
  refine h.of_evs (hq.stack.trans hs) hi hev fun e he pre => ?_
  obtain ⟨c, hc⟩ := hes e he
  exact LineOk.of_ends hg h.ids hc

/-- The epoll events of one round of the loop of `main`. -/
lemma Lined.foldl_handleEvent (env : Env) (evs : List EpollEvent) (h : Lined g) (hg : Good cfg g)
    (hs : g.stack = []) : Lined (evs.foldl (Spid.handleEvent env cfg) g) ∧
      Good cfg (evs.foldl (Spid.handleEvent env cfg) g) ∧
      (evs.foldl (Spid.handleEvent env cfg) g).stack = [] := by
  induction evs generalizing g with
  | nil => exact ⟨h, hg, hs⟩
  | cons e evs ih =>
    have hq : Quiet cfg.rst g (Spid.handleEvent env cfg g e) :=
      handleEvent_quiet cfg.rst (hg.wf_nil hs) e
    exact ih (h.handleEvent hg hs e) (hg.quiet hs hq) (hq.stack.trans hs)

/-- **One step of the daemon.** -/
lemma Lined.step (h : Lined g) (hg : Good cfg g) (i : Input) : Lined (step env cfg i g) := by
  unfold Spid.step
  cases hs : g.stack with
  | nil =>
    obtain ⟨h₁, hg₁, hs₁⟩ := h.foldl_handleEvent env (epollWait g i.evs) hg hs
    have h₂ : Lined (Spid.checkExpiry env cfg _) := h₁.checkExpiry hg₁ hs₁
    exact ⟨h₂.ids.congr ⟨rfl, rfl⟩ fun _ _ => rfl,
      fun hne => absurd rfl hne, h₂.lines⟩
  | cons a rest =>
    cases a with
    | drain budget => exact h.drainStep hg hs
    | wait f => exact h.waitStep hg hs

end

/-- **Every line names the request picked last**, or the client whose claim ended. -/
theorem Reachable.lined {env : Env} {cfg : Config} {g : Daemon} (h : Reachable env cfg g) :
    Lined g := by
  induction h with
  | boot =>
    refine ⟨⟨rfl, by simp [Spid.boot]⟩, by simp [Spid.boot, Daemon.waitingPtrs], ?_⟩
    rw [evs_boot]
    exact Before.nil
  | step h i ih => exact ih.step h.good i

/-- The two datagrams come from clients with one identifier and carry one sequence number. -/
def SameName (es : List Event) (n m : ℕ) : Prop :=
  ∀ c fd msg c' fd' msg', Event.recv n c fd msg ∈ es → Event.recv m c' fd' msg' ∈ es →
    clientId fd = clientId fd' ∧ (Hdr.decode msg).seq = (Hdr.decode msg').seq

/-- The request picked last, which is the one the access is made for or another one, has its client
and its sequence number. -/
def Undisturbed (es : List Event) : Agent → Prop
  | .request rid _ => ∀ en, lastPicked es = some en → SameName es en.rid rid
  | .cleanup _ _ => True

/-- Such a line is right if and only if the wait was not disturbed. -/
lemma LineOk.attributed_iff {es : List Event} {a : Abs} (hL : Ledger es a) {ag : Agent} {l : OpLine}
    (h : LineOk es (.opLine ag l)) : Attributed es ag l ↔ Undisturbed es ag := by
  cases ag with
  | cleanup rid c => exact ⟨fun _ => trivial, fun _ => h⟩
  | request rid c =>
    obtain ⟨en, ⟨hlast, fd, msg, hm, hh, hcid, hseq⟩, fd', msg', hm', -⟩ := h
    constructor
    · rintro ⟨e, hmem, hn⟩ en' hlast' c₁ fd₁ msg₁ c₂ fd₂ msg₂ hm₁ hm₂
      obtain rfl := Option.some.inj (hlast.symm.trans hlast')
      obtain ⟨rfl, rfl, rfl⟩ := hL.recv_unique hm hm₁
      cases e with
      | recv rid' c' fd₃ msg₃ =>
        simp only [Event.names, Agent.rid, Agent.client, Agent.seq, Bool.and_eq_true] at hn
        obtain ⟨⟨⟨hr, hc⟩, h₁⟩, h₂⟩ := hn
        obtain rfl := of_decide_eq_true hr
        obtain rfl := of_decide_eq_true hc
        obtain ⟨-, rfl, rfl⟩ := hL.recv_unique hmem hm₂
        exact ⟨hcid.symm.trans (of_decide_eq_true h₁),
          by rw [← hh, ← hseq]; exact of_decide_eq_true h₂⟩
      | _ => simp [Event.names] at hn
    · intro hu
      obtain ⟨h₁, h₂⟩ := hu en hlast _ _ _ _ _ _ hm hm'
      refine ⟨_, hm', ?_⟩
      simp [Event.names, Agent.rid, Agent.client, Agent.seq, hcid, hseq, h₁, hh, h₂]

/-- Nothing is picked between a request that is not a `MAILBOX` and its accesses. -/
lemma LineOk.undisturbed {es : List Event} {a : Abs} (hL : Ledger es a) {r : Req} {l : OpLine}
    (h : LineOk es (.opLine r.agent l)) {o : Option Slot} {w q : List Entry}
    (hd : Event.dispatch r.toEntry r.body o w q ∈ es) (hk : r.kind ≠ some .mailbox) :
    Undisturbed es r.agent := by
  obtain ⟨en, ⟨hlast, -⟩, fd, msg, hm, hor⟩ := h
  -- the datagram of the request is that of a `MAILBOX` only if the request is one
  obtain ⟨⟨o', ho'⟩, -⟩ := hL.dispatched hd
  obtain ⟨fd', msg', hm', -, hreq⟩ := hL.enqueued ho'
  obtain ⟨-, -, rfl⟩ := hL.recv_unique hm hm'
  have hrid : en.rid = r.rid := hor.resolve_right fun hmb => hk <| by
    rw [Entry.kind, show r.hdr = Hdr.decode msg from congrArg (fun r : Req => r.hdr) hreq]
    exact hmb
  intro en' hlast' c₁ fd₁ msg₁ c₂ fd₂ msg₂ hm₁ hm₂
  obtain rfl := Option.some.inj (hlast.symm.trans hlast')
  rw [hrid] at hm₁
  obtain ⟨-, rfl, rfl⟩ := hL.recv_unique hm₁ hm₂
  exact ⟨rfl, rfl⟩

/-- **The event log names the right request unless a wait was disturbed.** The identifiers are those
of the connections. A line names the request that its access is made for if and only if the request
picked last has the same client and sequence number; this is so for every request but a `MAILBOX`, and
the lines of a cleanup list always name the client whose claim ended. -/
theorem op_line_attribution {env : Env} {cfg : Config} {g : Daemon} (h : Reachable env cfg g) :
    (∀ c, (g.cl c).used = true → (g.cl c).id = clientId (g.cl c).fd) ∧
    ∀ pre ag l post, g.evs = pre ++ .opLine ag l :: post →
      (Attributed pre ag l ↔ Undisturbed pre ag) ∧
      ∀ (r : Req) (o : Option Slot) (w q : List Entry),
        Event.dispatch r.toEntry r.body o w q ∈ pre → ag = r.agent → r.kind ≠ some .mailbox →
          Attributed pre ag l := by
  refine ⟨h.lined.ids.id, fun pre ag l post he => ?_⟩
  have hline : LineOk pre (.opLine ag l) := h.lined.lines pre _ post he
  have hrun := h.good.run
  rw [he] at hrun
  obtain ⟨t, hpre, -⟩ := hrun.split
  have hL : Ledger pre t := Run.ledger hpre
  have hiff := hline.attributed_iff hL
  refine ⟨hiff, fun r o w q hd hag hk => ?_⟩
  subst hag
  exact hiff.mpr (hline.undisturbed hL hd hk)

/-- The daemon started with an event log. -/
def Config.logging : Config := { Config.plain with log := true }

/-- Client 0 sends a `MAILBOX` with a long timeout and client 1 a `READ`, which is picked in the first
wait of the mailbox call; then the call polls again. -/
def readInWait : Daemon :=
  run Env.ticking Config.logging
    (connects [(7, ['a']), (8, ['b'])] ++
      [⟨[.client 0 (waitMsg [0xff, 0xff, 0xff, 0xff]), .client 1 readMsg], 64⟩,
      .none, .none, .none, .none, .none])

/-- The theorem at the line of the `READ`, which names client 2 and sequence number 2. -/
theorem op_line_attribution_readInWait :
    ∃ pre l post, readInWait.evs = pre ++ .opLine (.request 1 1) l :: post ∧ l.cid = 2 ∧ l.seq = 2 ∧
      Attributed pre (.request 1 1) l := by
  have he : readInWait.evs = readInWait.evs.take 24 ++
      .opLine (.request 1 1) ⟨2, ['b'], 2, .none, false, 0, 0x1e, 0, 0, true⟩ ::
        readInWait.evs.drop 25 := by decide +kernel
  have hd : Event.dispatch (frameReq 1 1 readMsg).toEntry (frameReq 1 1 readMsg).body none
      [⟨0, 0, Hdr.decode (waitMsg [0xff, 0xff, 0xff, 0xff])⟩] [] ∈ readInWait.evs.take 24 := by
    decide +kernel
  exact ⟨_, _, _, he, rfl, rfl, ((op_line_attribution (Reachable.run _ _ _)).2 _ _ _ _ he).2
    (frameReq 1 1 readMsg) none _ _ hd rfl (by decide)⟩

/-- **The poll after the `READ` names the wrong client**: it is made for the `MAILBOX` of client 1, and
its line carries client 2 and the sequence number of the `READ`. -/
theorem op_line_misattributed :
    Reachable Env.ticking Config.logging readInWait ∧
      ∃ pre l post, readInWait.evs = pre ++ .opLine (.request 0 0) l :: post ∧
        l.cid = 2 ∧ l.seq = 2 ∧ (readInWait.cl 0).id = 1 ∧
        (Hdr.decode (waitMsg [0xff, 0xff, 0xff, 0xff])).seq = 1 ∧
        Event.recv 0 0 0 (waitMsg [0xff, 0xff, 0xff, 0xff]) ∈ pre ∧
        ¬Attributed pre (.request 0 0) l := by
  refine ⟨Reachable.run _ _ _, readInWait.evs.take 27,
    ⟨2, ['b'], 2, .mb, false, 0, mmdGlobal, mbFlag, 0, true⟩, readInWait.evs.drop 28,
    by decide +kernel, rfl, rfl, by decide +kernel, by decide, by decide +kernel, ?_⟩
  unfold Attributed
  decide +kernel

end Spid

import SpidevProxy.Lib.Latest
import SpidevProxy.Attribution
import SpidevProxy.Deeds

set_option relaxedAutoImplicit false
set_option autoImplicit false

/-!
# The calls that touch registers

The events of a run say which registers were accessed, but not when, nor what the daemon held at that
moment. The calls of `exec_op` and of the parts of `exec_mailbox` that a run makes say that, in order and
each with the state in which it is made.

Between two calls nothing happens to the lint state and to the trace ring. So a run is a path from
call to call, and an invariant of these parts of the state has to be checked at the calls alone.

## Main definitions

* `Spid.RegCall.does` — the call makes a certain access, and the access succeeds.
* `Spid.Between`, `Spid.Trail` — what happens between calls; a path from call to call.

## Main results

* `Spid.trail_run` — every run is a path through its calls.
* `Spid.touches_run` — every access, refusal and warning of a run belongs to one of its calls.
* `Spid.named_of_mem_calls` — every call of `exec_op` is made in the name of the client that it is
  made for.
-/

namespace Spid

open History

section

variable (env : Env) (cfg : Config)

/-- The events of a call. -/
def RegCall.events (k : RegCall) : List Event := since k.pre (k.post env cfg)

/-- A successful read (or write) of a register. -/
def Event.isAccess (write : Bool) (slice mmd : UInt8) (reg : UInt16) : Event → Bool
  | .access x => x.ok && x.write == write && x.slice == slice && x.mmd == mmd && x.reg == reg
  | _ => false

/-- **The call successfully reads (or writes) the register.** -/
def RegCall.does (k : RegCall) (write : Bool) (slice mmd : UInt8) (reg : UInt16) : Bool :=
  (k.events env cfg).any (Event.isAccess write slice mmd reg)

end

/-! ## Between two calls -/

/-- The events of calls: accesses, refusals and warnings. -/
def Event.touches : Event → Bool
  | .access _ => true
  | .refused _ _ _ => true
  | .warn _ => true
  | _ => false

/-- **What happens between two calls**: no register is touched, the lint state and the trace ring stay,
and the clock is only read forwards. -/
structure Between (g g' : Daemon) : Prop where
  lint : g'.io.lint = g.io.lint
  ring : g'.io.ring = g.io.ring
  ringW : g'.io.ringW = g.io.ringW
  clock : g.io.nClock ≤ g'.io.nClock
  conns : g.nConn ≤ g'.nConn
  evs : ∃ es, g'.evs = g.evs ++ es ∧ ∀ e ∈ es, e.touches = false

namespace Between

variable {g g₁ g₂ : Daemon}

/-- A change that leaves the `Io` part alone. -/
lemma of_io (hio : g₁.io = g.io) (hn : g.nConn ≤ g₁.nConn) : Between g g₁ := by
  refine ⟨by rw [hio], by rw [hio], by rw [hio], by rw [hio], hn, [], ?_, by simp⟩
  rw [Daemon.evs, hio, List.append_nil]
  rfl

/-- Nothing happens. -/
lemma refl (g : Daemon) : Between g g := of_io rfl le_rfl

/-- One thing after another. -/
lemma trans (h : Between g g₁) (h' : Between g₁ g₂) : Between g g₂ where
  lint := h'.lint.trans h.lint
  ring := h'.ring.trans h.ring
  ringW := h'.ringW.trans h.ringW
  clock := h.clock.trans h'.clock
  conns := h.conns.trans h'.conns
  evs := by
    obtain ⟨es, he, hP⟩ := h.evs
    obtain ⟨es', he', hP'⟩ := h'.evs
    refine ⟨es ++ es', by rw [he', he, List.append_assoc], fun e hm => ?_⟩
    rcases List.mem_append.mp hm with hm | hm
    · exact hP e hm
    · exact hP' e hm

/-- An event that is not one of a call, besides changes outside the `Io` part. -/
lemma of_event {e : Event} (he : e.touches = false)
    (hio : g₁.io = { g.io with evs := g.io.evs ++ [e] }) (hn : g.nConn ≤ g₁.nConn) : Between g g₁ := by
  refine ⟨by rw [hio], by rw [hio], by rw [hio], by rw [hio], hn, [e], ?_, by simpa using he⟩
  rw [Daemon.evs, hio]
  rfl

/-- An event of no call. -/
lemma emit {e : Event} (he : e.touches = false) : Between g (g.emit e) := of_event he rfl le_rfl

/-- Reading the clock. -/
lemma nowUs (env : Env) : Between g (nowUs env g).2 :=
  ⟨rfl, rfl, rfl, Nat.le_succ _, le_rfl, [], (List.append_nil _).symm, by simp⟩

/-- Sending an answer. -/
lemma sendResp (env : Env) (rid : ℕ) (c : Slot) (req : Hdr) (st : Status) (body : List UInt8) :
    Between g (sendResp env g rid c req st body) := by
  have hs : Between g ({ g with io := { g.io with nSend := g.io.nSend + 1 } }.emit
      (.send rid c (g.cl c).fd (req.type ||| respBit) st req.seq body)) :=
    ⟨rfl, rfl, rfl, le_rfl, le_rfl, _, rfl, by simp [Event.touches]⟩
  unfold Spid.sendResp
  dsimp only
  split_ifs
  · exact hs
  · exact hs.trans (of_io rfl le_rfl)

end Between

/-- **A deed** is no call. -/
lemma Deed.between {env : Env} {T : Scope} {g g₁ : Daemon} (h : Deed env T g g₁) : Between g g₁ := by
  cases h with
  | send rid c req st hb => exact Between.sendResp env rid c req st _
  | receive c msg =>
    unfold Spid.receive
    dsimp only
    split_ifs
    · exact Between.of_event (e := .recv g.nRecv c (g.cl c).fd msg) rfl rfl le_rfl
    · exact Between.of_event (e := .recv g.nRecv c (g.cl c).fd msg) rfl rfl le_rfl
  | accept hp line =>
    unfold acceptClient
    split
    · exact Between.refl g
    · exact Between.of_event rfl rfl (Nat.le_succ _)
  | close c => exact Between.of_io rfl le_rfl
  | clock => exact Between.nowUs env
  | @event e he =>
    refine Between.emit ?_
    cases e <;> first | rfl | simp [Event.plain] at he
  | other hio hcl hn => exact Between.of_io hio hn.ge

section

variable (env : Env) (cfg : Config)

/-- From call to call: up to the next call no register is touched. -/
def Goes (g : Daemon) (k : RegCall) (g' : Daemon) : Prop := Between g k.pre ∧ g' = k.post env cfg

/-- **A path from `g` to `g'` through the calls `ks`.** -/
def Trail (g : Daemon) (ks : List RegCall) (g' : Daemon) : Prop :=
  ∃ m, Steps (Goes env cfg) g ks m ∧ Between m g'

namespace Trail

variable {env cfg} {g g₁ g₂ : Daemon} {ks ks' : List RegCall}

/-- A path without calls. -/
lemma of_between (h : Between g g₁) : Trail env cfg g [] g₁ := ⟨g, Steps.nil g, h⟩

/-- Something that happens at the end of a path. -/
lemma append_between (h : Trail env cfg g ks g₁) (h' : Between g₁ g₂) : Trail env cfg g ks g₂ := by
  obtain ⟨m, hs, hb⟩ := h
  exact ⟨m, hs, hb.trans h'⟩

/-- A path with one call. -/
lemma call (k : RegCall) (h : Between g k.pre) : Trail env cfg g [k] (k.post env cfg) :=
  ⟨_, Steps.single ⟨h, rfl⟩, Between.refl _⟩

/-- Steps after a pause. -/
lemma steps_of_between {m : Daemon} (h : Between g g₁) (hs : Steps (Goes env cfg) g₁ ks m) :
    (ks = [] ∧ m = g₁) ∨ Steps (Goes env cfg) g ks m := by
  cases ks with
  | nil => exact Or.inl ⟨rfl, hs.nil_inv⟩
  | cons k ks =>
    obtain ⟨t, hk, ht⟩ := hs.cons_inv
    exact Or.inr (Steps.cons ⟨h.trans hk.1, hk.2⟩ ht)

/-- Something that happens at its beginning. -/
lemma between_append (h : Between g g₁) (h' : Trail env cfg g₁ ks g₂) : Trail env cfg g ks g₂ := by
  obtain ⟨m, hs, hb⟩ := h'
  rcases steps_of_between h hs with ⟨rfl, rfl⟩ | hs'
  · exact of_between (h.trans hb)
  · exact ⟨m, hs', hb⟩

/-- Paths compose. -/
lemma trans (h : Trail env cfg g ks g₁) (h' : Trail env cfg g₁ ks' g₂) :
    Trail env cfg g (ks ++ ks') g₂ := by
  obtain ⟨m, hs, hb⟩ := h
  obtain ⟨m', hs', hb'⟩ := between_append hb h'
  exact ⟨m', hs.trans hs', hb'⟩

end Trail

variable {env cfg} in
/-- The operations of a request. -/
lemma Operates.trail {it : Ptr} {g g₁ : Daemon} {ks : List RegCall} (h : Operates env cfg it g ks g₁) :
    Trail env cfg g ks g₁ := by
  induction h with
  | refl => exact .of_between (Between.refl g)
  | body _ b ih => exact ih.append_between (Between.of_io rfl le_rfl)
  | @call ks k _ _ _ ih => exact ih.trans (Trail.call k (Between.refl k.pre))

/-- **A walk is a path through its calls.** -/
lemma Walk.trail {env : Env} {cfg : Config} {T : Scope} {g g₁ : Daemon} {ks : List RegCall}
    (h : Walk env cfg T g ks g₁) : Trail env cfg g ks g₁ := by
  induction h with
  | refl => exact .of_between (Between.refl g)
  | deed _ hd ih => exact ih.append_between hd.between
  | @call ks k _ hk _ ih => exact ih.trans (Trail.call k (Between.refl k.pre))
  | ops _ hw ih => exact (ih.trans hw.trail).append_between (Between.of_io rfl le_rfl)

/-- **Every run is a path through its calls.** -/
theorem trail_run (is : List Input) :
    Trail env cfg (boot env cfg) (calls env cfg is) (run env cfg is) := (walk_run env cfg is).trail

/-! ## What holds along a path -/

/-- A call leaves the clients and the connections alone, and reads the clock forwards. -/
lemma RegCall.toil (k : RegCall) : ∃ ag, Toil ag k.pre (k.post env cfg) := by
  unfold RegCall.post
  split
  · exact ⟨_, execOp_footprint env cfg _ _ _⟩
  · exact ⟨_, execMailboxStart_footprint env cfg _ _⟩
  · exact ⟨_, execMailboxPoll_footprint env cfg _ _⟩

/-- A call adds its events to the history. -/
lemma RegCall.evs_post (k : RegCall) : (k.post env cfg).evs = k.pre.evs ++ k.events env cfg := by
  obtain ⟨ag, hf⟩ := k.toil env cfg
  obtain ⟨es, he, -⟩ := hf.evs
  rw [RegCall.events, since_eq he, he]

variable {env cfg} in
/-- Connections are only added. -/
lemma nConn_le_of_steps {g m : Daemon} {ks : List RegCall} (h : Steps (Goes env cfg) g ks m) :
    g.nConn ≤ m.nConn := by
  induction h with
  | nil => exact le_rfl
  | @snoc t u ks k _ hs ih =>
    obtain ⟨hb, rfl⟩ := hs
    obtain ⟨ag, hf⟩ := k.toil env cfg
    rw [hf.conns.2]
    exact ih.trans hb.conns

variable {env cfg} in
/-- **At each call of a run**: the path up to it, and what comes after. -/
lemma steps_of_calls {is : List Input} {ks ks' : List RegCall} {k : RegCall}
    (h : calls env cfg is = ks ++ k :: ks') :
    ∃ m, Steps (Goes env cfg) (boot env cfg) ks m ∧ Between m k.pre ∧
      k.pre.nConn ≤ (run env cfg is).nConn := by
  obtain ⟨u, hs, hb⟩ := trail_run env cfg is
  rw [h] at hs
  obtain ⟨m, t, h₁, ⟨hm, rfl⟩, h₂⟩ := hs.split_cons
  obtain ⟨ag, hf⟩ := k.toil env cfg
  refine ⟨m, h₁, hm, ?_⟩
  rw [← hf.conns.2]
  exact (nConn_le_of_steps h₂).trans hb.conns

/-- A call of a run by its position. -/
lemma calls_eq_of_lt {is : List Input} {n : ℕ} (h : n < (calls env cfg is).length) :
    calls env cfg is = (calls env cfg is).take n ++ (calls env cfg is).get ⟨n, h⟩ ::
      (calls env cfg is).drop (n + 1) := by
  rw [List.get_eq_getElem, ← List.drop_eq_getElem_cons, List.take_append_drop]

/-- **Every access, refusal and warning belongs to a call.** -/
theorem touches_run (is : List Input) : (run env cfg is).evs.filter Event.touches =
    (calls env cfg is).flatMap fun k => (k.events env cfg).filter Event.touches := by
  have key : ∀ {ks : List RegCall} {m : Daemon}, Steps (Goes env cfg) (boot env cfg) ks m →
      m.evs.filter Event.touches = ks.flatMap fun k => (k.events env cfg).filter Event.touches := by
    intro ks m h
    induction h with
    | nil => rw [evs_boot]; rfl
    | @snoc t u ks k _ hs ih =>
      obtain ⟨hb, rfl⟩ := hs
      obtain ⟨es, he, hes⟩ := hb.evs
      have hnone : es.filter Event.touches = [] :=
        List.filter_eq_nil_iff.mpr fun e hm => by rw [hes e hm]; decide
      rw [RegCall.evs_post, he, List.filter_append, List.filter_append, hnone, List.append_nil, ih,
        List.flatMap_append, List.flatMap_singleton]
  obtain ⟨m, hs, hb⟩ := trail_run env cfg is
  obtain ⟨es, he, hes⟩ := hb.evs
  have hnone : es.filter Event.touches = [] :=
    List.filter_eq_nil_iff.mpr fun e hm => by rw [hes e hm]; decide
  rw [he, List.filter_append, hnone, List.append_nil, key hs]

/-! ## In whose name a call is made -/

/-- The log context names the client of the agent, whose identifier is that of its connection. -/
structure Daemon.Names (g : Daemon) (ag : Agent) : Prop where
  ctx : g.lctx.cid = (g.cl ag.client).id
  id : (g.cl ag.client).id = clientId (g.cl ag.client).fd
  lt : (g.cl ag.client).fd < g.nConn

/-- The log context goes on naming the client while work leaves it alone. -/
lemma Daemon.Names.footprint {P : Event → Prop} {g g' : Daemon} {ag : Agent} (h : g.Names ag)
    (hf : Footprint P g g') : g'.Names ag := by
  have hid := hf.ident ag.client
  simp only [Client.ident, Prod.mk.injEq] at hid
  refine ⟨?_, ?_, ?_⟩
  · rw [hf.lctx, hid.2.2, h.ctx]
  · rw [hid.1, hid.2.2, h.id]
  · rw [hid.1, hf.conns.2]
    exact h.lt

/-- **The call is made in the name of the client that it is made for.** -/
def RegCall.Named (k : RegCall) : Prop := k.pre.Names k.agent

/-- The calls of a cleanup list. -/
lemma named_cleanupCalls {ag : Agent} : ∀ (ops : List Op) {g : Daemon}, g.Names ag →
    ∀ k ∈ cleanupCalls env cfg ag ops g, k.Named := by
  intro ops
  induction ops with
  | nil => simp [cleanupCalls]
  | cons op ops ih =>
    intro g h k hk
    rcases List.mem_cons.mp hk with rfl | hk
    · exact h
    · exact ih (h.footprint (execOp_footprint env cfg g none op)) k hk

variable {env cfg} {g : Daemon}

/-- A client that the protocol counts as connected. -/
lemma names_of_conn (hg : Good cfg g) (hi : Ids g) {c : Slot} {fd : ℕ}
    (hc : (g.abs g.waitingPtrs .idle).conn c = some fd) :
    (g.cl c).id = clientId (g.cl c).fd ∧ (g.cl c).fd < g.nConn := by
  have hlt : fd < g.nConn := (Run.accounts hg.run).lt c fd hc
  simp only [Daemon.abs, Option.ite_none_right_eq_some, Option.some.injEq] at hc
  exact ⟨hi.id c hc.1, hc.2 ▸ hlt⟩

/-- The calls of the end of a claim, made in the name of its owner. -/
lemma named_claimEndCalls (hg : Good cfg g) (hi : Ids g) {how : ClaimEnd} {k : RegCall}
    (hk : k ∈ claimEndCalls env cfg g how) : k.Named := by
  unfold claimEndCalls at hk
  cases ho : g.claim.owner with
  | none => simp [ho] at hk
  | some c =>
    simp only [ho] at hk
    obtain ⟨fd, msg, hc, -⟩ := Run.claim_origin hg.run ho
    obtain ⟨hid, hlt⟩ := names_of_conn hg hi hc
    split_ifs at hk
    · refine named_cleanupCalls env cfg _ ?_ k hk
      exact ⟨rfl, hid, hlt⟩
    · simp at hk

/-- The calls of the request that is picked, made in the name of its client. -/
lemma named_itemCalls (hg : Good cfg g) (hi : Ids g) {it : Ptr} {g' : Daemon}
    (hex : executing g = some (it, g')) {k : RegCall} (hk : k ∈ itemCalls env cfg g' it) : k.Named := by
  obtain ⟨budget, rest, pool, hs, -, ht, rfl⟩ := executing_eq_some hex
  -- the request that is picked was queued
  obtain ⟨-, es, hev, hst⟩ := take_sim cfg.rst hg.wf hs ht
  have hev' : (picked g budget it pool).evs = g.evs ++ [.dispatch _ _ _ _ _] := rfl
  rw [hev', List.append_cancel_left_eq] at hev
  subst hev
  obtain ⟨-, hq, -⟩ := hst.single_inv.dispatch_inv
  obtain ⟨fd, msg, hc, -⟩ := Run.origin hg.run (List.mem_append_right _ hq)
  obtain ⟨hid, hlt⟩ := names_of_conn hg hi hc
  have hn : ({ picked g budget it pool with lctx := (picked g budget it pool).logFor it } :
      Daemon).Names ((picked g budget it pool).agent it) := ⟨rfl, hid, hlt⟩
  obtain ⟨hag, hf⟩ := mem_itemCalls env cfg hk
  unfold RegCall.Named
  rw [hag]
  exact hn.footprint hf

/-- The calls of one step. -/
lemma named_stepCalls (hg : Good cfg g) (hl : Lined g) {i : Input} {k : RegCall}
    (hk : k ∈ stepCalls env cfg i g) (hop : k.isOp = true) : k.Named := by
  refine forall_mem_stepCalls (I := fun g => (Good cfg g ∧ Lined g) ∧ g.stack = [])
    (P := fun k => k.isOp = true → k.Named) (fun hs => ⟨⟨hg, hl⟩, hs⟩) ?_ ?_ ?_ ?_ ?_ k hk hop
  · rintro g e ⟨⟨hg, hl⟩, hs⟩
    have hq : Quiet cfg.rst g (handleEvent env cfg g e) := handleEvent_quiet cfg.rst (hg.wf_nil hs) e
    exact ⟨⟨hg.quiet hs hq, hl.handleEvent hg hs e⟩, hq.stack.trans hs⟩
  · rintro g ⟨⟨hg, hl⟩, -⟩ k hk -
    exact named_claimEndCalls hg hl.ids hk
  · rintro g ⟨⟨hg, hl⟩, -⟩ k hk -
    have hg' : Good cfg (nowUs env g).2 :=
      ⟨hg.wf.congr rfl rfl (fun _ => rfl) rfl, hg.mailbox, hg.run⟩
    exact named_claimEndCalls hg' (hl.ids.congr ⟨rfl, rfl⟩ fun _ _ => rfl) hk
  · exact fun it g' hex k hk _ => named_itemCalls hg hl.ids hex hk
  · exact fun f rest _ hop => absurd hop (by simp [RegCall.isOp, pollCall])

/-- **Every call of `exec_op` is made in the name of the client that it is made for.** -/
theorem named_of_mem_calls {is : List Input} {k : RegCall} (hk : k ∈ calls env cfg is)
    (hop : k.isOp = true) : k.Named := by
  have key : ∀ (is : List Input) {g : Daemon}, Reachable env cfg g →
      ∀ k ∈ callsFrom env cfg is g, k.isOp = true → k.Named := by
    intro is
    induction is with
    | nil => simp [callsFrom]
    | cons i is ih =>
      intro g hr k hk hop
      rcases List.mem_append.mp hk with hk | hk
      · exact named_stepCalls hr.good hr.lined hk hop
      · exact ih (hr.step i) k hk hop
  exact key is Reachable.boot k hk hop

end

end Spid

import SpidevProxy.Simulation.Items

set_option relaxedAutoImplicit false
set_option autoImplicit false

/-!
# The state machine refines the protocol

Every step of the daemon keeps the representation invariant and is followed by the protocol. Hence
the history of every run of the daemon is a history of the protocol, and what the protocol
guarantees, the daemon guarantees.

## Main definitions

* `Spid.Good` — a state in which the invariant holds and whose history the protocol has followed.
* `Spid.Follows` — what a step from such a state reaches, and that the protocol follows it there.

## Main results

* `Spid.Good.step_follows`, `Spid.Good.step` — one step of the daemon.
* `Spid.Reachable.good` — every reachable state.
-/

namespace Spid

open Bytes Intrusive History

/-! ## The representation invariant under changes of the pool -/

namespace WF

variable {g : Daemon} {w : List Ptr} {it : Ptr}

/-- A change of the pool that leaves the queues to items of the old ones. -/
lemma of_pool {out : List Ptr} {pool : Pool 256 3} {free : List Ptr} {qs : Fin 3 → List Ptr}
    (h : WF g w) (hr : pool.Rep free qs out) (hsub : ∀ q, ∀ i ∈ qs q, i ∈ g.pool.queue q)
    (hout : ∀ i ∈ out, (g.cl (g.item i).c).used = true) : WF { g with pool := pool } out := by
  have hqs : pool.queue = qs := funext fun q => hr.queue_eq q
  refine ⟨⟨free, by rw [hqs]; exact hr⟩, fun q i hi => ?_, fun q i hi => ?_, hout, h.owner, h.len⟩
  · exact h.prio q i (hsub q i (by rwa [← hqs]))
  · exact h.queued q i (hsub q i (by rwa [← hqs]))

/-- Freeing an executed item. -/
lemma rep_release (h : WF g (it :: w)) :
    ∃ free, (g.pool.release it).Rep free g.pool.queue w := by
  obtain ⟨free, hr⟩ := h.rep
  have hr₀ : g.pool.Rep free g.pool.queue ([] ++ it :: w) := hr
  exact ⟨_, hr₀.release⟩

/-- Releasing the item that has been executed. -/
lemma release (h : WF g (it :: w)) : WF (freeItem g it) w := by
  obtain ⟨free, hr⟩ := h.rep_release
  exact h.of_pool hr (fun _ _ hi => hi) fun i hi => h.executed i (List.mem_cons_of_mem it hi)

/-- Releasing an item leaves the queues alone. -/
lemma queue_release (h : WF g (it :: w)) : (g.pool.release it).queue = g.pool.queue := by
  obtain ⟨free, hr⟩ := h.rep_release
  exact funext fun q => hr.queue_eq q

/-- Releasing an item is not seen by the protocol. -/
lemma abs_release (h : WF g (it :: w)) (w' : List Ptr) (act : Activity) :
    (freeItem g it).abs w' act = g.abs w' act := by
  simp only [Daemon.abs, freeItem, h.queue_release]
  rfl

end WF

/-- Mapping a family of lists one of which is replaced. -/
lemma map_update {α β : Type*} (f : α → β) (qs : Fin 3 → List α) (q : Fin 3) (l : List α) :
    (fun q' => (Function.update qs q l q').map f) =
      Function.update (fun q' => (qs q').map f) q (l.map f) := by
  funext q'
  by_cases h : q' = q
  · subst h
    simp
  · simp [h]

/-! ## Steps of the scheduler -/

/-- The invariant of the state machine: the representation invariant, with the waiting mailbox calls
as the executed items; a waiting item is a `MAILBOX`; and the protocol has followed the history. -/
structure Good (cfg : Config) (g : Daemon) : Prop where
  wf : WF g g.waitingPtrs
  mailbox : ∀ i ∈ g.waitingPtrs, mbSize ≤ (g.item i).hdr.len.toNat
  run : Run cfg.rst g.evs (g.abs g.waitingPtrs .idle)

section

variable {env : Env} {cfg : Config} {g g' : Daemon}

/-- A run followed by the protocol is extended by what it follows. -/
lemma Sim.run {rst : Bool} {w w' : List Ptr} {act act' : Activity} (h : Sim rst g w act g' w' act')
    (hr : Run rst g.evs (g.abs w act)) : Run rst g'.evs (g'.abs w' act') := by
  obtain ⟨es, he, hs⟩ := h
  rw [he]
  exact hr.trans hs

/-- A step between two states of the machine that the protocol follows. -/
structure Follows (cfg : Config) (g g' : Daemon) : Prop where
  wf : WF g' g'.waitingPtrs
  mailbox : ∀ i ∈ g'.waitingPtrs, mbSize ≤ (g'.item i).hdr.len.toNat
  sim : Sim cfg.rst g g.waitingPtrs .idle g' g'.waitingPtrs .idle

/-- A step that the protocol follows keeps the invariant. -/
lemma Follows.good (h : Follows cfg g g') (hg : Good cfg g) : Good cfg g' :=
  ⟨h.wf, h.mailbox, h.sim.run hg.run⟩

/-- The activation of `drain_queues` is not a waiting call. -/
lemma waitingPtrs_picked {budget : ℤ} {rest : List Activation} (hs : g.stack = .drain budget :: rest)
    (it : Ptr) (pool : Pool 256 3) : (picked g budget it pool).waitingPtrs = g.waitingPtrs := by
  simp [picked, Daemon.emit, Daemon.waitingPtrs, hs]

/-- Picking a request.

**Proof sketch.** `Rep.take_some` gives the queue, what stands before the item in it, and that
nothing before it is eligible; this is what a dispatch of the protocol asks for. The pool without
the item represents the queues without it, so the abstract state behind is the one of the
transition, and the event lists the same requests. -/
lemma take_sim (rst : Bool) {it : Ptr} {pool : Pool 256 3} {budget : ℤ} {rest : List Activation}
    (h : WF g g.waitingPtrs) (hs : g.stack = .drain budget :: rest)
    (ht : g.pool.take (itemEligible g) = some (it, pool)) :
    WF (picked g budget it pool) (it :: g.waitingPtrs) ∧
      Sim rst g g.waitingPtrs .idle (picked g budget it pool) g.waitingPtrs
        (.exec (g.req it) (.ops [] .ok)) := by
  obtain ⟨free, hr⟩ := h.rep
  obtain ⟨q, pre, post, hq, hel, hpre, hlt, hr'⟩ := hr.take_some (itemEligible g) ht
  have hqs : pool.queue = Function.update g.pool.queue q (pre ++ post) :=
    funext fun q' => hr'.queue_eq q'
  have hmem : it ∈ g.pool.queue q := by rw [hq]; simp
  have hwf : WF (picked g budget it pool) (it :: g.waitingPtrs) := by
    have h₁ : WF { g with pool := pool } (it :: g.waitingPtrs) := by
      refine h.of_pool hr' (fun q' i hi => ?_) fun i hi => ?_
      · rw [← hqs] at hi
        exact hr.mem_queue_of_take ht hi
      · rcases List.mem_cons.mp hi with rfl | hi
        · exact h.queued q i hmem
        · exact h.executed i hi
    exact h₁.congr rfl rfl (fun _ => rfl) rfl
  refine ⟨hwf, ?_⟩
  have habs : (picked g budget it pool).abs g.waitingPtrs (.exec (g.req it) (.ops [] .ok)) =
      { g.abs g.waitingPtrs .idle with
        queue := Function.update (fun q' => (g.pool.queue q').map g.req) q
          (pre.map g.req ++ post.map g.req)
        act := .exec (g.req it) (.ops [] .ok) } := by
    rw [← List.map_append, ← map_update, ← hqs]
    rfl
  refine Sim.of_step rfl ?_
  rw [habs]
  have hq' : (g.abs g.waitingPtrs .idle).queue q =
      pre.map g.req ++ g.req it :: post.map g.req := by
    simp [Daemon.abs, hq]
  have hstep : Step rst (g.abs g.waitingPtrs .idle) _ _ :=
    Step.dispatch rfl hq' hel
      (fun r' hr' => by
        obtain ⟨i, hi, rfl⟩ := List.mem_map.mp hr'
        exact hpre i hi)
      (fun q' hq' r' hr' => by
        obtain ⟨i, hi, rfl⟩ := List.mem_map.mp hr'
        exact hlt q' hq' i hi)
  have hev : Event.dispatch ((picked g budget it pool).entry it) ((picked g budget it pool).bodyOf it)
      (picked g budget it pool).claim.owner (picked g budget it pool).waiting
      (picked g budget it pool).queued =
      .dispatch (g.req it).toEntry (g.req it).body (g.abs g.waitingPtrs .idle).claim.owner
        ((g.abs g.waitingPtrs .idle).waiting.map Req.toEntry)
        ((Abs.queued { g.abs g.waitingPtrs .idle with
          queue := Function.update (g.abs g.waitingPtrs .idle).queue q
            (pre.map g.req ++ post.map g.req) }).map Req.toEntry) := by
    have h₁ : (picked g budget it pool).waiting =
        (g.abs g.waitingPtrs .idle).waiting.map Req.toEntry := by
      rw [Daemon.waiting, waitingPtrs_picked hs]
      simp only [Daemon.abs, List.map_map]
      rfl
    have h₂ : (picked g budget it pool).queued = (Abs.queued { g.abs g.waitingPtrs .idle with
        queue := Function.update (g.abs g.waitingPtrs .idle).queue q
          (pre.map g.req ++ post.map g.req) }).map Req.toEntry := by
      have hqq : (Function.update (g.abs g.waitingPtrs .idle).queue q
          (pre.map g.req ++ post.map g.req)) = fun q' => (pool.queue q').map g.req := by
        rw [hqs, map_update, List.map_append]
        rfl
      rw [hqq]
      simp only [Abs.queued, Daemon.queued, List.map_append, List.map_map]
      rfl
    rw [h₁, h₂]
    rfl
  rw [← hev] at hstep
  exact hstep

/-- Returning from an activation of `drain_queues`. -/
lemma Good.pop_follows (h : Good cfg g) {budget : ℤ} {rest : List Activation}
    (hs : g.stack = .drain budget :: rest) : Follows cfg g (popStack g) := by
  have hw : (popStack g).waitingPtrs = g.waitingPtrs := by
    simp [popStack, Daemon.waitingPtrs, hs]
  refine ⟨?_, ?_, ?_⟩
  · rw [hw]
    exact h.wf.congr rfl rfl (fun _ => rfl) rfl
  · rw [hw]
    exact h.mailbox
  · rw [hw]
    exact ⟨[], (List.append_nil _).symm, Steps.nil _⟩

/-- **One round of `drain_queues`.**

**Proof sketch.** If the loop ends, its activation is popped. Otherwise the item is picked
(`take_sim`) and executed (`execItem_sim`): either the request has been answered and its item is
freed, or its call waits and the item is on the stack. -/
lemma Good.drainStep_follows (h : Good cfg g) {budget : ℤ} {rest : List Activation}
    (hs : g.stack = .drain budget :: rest) : Follows cfg g (drainStep env cfg g budget) := by
  rcases drainStep_cases env cfg g budget with ⟨-, he⟩ | ⟨it, pool, -, ht, he⟩
  · rw [he]
    exact h.pop_follows hs
  · rw [he]
    obtain ⟨hwf, hsim⟩ := take_sim cfg.rst h.wf hs ht
    have hw₂ := waitingPtrs_picked hs it pool
    have hi₂ : (picked g budget it pool).item = g.item := rfl
    have hready : Ready (picked g budget it pool) g.waitingPtrs it (g.req it) := hwf.ready
    have hex := execItem_sim env cfg hready hw₂
    generalize picked g budget it pool = g₂ at *
    generalize execItem env cfg g₂ it = res at *
    obtain ⟨_ | f, g₃⟩ := res
    · -- the request has been answered: its item is freed
      obtain ⟨hl, hx⟩ := hex
      have hw₃ : g₃.waitingPtrs = g.waitingPtrs := by
        rw [← hw₂, Daemon.waitingPtrs, Daemon.waitingPtrs, hl.stack]
      have hwf₃ : WF g₃ (it :: g.waitingPtrs) := hwf.work List.mem_cons_self hl
      refine ⟨?_, ?_, ?_⟩
      · change WF (freeItem g₃ it) g₃.waitingPtrs
        rw [hw₃]
        exact hwf₃.release
      · intro i hi
        change i ∈ g₃.waitingPtrs at hi
        rw [hw₃] at hi
        have hne : i ≠ it := fun he => hwf₃.off.waiting (he ▸ hi)
        change mbSize ≤ (g₃.item i).hdr.len.toNat
        rw [hl.item i hne, hi₂]
        exact h.mailbox i hi
      · change Sim cfg.rst g _ _ (freeItem g₃ it) g₃.waitingPtrs .idle
        rw [hw₃, Sim, hwf₃.abs_release]
        exact hsim.trans hx
    · -- the mailbox call waits: its item is on the stack now
      obtain ⟨hl, rfl, hi, hsz, hx⟩ := hex
      have hst : g₃.stack = g₂.stack := hl.stack
      have hw₃ : (settle f.it (some f, g₃)).waitingPtrs = f.it :: g.waitingPtrs := by
        rw [← hw₂, Daemon.waitingPtrs, Daemon.waitingPtrs]
        simp [settle, hst]
      have hwf₃ : WF g₃ (f.it :: g.waitingPtrs) := hwf.work List.mem_cons_self hl
      dsimp only at hi
      refine ⟨?_, ?_, ?_⟩
      · rw [hw₃]
        exact hwf₃.congr rfl rfl (fun _ => rfl) rfl
      · rw [hw₃]
        intro i hmem
        change mbSize ≤ (g₃.item i).hdr.len.toNat
        rw [hi, hi₂]
        rcases List.mem_cons.mp hmem with rfl | hmem
        · exact hsz
        · exact h.mailbox i hmem
      · rw [hw₃]
        exact hsim.trans hx

/-- **One round of the wait loop of `exec_mailbox`.**

**Proof sketch.** One look at the flag (`execMailboxPoll_sim`). If the call returns, the request is
answered, its activation popped and its item freed; otherwise it stays on the stack, below a new
activation of `drain_queues`. -/
lemma Good.waitStep_follows (h : Good cfg g) {f : MbFrame} {rest : List Activation}
    (hs : g.stack = .wait f :: rest) : Follows cfg g (waitStep env cfg g f) := by
  -- the calls that wait further out
  obtain ⟨w, hw⟩ : ∃ w, g.waitingPtrs = f.it :: w ∧
      ∀ g' : Daemon, g'.stack = g.stack → (popStack g').waitingPtrs = w :=
    ⟨({ g with stack := rest } : Daemon).waitingPtrs, by simp [Daemon.waitingPtrs, hs],
      fun g' hg' => by simp [Daemon.waitingPtrs, popStack, hg', hs]⟩
  obtain ⟨hw, hpop⟩ := hw
  have hwf := h.wf
  rw [hw] at hwf
  have hsz : mbSize ≤ (g.req f.it).len := h.mailbox f.it (by rw [hw]; exact List.mem_cons_self)
  have hpoll : Polled cfg.rst w f.it (g.req f.it) g (execMailboxPoll env cfg g f) :=
    execMailboxPoll_sim env cfg rfl rfl hsz hwf.off
  unfold Spid.waitStep
  dsimp only
  generalize execMailboxPoll env cfg g f = res at *
  obtain ⟨d | f', g₁⟩ := res
  · -- the call returns: the request is answered and its item freed
    obtain ⟨hl, hp, cmd, hsim, hb⟩ := hpoll
    dsimp only at hl hp hsim hb ⊢
    have hwf₁ := hwf.work List.mem_cons_self hl
    have hreply : Work cfg.rst f.it w g₁ (.exec (g.req f.it) _) _ _ := mailboxReply_work env hl.entry
      (by rw [hl.used]; exact hwf.executed f.it List.mem_cons_self) hwf₁.off hp hb Answer.done
    generalize mailboxReply env g₁ f.it d.1 d.2 = g₂ at *
    have hwf₂ : WF g₂ (f.it :: w) := hwf₁.work List.mem_cons_self hreply.leaves
    have hw₂ : (freeItem (popStack g₂) f.it).waitingPtrs = w :=
      hpop g₂ (hreply.leaves.stack.trans hl.stack)
    have hwf₃ : WF (popStack g₂) (f.it :: w) := hwf₂.congr rfl rfl (fun _ => rfl) rfl
    refine ⟨?_, ?_, ?_⟩
    · rw [hw₂]
      exact hwf₃.release
    · rw [hw₂]
      intro i hi
      have hne : i ≠ f.it := fun he => hwf₃.off.waiting (he ▸ hi)
      change mbSize ≤ (g₂.item i).hdr.len.toNat
      rw [hreply.leaves.item i hne, hl.item i hne]
      exact h.mailbox i (by rw [hw]; exact List.mem_cons_of_mem _ hi)
    · rw [hw₂, hw, Sim, hwf₃.abs_release]
      exact hsim.trans hreply.sim
  · -- the call goes on waiting, with a new activation of `drain_queues` inside
    obtain ⟨hl, hf, hi, hsim⟩ := hpoll
    dsimp only at hl hf hi hsim ⊢
    have hst : g₁.stack = g.stack := hl.stack
    have hw₁ : ({ g₁ with stack := .drain 4 :: .wait f' :: g₁.stack.tail } : Daemon).waitingPtrs =
        f.it :: w := by
      rw [← hw]
      simp [Daemon.waitingPtrs, hst, hs, hf]
    have hwf₁ := hwf.work List.mem_cons_self hl
    refine ⟨?_, ?_, ?_⟩
    · rw [hw₁]
      exact hwf₁.congr rfl rfl (fun _ => rfl) rfl
    · rw [hw₁]
      intro i hmem
      change mbSize ≤ (g₁.item i).hdr.len.toNat
      rw [hi]
      exact h.mailbox i (by rwa [hw])
    · rw [hw₁, hw]
      exact hsim

/-- **One step inside a call of `drain_queues`.** -/
lemma Good.step_follows (h : Good cfg g) (hs : g.stack ≠ []) (i : Input) :
    Follows cfg g (step env cfg i g) := by
  unfold step
  cases hst : g.stack with
  | nil => exact absurd hst hs
  | cons a rest =>
    cases a with
    | drain budget => exact h.drainStep_follows hst
    | wait f => exact h.waitStep_follows hst

/-! ## Clients -/

/-- A piece of a round of the loop of `main`, in which no request is being executed. -/
structure Quiet (rst : Bool) (g g' : Daemon) : Prop where
  wf : WF g' []
  sim : Sim rst g [] .idle g' [] .idle
  stack : g'.stack = g.stack

/-- One piece of work after another. -/
lemma Quiet.trans {rst : Bool} {g₁ : Daemon} (h : Quiet rst g g₁) (h' : Quiet rst g₁ g') :
    Quiet rst g g' :=
  ⟨h'.wf, h.sim.trans h'.sim, h'.stack.trans h.stack⟩

/-- `accept_client`.

**Proof sketch.** Without a free slot nothing happens. Otherwise the slot that is taken was free,
so no item and no claim belongs to it, and the client of every other slot stays. -/
lemma acceptClient_quiet (rst : Bool) (h : WF g []) (pid : ℤ) (line : Text) :
    Quiet rst g (acceptClient g pid line) := by
  unfold acceptClient
  cases hf : (List.finRange 16).find? fun c => !(g.cl c).used with
  | none => exact ⟨h, Sim.refl, rfl⟩
  | some c =>
    have hc : (g.cl c).used = false := by
      have := List.find?_some hf
      simpa using this
    -- nobody's slot but `c` changes, and nothing belongs to `c`
    have hne : ∀ d, (g.cl d).used = true → d ≠ c := by
      rintro d hd rfl
      rw [hc] at hd
      exact Bool.false_ne_true hd
    have hused : ∀ d x, (g.cl d).used = true → (Function.update g.cl c x d).used = true := by
      intro d x hd
      rw [Function.update_of_ne (hne d hd)]
      exact hd
    dsimp only
    refine ⟨⟨h.rep, h.prio, fun q i hi => hused _ _ (h.queued q i hi), by simp,
      fun d hd => hused d _ (h.owner d hd), h.len⟩, Sim.of_step rfl ?_, rfl⟩
    have hstep : Step rst (g.abs [] .idle) (.connect c g.nConn) _ :=
      Step.connect rfl rfl (by simp [Daemon.abs, hc])
    convert hstep using 1
    simp only [Daemon.abs, Daemon.emit, Daemon.setClient, Abs.mk.injEq, and_true]
    refine ⟨?_, rfl, rfl⟩
    funext d
    by_cases hd : d = c
    · subst hd
      simp
    · simp [hd]

/-- `client_drop`.

**Proof sketch.** If the client owns the claim, its cleanup list is run first (`claimEnd_sim`).
Then the purge of the pool takes exactly the items of the client out of the queues (`Rep.purge`),
and what is left belongs to other clients. -/
lemma clientDrop_quiet (rst : Bool) (h : WF g []) {c : Slot} (hu : (g.cl c).used = true) :
    Quiet rst g (clientDrop env cfg g c) := by
  unfold clientDrop
  dsimp only
  -- the claim ends first, if it is the client's
  obtain ⟨g₁, hg₁, hq, ho, hcl⟩ : ∃ g₁, g₁ = (if g.claim.owner = some c then
      claimEnd env cfg g .disconnect else g) ∧ Quiet rst g g₁ ∧ g₁.claim.owner ≠ some c ∧
      g₁.cl = g.cl := by
    refine ⟨_, rfl, ?_⟩
    split_ifs with ho
    · obtain ⟨io, lctx, he⟩ := claimEnd_fields env cfg g .disconnect
      have hs : Sim rst g [] .idle (claimEnd env cfg g .disconnect) [] .idle :=
        claimEnd_sim env cfg ho rfl
      rw [he] at hs ⊢
      exact ⟨⟨⟨h.rep, h.prio, h.queued, h.executed, by simp [endClaim], h.len⟩, hs, rfl⟩,
        by simp [endClaim], rfl⟩
    · exact ⟨⟨h, Sim.refl, rfl⟩, ho, rfl⟩
  rw [← hg₁]
  refine hq.trans ?_
  have hu₁ : (g₁.cl c).used = true := by rw [hcl]; exact hu
  have h₁ := hq.wf
  clear hg₁ hq hcl hu h
  obtain ⟨free, hr⟩ := h₁.rep
  obtain ⟨free', hr'⟩ := hr.purge fun it => (g₁.item it).c = c
  have hqs : (g₁.pool.purge fun it => (g₁.item it).c = c).queue =
      fun q => (g₁.pool.queue q).filter fun i => !decide ((g₁.item i).c = c) :=
    funext fun q => hr'.queue_eq q
  have hmem : ∀ q, ∀ i ∈ (g₁.pool.purge fun it => (g₁.item it).c = c).queue q,
      i ∈ g₁.pool.queue q ∧ (g₁.item i).c ≠ c := by
    intro q i hi
    simpa using hr.mem_queue_of_purge hi
  have hused : ∀ d x, d ≠ c → (g₁.cl d).used = true →
      (Function.update g₁.cl c x d).used = true := by
    intro d x hd hx
    rw [Function.update_of_ne hd]
    exact hx
  refine ⟨⟨⟨free', by
      change (g₁.pool.purge _).Rep free' (g₁.pool.purge _).queue []
      rw [hqs]
      exact hr'⟩, fun q i hi => h₁.prio q i (hmem q i hi).1,
    fun q i hi => hused _ _ (hmem q i hi).2 (h₁.queued q i (hmem q i hi).1), by simp,
    fun d hd => hused d _ (fun he => ho (he ▸ hd)) (h₁.owner d hd), h₁.len⟩, Sim.of_step rfl ?_, rfl⟩
  have hstep : Step rst (g₁.abs [] .idle) (.disconnect c (g₁.cl c).fd) _ :=
    Step.disconnect rfl rfl (by simp [Daemon.abs, hu₁]) ho
  convert hstep using 1
  simp only [Daemon.abs, Daemon.emit, Daemon.setClient, Abs.mk.injEq, and_true]
  refine ⟨?_, ?_, rfl⟩
  · funext d
    by_cases hd : d = c
    · subst hd
      simp
    · simp [hd]
  · funext q
    change ((g₁.pool.purge _).queue q).map g₁.req = _
    rw [hqs, List.filter_map]
    rfl

variable (env) in
/-- `enqueue`: the request is put on its queue, or answered when the pool is used up.

**Proof sketch.** If the pool is full the request is answered with `EBUSY`. Otherwise an item of
the free list, which is in no queue, is filled with the request and put at the end of its queue
(`Rep.put_some`); the requests in the other items are the same as before. -/
lemma enqueue_sim (rst : Bool) (h : WF g []) (rid : ℕ) {c : Slot} {msg : List UInt8}
    (hu : (g.cl c).used = true) (hok : frameOk msg = true) :
    WF (enqueue env g rid c (Hdr.decode msg) (msg.drop hdrSize)) [] ∧
      Sim rst g [] (.received rid c msg)
        (enqueue env g rid c (Hdr.decode msg) (msg.drop hdrSize)) [] .idle ∧
      (enqueue env g rid c (Hdr.decode msg) (msg.drop hdrSize)).stack = g.stack := by
  obtain ⟨hlen, hmax, hsize⟩ := frameOk_len hok
  unfold enqueue
  cases hp : g.pool.put (Hdr.decode msg).prio with
  | none =>
    obtain ⟨hev, hl, hi, habs⟩ := sendResp_spec env g rid c (Hdr.decode msg) .ebusy []
    refine ⟨?_, Sim.of_step hev ?_, (hl 0).stack⟩
    · exact h.congr (hl 0).pool hi (hl 0).used (congrArg (·.claim.owner) (habs [] .idle))
    · rw [habs]
      have hf : frameHdr msg = Hdr.decode msg := by simp [frameHdr, hsize]
      have hstep : Step rst (g.abs [] (.received rid c msg)) _ _ :=
        Step.reject rfl (Daemon.abs_conn hu) rfl
      rw [hf, hok, if_pos rfl] at hstep
      exact hstep
  | some p =>
    obtain ⟨it, pool⟩ := p
    dsimp only
    obtain ⟨free, hr⟩ := h.rep
    obtain ⟨free', hfree, hr'⟩ := hr.put_some hp
    have hnot : ∀ q, it ∉ g.pool.queue q :=
      (hr.notMem_of_mem_free (by rw [hfree]; exact List.mem_cons_self)).2
    have hqs : pool.queue = Function.update g.pool.queue (Hdr.decode msg).prio
        (g.pool.queue (Hdr.decode msg).prio ++ [it]) := funext fun q => hr'.queue_eq q
    generalize hx : (⟨c, Hdr.decode msg, (g.item it).body.write 0
      ((msg.drop hdrSize).take (Hdr.decode msg).len.toNat), rid⟩ : Item) = x
    have hreq : ({ g with pool := pool }.setItem it x).req it = frameReq rid c msg := by
      simp only [Daemon.req, Daemon.entry, Daemon.bodyOf, Daemon.setItem, Function.update_self,
        ← hx, frameReq, Req.mk.injEq, true_and]
      rw [List.take_of_length_le (le_of_eq hlen.symm), hlen]
      exact Block.read_write_self _ _ _ (by omega)
    have hother : ∀ j, j ≠ it → ({ g with pool := pool }.setItem it x).req j = g.req j := by
      intro j hj
      simp [Daemon.req, Daemon.entry, Daemon.bodyOf, Daemon.setItem, hj]
    have hmem : ∀ q, ∀ i ∈ pool.queue q, i ≠ it ∧ i ∈ g.pool.queue q ∨
        i = it ∧ q = (Hdr.decode msg).prio := fun q i hi => hr.mem_queue_of_put hp hi
    refine ⟨⟨⟨free', ?_⟩, ?_, ?_, by simp, h.owner, ?_⟩, Sim.of_step rfl ?_, rfl⟩
    · change pool.Rep free' pool.queue []
      rw [hqs]
      exact hr'
    · intro q i hi
      rcases hmem q i hi with ⟨hne, hi⟩ | ⟨rfl, rfl⟩
      · simpa [Daemon.setItem, Daemon.emit, hne] using h.prio q i hi
      · simp [Daemon.setItem, Daemon.emit, ← hx]
    · intro q i hi
      rcases hmem q i hi with ⟨hne, hi⟩ | ⟨rfl, rfl⟩
      · simpa [Daemon.setItem, Daemon.emit, hne] using h.queued q i hi
      · simpa [Daemon.setItem, Daemon.emit, ← hx] using hu
    · intro i
      by_cases hi : i = it
      · subst hi
        simpa [Daemon.setItem, Daemon.emit, ← hx] using hmax
      · simpa [Daemon.setItem, Daemon.emit, hi] using h.len i
    · have hstep : Step rst (g.abs [] (.received rid c msg)) _ _ := Step.enqueue rfl hok
      rw [← hreq] at hstep
      convert hstep using 1
      · rfl
      · simp only [Daemon.abs, Daemon.emit, Abs.mk.injEq, List.map_nil, and_true]
        refine ⟨rfl, ?_, trivial, rfl, rfl, rfl, rfl⟩
        funext q
        change (pool.queue q).map ({ g with pool := pool }.setItem it x).req = _
        have hmap : ∀ q, (g.pool.queue q).map ({ g with pool := pool }.setItem it x).req =
            (g.pool.queue q).map g.req := fun q =>
          List.map_congr_left fun j hj => hother j fun he => hnot q (he ▸ hj)
        by_cases hq : q = (Hdr.decode msg).prio
        · subst hq
          rw [hqs, Function.update_self, Function.update_self, List.map_append, hmap]
          rfl
        · rw [hqs, Function.update_of_ne hq, Function.update_of_ne hq, hmap]

variable (env) in
/-- `client_msg` on a datagram that is not empty. -/
lemma clientFrame_sim (rst : Bool) (h : WF g []) (rid : ℕ) {c : Slot} (msg : List UInt8)
    (hu : (g.cl c).used = true) :
    WF (clientFrame env g rid c msg) [] ∧
      Sim rst g [] (.received rid c msg) (clientFrame env g rid c msg) [] .idle ∧
      (clientFrame env g rid c msg).stack = g.stack := by
  unfold clientFrame
  by_cases hok : frameOk msg = true
  · rw [if_pos hok]
    dsimp only
    -- the message is counted first
    generalize hx : ({ g.cl c with nMsgs := (g.cl c).nMsgs + 1 } : Client) = x
    have hl : Leaves 0 g (g.setClient c x) := Leaves.setClient 0 g (by rw [← hx]) (by rw [← hx])
    have hwf : WF (g.setClient c x) [] := h.congr rfl rfl hl.used rfl
    have hs : Sim rst g [] (.received rid c msg) (g.setClient c x) [] (.received rid c msg) :=
      Sim.of_eq rfl (hl.abs_eq_of_item rfl rfl rfl [] _)
    have hu' : ((g.setClient c x).cl c).used = true := by rw [hl.used]; exact hu
    obtain ⟨h₁, h₂, h₃⟩ := enqueue_sim env rst hwf rid hu' hok
    exact ⟨h₁, hs.trans h₂, h₃⟩
  · rw [if_neg hok]
    obtain ⟨hev, hl, hi, habs⟩ := sendResp_spec env g rid c (frameHdr msg) .einval []
    refine ⟨?_, Sim.of_step hev ?_, (hl 0).stack⟩
    · exact h.congr (hl 0).pool hi (hl 0).used (congrArg (·.claim.owner) (habs [] .idle))
    · change Step rst _ _ (Daemon.abs (sendResp env g rid c (frameHdr msg) .einval []) [] .idle)
      rw [habs]
      exact Step.reject rfl (Daemon.abs_conn hu) (by rw [if_neg hok])

/-- `client_msg`. -/
lemma clientMsg_quiet (rst : Bool) (h : WF g []) {c : Slot} (hu : (g.cl c).used = true)
    (datagram : List UInt8) : Quiet rst g (clientMsg env cfg g c datagram) := by
  unfold clientMsg
  dsimp only
  split_ifs with hm
  · exact clientDrop_quiet rst h hu
  · have hstep : Step rst (g.abs [] .idle) (.recv g.nRecv c (g.cl c).fd _) _ :=
      Step.recv rfl rfl (Daemon.abs_conn hu) hm
    have hs : Sim rst g [] .idle ({ g with nRecv := g.nRecv + 1 }.emit
        (.recv g.nRecv c (g.cl c).fd (datagram.take (hdrSize + msgMax)))) [] _ :=
      Sim.of_step rfl hstep
    have hwf : WF ({ g with nRecv := g.nRecv + 1 }.emit
        (.recv g.nRecv c (g.cl c).fd (datagram.take (hdrSize + msgMax)))) [] :=
      h.congr rfl rfl (fun _ => rfl) rfl
    obtain ⟨h₁, h₂, h₃⟩ := clientFrame_sim env rst hwf g.nRecv (datagram.take (hdrSize + msgMax)) hu
    exact ⟨h₁, hs.trans h₂, h₃⟩

/-- One epoll event. -/
lemma handleEvent_quiet (rst : Bool) (h : WF g []) (e : EpollEvent) :
    Quiet rst g (handleEvent env cfg g e) := by
  cases e with
  | listen pid line => exact acceptClient_quiet rst h pid line
  | client c datagram =>
    simp only [handleEvent]
    split_ifs with hu
    · exact clientMsg_quiet rst h hu datagram
    · exact ⟨h, Sim.refl, rfl⟩

/-- Outside every activation nothing waits. -/
lemma waitingPtrs_nil (hs : g.stack = []) : g.waitingPtrs = [] := by
  simp [Daemon.waitingPtrs, hs]

/-- A piece of a round of the loop of `main` keeps the invariant. -/
lemma Good.quiet (h : Good cfg g) (hs : g.stack = []) (hq : Quiet cfg.rst g g') : Good cfg g' := by
  have hrun := h.run
  have hw' := waitingPtrs_nil (hq.stack.trans hs)
  rw [waitingPtrs_nil hs] at hrun
  refine ⟨?_, ?_, ?_⟩
  · rw [hw']
    exact hq.wf
  · simp [hw']
  · rw [hw']
    exact hq.sim.run hrun

/-- The representation invariant in the loop of `main`. -/
lemma Good.wf_nil (h : Good cfg g) (hs : g.stack = []) : WF g [] := by
  have hwf := h.wf
  rwa [waitingPtrs_nil hs] at hwf

/-- The epoll events of one round of the loop of `main`. -/
lemma foldl_handleEvent_quiet (rst : Bool) : ∀ (evs : List EpollEvent) {g : Daemon}, WF g [] →
    Quiet rst g (evs.foldl (handleEvent env cfg) g) := by
  intro evs
  induction evs with
  | nil => exact fun h => ⟨h, Sim.refl, rfl⟩
  | cons e evs ih =>
    intro g h
    have h₁ : Quiet rst g (handleEvent env cfg g e) := handleEvent_quiet rst h e
    exact h₁.trans (ih h₁.wf)

variable (env cfg) in
/-- The expiry check. -/
lemma checkExpiry_quiet (rst : Bool) (h : WF g []) : Quiet rst g (checkExpiry env cfg g) := by
  unfold checkExpiry
  split_ifs with ho
  · dsimp only
    have hn : Sim rst g [] .idle (nowUs env g).2 [] .idle := Sim.of_notes (Notes.nowUs env g)
    split_ifs with hd
    · obtain ⟨c, hc⟩ := Option.isSome_iff_exists.mp ho
      have hc' : (nowUs env g).2.claim.owner = some c := hc
      obtain ⟨io, lctx, he⟩ := claimEnd_fields env cfg (nowUs env g).2 .expired
      have hs : Sim rst (nowUs env g).2 [] .idle (claimEnd env cfg (nowUs env g).2 .expired) []
        .idle := claimEnd_sim env cfg hc' rfl
      refine ⟨?_, hn.trans hs, by rw [he]; rfl⟩
      rw [he]
      exact ⟨h.rep, h.prio, h.queued, h.executed, by simp [endClaim], h.len⟩
    · exact ⟨h.congr rfl rfl (fun _ => rfl) rfl, hn, rfl⟩
  · exact ⟨h, Sim.refl, rfl⟩

/-! ## Runs -/

/-- **One step of the daemon** keeps the invariant and is followed by the protocol. -/
lemma Good.step (h : Good cfg g) (i : Input) : Good cfg (step env cfg i g) := by
  by_cases hs : g.stack = []
  · have hw : g.waitingPtrs = [] := by simp [Daemon.waitingPtrs, hs]
    have hwf := h.wf
    have hrun := h.run
    rw [hw] at hwf hrun
    have h₁ : Quiet cfg.rst g ((epollWait g i.evs).foldl (handleEvent env cfg) g) :=
      foldl_handleEvent_quiet cfg.rst _ hwf
    have h₂ := h₁.trans (checkExpiry_quiet env cfg cfg.rst h₁.wf)
    simp only [Spid.step, hs]
    exact ⟨h₂.wf.congr rfl rfl (fun _ => rfl) rfl, by simp [mainStep, Daemon.waitingPtrs],
      h₂.sim.run hrun⟩
  · exact (h.step_follows hs i).good h

/-- Reading `DEVICE_ID` leaves no event. -/
lemma evs_boot (env : Env) (cfg : Config) : (boot env cfg).evs = [] := by
  have h := evs_spiReadReg env cfg
  simp only [boot, Daemon.evs]
  split_ifs
  · exact h _ _ _ _
  · exact h _ _ _ _

/-- The state in which `main` enters its loop.

**Proof sketch.** By computation: the free list is the chain of all items, and everything else is
empty. -/
lemma good_boot : Good cfg (boot env cfg) := by
  have hqs : ∀ q, (boot env cfg).pool.queue q = [] := fun q => rfl
  have hq : (boot env cfg).pool.queue = fun _ => [] := funext hqs
  have hevs : (boot env cfg).evs = [] := evs_boot env cfg
  refine ⟨⟨⟨List.finRange 256, ⟨?_, fun q => ?_, fun i => ?_⟩, fun q => ?_, ?_⟩, ?_, ?_, ?_, ?_, ?_⟩,
    ?_, ?_⟩
  · exact Chain.finRange (m := 256) fun i => rfl
  · rw [hq]
    rfl
  · rw [hq]
    simp [boot, Daemon.waitingPtrs, List.count_eq_one_of_mem (List.nodup_finRange 256)
      (List.mem_finRange i)]
  · rw [hq]
    rfl
  · rw [hq]
    simp [boot]
  · intro q i hi
    rw [hqs] at hi
    simp at hi
  · intro q i hi
    rw [hqs] at hi
    simp at hi
  · simp [boot, Daemon.waitingPtrs]
  · simp [boot]
  · simp [boot, msgMax]
  · simp [boot, Daemon.waitingPtrs]
  · rw [hevs]
    have habs : (boot env cfg).abs (boot env cfg).waitingPtrs .idle = Abs.init := by
      simp only [Daemon.abs, Abs.init, hq]
      rfl
    rw [habs]
    exact Steps.nil _

/-- **Refinement.** In every reachable state the representation invariant holds, and the history is
one of the protocol. -/
theorem Reachable.good (h : Reachable env cfg g) : Good cfg g := by
  induction h with
  | boot => exact good_boot
  | step _ i ih => exact ih.step i

end

end Spid

import SpidevProxy.Refinement

set_option relaxedAutoImplicit false
set_option autoImplicit false

/-!
# The representation invariant of queues and pool

In every state of the daemon the 256 items of `g.pool` are shared out among the free list, the three
queues and the calls that execute them, and whatever refers to a client slot refers to a connected
client. The states between two steps are covered by `Spid.Reachable`; two kinds of states inside a
step are covered as well, the one in which `exec_item` runs on an item that has just been unlinked,
and the ones between two epoll events.

## Main definitions

* `Spid.PoolOk` — the invariant, for the items `out` that are being executed.

## Main results

* `Spid.pool_invariant` — it holds in every reachable state, during every execution of an item and
  between any two epoll events, and a new client starts without requests and without a claim.
-/

namespace Spid

open Intrusive

/-- The pool, the queues and the client slots fit together, `free` being the free list and `out` the
items that are being executed. -/
structure PoolOk (g : Daemon) (free out : List Ptr) : Prop where
  /-- The free list ends with a null pointer, and so does every queue. -/
  free_chain : Chain g.pool.next g.pool.freel free
  queue_chain : ∀ q, Chain g.pool.next (g.pool.qh q) (g.pool.queue q)
  /-- No list has a cycle. -/
  free_nodup : free.Nodup
  queue_nodup : ∀ q, (g.pool.queue q).Nodup
  /-- Every item is at exactly one place. -/
  partition : ∀ i, free.count i + ∑ q, (g.pool.queue q).count i + out.count i = 1
  /-- `g.qt[q]` is the last node of queue `q`. -/
  tail : ∀ q, g.pool.qt q = (g.pool.queue q).getLast?
  tail_none : ∀ q, g.pool.qt q = none ↔ g.pool.qh q = none
  /-- `g.n_queued` counts the queued items. -/
  count : g.pool.count = ∑ q, ((g.pool.queue q).length : ℤ)
  /-- Requests and the claim belong to connected clients. -/
  queued : ∀ q, ∀ i ∈ g.pool.queue q, (g.cl (g.item i).c).used = true
  executed : ∀ i ∈ out, (g.cl (g.item i).c).used = true
  owner : ∀ c, g.claim.owner = some c → (g.cl c).used = true

/-- The representation invariant, in the terms of the pool. -/
lemma WF.poolOk {g : Daemon} {out : List Ptr} (h : WF g out) : ∃ free, PoolOk g free out := by
  obtain ⟨free, hr⟩ := h.rep
  refine ⟨free, hr.free_chain, hr.queue_chain, hr.free_chain.nodup, fun q => (hr.queue_chain q).nodup,
    hr.partition, hr.tail, fun q => ?_, hr.count_eq, h.queued, h.executed, h.owner⟩
  rw [hr.tail q, List.getLast?_eq_none_iff]
  exact (hr.queue_chain q).eq_nil_iff

/-- A slot that is not in use has no requests and no claim. -/
lemma PoolOk.of_unused {g : Daemon} {free out : List Ptr} (h : PoolOk g free out) {c : Slot}
    (hc : (g.cl c).used = false) :
    (∀ q, ∀ i ∈ g.pool.queue q, (g.item i).c ≠ c) ∧ (∀ i ∈ out, (g.item i).c ≠ c) ∧
      g.claim.owner ≠ some c := by
  have hne : ∀ d, (g.cl d).used = true → d ≠ c := by
    rintro d hd rfl
    rw [hd] at hc
    exact absurd hc (by decide)
  exact ⟨fun q i hi => hne _ (h.queued q i hi), fun i hi => hne _ (h.executed i hi),
    fun ho => hne c (h.owner c ho) rfl⟩

/-- `accept_client` touches neither the pool nor the claim. -/
lemma acceptClient_frame (g : Daemon) (pid : ℤ) (line : Text) :
    (acceptClient g pid line).pool = g.pool ∧ (acceptClient g pid line).item = g.item ∧
      (acceptClient g pid line).claim = g.claim := by
  unfold acceptClient
  split
  · exact ⟨rfl, rfl, rfl⟩
  · exact ⟨rfl, rfl, rfl⟩

/-- **The representation invariant** holds in every reachable state, with the items of the waiting
mailbox calls being executed; while `exec_item` runs on an item that `drain_queues` has unlinked;
and between any two epoll events. A client accepted into a slot finds no request and no claim
there. -/
theorem pool_invariant {env : Env} {cfg : Config} {g : Daemon} (h : Reachable env cfg g) :
    (∃ free, PoolOk g free g.waitingPtrs) ∧
    (∀ budget rest it pool, g.stack = .drain budget :: rest →
      g.pool.take (itemEligible g) = some (it, pool) →
      ∃ free, PoolOk (picked g budget it pool) free (it :: g.waitingPtrs)) ∧
    (g.stack = [] → ∀ evs : List EpollEvent,
      (∃ free, PoolOk (evs.foldl (handleEvent env cfg) g) free []) ∧
      ∀ pid line c, ((evs.foldl (handleEvent env cfg) g).cl c).used = false →
        (∀ q, ∀ i ∈ (acceptClient (evs.foldl (handleEvent env cfg) g) pid line).pool.queue q,
          ((acceptClient (evs.foldl (handleEvent env cfg) g) pid line).item i).c ≠ c) ∧
        (acceptClient (evs.foldl (handleEvent env cfg) g) pid line).claim.owner ≠ some c) := by
  have hgood := h.good
  refine ⟨hgood.wf.poolOk, fun budget rest it pool hs ht => ?_, fun hs evs => ?_⟩
  · exact (take_sim cfg.rst hgood.wf hs ht).1.poolOk
  · have hwf : WF g [] := by
      have hw : g.waitingPtrs = [] := by simp [Daemon.waitingPtrs, hs]
      rw [← hw]
      exact hgood.wf
    have hquiet : Quiet cfg.rst g (evs.foldl (handleEvent env cfg) g) :=
      foldl_handleEvent_quiet cfg.rst evs hwf
    obtain ⟨free, hok⟩ := hquiet.wf.poolOk
    refine ⟨⟨free, hok⟩, fun pid line c hc => ?_⟩
    obtain ⟨hq, -, ho⟩ := hok.of_unused hc
    obtain ⟨hp, hi, hcl⟩ := acceptClient_frame (evs.foldl (handleEvent env cfg) g) pid line
    rw [hp, hi, hcl]
    exact ⟨hq, ho⟩

/-- Client 0 sends a `MAILBOX` and client 1 a `READ`, and the mailbox call waits. -/
def mailboxWaiting : Daemon :=
  run (Env.still 0) Config.plain
    (connects [(7, ['a']), (8, ['b'])] ++
      [⟨[.client 0 (datagram .mailbox 0 1 [0, 5, 0, 0, 0, 0, 0, 0]),
        .client 1 (datagram .read 0 1 [0, 0, 0x1e, 0, 0, 0, 0, 0, 0, 0, 0, 0])], 64⟩, .none])

/-- The theorem at a state in which one item is being executed and one is queued. -/
theorem pool_invariant_mailboxWaiting :
    mailboxWaiting.waitingPtrs = [0] ∧ mailboxWaiting.pool.queue 1 = [1] ∧
      ∃ free, PoolOk mailboxWaiting free [0] := by
  have hw : mailboxWaiting.waitingPtrs = [0] := by decide +kernel
  have hq : mailboxWaiting.pool.queue 1 = [1] := by decide +kernel
  have hr : Reachable (Env.still 0) Config.plain mailboxWaiting := Reachable.run _ _ _
  refine ⟨hw, hq, ?_⟩
  rw [← hw]
  exact (pool_invariant hr).1

end Spid

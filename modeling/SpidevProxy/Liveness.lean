import SpidevProxy.Responses
import SpidevProxy.Termination

set_option relaxedAutoImplicit false
set_option autoImplicit false

/-!
# Every request is answered

A `drain_queues` call executes what is eligible, and what is not eligible waits for the end of a
claim. If the clients send nothing more, the main loop comes to an end of its work: each of its rounds
picks a request, or brings the claim nearer to its deadline. Meanwhile `epoll_wait` never blocks: the
main loop asks it to return at once while requests are queued, and after 100 ms while a client holds
the claim.

## Main definitions

* `Spid.epollTimeout` — the timeout that the main loop passes to `epoll_wait`.
* `Spid.silent` — the daemon while its clients send nothing.
* `Spid.Daemon.AtRest` — nothing is left to do.

## Main results

* `Spid.silent_round` — a round of the main loop makes the work smaller.
* `Spid.daemon_comes_to_rest` — every request is answered and every claim ends; the daemon blocks in
  `epoll_wait` then and not before.
-/

namespace Spid

open History

/-- The timeout that the main loop passes to `epoll_wait`, in milliseconds: `-1` blocks. -/
def epollTimeout (g : Daemon) : ℤ :=
  if g.pool.count ≠ 0 then 0 else if g.claim.owner.isSome then 100 else -1

/-- The daemon after `k` steps in which the clients send nothing. -/
def silent (env : Env) (cfg : Config) (g : Daemon) (k : ℕ) : Daemon := (step env cfg .none)^[k] g

/-- The instants that the daemon waits for: the deadlines of the mailbox calls, and of the claim. -/
def Daemon.timers (g : Daemon) : List UInt64 :=
  g.deadlines ++ if g.claim.owner.isSome then [g.claim.deadline] else []

/-- Nothing is left to do: the main loop is at its start, no request is unanswered, no mailbox call is
inside, and nobody holds the claim. -/
structure Daemon.AtRest (g : Daemon) : Prop where
  stack : g.stack = []
  unanswered : g.unanswered = []
  inflight : g.mbInflight = false
  owner : g.claim.owner = none

section

variable {env : Env} {cfg : Config} {g : Daemon}

/-- Silence after silence. -/
lemma silent_add (j k : ℕ) : silent env cfg (silent env cfg g j) k = silent env cfg g (k + j) :=
  (Function.iterate_add_apply _ _ _ _).symm

/-- Silence leads to a reachable state. -/
lemma Reachable.silent (h : Reachable env cfg g) (k : ℕ) :
    Reachable env cfg (Spid.silent env cfg g k) :=
  Function.Iterate.rec (Reachable env cfg) h (fun _ h => h.step .none) k

/-! ## What stays -/

/-- One step without input receives nothing, and closes no connection. -/
lemma silent_step (h : Reachable env cfg g) :
    ∃ es, (step env cfg .none g).evs = g.evs ++ es ∧ (∀ e ∈ es, e.moves = false) ∧
      Steps (Step cfg.rst) (g.abs g.waitingPtrs .idle) es
        ((step env cfg .none g).abs (step env cfg .none g).waitingPtrs .idle) := by
  by_cases hs : g.stack = []
  · have hw : g.waitingPtrs = [] := by simp [Daemon.waitingPtrs, hs]
    have hstep : step env cfg .none g = { checkExpiry env cfg g with stack := [.drain 64] } := by
      simp only [step, hs]
      rfl
    have hwf := h.good.wf
    rw [hw] at hwf
    obtain ⟨es, he, hsteps⟩ := (checkExpiry_quiet env cfg cfg.rst hwf).sim
    obtain ⟨es', he', hends⟩ := checkExpiry_evs env cfg g
    obtain rfl : es' = es := List.append_cancel_left (he'.symm.trans he)
    rw [hstep, hw]
    refine ⟨es', he, fun e hm => ?_, hsteps⟩
    obtain ⟨c, -, ⟨how, rfl⟩ | hby⟩ := hends e hm
    · rfl
    · cases e <;> simp_all [Event.By, Event.moves]
  · obtain ⟨a, rest, hst⟩ := List.exists_cons_of_ne_nil hs
    obtain ⟨es, he, hno, -⟩ := step_advance env cfg hst .none
    obtain ⟨es', he', hsteps⟩ := (h.good.step_follows hs .none).sim
    obtain rfl : es' = es := List.append_cancel_left (he'.symm.trans he)
    exact ⟨es', he, hno, hsteps⟩

/-- **Silence**: nothing is received, and no connection is closed. -/
lemma silent_sim (h : Reachable env cfg g) (k : ℕ) :
    ∃ es, (silent env cfg g k).evs = g.evs ++ es ∧ (∀ e ∈ es, e.moves = false) ∧
      Steps (Step cfg.rst) (g.abs g.waitingPtrs .idle) es
        ((silent env cfg g k).abs (silent env cfg g k).waitingPtrs .idle) := by
  induction k with
  | zero => exact ⟨[], (List.append_nil _).symm, by simp, Steps.nil _⟩
  | succ k ih =>
    obtain ⟨es, he, hno, hsteps⟩ := ih
    obtain ⟨es', he', hno', hsteps'⟩ := silent_step (h.silent k)
    have hk : silent env cfg g (k + 1) = step env cfg .none (silent env cfg g k) :=
      Function.iterate_succ_apply' _ _ _
    rw [hk]
    refine ⟨es ++ es', by rw [he', he, List.append_assoc], fun e hm => ?_, hsteps.trans hsteps'⟩
    exact (List.mem_append.mp hm).elim (hno e) (hno' e)

/-- The queues do not grow. -/
lemma silent_queued (h : Reachable env cfg g) (k : ℕ) :
    (silent env cfg g k).queued.length ≤ g.queued.length := by
  obtain ⟨es, -, hno, hsteps⟩ := silent_sim h k
  have hperm := Steps.queued_perm hsteps hno
  rw [Daemon.abs_queued, Daemon.abs_queued] at hperm
  rw [← hperm.length_eq, List.length_append]
  exact Nat.le_add_left _ _

/-- Connections stay open. -/
lemma Steps.conn_keep {rst : Bool} {a a' : Abs} {es : List Event} (h : Steps (Step rst) a es a')
    (hes : ∀ e ∈ es, e.moves = false) {c : Slot} {fd : ℕ} (hc : a.conn c = some fd) :
    a'.conn c = some fd := by
  induction h with
  | nil => exact hc
  | @snoc t u es e _ hs ih =>
    rcases hs.conn_keep (ih fun e he => hes e (List.mem_append_left _ he)) with h' | rfl
    · exact h'
    · simpa [Event.moves] using hes (.disconnect c fd) (by simp)

/-- A client stays connected while no one says anything. -/
lemma silent_conn (h : Reachable env cfg g) (k : ℕ) {c : Slot} (hu : (g.cl c).used = true) :
    ((silent env cfg g k).cl c).used = true ∧ ((silent env cfg g k).cl c).fd = (g.cl c).fd := by
  obtain ⟨es, -, hno, hsteps⟩ := silent_sim h k
  have hconn := Steps.conn_keep hsteps hno (Daemon.abs_conn hu)
  simpa [Daemon.abs] using hconn

/-! ## Rounds of the main loop -/

/-- The main loop is reached again. -/
lemma silent_returns (h : Reachable env cfg g)
    (hclock : ∀ k, ∀ t ∈ (silent env cfg g k).timers, env.Passes t) :
    ∃ k, (silent env cfg g k).stack = [] := by
  have hsub : ∀ k, ∃ j, (callStep env cfg 0)^[k] g = silent env cfg g j := by
    intro k
    induction k with
    | zero => exact ⟨0, rfl⟩
    | succ k ih =>
      obtain ⟨j, hj⟩ := ih
      rw [Function.iterate_succ_apply', hj, callStep]
      split_ifs
      · exact ⟨j, rfl⟩
      · exact ⟨j + 1, (Function.iterate_succ_apply' _ _ _).symm⟩
  have hd : Draining cfg g [] g :=
    ⟨h.good, List.nil_suffix, [], (List.append_nil _).symm, by simp, Steps.nil _⟩
  obtain ⟨k, hk⟩ := hd.returns fun k t ht => by
    obtain ⟨j, hj⟩ := hsub k
    rw [List.length_nil, hj] at ht
    exact hclock j t (List.mem_append_left _ ht)
  obtain ⟨j, hj⟩ := hsub k
  rw [List.length_nil, hj] at hk
  exact ⟨j, List.length_eq_zero_iff.mp (Nat.le_zero.mp hk)⟩

/-- How many more readings of the clock the claim can bear. -/
def claimPatience (n : UInt64 → ℕ) (g : Daemon) : ℕ :=
  if g.claim.owner.isSome then n g.claim.deadline - g.io.nClock + 1 else 0

/-- The work that is left at the main loop: the queued requests, then the patience of the claim. -/
def workLeft (n : UInt64 → ℕ) (g : Daemon) : ℕ ×ₗ ℕ :=
  toLex (g.queued.length, claimPatience n g)

/-- The expiry check ends the claim, or has read the clock before the deadline. -/
lemma claimPatience_expiry {n : UInt64 → ℕ} (ho : g.claim.owner.isSome)
    (hn : ∀ m, n g.claim.deadline ≤ m → g.claim.deadline < env.clock m) :
    claimPatience n (checkExpiry env cfg g) < claimPatience n g := by
  have hg : claimPatience n g = n g.claim.deadline - g.io.nClock + 1 := if_pos ho
  unfold checkExpiry
  rw [if_pos ho]
  dsimp only
  split_ifs with hd
  · obtain ⟨io, lctx, he⟩ := claimEnd_fields env cfg (nowUs env g).2 .expired
    rw [he, hg]
    exact Nat.succ_pos _
  · have hlt : g.io.nClock < n g.claim.deadline := by
      by_contra hle
      exact hd (hn _ (not_lt.mp hle))
    have hnow : claimPatience n (nowUs env g).2 = n g.claim.deadline - (g.io.nClock + 1) + 1 :=
      if_pos ho
    rw [hg, hnow]
    omega

/-- Without a claim everything is eligible: a call of `drain_queues` that picks nothing finds nothing. -/
lemma queued_eq_nil_of_take (h : Good cfg g) (ho : g.claim.owner = none)
    (ht : g.pool.take (itemEligible g) = none) : g.queued = [] := by
  obtain ⟨free, hr⟩ := h.wf.rep
  have hnone : ∀ q, g.pool.queue q = [] := by
    intro q
    refine List.eq_nil_iff_forall_not_mem.mpr fun i hi => ?_
    have hi' := hr.notProp_of_take_none ht q i hi
    simp [itemEligible, ho] at hi'
  simp [Daemon.queued, hnone]

/-- **A round of the main loop makes the work smaller.**

**Proof sketch.** Let `drain_queues` be called after the expiry check. If its first look picks a
request, the queues are shorter when it returns. If it picks nothing, the claim has become older by
the reading of the expiry check, or has ended; without a claim there was nothing to pick. -/
lemma silent_round {n : UInt64 → ℕ} (hn : ∀ t, env.Passes t → ∀ m, n t ≤ m → t < env.clock m)
    (h : Reachable env cfg g) (hs : g.stack = [])
    (hclock : ∀ k, ∀ t ∈ (silent env cfg g k).timers, env.Passes t)
    (hwork : ¬(g.queued = [] ∧ g.claim.owner = none)) :
    ∃ k, (silent env cfg g k).stack = [] ∧ workLeft n (silent env cfg g k) < workLeft n g := by
  set g₁ := step env cfg .none g with hg₁
  have hstep : g₁ = { checkExpiry env cfg g with stack := [.drain 64] } := by
    rw [hg₁]
    simp only [step, hs]
    rfl
  have h₁ : Reachable env cfg g₁ := h.step .none
  have hst₁ : g₁.stack = [.drain 64] := by rw [hstep]
  have hq₁ : g₁.queued.length ≤ g.queued.length := silent_queued h 1
  have hd₁ : Draining cfg g₁ [] g₁ :=
    ⟨h₁.good, List.nil_suffix, [], (List.append_nil _).symm, by simp, Steps.nil _⟩
  obtain ⟨-, a, rest, es, hst, hadv, hperm⟩ := hd₁.advance env (by simp [hst₁]) .none
  rw [hst₁, List.cons.injEq] at hst
  obtain ⟨rfl, rfl⟩ := hst
  have hlen := hperm.length_eq
  rw [List.length_append] at hlen
  cases hadv with
  | picks _ hen =>
    have hpos := List.length_pos_of_mem hen
    have h₂ : Reachable env cfg (step env cfg .none g₁) := h₁.step .none
    obtain ⟨k, hk⟩ := silent_returns h₂ fun k => hclock (k + 2)
    refine ⟨k + 2, hk, Prod.Lex.toLex_lt_toLex.mpr (Or.inl ?_)⟩
    have hq : (silent env cfg g (k + 2)).queued.length ≤ (step env cfg .none g₁).queued.length :=
      silent_queued h₂ k
    dsimp only
    omega
  | waits ha => simp at ha
  | returns hst₂ _ =>
    have hcases := drainStep_cases env cfg g₁ 64
    have hdrain : step env cfg .none g₁ = drainStep env cfg g₁ 64 := by simp only [step, hst₁]
    rw [← hdrain] at hcases
    rcases hcases with ⟨hnone, hpop⟩ | ⟨it, pool, -, -, hpick⟩
    · refine ⟨2, hst₂, Prod.Lex.toLex_lt_toLex'.mpr ⟨silent_queued h 2, fun _ => ?_⟩⟩
      have htake := hnone.resolve_left (by decide)
      have hc₂ : claimPatience n (silent env cfg g 2) = claimPatience n (checkExpiry env cfg g) := by
        change claimPatience n (step env cfg .none g₁) = _
        rw [hpop, hstep]
        rfl
      change claimPatience n (silent env cfg g 2) < claimPatience n g
      rw [hc₂]
      by_cases ho : g.claim.owner.isSome
      · exact claimPatience_expiry ho (hn _ (hclock 0 _ (by simp [Daemon.timers, silent, ho])))
      · rw [Option.not_isSome_iff_eq_none] at ho
        have hsame : checkExpiry env cfg g = g := by simp [checkExpiry, ho]
        rw [hsame] at hstep
        have hempty := queued_eq_nil_of_take h₁.good (by rw [hstep]; exact ho) htake
        rw [hstep] at hempty
        exact absurd ⟨hempty, ho⟩ hwork
    · -- a call that has picked something has not returned
      have hexec := (execItem_executes env cfg (picked g₁ 64 it pool) it).stack
      obtain ⟨top, htop⟩ := settle_stack it (execItem env cfg (picked g₁ 64 it pool) it)
      rw [hpick, htop, hexec] at hst₂
      simp [picked, Daemon.emit] at hst₂

/-- At the main loop the count of the queued requests is right. -/
lemma count_eq_zero_iff (h : Good cfg g) : g.pool.count = 0 ↔ g.queued = [] := by
  obtain ⟨free, hr⟩ := h.wf.rep
  have hsum : g.pool.count = (g.queued.length : ℤ) := by
    rw [hr.count_eq, Fin.sum_univ_three, Daemon.queued, List.length_map, List.length_append,
      List.length_append, Nat.cast_add, Nat.cast_add]
  rw [hsum, Nat.cast_eq_zero, List.length_eq_zero_iff]

/-- At the main loop there is nothing left to do when nothing is queued and nobody holds the claim. -/
lemma atRest_iff (h : Good cfg g) (hs : g.stack = []) :
    g.AtRest ↔ g.queued = [] ∧ g.claim.owner = none := by
  have hw : g.waitingPtrs = [] := by simp [Daemon.waitingPtrs, hs]
  have hun : g.unanswered = g.queued := by simp [Daemon.unanswered, Daemon.waiting, hw]
  have hcalm : g.mbInflight = false := (Run.basics h.run).calm rfl (by simp [Daemon.abs, hw])
  exact ⟨fun hr => ⟨hun ▸ hr.unanswered, hr.owner⟩, fun hq => ⟨hs, hun ▸ hq.1, hcalm, hq.2⟩⟩

/-- `epoll_wait` blocks exactly when nothing is left to do. -/
lemma epollTimeout_iff (h : Good cfg g) (hs : g.stack = []) : epollTimeout g = -1 ↔ g.AtRest := by
  rw [atRest_iff h hs, ← count_eq_zero_iff h, epollTimeout]
  cases g.claim.owner <;> by_cases hc : g.pool.count = 0 <;> simp [hc]

end

/-- At rest, a round of the main loop changes nothing. -/
lemma Daemon.AtRest.idles {env : Env} {cfg : Config} {g : Daemon} (hr : g.AtRest)
    (h : Reachable env cfg g) : silent env cfg g 2 = g ∧ (silent env cfg g 1).timers = [] := by
  have hstep : silent env cfg g 1 = { g with stack := [.drain 64] } := by
    change step env cfg .none g = _
    simp only [step, hr.stack, mainStep, Input.none, epollWait_nil, List.foldl_nil, checkExpiry, hr.owner,
      Option.isSome_none, Bool.false_eq_true, if_false]
  refine ⟨?_, by rw [hstep]; simp [Daemon.timers, Daemon.deadlines, hr.owner]⟩
  have hback : ({ g with stack := [] } : Daemon) = g := by rw [← hr.stack]
  have hdrain : silent env cfg g 2 = drainStep env cfg { g with stack := [.drain 64] } 64 := by
    change step env cfg .none (silent env cfg g 1) = _
    rw [hstep]
    rfl
  rw [hdrain]
  rcases drainStep_cases env cfg { g with stack := [.drain 64] } 64 with
    ⟨-, hpop⟩ | ⟨it, pool, -, htake, -⟩
  · rw [hpop]
    exact hback
  · -- there is nothing to pick
    obtain ⟨free, hrep⟩ := h.good.wf.rep
    obtain ⟨q, hq⟩ := hrep.exists_mem_of_take htake
    have hnil := ((atRest_iff h.good hr.stack).mp hr).1
    simp only [Daemon.queued, List.map_eq_nil_iff, List.append_eq_nil_iff] at hnil
    obtain ⟨⟨h0, h1⟩, h2⟩ := hnil
    have hall : ∀ q, g.pool.queue q = [] := fun q => by
      fin_cases q
      · exact h0
      · exact h1
      · exact h2
    simp [hall q] at hq

/-- **The daemon comes to rest.** From any state, if the clients send nothing more and the clock passes
the deadlines of the mailbox calls that wait and of the claims that are held, the daemon reaches a
state in which every datagram that was received on an open connection has been answered, no mailbox
call is inside and nobody holds the claim. Whenever the main loop is about to call `epoll_wait` on the
way, it blocks there without a timeout exactly if this state is reached.

**Proof sketch.** Silence leads back to the main loop (`silent_returns`). From there, as long as
the daemon is not at rest, another round brings it back with less work left (`silent_round`), so it
comes to rest after finitely many. The clients stay connected meanwhile, and at rest nothing is
unanswered. -/
theorem daemon_comes_to_rest {env : Env} {cfg : Config} {g : Daemon} (h : Reachable env cfg g)
    (hclock : ∀ k, ∀ t ∈ (silent env cfg g k).timers, env.Passes t) :
    (∃ k, (silent env cfg g k).AtRest ∧
      ∀ rid c msg, (g.cl c).used = true → Event.recv rid c (g.cl c).fd msg ∈ g.evs →
        ∃ e ∈ (silent env cfg g k).evs, isAnswer rid e = true) ∧
    ∀ k, (silent env cfg g k).stack = [] →
      (epollTimeout (silent env cfg g k) = -1 ↔ (silent env cfg g k).AtRest) := by
  refine ⟨?_, fun k hs => epollTimeout_iff (h.silent k).good hs⟩
  have hpass : ∀ t, ∃ n, env.Passes t → ∀ m, n ≤ m → t < env.clock m := fun t => by
    by_cases ht : env.Passes t
    · obtain ⟨n, hn⟩ := ht
      exact ⟨n, fun _ => hn⟩
    · exact ⟨0, fun ht' => absurd ht' ht⟩
  choose n hn using hpass
  -- from the main loop, round by round
  obtain ⟨k₀, hk₀⟩ := silent_returns h hclock
  have hshift : ∀ {g' : Daemon} {j}, g' = silent env cfg g j →
      ∀ k, ∀ t ∈ (silent env cfg g' k).timers, env.Passes t := by
    rintro g' j rfl k
    rw [silent_add]
    exact hclock (k + j)
  obtain ⟨k₁, hrest⟩ : ∃ k, Daemon.AtRest ((step env cfg .none)^[k] (silent env cfg g k₀)) := by
    refine exists_iterate_of_rounds (D := Daemon.AtRest) (μ := workLeft n)
      (I := fun g' => (∃ j, g' = silent env cfg g j) ∧ g'.stack = []) ?_ ⟨⟨k₀, rfl⟩, hk₀⟩
    rintro g' ⟨⟨j, hj⟩, hs⟩ hD
    have hg' : Reachable env cfg g' := hj ▸ h.silent j
    rw [atRest_iff hg'.good hs] at hD
    obtain ⟨k, hk, hlt⟩ := silent_round hn hg' hs (hshift hj) hD
    refine ⟨k, ⟨⟨k + j, ?_⟩, hk⟩, hlt⟩
    rw [hj]
    exact silent_add j k
  have hend : silent env cfg (silent env cfg g k₀) k₁ = silent env cfg g (k₁ + k₀) := silent_add _ _
  refine ⟨k₁ + k₀, hend ▸ hrest, fun rid c msg hu hm => ?_⟩
  have hgood := (h.silent (k₁ + k₀)).good
  obtain ⟨hu', hfd⟩ := silent_conn h (k₁ + k₀) hu
  obtain ⟨es, he, -⟩ := silent_sim h (k₁ + k₀)
  have hm' : Event.recv rid c ((silent env cfg g (k₁ + k₀)).cl c).fd msg ∈
      (silent env cfg g (k₁ + k₀)).evs := by
    rw [hfd, he]
    exact List.mem_append_left _ hm
  have hnone : (silent env cfg g (k₁ + k₀)).unanswered = [] := hend ▸ hrest.unanswered
  exact (Daemon.answered_iff hgood.run hu' hm').mpr (by simp [hnone])

/-- Client 0 holds the claim, and a `READ` of client 1 is queued that has to wait for its end. -/
def heldBack : Daemon :=
  run Env.patient Config.plain
    (connects [(7, ['a']), (8, ['b'])] ++
      [⟨[.client 0 (datagram .claim 0 1 [0xe8, 3, 0, 0, 0, 0, 0, 0]), .client 1 readMsg], 64⟩,
      .none, .none])

/-- The theorem at this state: the claim expires, and the `READ` is answered.

**Proof sketch.** The timers are known for the first five steps, by evaluation; after them the
daemon is at rest and repeats every two steps, without timers. -/
theorem daemon_comes_to_rest_heldBack :
    heldBack.claim.owner = some 0 ∧ heldBack.queued.length = 1 ∧ (heldBack.cl 1).used = true ∧
      ∃ k, (silent Env.patient Config.plain heldBack k).AtRest ∧
        ∃ e ∈ (silent Env.patient Config.plain heldBack k).evs, isAnswer 1 e = true := by
  have hreach : Reachable Env.patient Config.plain heldBack := Reachable.run _ _ _
  have hcl : heldBack.claim.owner = some 0 ∧ heldBack.queued.length = 1 ∧
      (heldBack.cl 1).used = true ∧ Event.recv 1 1 (heldBack.cl 1).fd readMsg ∈ heldBack.evs := by
    decide +kernel
  have hlast : (silent Env.patient Config.plain heldBack 5).stack.isEmpty = true ∧
      (silent Env.patient Config.plain heldBack 5).queued = [] ∧
      (silent Env.patient Config.plain heldBack 5).claim.owner = none := by decide +kernel
  have hall : ((List.range 5).all fun k => (silent Env.patient Config.plain heldBack k).timers.all
      fun t => decide (t < 1000000000)) = true := by decide +kernel
  have hrest : (silent Env.patient Config.plain heldBack 5).AtRest :=
    (atRest_iff (hreach.silent 5).good (List.isEmpty_iff.mp hlast.1)).mpr hlast.2
  obtain ⟨hidle, hodd⟩ := hrest.idles (hreach.silent 5)
  -- after five steps the daemon only goes round
  have hlater : ∀ j, (silent Env.patient Config.plain heldBack (j + 5)).timers = [] := by
    intro j
    induction j using Nat.twoStepInduction with
    | zero => simp [Daemon.timers, Daemon.deadlines, List.isEmpty_iff.mp hlast.1, hlast.2.2]
    | one => rw [← silent_add]; exact hodd
    | more j ih _ =>
      rw [← silent_add, ← silent_add 2 j, hidle, silent_add]
      exact ih
  obtain ⟨k, hk, hans⟩ := (daemon_comes_to_rest hreach fun k t ht => by
    by_cases hk : k < 5
    · exact Env.patient_passes (of_decide_eq_true
        (List.all_eq_true.mp (List.all_eq_true.mp hall k (List.mem_range.mpr hk)) t ht))
    · obtain ⟨j, rfl⟩ := Nat.exists_eq_add_of_le' (not_lt.mp hk)
      rw [hlater j] at ht
      simp at ht).1
  exact ⟨hcl.1, hcl.2.1, hcl.2.2.1, k, hk, hans 1 1 readMsg hcl.2.2.1 hcl.2.2.2⟩

end Spid

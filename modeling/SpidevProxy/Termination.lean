import Mathlib.Data.Prod.Lex
import SpidevProxy.Requests
import SpidevProxy.ProgramOrder
import SpidevProxy.Refinement

set_option relaxedAutoImplicit false
set_option autoImplicit false

/-!
# Termination of the scheduler

`drain_queues` calls `exec_item`, this calls `exec_mailbox`, and its wait loop calls `drain_queues`
again, with a fresh budget on every poll. The budget is no measure. But no request enters the queues
meanwhile, so the queues shrink with every request that is picked; between two picks no call begins
to wait, and each poll that goes on waiting reads the clock once more before the deadline of its call;
and between two such polls the call stack shrinks.

## Main definitions

* `Spid.drainQueues` — the call `drain_queues(budget)`, step by step.
* `Spid.Env.Passes` — the clock passes an instant for good.
* `Spid.Advance` — what one step inside the call does.
* `Spid.patience` — how many more readings of the clock the waiting calls can bear.

## Main results

* `Spid.Steps.queued_perm` — the queues shrink by what is picked.
* `Spid.Steps.depth_le` — how deeply mailbox calls are nested.
* `Spid.scheduler_terminates` — the call returns; it executes requests that were queued when it began,
  each at most once, and mailbox calls are nested at most as deeply as there were `MAILBOX` requests.
-/

namespace Spid

open History

/-! ## The queues between two calls of `enqueue` -/

section

variable {rst : Bool} {a a' : Abs} {e : Event} {es : List Event}

/-- **One transition** that is neither `enqueue` nor `disconnect` takes from the queues what it
picks. -/
lemma Step.queued_perm (h : Step rst a e a') (he : e.moves = false) :
    (e.picks.toList ++ a'.queued.map Req.toEntry).Perm (a.queued.map Req.toEntry) := by
  have hsame : e.picks = none → a'.queue = a.queue →
      (e.picks.toList ++ a'.queued.map Req.toEntry).Perm (a.queued.map Req.toEntry) := by
    intro hp hq
    rw [hp, Abs.queued, Abs.queued, hq]
    exact List.Perm.refl _
  cases h with
  | enqueue => simp [Event.moves] at he
  | disconnect => simp [Event.moves] at he
  | @dispatch q pre post r hact hq _ _ _ =>
    have hp : (a.queue q ++ []).Perm (pre ++ post ++ [r]) := by
      rw [hq, List.append_nil]
      exact List.perm_middle.trans (List.perm_append_singleton _ _).symm
    have hperm := (queued_update a q hp).map Req.toEntry
    rw [List.append_nil, List.map_append] at hperm
    exact (hperm.trans (List.perm_append_singleton _ _)).symm
  | note hn => exact hsame (by cases e <;> simp [Event.isNote] at hn <;> rfl) rfl
  | claimEnd => exact hsame rfl (by simp)
  | cleanupAccess => exact hsame rfl (by simp)
  | cleanupRefused => exact hsame rfl (by simp)
  | _ => exact hsame rfl rfl

/-- **The queues shrink by what is picked**: along a run without `enqueue` and `disconnect`, the
requests that are picked and those that are still queued are the ones that were queued. -/
lemma Steps.queued_perm (h : Steps (Step rst) a es a') (hes : ∀ e ∈ es, e.moves = false) :
    (es.filterMap Event.picks ++ a'.queued.map Req.toEntry).Perm (a.queued.map Req.toEntry) := by
  induction h with
  | nil => exact List.Perm.refl _
  | @snoc t u es e _ hs ih =>
    have hstep := hs.queued_perm (hes e (by simp))
    have hlast : [e].filterMap Event.picks = e.picks.toList := by
      cases h : e.picks <;> simp [h]
    rw [List.filterMap_append, hlast, List.append_assoc]
    exact (hstep.append_left _).trans (ih fun e he => hes e (List.mem_append_left _ he))

/-- How many of the live requests are `MAILBOX`. -/
def Abs.mailboxes (a : Abs) : ℕ := a.live.countP fun r => r.kind = some .mailbox

/-- Without `enqueue` no live request is added. -/
lemma Step.mailboxes_le (h : Step rst a e a') (he : e.moves = false) :
    a'.mailboxes ≤ a.mailboxes := by
  have hlive := h.live
  unfold Abs.mailboxes
  cases e with
  | enqueue => simp [Event.moves] at he
  | disconnect => simp [Event.moves] at he
  | send =>
    rcases hlive with ⟨r, -, -, -, -, hp⟩ | ⟨msg, -, -, -, hl⟩
    · rw [hp.countP_eq, List.countP_cons]
      exact Nat.le_add_right _ _
    · rw [hl]
  | _ => exact (List.Perm.countP_eq _ hlive).le

/-- When a `MAILBOX` is picked, it and the calls that wait are live `MAILBOX` requests. -/
lemma Run.depth_le (h : Run rst es a) {en : Entry} {body : List UInt8} {o : Option Slot}
    {w q : List Entry} (hs : Step rst a (.dispatch en body o w q) a')
    (hk : en.kind = some .mailbox) : w.length + 1 ≤ a.mailboxes := by
  obtain ⟨hact, hmem, -, -, -, -, rfl, -⟩ := hs.dispatch_inv
  have hwait : a.waiting.countP (fun r => r.kind = some .mailbox) = a.waiting.length :=
    List.countP_eq_length.mpr fun r hr => decide_eq_true ((Run.basics h).waiting r hr).kind
  have hpos : 0 < a.queued.countP fun r => r.kind = some .mailbox :=
    List.countP_pos_iff.mpr ⟨_, hmem, decide_eq_true hk⟩
  rw [Abs.mailboxes, Abs.live, Abs.executing, hact, List.countP_append, List.countP_append, hwait,
    List.length_map]
  omega

/-- **How deeply mailbox calls are nested** along a run without `enqueue` and `disconnect`: at most as
deeply as there were live `MAILBOX` requests. -/
lemma Steps.depth_le {es₀ : List Event} (h₀ : Run rst es₀ a) (h : Steps (Step rst) a es a')
    (hes : ∀ e ∈ es, e.moves = false) :
    a'.mailboxes ≤ a.mailboxes ∧ ∀ en body o w q, Event.dispatch en body o w q ∈ es →
      en.kind = some .mailbox → w.length + 1 ≤ a.mailboxes := by
  refine Steps.invariant_on (C := fun e => e.moves = false) (P := fun es u =>
    u.mailboxes ≤ a.mailboxes ∧ ∀ en body o w q, Event.dispatch en body o w q ∈ es →
      en.kind = some .mailbox → w.length + 1 ≤ a.mailboxes) ⟨le_rfl, by simp⟩ ?_ h hes
  intro es s e s' hr ih hs he
  refine ⟨(hs.mailboxes_le he).trans ih.1, fun en body o w q hm hk => ?_⟩
  rcases List.mem_append.mp hm with hm | hm
  · exact ih.2 en body o w q hm hk
  · obtain rfl := List.mem_singleton.mp hm
    exact (Run.depth_le (h₀.trans hr) hs hk).trans ih.1

end

/-! ## The call -/

section

variable (env : Env) (cfg : Config)

/-- A step inside a call that was made with `n` activations on the stack. When it has returned, nothing
happens any more. -/
def callStep (n : ℕ) (g : Daemon) : Daemon :=
  if g.stack.length ≤ n then g else step env cfg .none g

/-- The call `drain_queues(budget)` in state `g`, made by the innermost of the activations `base`,
after `k` steps. -/
def drainQueues (g : Daemon) (base : List Activation) (budget : ℤ) (k : ℕ) : Daemon :=
  (callStep env cfg base.length)^[k] { g with stack := .drain budget :: base }

end

/-- The clock passes the instant `t` for good. -/
def Env.Passes (env : Env) (t : UInt64) : Prop := ∃ n, ∀ m, n ≤ m → t < env.clock m

/-- The deadlines of the mailbox calls on the stack. -/
def Daemon.deadlines (g : Daemon) : List UInt64 :=
  g.stack.filterMap fun
    | .drain _ => none
    | .wait f => some f.tEnd

/-- **What one step inside the call does**, if `a` is the innermost activation and `rest` the others:
it returns from `a`, or picks a request, or goes on waiting after a reading of the clock. -/
inductive Advance (env : Env) (a : Activation) (rest : List Activation) (g g' : Daemon)
    (es : List Event) : Prop
  | returns (hs : g'.stack = rest) (hc : g.io.nClock ≤ g'.io.nClock)
  | picks {top : List Activation} (hs : g'.stack = top ++ rest) {en : Entry}
      (hen : en ∈ es.filterMap Event.picks)
  | waits {f : MbFrame} {v : UInt32} {m : ℕ} (ha : a = .wait f)
      (hs : g'.stack = .drain 4 :: .wait { f with v := v } :: rest) (hm : g.io.nClock ≤ m)
      (hm' : m < g'.io.nClock) (ht : env.clock m ≤ f.tEnd)

section

variable {env : Env} {cfg : Config} {g g' : Daemon} {a : Activation} {rest base : List Activation}

/-- The frames below stay on the stack. -/
lemma Advance.suffix {es : List Event} (h : Advance env a rest g g' es) : rest <:+ g'.stack := by
  cases h with
  | returns hs => exact hs ▸ List.suffix_refl _
  | picks hs => exact hs ▸ List.suffix_append _ _
  | waits _ hs => exact hs ▸ ⟨[_, _], rfl⟩

/-- Freeing the item, or pushing the frame, is no event. -/
lemma settle_evs (it : Ptr) (r : Option MbFrame × Daemon) : (settle it r).evs = r.2.evs := by
  obtain ⟨_ | f, g⟩ := r <;> rfl

/-- It leaves the frames below. -/
lemma settle_stack (it : Ptr) (r : Option MbFrame × Daemon) :
    ∃ top, (settle it r).stack = top ++ r.2.stack := by
  obtain ⟨_ | f, g⟩ := r
  · exact ⟨[], rfl⟩
  · exact ⟨[.wait f], rfl⟩

/-- **One step inside the call**: it moves no request into the queues.

**Proof sketch.** A round of `drain_queues` pops its activation, or picks a request, with a
dispatch, and maybe puts its call on the stack. A round of a wait loop ends the call, or renews the
two activations on top after a look at the clock. -/
lemma step_advance (env : Env) (cfg : Config) (hs : g.stack = a :: rest) (i : Input) :
    ∃ es, (step env cfg i g).evs = g.evs ++ es ∧ (∀ e ∈ es, e.moves = false) ∧
      Advance env a rest g (step env cfg i g) es := by
  unfold step
  rw [hs]
  cases a with
  | drain budget =>
    rcases drainStep_cases env cfg g budget with ⟨-, hd⟩ | ⟨it, pool, -, -, hd⟩
    · refine ⟨[], ?_, by simp, .returns ?_ ?_⟩
      · simp [hd, popStack, Daemon.evs]
      · simp [hd, popStack, hs]
      · simp [hd, popStack]
    · dsimp only
      rw [hd]
      have hf := execItem_executes env cfg (picked g budget it pool) it
      generalize execItem env cfg (picked g budget it pool) it = r at *
      obtain ⟨es, he, hes⟩ := hf.evs
      obtain ⟨en, body, o, w, q, hpick⟩ : ∃ en body o w q,
        (picked g budget it pool).evs = g.evs ++ [.dispatch en body o w q] := ⟨_, _, _, _, _, rfl⟩
      have hev : (settle it r).evs = g.evs ++ .dispatch en body o w q :: es := by
        rw [settle_evs, he, List.append_cons]
        exact congrArg (· ++ es) hpick
      have hst : r.2.stack = .drain (budget - 1) :: rest := by
        rw [hf.stack]
        simp [picked, Daemon.emit, hs]
      refine ⟨_, hev, fun e hm => ?_, ?_⟩
      · rcases List.mem_cons.mp hm with rfl | hm
        · rfl
        · exact Event.Of.moves (hes e hm)
      · obtain ⟨top, htop⟩ := settle_stack it r
        rw [hst, List.append_cons] at htop
        exact .picks htop (List.mem_filterMap.mpr ⟨_, List.mem_cons_self, rfl⟩)
  | wait f =>
    obtain ⟨g₁, hf, hw⟩ := waitStep_cases env cfg g f
    obtain ⟨es, he, hes⟩ := hf.evs
    have hno : ∀ e ∈ es, e.moves = false := fun e hm => Event.Of.moves (hes e hm)
    dsimp only
    rcases hw with hw | ⟨v, m, hw, hm, hm', ht⟩
    · rw [hw]
      exact ⟨es, he, hno, .returns (by simp [freeItem, popStack, hf.stack, hs]) hf.clock⟩
    · rw [hw]
      exact ⟨es, he, hno, .waits (v := v) rfl (by simp [hf.stack, hs]) hm hm' ht⟩

/-! ## The measure -/

/-- How many more readings of the clock the calls on the stack can bear, `c` readings having been made,
if the clock has passed `t` from reading `n t` on. -/
def patience (n : UInt64 → ℕ) (c : ℕ) : List Activation → ℕ
  | [] => 0
  | .drain _ :: s => patience n c s
  | .wait f :: s => (n f.tEnd - c) + patience n c s

/-- The patience of the calls goes down as the clock is looked at, -/
lemma patience_anti (n : UInt64 → ℕ) {c c' : ℕ} (h : c ≤ c') :
    ∀ s, patience n c' s ≤ patience n c s := by
  intro s
  induction s with
  | nil => exact le_rfl
  | cons a s ih =>
    cases a with
    | drain budget => exact ih
    | wait f => exact Nat.add_le_add (Nat.sub_le_sub_left h _) ih

/-- and up with each frame. -/
lemma patience_cons_le (n : UInt64 → ℕ) (c : ℕ) (a : Activation) (s : List Activation) :
    patience n c s ≤ patience n c (a :: s) := by
  cases a with
  | drain budget => exact le_rfl
  | wait f => exact Nat.le_add_left _ _

/-- The measure: the queued requests, then the patience, then the height of the stack. -/
def drainMeasure (n : UInt64 → ℕ) (g : Daemon) : ℕ ×ₗ ℕ ×ₗ ℕ :=
  toLex (g.queued.length, toLex (patience n g.io.nClock g.stack, g.stack.length))

/-- What makes the measure go down. -/
lemma drainMeasure_lt {n : UInt64 → ℕ} (hq : g'.queued.length ≤ g.queued.length)
    (h : g'.queued.length = g.queued.length →
      patience n g'.io.nClock g'.stack ≤ patience n g.io.nClock g.stack ∧
        (patience n g'.io.nClock g'.stack = patience n g.io.nClock g.stack →
          g'.stack.length < g.stack.length)) : drainMeasure n g' < drainMeasure n g :=
  Prod.Lex.toLex_lt_toLex'.mpr ⟨hq, fun he => Prod.Lex.toLex_lt_toLex'.mpr (h he)⟩

/-- **Each step makes the measure smaller.** -/
lemma Advance.measure_lt {n : UInt64 → ℕ} {es : List Event} (h : Advance env a rest g g' es)
    (hs : g.stack = a :: rest) (hq : (es.filterMap Event.picks ++ g'.queued).Perm g.queued)
    (hn : ∀ t ∈ g.deadlines, ∀ m, n t ≤ m → t < env.clock m) :
    drainMeasure n g' < drainMeasure n g := by
  have hlen : (es.filterMap Event.picks).length + g'.queued.length = g.queued.length := by
    rw [← List.length_append]
    exact hq.length_eq
  cases h with
  | returns hs' hc =>
    refine drainMeasure_lt (by omega) fun _ => ⟨?_, fun _ => ?_⟩
    · rw [hs', hs]
      exact (patience_anti n hc rest).trans (patience_cons_le n _ a rest)
    · rw [hs', hs]
      exact Nat.lt_succ_self _
  | picks hs' hen =>
    have hpos := List.length_pos_of_mem hen
    exact drainMeasure_lt (by omega) fun he => by omega
  | @waits f v m ha hs' hm hm' ht =>
    subst ha
    -- the clock has not yet passed the deadline at reading `m`
    have hlt : m < n f.tEnd := by
      by_contra hle
      exact absurd (hn f.tEnd (by simp [Daemon.deadlines, hs]) m (not_lt.mp hle)) (UInt64.not_lt.mpr ht)
    have hp : patience n g'.io.nClock g'.stack < patience n g.io.nClock g.stack := by
      have hrest := patience_anti n (hm.trans hm'.le) rest
      rw [hs', hs]
      simp only [patience]
      omega
    exact drainMeasure_lt (by omega) fun _ => ⟨hp.le, fun he => absurd he hp.ne⟩

/-! ## Runs of the call -/

/-- What holds throughout a call of `drain_queues` that began in `g`, with the activations `base`
outside: the protocol has followed, and no request has entered the queues. -/
structure Draining (cfg : Config) (g : Daemon) (base : List Activation) (g' : Daemon) : Prop where
  good : Good cfg g'
  base : base <:+ g'.stack
  sim : ∃ es, g'.evs = g.evs ++ es ∧ (∀ e ∈ es, e.moves = false) ∧
    Steps (Step cfg.rst) (g.abs g.waitingPtrs .idle) es (g'.abs g'.waitingPtrs .idle)

/-- The queues of the daemon, as the protocol sees them. -/
lemma Daemon.abs_queued (g : Daemon) (w : List Ptr) (act : Activity) :
    (g.abs w act).queued.map Req.toEntry = g.queued := by
  simp only [Daemon.abs, Abs.queued, Daemon.queued, List.map_append, List.map_map]
  rfl

/-- The live `MAILBOX` requests wait or are queued. -/
lemma Daemon.mailboxes_le (g : Daemon) : (g.abs g.waitingPtrs .idle).mailboxes ≤
    g.waiting.length + g.queued.countP fun x => x.kind = some .mailbox := by
  have hq : (g.abs g.waitingPtrs .idle).queued.countP (fun r => r.kind = some .mailbox) =
      g.queued.countP fun x => x.kind = some .mailbox := by
    rw [← g.abs_queued g.waitingPtrs .idle, List.countP_map]
    rfl
  have hw : (g.abs g.waitingPtrs .idle).waiting.length = g.waiting.length := by
    simp [Daemon.abs, Daemon.waiting]
  rw [Abs.mailboxes, Abs.live, List.countP_append, hq, ← hw]
  exact Nat.add_le_add_right List.countP_le_length _

/-- The call begins. -/
lemma Good.enter (h : Good cfg g) (hb : g.stack = base ∨ ∃ b, g.stack = .drain b :: base)
    (budget : ℤ) : Draining cfg g base { g with stack := .drain budget :: base } := by
  have hw : ({ g with stack := .drain budget :: base } : Daemon).waitingPtrs = g.waitingPtrs := by
    rcases hb with hb | ⟨b, hb⟩ <;> simp [Daemon.waitingPtrs, hb]
  refine ⟨⟨?_, ?_, ?_⟩, List.suffix_cons _ _, [], ?_, by simp, ?_⟩
  · rw [hw]
    exact h.wf.congr rfl rfl (fun _ => rfl) rfl
  · rw [hw]
    exact h.mailbox
  · rw [hw]
    exact h.run
  · exact (List.append_nil _).symm
  · rw [hw]
    exact Steps.nil _

/-- One step inside the call keeps the invariant, and has the events and the effect of `Advance`. -/
lemma Draining.advance (env : Env) (h : Draining cfg g base g')
    (hs : ¬g'.stack.length ≤ base.length) (i : Input) :
    Draining cfg g base (step env cfg i g') ∧ ∃ a rest es, g'.stack = a :: rest ∧
      Advance env a rest g' (step env cfg i g') es ∧
      (es.filterMap Event.picks ++ (step env cfg i g').queued).Perm g'.queued := by
  obtain ⟨top, htop⟩ := h.base
  cases top with
  | nil =>
    rw [← htop] at hs
    exact absurd le_rfl hs
  | cons a top =>
    obtain ⟨es, he, hno, hadv⟩ := step_advance env cfg htop.symm i
    have hf : Follows cfg g' (step env cfg i g') :=
      h.good.step_follows (by simp [← htop]) i
    obtain ⟨es', he', hsteps⟩ := hf.sim
    obtain rfl : es' = es := List.append_cancel_left (he'.symm.trans he)
    obtain ⟨es₀, he₀, hno₀, hsteps₀⟩ := h.sim
    refine ⟨⟨hf.good h.good, (List.suffix_append top base).trans hadv.suffix, es₀ ++ es', ?_, ?_,
      hsteps₀.trans hsteps⟩, a, top ++ base, es', htop.symm, hadv, ?_⟩
    · rw [he, he₀, List.append_assoc]
    · intro e hm
      rcases List.mem_append.mp hm with hm | hm
      · exact hno₀ e hm
      · exact hno e hm
    · have hperm := Steps.queued_perm hsteps hno
      rwa [Daemon.abs_queued, Daemon.abs_queued] at hperm

/-- One step of a mailbox call keeps what a drain keeps. -/
lemma Draining.callStep (h : Draining cfg g base g') :
    Draining cfg g base (callStep env cfg base.length g') := by
  unfold Spid.callStep
  split_ifs with hs
  · exact h
  · exact (h.advance env hs .none).1

/-- **The call returns**, if the clock passes the deadlines of the calls that wait in it. -/
lemma Draining.returns (h : Draining cfg g base g')
    (hclock : ∀ k, ∀ t ∈ ((Spid.callStep env cfg base.length)^[k] g').deadlines, env.Passes t) :
    ∃ k, ((Spid.callStep env cfg base.length)^[k] g').stack.length ≤ base.length := by
  have hpass : ∀ t, ∃ n, env.Passes t → ∀ m, n ≤ m → t < env.clock m := fun t => by
    by_cases ht : env.Passes t
    · obtain ⟨n, hn⟩ := ht
      exact ⟨n, fun _ => hn⟩
    · exact ⟨0, fun ht' => absurd ht' ht⟩
  choose n hn using hpass
  refine exists_iterate (D := fun g' => g'.stack.length ≤ base.length) (μ := drainMeasure n)
    (I := fun g' => Draining cfg g base g' ∧
      ∀ k, ∀ t ∈ ((Spid.callStep env cfg base.length)^[k] g').deadlines, env.Passes t) ?_ ?_
    ⟨h, hclock⟩
  · rintro g' ⟨h, hclock⟩
    exact ⟨h.callStep, fun k => hclock (k + 1)⟩
  · rintro g' ⟨h, hclock⟩ hs
    obtain ⟨-, a, rest, es, hst, hadv, hperm⟩ := h.advance env hs .none
    rw [Spid.callStep, if_neg hs]
    exact hadv.measure_lt hst hperm fun t ht => hn t (hclock 0 t ht)

end

/-- **The scheduler terminates, and executes nothing twice.** Let `drain_queues` be called in any state
of the daemon, with any budget; `base` are the activations outside of the call. If the clock passes the
deadlines of the mailbox calls that wait, the call returns. At every point of the call, all nested calls
included, the requests picked since it began and those still queued are exactly the requests that were
queued when it began, which all have different numbers; and nothing has been enqueued. When a `MAILBOX`
is picked, the mailbox calls around it and its own are no more than the calls that had been waiting and
the `MAILBOX` requests that were queued when the call began. -/
theorem scheduler_terminates {env : Env} {cfg : Config} {g : Daemon} (h : Reachable env cfg g)
    {base : List Activation} (hb : g.stack = base ∨ ∃ b, g.stack = .drain b :: base) (budget : ℤ)
    (hclock : ∀ k, ∀ t ∈ (drainQueues env cfg g base budget k).deadlines, env.Passes t) :
    (∃ k, (drainQueues env cfg g base budget k).stack = base) ∧
    (g.queued.map fun en => en.rid).Nodup ∧
    ∀ k, ∃ es, (drainQueues env cfg g base budget k).evs = g.evs ++ es ∧
      (es.filterMap Event.picks ++ (drainQueues env cfg g base budget k).queued).Perm g.queued ∧
      (∀ en body o, Event.enqueue en body o ∉ es) ∧
      ∀ en body o w q, Event.dispatch en body o w q ∈ es → en.kind = some .mailbox →
        w.length + 1 ≤ g.waiting.length + g.queued.countP fun x => x.kind = some .mailbox := by
  have henter := h.good.enter hb budget
  have hcall : ∀ k, Draining cfg g base (drainQueues env cfg g base budget k) := fun k =>
    Function.Iterate.rec (Draining cfg g base) henter (fun _ h => h.callStep) k
  refine ⟨?_, ?_, fun k => ?_⟩
  · obtain ⟨k, hk⟩ := henter.returns hclock
    exact ⟨k, ((hcall k).base.eq_of_length_le hk).symm⟩
  · have hnd := (Run.ledger h.good.run).nodup
    rw [Abs.live, List.map_append, List.nodup_append] at hnd
    rw [← g.abs_queued g.waitingPtrs .idle, List.map_map]
    exact hnd.2.1
  · obtain ⟨es, he, hno, hsteps⟩ := (hcall k).sim
    have hperm := Steps.queued_perm hsteps hno
    rw [Daemon.abs_queued, Daemon.abs_queued] at hperm
    refine ⟨es, he, hperm, fun en body o hm => ?_, fun en body o w q hm hk => ?_⟩
    · simpa [Event.moves] using hno _ hm
    · exact ((Steps.depth_le h.good.run hsteps hno).2 en body o w q hm hk).trans g.mailboxes_le

/-- When the call has returned, nothing happens any more. -/
lemma drainQueues_returned {env : Env} {cfg : Config} {g : Daemon} {base : List Activation}
    {budget : ℤ} {k : ℕ} (h : (drainQueues env cfg g base budget k).stack.length ≤ base.length)
    (m : ℕ) : drainQueues env cfg g base budget (k + m) = drainQueues env cfg g base budget k := by
  induction m with
  | zero => rfl
  | succ m ih =>
    have hstep : drainQueues env cfg g base budget (k + m + 1) =
        callStep env cfg base.length (drainQueues env cfg g base budget (k + m)) :=
      Function.iterate_succ_apply' _ _ _
    rw [← Nat.add_assoc, hstep, ih, callStep, if_pos h]

/-- A device that answers zeros, and a clock that shows a second more with each reading, a thousand
times. -/
def Env.patient : Env := { Env.still 0 with clock := fun k => 1000000 * UInt64.ofNat (min k 1000) }

/-- The clock of the example passes every deadline. -/
lemma Env.patient_passes {t : UInt64} (ht : t < 1000000000) : Env.patient.Passes t := by
  refine ⟨1000, fun m hm => ?_⟩
  have hc : Env.patient.clock m = 1000000000 := by
    change 1000000 * UInt64.ofNat (min m 1000) = _
    rw [min_eq_right hm]
    rfl
  rw [hc]
  exact ht

/-- Client 0 has sent a `MAILBOX` with a short timeout, and client 1 a `READ`; both are queued, and
`main` has called `drain_queues(64)`. -/
def twoQueued : Daemon :=
  run Env.patient Config.plain
    (connects [(7, ['a']), (8, ['b'])] ++
      [⟨[.client 0 (waitMsg [0xb8, 0x0b, 0, 0]), .client 1 readMsg], 64⟩])

/-- The theorem at this call, which executes both requests. -/
theorem scheduler_terminates_twoQueued :
    twoQueued.stack = [.drain 64] ∧ twoQueued.queued.length = 2 ∧
      ∃ k, (drainQueues Env.patient Config.plain twoQueued [] 64 k).stack = [] := by
  have hs : twoQueued.stack = [.drain 64] := rfl
  have hlast : (drainQueues Env.patient Config.plain twoQueued [] 64 6).stack.length ≤
      ([] : List Activation).length := by decide +kernel
  have hall : ((List.range 7).all fun k =>
      (drainQueues Env.patient Config.plain twoQueued [] 64 k).deadlines.all
        fun t => decide (t < 1000000000)) = true := by decide +kernel
  have hfirst : ∀ k < 7, ∀ t ∈ (drainQueues Env.patient Config.plain twoQueued [] 64 k).deadlines,
      t < 1000000000 := fun k hk t ht =>
    of_decide_eq_true (List.all_eq_true.mp (List.all_eq_true.mp hall k (List.mem_range.mpr hk)) t ht)
  have hreach : Reachable Env.patient Config.plain twoQueued := Reachable.run _ _ _
  refine ⟨hs, by decide +kernel, (scheduler_terminates hreach (Or.inr ⟨64, hs⟩) 64 fun k t ht => ?_).1⟩
  refine Env.patient_passes ?_
  by_cases hk : k < 7
  · exact hfirst k hk t ht
  · obtain ⟨m, rfl⟩ := Nat.exists_eq_add_of_le (show 6 ≤ k by omega)
    rw [drainQueues_returned hlast] at ht
    exact hfirst 6 (by omega) t ht

end Spid

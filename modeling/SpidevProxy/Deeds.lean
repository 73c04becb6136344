import SpidevProxy.Requests

set_option relaxedAutoImplicit false
set_option autoImplicit false

/-!
# What a step of the daemon is made of

However the functions of the daemon call each other, a step is a walk: calls that touch registers, the
operations of a request being counted behind the last of them, and between them a few deeds. An answer is
sent, a datagram is received, a connection is accepted or closed, the clock is read, some other event
happens, or something changes that no counter and no event tells of. This is said once for each function.
An invariant of runs, an account of the counters or of the lint state, and a bound for what is sent have
then to be checked for calls and deeds alone.

## Main definitions

* `Spid.calls` — the calls of a run.
* `Spid.Scope` — the texts that a run may print, and the processes that may connect.
* `Spid.Deed` — the deeds.
* `Spid.Walk` — deeds, calls and operations that are counted, one after another.
* `Spid.executing` — the request that a step executes.

## Main results

* `Spid.forall_mem_stepCalls` — what has to be checked of the calls of a step.
* `Spid.walk_step` — a step of the daemon is a walk through its calls.
* `Spid.walk_run` — so is a run.
* `Spid.Reachable.invariant_of_deeds` — what holds at the start and is kept by every deed holds in
  every reachable state.
-/

namespace Spid

open Bytes Relation

/-! ## The calls of a run -/

section

variable (env : Env) (cfg : Config)

/-- The calls of the loop over the cleanup list. -/
def cleanupCalls (agent : Agent) : List Op → Daemon → List RegCall
  | [], _ => []
  | op :: ops, g => ⟨g, agent, .op none op⟩ :: cleanupCalls agent ops (execOp env cfg g agent none op).2.2

/-- The state in which `claim_end` starts on the cleanup list. -/
def cleanupStart (g : Daemon) (c : Slot) (how : ClaimEnd) : Daemon :=
  { g.emit (.claimEnd g.claim.rid c how) with
    lctx := ⟨(g.cl c).id, (g.cl c).comm, 0, .cleanup⟩ }

/-- The calls of `claim_end`. -/
def claimEndCalls (g : Daemon) (how : ClaimEnd) : List RegCall :=
  match g.claim.owner with
  | none => []
  | some c =>
    if how.abnormal && !g.claim.cleanup.isEmpty then
      cleanupCalls env cfg (.cleanup g.claim.rid c) g.claim.cleanup (cleanupStart g c how)
    else []

/-- The calls of one round of `drain_queues`. -/
def drainCalls (g : Daemon) (budget : ℤ) : List RegCall :=
  if budget = 0 then []
  else match g.pool.take (itemEligible g) with
    | none => []
    | some (it, pool) => itemCalls env cfg (picked g budget it pool) it

/-- The calls of `client_drop`. -/
def dropCalls (g : Daemon) (c : Slot) : List RegCall :=
  if g.claim.owner = some c then claimEndCalls env cfg g .disconnect else []

/-- The calls of one epoll event. -/
def eventCalls (g : Daemon) : EpollEvent → List RegCall
  | .listen _ _ => []
  | .client c datagram =>
    if (g.cl c).used && (datagram.take (hdrSize + msgMax)).isEmpty then dropCalls env cfg g c else []

/-- The calls of the epoll events of one round of `main`. -/
def eventsCalls : List EpollEvent → Daemon → List RegCall
  | [], _ => []
  | e :: evs, g => eventCalls env cfg g e ++ eventsCalls evs (handleEvent env cfg g e)

/-- The calls of the expiry check. -/
def expiryCalls (g : Daemon) : List RegCall :=
  if g.claim.owner.isSome && g.claim.deadline < (nowUs env g).1 then
    claimEndCalls env cfg (nowUs env g).2 .expired
  else []

/-- The calls of one step of the daemon. -/
def stepCalls (i : Input) (g : Daemon) : List RegCall :=
  match g.stack with
  | [] =>
    let evs := epollWait g i.evs
    eventsCalls env cfg evs g ++ expiryCalls env cfg (evs.foldl (handleEvent env cfg) g)
  | .drain budget :: _ => drainCalls env cfg g budget
  | .wait f :: _ => [pollCall g f]

/-- The calls of the steps from a state on. -/
def callsFrom : List Input → Daemon → List RegCall
  | [], _ => []
  | i :: is, g => stepCalls env cfg i g ++ callsFrom is (step env cfg i g)

/-- **The calls of a run.** -/
def calls (is : List Input) : List RegCall := callsFrom env cfg is (boot env cfg)

end

/-! ## The request that a step executes -/

/-- The item that a step hands to `exec_item`, and the state in which it does. -/
def executing (g : Daemon) : Option (Ptr × Daemon) :=
  match g.stack with
  | .drain budget :: _ =>
    if budget = 0 then none
    else (g.pool.take (itemEligible g)).map fun p => (p.1, picked g budget p.1 p.2)
  | _ => none

/-- It is the first eligible item of the queues. -/
lemma executing_eq_some {g g' : Daemon} {it : Ptr} (h : executing g = some (it, g')) :
    ∃ budget rest pool, g.stack = .drain budget :: rest ∧ budget ≠ 0 ∧
      g.pool.take (itemEligible g) = some (it, pool) ∧ g' = picked g budget it pool := by
  unfold executing at h
  split at h
  · rename_i budget rest hs
    split_ifs at h with hb
    obtain ⟨p, ht, hp⟩ := Option.map_eq_some_iff.mp h
    obtain ⟨rfl, rfl⟩ := Prod.mk.inj hp
    exact ⟨budget, rest, p.2, hs, hb, ht, rfl⟩
  · simp at h

/-- A step that hands an item to `exec_item` does just that. -/
lemma step_of_executing (env : Env) (cfg : Config) (i : Input) {g g' : Daemon} {it : Ptr}
    (h : executing g = some (it, g')) : step env cfg i g = settle it (execItem env cfg g' it) := by
  obtain ⟨budget, rest, pool, hs, hb, ht, rfl⟩ := executing_eq_some h
  unfold step
  rw [hs]
  dsimp only
  unfold drainStep
  rw [if_neg hb, ht]
  rfl

/-- So the calls of the step are those of the request. -/
lemma stepCalls_of_executing (env : Env) (cfg : Config) (i : Input) {g g' : Daemon} {it : Ptr}
    (h : executing g = some (it, g')) : stepCalls env cfg i g = itemCalls env cfg g' it := by
  obtain ⟨budget, rest, pool, hs, hb, ht, rfl⟩ := executing_eq_some h
  unfold stepCalls
  rw [hs]
  dsimp only
  unfold drainCalls
  rw [if_neg hb, ht]

/-- A round of `drain_queues` that hands nothing to `exec_item` makes no calls. -/
lemma drainCalls_of_not_executing (env : Env) (cfg : Config) {g : Daemon} {budget : ℤ}
    {rest : List Activation} (hs : g.stack = .drain budget :: rest) (h : executing g = none) :
    drainCalls env cfg g budget = [] := by
  unfold executing at h
  rw [hs] at h
  dsimp only at h
  unfold drainCalls
  split_ifs at h ⊢ with hb
  · rfl
  · rw [Option.map_eq_none_iff.mp h]

/-- Freeing the item, or pushing the frame in which its call waits, adds no event. -/
lemma evs_settle (it : Ptr) (r : Option MbFrame × Daemon) : (settle it r).evs = r.2.evs := by
  unfold settle
  split <;> rfl

/-! ## A rule for the calls of a step -/

section

variable {env : Env} {cfg : Config} {I : Daemon → Prop} {P : RegCall → Prop}

/-- The calls of one epoll event are those of the end of a claim. -/
lemma forall_mem_eventCalls {g : Daemon} (hdrop : ∀ k ∈ claimEndCalls env cfg g .disconnect, P k)
    (e : EpollEvent) : ∀ k ∈ eventCalls env cfg g e, P k := by
  intro k hk
  cases e with
  | listen pid line => simp [eventCalls] at hk
  | client c datagram =>
    simp only [eventCalls, dropCalls] at hk
    split_ifs at hk
    · exact hdrop k hk
    · simp at hk
    · simp at hk

/-- So are those of the epoll events of one round, each in a state of the main loop. -/
lemma forall_mem_eventsCalls (hevent : ∀ g e, I g → I (handleEvent env cfg g e))
    (hdrop : ∀ g, I g → ∀ k ∈ claimEndCalls env cfg g .disconnect, P k) (evs : List EpollEvent) :
    ∀ {g : Daemon}, I g →
      (∀ k ∈ eventsCalls env cfg evs g, P k) ∧ I (evs.foldl (handleEvent env cfg) g) := by
  induction evs with
  | nil => exact fun hg => ⟨by simp [eventsCalls], hg⟩
  | cons e evs ih =>
    intro g hg
    obtain ⟨hcalls, hlast⟩ := ih (hevent g e hg)
    refine ⟨fun k hk => ?_, hlast⟩
    rcases List.mem_append.mp hk with hk | hk
    · exact forall_mem_eventCalls (hdrop g hg) e k hk
    · exact hcalls k hk

/-- **The calls of a step** are those of the end of a claim, in a state of the main loop, those of the
request that is picked, or one round of a wait loop. What is known of the states of the main loop is `I`.

**Proof sketch.** A step that hands an item to `exec_item` makes the calls of that item. Otherwise, by
the innermost activation: the main loop ends claims in the states that its events lead to
(`forall_mem_eventsCalls`), a round of `drain_queues` makes no calls, and one of a wait loop a single
one. -/
theorem forall_mem_stepCalls {g : Daemon} {i : Input} (hstart : g.stack = [] → I g)
    (hevent : ∀ g e, I g → I (handleEvent env cfg g e))
    (hdrop : ∀ g, I g → ∀ k ∈ claimEndCalls env cfg g .disconnect, P k)
    (hexpire : ∀ g, I g → ∀ k ∈ claimEndCalls env cfg (nowUs env g).2 .expired, P k)
    (hitem : ∀ it g', executing g = some (it, g') → ∀ k ∈ itemCalls env cfg g' it, P k)
    (hpoll : ∀ f rest, g.stack = .wait f :: rest → P (pollCall g f)) :
    ∀ k ∈ stepCalls env cfg i g, P k := by
  intro k hk
  cases hex : executing g with
  | some p =>
    rw [stepCalls_of_executing env cfg i hex] at hk
    exact hitem p.1 p.2 hex k hk
  | none =>
    unfold stepCalls at hk
    cases hs : g.stack with
    | nil =>
      simp only [hs] at hk
      obtain ⟨hcalls, hlast⟩ := forall_mem_eventsCalls hevent hdrop (epollWait g i.evs) (hstart hs)
      rcases List.mem_append.mp hk with hk | hk
      · exact hcalls k hk
      · unfold expiryCalls at hk
        split_ifs at hk
        · exact hexpire _ hlast k hk
        · simp at hk
    | cons a rest =>
      cases a with
      | drain budget =>
        simp only [hs, drainCalls_of_not_executing env cfg hs hex] at hk
        exact absurd hk List.not_mem_nil
      | wait f =>
        simp only [hs] at hk
        rw [List.mem_singleton.mp hk]
        exact hpoll f rest hs

end

/-! ## Deeds -/

/-- The events that come with no counter and are not those of calls. -/
def Event.plain : Event → Bool
  | .enqueue _ _ _ => true
  | .dispatch _ _ _ _ _ => true
  | .grant _ _ _ => true
  | .claimEnd _ _ _ => true
  | .reset _ _ _ _ _ => true
  | .disconnect _ _ => true
  | _ => false

/-- **What a run is allowed**: the texts that it may print, and the processes that may connect. -/
structure Scope where
  text : List UInt8 → Prop
  pid : ℤ → Prop

/-- All texts and all processes. -/
def Scope.all : Scope := ⟨fun _ => True, fun _ => True⟩

/-- The process of a new connection is allowed. -/
def EpollEvent.PidIn (S : ℤ → Prop) : EpollEvent → Prop
  | .listen pid _ => S pid
  | .client _ _ => True

/-- `client_msg` takes a datagram and `client_frame` counts it, if it is well formed. -/
def receive (g : Daemon) (c : Slot) (msg : List UInt8) : Daemon :=
  let g := { g with nRecv := g.nRecv + 1 }.emit (.recv g.nRecv c (g.cl c).fd msg)
  if frameOk msg then g.setClient c { g.cl c with nMsgs := (g.cl c).nMsgs + 1 } else g

section

variable (env : Env) (cfg : Config) (T : Scope)

/-- **The deeds of the daemon** besides calls. -/
inductive Deed (g : Daemon) : Daemon → Prop
  | send (rid : ℕ) (c : Slot) (req : Hdr) (st : Status) {body : List UInt8}
      (hb : body.length ≤ msgMax ∨ T.text body) : Deed g (sendResp env g rid c req st body)
  | receive (c : Slot) (msg : List UInt8) : Deed g (receive g c msg)
  | accept {pid : ℤ} (hp : T.pid pid) (line : Text) : Deed g (acceptClient g pid line)
  | close (c : Slot) : Deed g (g.setClient c { g.cl c with used := false })
  | clock : Deed g (nowUs env g).2
  | event {e : Event} (he : e.plain = true) : Deed g (g.emit e)
  | other {g' : Daemon} (hio : g'.io = g.io) (hcl : g'.cl = g.cl) (hn : g'.nConn = g.nConn) : Deed g g'

/-- **A walk through the calls `ks`**: deeds, calls of the mailbox protocol and of cleanup lists, and the
operations of requests, which are counted, one after another. -/
inductive Walk (g : Daemon) : List RegCall → Daemon → Prop
  | refl : Walk g [] g
  | deed {ks : List RegCall} {g₁ g₂ : Daemon} (h : Walk g ks g₁) (hd : Deed env T g₁ g₂) : Walk g ks g₂
  | call {ks : List RegCall} {k : RegCall} (h : Walk g ks k.pre) (hk : k.Proper)
      (hno : ∀ rid c, k.agent = .request rid c → k.isOp = false) : Walk g (ks ++ [k]) (k.post env cfg)
  | ops {ks ks' : List RegCall} {it : Ptr} {g₁ g₂ : Daemon} (h : Walk g ks g₁)
      (hw : Operates env cfg it g₁ ks' g₂) :
      Walk g (ks ++ ks') (addOps g₂ (g₁.item it).c ks'.length)

end

namespace Walk

variable {env : Env} {cfg : Config} {T : Scope} {g g₁ g₂ : Daemon} {ks ks' : List RegCall}

/-- Walks compose. -/
lemma trans (h : Walk env cfg T g ks g₁) (h' : Walk env cfg T g₁ ks' g₂) :
    Walk env cfg T g (ks ++ ks') g₂ := by
  induction h' with
  | refl =>
    rw [List.append_nil]
    exact h
  | deed _ hd ih => exact ih.deed hd
  | call _ hk hno ih =>
    rw [← List.append_assoc]
    exact ih.call hk hno
  | ops _ hw ih =>
    rw [← List.append_assoc]
    exact ih.ops hw

/-- A walk on from a state to which a walk without calls has led. -/
lemma before (h : Walk env cfg T g [] g₁) (h' : Walk env cfg T g₁ ks g₂) : Walk env cfg T g ks g₂ :=
  h.trans h'

/-- One deed. -/
lemma single (hd : Deed env T g g₁) : Walk env cfg T g [] g₁ := Walk.refl.deed hd

/-- A change of which no counter and no event tells. -/
lemma other (h : Walk env cfg T g ks g₁) (hio : g₂.io = g₁.io) (hcl : g₂.cl = g₁.cl)
    (hn : g₂.nConn = g₁.nConn) : Walk env cfg T g ks g₂ :=
  h.deed (.other hio hcl hn)

/-- **What every deed, every deed of a call and every count keeps**, every walk keeps. -/
lemma invariant {P : Daemon → Prop} (hdeed : ∀ g g', P g → Deed env T g g' → P g')
    (hreg : ∀ ag g g', P g → RegDeed env cfg ag g g' → P g')
    (hcount : ∀ g c n, P g → P (addOps g c n)) (h : Walk env cfg T g ks g₁) (hg : P g) : P g₁ := by
  induction h with
  | refl => exact hg
  | deed _ hd ih => exact hdeed _ _ ih hd
  | call _ hk _ ih => exact (RegCall.regDeeds env cfg hk).invariant (fun _ _ => hreg _ _ _) ih
  | ops _ hw ih => exact hcount _ _ _ (hw.regDeeds.invariant (fun _ _ => hreg _ _ _) ih)

end Walk

/-! ## Requests -/

section

variable {env : Env} {cfg : Config} {T : Scope} {it : Ptr} {g g₁ : Daemon} {ks : List RegCall}

/-- A chore. -/
lemma Chore.walk (h : Chore env it g g₁) : Walk env cfg T g [] g₁ := by
  cases h with
  | body b => exact Walk.refl.other rfl rfl rfl
  | clock => exact .single .clock
  | grant claim deadline ops =>
    have hset : Walk env cfg T g [] { g with claim := claim } := Walk.refl.other rfl rfl rfl
    exact hset.deed (.event rfl)
  | release c claim =>
    have hend : Walk env cfg T g [] (g.emit (.claimEnd g.claim.rid c .release)) := .single (.event rfl)
    exact hend.other rfl rfl rfl
  | pulse o w a d =>
    have hclear : Walk env cfg T g [] { g with mbInflight := false } := Walk.refl.other rfl rfl rfl
    exact hclear.deed (.event rfl)

/-- Chores and calls for a request. -/
lemma Serves.walk (h : Serves env cfg it g ks g₁) : Walk env cfg T g ks g₁ := by
  induction h with
  | refl => exact .refl
  | chore _ hc ih =>
    have hw := ih.trans hc.walk
    rwa [List.append_nil] at hw
  | call _ _ hno hk ih => exact ih.call hk fun _ _ _ => hno

/-- A request that is answered. -/
lemma Answered.walk (h : Answered env cfg T.text it g ks g₁) : Walk env cfg T g ks g₁ := by
  cases h with
  | rejected h => exact .single (.send _ _ _ _ (Or.inl (Nat.zero_le _)))
  | operated hw st hn hle =>
    refine (Walk.refl.ops hw).deed (.send _ _ _ _ (Or.inl ?_))
    rwa [Block.length_read]
  | served hw hb h => exact hw.walk.deed (.send _ _ _ _ hb)

/-- **`exec_item`.** -/
lemma walk_item (hT : ∀ text, Prints cfg g it text → T.text text) :
    Walk env cfg T g (itemCalls env cfg g it) (execItem env cfg g it).2 := by
  have hctx : Walk env cfg T g [] { g with lctx := g.logFor it } := Walk.refl.other rfl rfl rfl
  have h := execItem_handled env cfg T.text hT
  refine hctx.before ?_
  generalize execItem env cfg g it = r at *
  obtain ⟨_ | f, g₁⟩ := r
  · exact Answered.walk h
  · exact Serves.walk h

variable (env cfg)

/-- Freeing the item, or pushing the frame. -/
lemma walk_settle (it : Ptr) (r : Option MbFrame × Daemon) : Walk env cfg T r.2 [] (settle it r) := by
  unfold settle
  split
  · exact Walk.refl.other rfl rfl rfl
  · exact Walk.refl.other rfl rfl rfl

/-- One round of `drain_queues`. -/
lemma walk_drain {budget : ℤ} {rest : List Activation} (hs : g.stack = .drain budget :: rest)
    (hT : ∀ it g' text, executing g = some (it, g') → Prints cfg g' it text → T.text text) :
    Walk env cfg T g (drainCalls env cfg g budget) (drainStep env cfg g budget) := by
  rcases drainStep_cases env cfg g budget with ⟨hor, hd⟩ | ⟨it, pool, hb, ht, hd⟩
  · have hnone : executing g = none := by
      unfold executing
      rw [hs]
      dsimp only
      rcases hor with hb | ht
      · rw [if_pos hb]
      · rw [ht]
        split_ifs <;> rfl
    rw [hd, drainCalls_of_not_executing env cfg hs hnone]
    exact Walk.refl.other rfl rfl rfl
  · have hex : executing g = some (it, picked g budget it pool) := by
      unfold executing
      rw [hs]
      dsimp only
      rw [if_neg hb, ht]
      rfl
    rw [hd]
    unfold drainCalls
    rw [if_neg hb, ht]
    have hlist : Walk env cfg T g []
        { g with pool := pool, stack := .drain (budget - 1) :: g.stack.tail } :=
      Walk.refl.other rfl rfl rfl
    have hpick : Walk env cfg T g [] (picked g budget it pool) := hlist.deed (.event rfl)
    have hw := (hpick.before (walk_item fun text => hT it _ text hex)).trans (walk_settle env cfg it _)
    rwa [List.append_nil] at hw

/-- One round of the wait loop. -/
lemma walk_wait (g : Daemon) (f : MbFrame) :
    Walk env cfg T g [pollCall g f] (waitStep env cfg g f) := by
  rcases waitStep_handled env cfg T.text g f with ⟨g₁, ha, hw⟩ | ⟨v, m, g₁, hs, hw, -⟩
  · rw [hw]
    exact ha.walk.other rfl rfl rfl
  · rw [hw]
    exact hs.walk.other rfl rfl rfl

/-! ## The end of a claim -/

/-- The cleanup list. -/
lemma walk_cleanup (rid : ℕ) (c : Slot) : ∀ (ops : List Op) (g : Daemon),
    Walk env cfg T g (cleanupCalls env cfg (.cleanup rid c) ops g)
      (runCleanup env cfg (.cleanup rid c) ops g) := by
  intro ops
  induction ops with
  | nil => exact fun g => .refl
  | cons op ops ih =>
    intro g
    have hcall : Walk env cfg T g [⟨g, .cleanup rid c, .op none op⟩]
        (execOp env cfg g (.cleanup rid c) none op).2.2 :=
      Walk.call (k := ⟨g, .cleanup rid c, .op none op⟩) .refl trivial fun _ _ h => by simp at h
    exact hcall.trans (ih _)

/-- **`claim_end`.** -/
lemma walk_claimEnd (g : Daemon) (how : ClaimEnd) :
    Walk env cfg T g (claimEndCalls env cfg g how) (claimEnd env cfg g how) := by
  unfold claimEndCalls claimEnd
  cases ho : g.claim.owner with
  | none => exact Walk.refl.other rfl rfl rfl
  | some c =>
    have he : Walk env cfg T g [] (g.emit (.claimEnd g.claim.rid c how)) := .single (.event rfl)
    dsimp only
    by_cases hc : (how.abnormal && !g.claim.cleanup.isEmpty) = true
    · have hc' : (how.abnormal && !(g.emit (.claimEnd g.claim.rid c how)).claim.cleanup.isEmpty) = true :=
        hc
      rw [if_pos hc, if_pos hc']
      have hstart : Walk env cfg T g [] (cleanupStart g c how) := he.other rfl rfl rfl
      exact (hstart.before (walk_cleanup env cfg g.claim.rid c g.claim.cleanup _)).other
        rfl rfl rfl
    · have hc' : ¬(how.abnormal && !(g.emit (.claimEnd g.claim.rid c how)).claim.cleanup.isEmpty) = true :=
        hc
      rw [if_neg hc, if_neg hc']
      exact he.other rfl rfl rfl

/-! ## The loop of `main` -/

/-- `enqueue`. -/
lemma walk_enqueue (g : Daemon) (rid : ℕ) (c : Slot) (h : Hdr) (body : List UInt8) :
    Walk env cfg T g [] (enqueue env g rid c h body) := by
  unfold enqueue
  split
  · exact .single (.send _ _ _ _ (Or.inl (Nat.zero_le _)))
  · refine Walk.deed ?_ (.event rfl)
    exact Walk.refl.other rfl rfl rfl

/-- `client_msg` on a datagram that is not empty. -/
lemma walk_message (g : Daemon) (c : Slot) (msg : List UInt8) :
    Walk env cfg T g [] (clientFrame env
      ({ g with nRecv := g.nRecv + 1 }.emit (.recv g.nRecv c (g.cl c).fd msg)) g.nRecv c msg) := by
  have hr : Walk env cfg T g [] (receive g c msg) := .single (.receive c msg)
  unfold receive at hr
  unfold clientFrame
  by_cases hok : frameOk msg = true
  · rw [if_pos hok] at hr ⊢
    exact hr.before (walk_enqueue env cfg _ _ _ _ _)
  · rw [if_neg hok] at hr ⊢
    exact hr.deed (.send _ _ _ _ (Or.inl (Nat.zero_le _)))

/-- `client_drop`. -/
lemma walk_clientDrop (g : Daemon) (c : Slot) :
    Walk env cfg T g (dropCalls env cfg g c) (clientDrop env cfg g c) := by
  have hend : Walk env cfg T g (dropCalls env cfg g c)
      (if g.claim.owner = some c then claimEnd env cfg g .disconnect else g) := by
    unfold dropCalls
    split_ifs
    · exact walk_claimEnd env cfg g .disconnect
    · exact .refl
  unfold clientDrop
  dsimp only
  generalize (if g.claim.owner = some c then claimEnd env cfg g .disconnect else g) = g₁ at hend ⊢
  have hpurge : Walk env cfg T g (dropCalls env cfg g c)
      { g₁ with pool := g₁.pool.purge fun it => (g₁.item it).c = c } := hend.other rfl rfl rfl
  exact (hpurge.deed (.event (e := .disconnect c (g₁.cl c).fd) rfl)).deed (.close c)

/-- **One epoll event.** -/
lemma walk_event (g : Daemon) {e : EpollEvent} (he : e.PidIn T.pid) :
    Walk env cfg T g (eventCalls env cfg g e) (handleEvent env cfg g e) := by
  cases e with
  | listen pid line => exact .single (.accept he line)
  | client c datagram =>
    simp only [eventCalls, handleEvent]
    by_cases hu : (g.cl c).used = true
    · rw [if_pos hu]
      unfold clientMsg
      dsimp only
      by_cases hm : datagram.take (hdrSize + msgMax) = []
      · rw [if_pos hm, if_pos (by simp [hu, hm])]
        exact walk_clientDrop env cfg g c
      · have hne : (datagram.take (hdrSize + msgMax)).isEmpty = false := by simpa using hm
        rw [if_neg hm, if_neg (by simp only [hu, hne]; decide)]
        exact walk_message env cfg g c _
    · rw [if_neg hu, if_neg (by simp [hu])]
      exact .refl

/-- The epoll events of one round. -/
lemma walk_events : ∀ (evs : List EpollEvent) (g : Daemon), (∀ e ∈ evs, e.PidIn T.pid) →
    Walk env cfg T g (eventsCalls env cfg evs g) (evs.foldl (handleEvent env cfg) g) := by
  intro evs
  induction evs with
  | nil => exact fun g _ => .refl
  | cons e evs ih =>
    intro g h
    exact (walk_event env cfg g (h e List.mem_cons_self)).trans
      (ih _ fun e' he' => h e' (List.mem_cons_of_mem _ he'))

/-- The expiry check. -/
lemma walk_expiry (g : Daemon) : Walk env cfg T g (expiryCalls env cfg g) (checkExpiry env cfg g) := by
  have hnow : Walk env cfg T g [] (nowUs env g).2 := .single .clock
  unfold expiryCalls checkExpiry
  by_cases ho : g.claim.owner.isSome = true
  · rw [if_pos ho]
    dsimp only
    by_cases hd : g.claim.deadline < (nowUs env g).1
    · rw [if_pos hd, if_pos (by simp [ho, hd])]
      exact hnow.before (walk_claimEnd env cfg _ .expired)
    · rw [if_neg hd, if_neg (by simp [hd])]
      exact hnow
  · rw [if_neg ho, if_neg (by simp [ho])]
    exact .refl

variable {env cfg}

/-- **One step of the daemon.** -/
lemma walk_step {i : Input} (hi : ∀ e ∈ i.evs, e.PidIn T.pid)
    (hT : ∀ it g' text, executing g = some (it, g') → Prints cfg g' it text → T.text text) :
    Walk env cfg T g (stepCalls env cfg i g) (step env cfg i g) := by
  unfold stepCalls step
  cases hs : g.stack with
  | nil =>
    have hevs := walk_events env cfg (T := T) (epollWait g i.evs) g
      fun e he => hi e (epollWait_subset g i.evs he)
    exact (hevs.trans (walk_expiry env cfg _)).other rfl rfl rfl
  | cons a rest =>
    cases a with
    | drain budget => exact walk_drain env cfg hs hT
    | wait f => exact walk_wait env cfg g f

/-- Every epoll event is one of some process. -/
lemma EpollEvent.pidIn_all (e : EpollEvent) : e.PidIn Scope.all.pid := by
  cases e <;> trivial

variable (env cfg)

/-- The steps from a state on. -/
lemma walk_steps : ∀ (is : List Input) (g : Daemon),
    Walk env cfg .all g (callsFrom env cfg is g) (is.foldl (fun g i => step env cfg i g) g) := by
  intro is
  induction is with
  | nil => exact fun g => .refl
  | cons i is ih =>
    exact fun g => (walk_step (fun e _ => e.pidIn_all) fun _ _ _ _ _ => trivial).trans (ih _)

/-- **Every run is a walk through its calls.** -/
theorem walk_run (is : List Input) :
    Walk env cfg .all (boot env cfg) (calls env cfg is) (run env cfg is) :=
  walk_steps env cfg is _

variable {env cfg}

/-- **What holds at the start and is kept by every deed** holds in every reachable state. -/
lemma Reachable.invariant_of_deeds {P : Daemon → Prop} (h₀ : P (Spid.boot env cfg))
    (hdeed : ∀ g g', P g → Deed env .all g g' → P g')
    (hreg : ∀ ag g g', P g → RegDeed env cfg ag g g' → P g')
    (hcount : ∀ g c n, P g → P (addOps g c n)) (h : Reachable env cfg g) : P g := by
  induction h with
  | boot => exact h₀
  | step _ i ih =>
    exact (walk_step (i := i) (fun e _ => e.pidIn_all) fun _ _ _ _ _ => trivial).invariant hdeed hreg
      hcount ih

end

end Spid

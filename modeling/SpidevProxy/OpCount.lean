import SpidevProxy.Deeds
import SpidevProxy.Ledger
import SpidevProxy.Refinement

set_option relaxedAutoImplicit false
set_option autoImplicit false

/-!
# Operations are counted once

`STATS` reports for each client `n_ops`, the number of operations of its `READ`, `WRITE` and `BATCH`
requests. `exec_item` counts them behind the last one of a request, all at once. In the history each of
them is one access or one refusal; the accesses of a mailbox call and those of a cleanup list, which go
through the same functions, are not counted. Between two steps the counter of a slot is the number of
such events since the slot was last connected.

## Main definitions

* `Spid.OpTally`, `Spid.opTally` — the operations of a history.
* `Spid.RegCall.Marked` — a call is one of a mailbox request just if the history tells so.

## Main results

* `Spid.execOp_opTally` — an operation is one access or one refusal.
* `Spid.Walk.opsCounted` — a walk counts the operations that it executes.
* `Spid.Reachable.opsCounted` — `n_ops` is the number of operations in the history.
-/

namespace Spid

open Intrusive

/-! ## Counting the operations of a history -/

/-- The operations of a history: the numbers of the `MAILBOX` requests that were picked, and for each
slot the operations since it was last connected. -/
structure OpTally where
  mailboxes : List ℕ
  ops : Slot → ℕ

namespace OpTally

/-- An access or a refusal for an agent: an operation, unless it belongs to a mailbox call or to a
cleanup list. -/
def attempt (t : OpTally) : Agent → OpTally
  | .request rid c =>
    if rid ∈ t.mailboxes then t else { t with ops := Function.update t.ops c (t.ops c + 1) }
  | .cleanup _ _ => t

/-- One more event. -/
def add (t : OpTally) : Event → OpTally
  | .dispatch en _ _ _ _ =>
    if en.kind = some .mailbox then { t with mailboxes := en.rid :: t.mailboxes } else t
  | .access x => t.attempt x.agent
  | .refused ag _ _ => t.attempt ag
  | .connect c _ => { t with ops := Function.update t.ops c 0 }
  | _ => t

end OpTally

/-- The operations of a history. -/
def opTally (es : List Event) : OpTally := es.foldl OpTally.add ⟨[], fun _ => 0⟩

/-- The operations of a history that is continued. -/
lemma opTally_append (es es' : List Event) :
    opTally (es ++ es') = es'.foldl OpTally.add (opTally es) :=
  List.foldl_append

namespace OpTally

variable {t : OpTally} {es : List Event}

/-- An operation is not a request. -/
lemma mailboxes_attempt (t : OpTally) (ag : Agent) : (t.attempt ag).mailboxes = t.mailboxes := by
  cases ag with
  | request rid c =>
    simp only [attempt]
    split_ifs <;> rfl
  | cleanup rid c => rfl

/-- Events that change nothing. -/
lemma foldl_of_add_eq (h : ∀ e ∈ es, t.add e = t) : es.foldl add t = t := by
  induction es with
  | nil => rfl
  | cons e es ih =>
    rw [List.foldl_cons, h e List.mem_cons_self]
    exact ih fun e' he' => h e' (List.mem_cons_of_mem _ he')

/-- Events that are no operations. -/
lemma ops_foldl (h : ∀ e ∈ es, ∀ t : OpTally, (t.add e).ops = t.ops) : (es.foldl add t).ops = t.ops := by
  induction es generalizing t with
  | nil => rfl
  | cons e es ih =>
    rw [List.foldl_cons, ih fun e' he' => h e' (List.mem_cons_of_mem _ he'), h e List.mem_cons_self]

/-- Events that pick no request. -/
lemma mailboxes_foldl (h : ∀ e ∈ es, e.picks = none) : (es.foldl add t).mailboxes = t.mailboxes := by
  induction es generalizing t with
  | nil => rfl
  | cons e es ih =>
    rw [List.foldl_cons, ih fun e' he' => h e' (List.mem_cons_of_mem _ he')]
    have he := h e List.mem_cons_self
    cases e with
    | dispatch => simp [Event.picks] at he
    | access x => exact mailboxes_attempt t x.agent
    | refused ag op st => exact mailboxes_attempt t ag
    | _ => rfl

/-- A mailbox request is known from the event that picks it on. -/
lemma mem_mailboxes_add {e : Event} {rid : ℕ} : rid ∈ (t.add e).mailboxes ↔ rid ∈ t.mailboxes ∨
    ∃ en body o w q, e = .dispatch en body o w q ∧ en.kind = some .mailbox ∧ en.rid = rid := by
  cases e with
  | dispatch en body o w q =>
    simp only [add]
    split_ifs with hk
    · simp [hk, or_comm, eq_comm]
    · simp [hk]
  | access x => simp [add, mailboxes_attempt]
  | refused ag op st => simp [add, mailboxes_attempt]
  | _ => simp [add]

/-- Register work for an agent whose accesses are no operations. -/
lemma add_of_by {ag : Agent} {ctx : LogCtx} {e : Event} (hag : t.attempt ag = t) (he : e.By ag ctx) :
    t.add e = t := by
  cases e with
  | access x =>
    have hx : x.agent = ag := he
    rw [add, hx, hag]
  | refused a op st =>
    have ha : a = ag := he
    rw [add, ha, hag]
  | opLine => rfl
  | warn => rfl
  | mbSet => rfl
  | mbClear => rfl
  | _ => exact False.elim he

end OpTally

/-- The mailbox requests of a history are those that were picked. -/
lemma mem_mailboxes_opTally {es : List Event} {rid : ℕ} : rid ∈ (opTally es).mailboxes ↔
    ∃ en body o w q, Event.dispatch en body o w q ∈ es ∧ en.kind = some .mailbox ∧ en.rid = rid := by
  induction es using List.reverseRecOn with
  | nil => simp [opTally]
  | append_singleton es e ih =>
    rw [opTally_append, List.foldl_cons, List.foldl_nil, OpTally.mem_mailboxes_add, ih]
    constructor
    · rintro (⟨en, body, o, w, q, hm, h⟩ | ⟨en, body, o, w, q, rfl, h⟩)
      · exact ⟨en, body, o, w, q, List.mem_append_left _ hm, h⟩
      · exact ⟨en, body, o, w, q, List.mem_append_right _ (List.mem_singleton_self _), h⟩
    · rintro ⟨en, body, o, w, q, hm, h⟩
      rcases List.mem_append.mp hm with hm | hm
      · exact Or.inl ⟨en, body, o, w, q, hm, h⟩
      · exact Or.inr ⟨en, body, o, w, q, (List.mem_singleton.mp hm).symm, h⟩

/-! ## Operations -/

section

variable {env : Env} {cfg : Config} {T : Scope} {it : Ptr} {g g₁ : Daemon} {ks : List RegCall}

variable (env cfg) in
/-- **An operation is one access or one refusal.** -/
lemma execOp_opTally (g : Daemon) (ag : Agent) (c : Option Slot) (op : Op) :
    opTally (execOp env cfg g ag c op).2.2.evs = (opTally g.evs).attempt ag := by
  rcases execOp_spec env cfg g ag c op with
    ⟨st, -, -, -, hx⟩ | ⟨-, ok, val, -, -, -, notes, hx, hn⟩
  · rw [hx.2, opTally_append]
    rfl
  · rw [hx.2, opTally_append, List.foldl_cons]
    refine OpTally.foldl_of_add_eq fun e he => ?_
    have hnote := hn e he
    cases e <;> first | rfl | simp [Event.isNote] at hnote

/-- Register work for an agent whose accesses are no operations. -/
lemma RegDeeds.opTally_eq {ag : Agent} (h : RegDeeds env cfg ag g g₁)
    (hag : (opTally g.evs).attempt ag = opTally g.evs) : opTally g₁.evs = opTally g.evs := by
  obtain ⟨es, he, hP⟩ := h.toil.evs
  rw [he, opTally_append]
  exact OpTally.foldl_of_add_eq fun e hm => OpTally.add_of_by hag (hP e hm)

/-- **The call is one of a `MAILBOX` request just if the history tells so.** -/
def RegCall.Marked (k : RegCall) : Prop :=
  ∀ rid c, k.agent = .request rid c → (rid ∈ (opTally k.pre.evs).mailboxes ↔ k.isOp = false)

/-- **The operations of a request** are in the history, one by one. -/
lemma Operates.opTally (h : Operates env cfg it g ks g₁) (hm : ∀ k ∈ ks, k.Marked) :
    (opTally g₁.evs).ops = Function.update (opTally g.evs).ops (g.item it).c
      ((opTally g.evs).ops (g.item it).c + ks.length) := by
  induction h with
  | refl => exact (Function.update_eq_self _ _).symm
  | body _ b ih => exact ih hm
  | @call ks k _ hag hop ih =>
    have ih := ih fun x hx => hm x (List.mem_append_left _ hx)
    have hout : (g.item it).rid ∉ (Spid.opTally k.pre.evs).mailboxes := fun hin => by
      have hno := (hm k (by simp) _ _ hag).mp hin
      rw [hop] at hno
      exact absurd hno (by decide)
    have hk : Spid.opTally (k.post env cfg).evs = (Spid.opTally k.pre.evs).attempt k.agent := by
      unfold RegCall.isOp at hop
      unfold RegCall.post
      split at hop
      · rename_i c op hw
        rw [hw]
        exact execOp_opTally env cfg k.pre k.agent c op
      · simp at hop
    rw [hk, hag, Daemon.agent, OpTally.attempt, if_neg hout, ih]
    simp [Nat.add_assoc]

/-- `n_ops` of every slot is the number of its operations in the history. -/
def OpsCounted (g : Daemon) : Prop := ∀ c, (g.cl c).nOps = UInt64.ofNat ((opTally g.evs).ops c)

/-- Something that is no operation. -/
lemma OpsCounted.idle (hg : OpsCounted g) (hcl : ∀ c, (g₁.cl c).nOps = (g.cl c).nOps) (es : List Event)
    (hev : g₁.evs = g.evs ++ es) (hes : ∀ e ∈ es, ∀ t : OpTally, (t.add e).ops = t.ops) :
    OpsCounted g₁ := by
  intro c
  rw [hcl c, hg c, hev, opTally_append, OpTally.ops_foldl hes]

/-- A slot that keeps its count. -/
lemma nOps_setClient {c : Slot} {x : Client} (hx : x.nOps = (g.cl c).nOps) (d : Slot) :
    ((g.setClient c x).cl d).nOps = (g.cl d).nOps := by
  by_cases hd : d = c
  · subst hd
    simpa [Daemon.setClient] using hx
  · simp [Daemon.setClient, hd]

/-- **A deed is no operation**; a new connection has none yet.

**Proof sketch.** Go through the deeds. None of them adds an operation to the tally or to the count
of a client; a new connection resets both at its slot. -/
lemma Deed.opsCounted (h : Deed env T g g₁) (hg : OpsCounted g) : OpsCounted g₁ := by
  cases h with
  | send rid c req st hb =>
    refine hg.idle (fun d => ?_) _ (sendResp_spec env g rid c req st _).1 (by simp [OpTally.add])
    unfold sendResp
    dsimp only
    split_ifs
    · rfl
    · exact nOps_setClient (by rfl) d
  | receive c msg =>
    refine hg.idle (fun d => ?_) [.recv g.nRecv c (g.cl c).fd msg] ?_ (by simp [OpTally.add])
    all_goals
      unfold Spid.receive
      dsimp only
      split_ifs
    · exact nOps_setClient (by rfl) d
    · rfl
    · rfl
    · rfl
  | @accept pid hp line =>
    unfold acceptClient
    split
    · exact hg
    · rename_i c _
      intro d
      rw [show (Daemon.evs _) = g.evs ++ [.connect c g.nConn] from rfl, opTally_append]
      by_cases hd : d = c
      · subst hd
        simp [Daemon.setClient, Daemon.emit, OpTally.add]
      · simpa [Daemon.setClient, Daemon.emit, OpTally.add, hd] using hg d
  | close c => exact hg.idle (nOps_setClient (by rfl)) [] (List.append_nil _).symm (by simp)
  | clock => exact hg
  | @event e he =>
    refine hg.idle (fun _ => rfl) [e] rfl ?_
    simp only [List.mem_singleton, forall_eq]
    intro t
    cases e with
    | dispatch =>
      simp only [OpTally.add]
      split_ifs <;> rfl
    | _ => first | rfl | simp [Event.plain] at he
  | other hio hcl hn =>
    exact hg.idle (fun d => by rw [hcl]) [] (by rw [Daemon.evs, hio]; simp [Daemon.evs]) (by simp)

/-- **A walk counts the operations that it executes**, those of mailbox calls and of cleanup lists
apart. -/
lemma Walk.opsCounted (h : Walk env cfg T g ks g₁) (hm : ∀ k ∈ ks, k.Marked) (hg : OpsCounted g) :
    OpsCounted g₁ := by
  induction h with
  | refl => exact hg
  | deed _ hd ih => exact hd.opsCounted (ih hm)
  | @call ks k _ hk hno ih =>
    have ih := ih fun x hx => hm x (List.mem_append_left _ hx)
    have hdeeds := RegCall.regDeeds env cfg hk
    have hsame : (opTally k.pre.evs).attempt k.agent = opTally k.pre.evs := by
      cases hag : k.agent with
      | cleanup rid c => rfl
      | request rid c =>
        rw [OpTally.attempt, if_pos ((hm k (by simp) rid c hag).mpr (hno rid c hag))]
    intro c
    rw [hdeeds.cl_eq, hdeeds.opTally_eq hsame]
    exact ih c
  | @ops ks ks' it g₁ g₂ _ hw ih =>
    have ih := ih fun x hx => hm x (List.mem_append_left _ hx)
    have hops := hw.opTally fun x hx => hm x (List.mem_append_right _ hx)
    have hcl := hw.regDeeds.cl_eq
    intro d
    rw [show (addOps g₂ (g₁.item it).c ks'.length).evs = g₂.evs from rfl, hops]
    by_cases hd : d = (g₁.item it).c
    · subst hd
      simp [addOps, Daemon.setClient, hcl, ih (g₁.item it).c, UInt64.ofNat_add]
    · simpa [addOps, Daemon.setClient, hd, hcl] using ih d

/-! ## The calls of a step -/

/-- The calls of a cleanup list are made for no request. -/
lemma agent_of_mem_cleanupCalls {rid : ℕ} {c : Slot} : ∀ (ops : List Op) {g : Daemon} {k : RegCall},
    k ∈ cleanupCalls env cfg (.cleanup rid c) ops g → k.agent = .cleanup rid c := by
  intro ops
  induction ops with
  | nil => simp [cleanupCalls]
  | cons op ops ih =>
    intro g k hk
    rcases List.mem_cons.mp hk with rfl | hk
    · rfl
    · exact ih hk

/-- So are those of the end of a claim. -/
lemma marked_of_mem_claimEndCalls {how : ClaimEnd} {k : RegCall} (hk : k ∈ claimEndCalls env cfg g how) :
    k.Marked := by
  unfold claimEndCalls at hk
  split at hk
  · simp at hk
  · split_ifs at hk
    · intro rid c hag
      rw [agent_of_mem_cleanupCalls _ hk] at hag
      exact absurd hag (by simp)
    · simp at hk

/-- `exec_item` executes operations just if the request is not a `MAILBOX`. -/
lemma isOp_of_mem_requestCalls {k : RegCall} (hk : k ∈ requestCalls env cfg g it) :
    (g.entry it).kind = some .mailbox ↔ k.isOp = false := by
  have hreadWrite : ∀ write : UInt8, k ∈ readWriteCalls g it write → k.isOp = true := by
    intro write hk
    unfold readWriteCalls at hk
    dsimp only at hk
    split_ifs at hk
    · simp at hk
    · rw [List.mem_singleton.mp hk]
      rfl
  change MsgType.ofCode (g.item it).hdr.type = some .mailbox ↔ _
  unfold requestCalls at hk
  dsimp only at hk
  split at hk
  · rename_i ht
    simp [ht, hreadWrite 0 hk]
  · rename_i ht
    simp [ht, hreadWrite 1 hk]
  · rename_i ht
    split_ifs at hk
    · simp at hk
    · have hop := ((Operates.refl.batchLoop ((g.item it).hdr.len.toNat / opSize) 0).1.mem hk).2.1
      simp [ht, hop]
  · rename_i ht
    split_ifs at hk
    · simp at hk
    · rw [List.mem_singleton.mp hk]
      simp [ht, startCall, RegCall.isOp]
  · simp at hk

/-- The request that `drain_queues` picks: what the history tells of its number is about it. -/
lemma Good.mem_mailboxes_picked (hg : Good cfg g) {budget : ℤ} {rest : List Activation} {pool : Pool 256 3}
    (hs : g.stack = .drain budget :: rest) (ht : g.pool.take (itemEligible g) = some (it, pool)) :
    (g.item it).rid ∈ (opTally (picked g budget it pool).evs).mailboxes ↔
      (g.entry it).kind = some .mailbox := by
  obtain ⟨-, hsim⟩ := take_sim cfg.rst hg.wf hs ht
  have hl := Run.ledger (hsim.run hg.run)
  have hd : Event.dispatch (g.req it).toEntry (g.req it).body _ _ _ ∈ (picked g budget it pool).evs :=
    List.mem_append_right _ List.mem_cons_self
  rw [mem_mailboxes_opTally]
  constructor
  · rintro ⟨en, body, o, w, q, hm, hk, hr⟩
    have hreq : (⟨en, body⟩ : Req) = g.req it := hl.dispatch_unique hm hd hr
    rw [← hk]
    exact congrArg (fun r : Req => r.kind) hreq.symm
  · exact fun hk => ⟨_, _, _, _, _, hd, hk, rfl⟩

/-- The calls of the request that is picked. -/
lemma marked_of_mem_itemCalls (hg : Good cfg g) {g' : Daemon} (hex : executing g = some (it, g'))
    {k : RegCall} (hk : k ∈ itemCalls env cfg g' it) : k.Marked := by
  obtain ⟨budget, rest, pool, hs, -, ht, rfl⟩ := executing_eq_some hex
  obtain ⟨hag, hf⟩ := mem_itemCalls env cfg hk
  obtain ⟨es, hev, hes⟩ := hf.evs
  intro rid c hrid
  rw [hag] at hrid
  obtain ⟨rfl, rfl⟩ := Agent.request.inj hrid
  rw [hev, opTally_append, OpTally.mailboxes_foldl fun e he => Event.Of.picks (Or.inl (hes e he)),
    ← isOp_of_mem_requestCalls hk]
  exact hg.mem_mailboxes_picked hs ht

/-- The call of a round of the wait loop. -/
lemma marked_pollCall (hg : Good cfg g) {f : MbFrame} {rest : List Activation}
    (hs : g.stack = .wait f :: rest) : (pollCall g f).Marked := by
  intro rid c hag
  obtain ⟨rfl, rfl⟩ := Agent.request.inj hag
  have hw : g.req f.it ∈ (g.abs g.waitingPtrs .idle).waiting :=
    List.mem_map_of_mem (by simp [Daemon.waitingPtrs, hs])
  obtain ⟨o, w, q, hd⟩ := (Run.ledger hg.run).executing _ (List.mem_append_right _ hw)
  refine iff_of_true (mem_mailboxes_opTally.mpr ?_) rfl
  exact ⟨_, _, o, w, q, hd, ((Run.basics hg.run).waiting _ hw).kind, rfl⟩

/-- **Every call of a step is marked.** -/
lemma marked_of_mem_stepCalls (hg : Good cfg g) {i : Input} {k : RegCall}
    (hk : k ∈ stepCalls env cfg i g) : k.Marked := by
  refine forall_mem_stepCalls (I := fun _ => True) (fun _ => trivial) (fun _ _ _ => trivial)
    (fun _ _ _ h => marked_of_mem_claimEndCalls h) (fun _ _ _ h => marked_of_mem_claimEndCalls h)
    ?_ ?_ k hk
  · exact fun it g' hex _ h => marked_of_mem_itemCalls hg hex h
  · exact fun f rest hs => marked_pollCall hg hs

/-- **`n_ops` is the number of operations in the history**, for every slot and in every reachable
state. -/
theorem Reachable.opsCounted (h : Reachable env cfg g) : OpsCounted g := by
  induction h with
  | boot =>
    intro c
    rw [evs_boot]
    rfl
  | step hr i ih =>
    exact (walk_step (T := .all) (fun e _ => e.pidIn_all) fun _ _ _ _ _ => trivial).opsCounted
      (fun _ hk => marked_of_mem_stepCalls hr.good hk) ih

end

end Spid

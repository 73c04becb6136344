import SpidevProxy.Ledger

set_option relaxedAutoImplicit false
set_option autoImplicit false

/-!
# The part of a run that belongs to one request

Requests interleave, but each of them goes its own way: from the moment it is picked to its answer,
the register accesses made for it follow a script that does not depend on the others. The script is
the projection of the protocol to one request, and what holds of every script holds of every request
of every run.

## Main definitions

* `Spid.accessesFor` — the register accesses made for an agent, in the order of the history.
* `Spid.Script` — the accesses that may be made for a request until it has come to a certain stage.

## Main results

* `Spid.Run.scripts` — every request being executed follows its script.
* `Spid.Run.answered` — so has every request that was answered.
-/

namespace Spid

open History

/-! ## Accesses of one agent -/

/-- The access in an event, if it is made for this agent. -/
def Event.accessFor (ag : Agent) : Event → Option Access
  | .access x => if x.agent = ag then some x else none
  | _ => none

/-- The register accesses made for an agent, oldest first. -/
def accessesFor (ag : Agent) (es : List Event) : List Access := es.filterMap (Event.accessFor ag)

section

variable {ag : Agent} {es es' : List Event} {x : Access}

/-- An access of the agent is kept, -/
lemma accessFor_access (h : x.agent = ag) : Event.accessFor ag (.access x) = some x := if_pos h

/-- and one of another is not. -/
lemma accessFor_of_ne (h : x.agent ≠ ag) : Event.accessFor ag (.access x) = none := if_neg h

/-- The accesses of an agent. -/
lemma mem_accessesFor : x ∈ accessesFor ag es ↔ Event.access x ∈ es ∧ x.agent = ag := by
  rw [accessesFor, List.mem_filterMap]
  constructor
  · rintro ⟨e, he, hx⟩
    cases e with
    | access y =>
      simp only [Event.accessFor, Option.ite_none_right_eq_some, Option.some.injEq] at hx
      obtain ⟨hag, rfl⟩ := hx
      exact ⟨he, hag⟩
    | _ => simp [Event.accessFor] at hx
  · rintro ⟨he, hag⟩
    exact ⟨_, he, accessFor_access hag⟩

/-- An agent without accesses. -/
lemma accessesFor_eq_nil (h : ∀ x, Event.access x ∈ es → x.agent ≠ ag) : accessesFor ag es = [] := by
  rw [List.eq_nil_iff_forall_not_mem]
  intro x hx
  obtain ⟨hm, hag⟩ := mem_accessesFor.mp hx
  exact h x hm hag

/-- The accesses in events after events. -/
lemma accessesFor_append : accessesFor ag (es ++ es') = accessesFor ag es ++ accessesFor ag es' :=
  List.filterMap_append

/-- An access for the agent comes last. -/
lemma accessesFor_snoc (h : x.agent = ag) :
    accessesFor ag (es ++ [.access x]) = accessesFor ag es ++ [x] :=
  filterMap_snoc_some (accessFor_access h) es

/-- Other events leave the accesses of the agent as they are. -/
lemma accessesFor_other {e : Event} (h : Event.accessFor ag e = none) :
    accessesFor ag (es ++ [e]) = accessesFor ag es :=
  filterMap_snoc_none h es

end

/-! ## Scripts -/

/-- How far a request has come: it is being executed, its mailbox call waits, or it has been
answered. -/
inductive Stage
  | busy (p : Progress)
  | waiting
  | answered (st : Status) (body : List UInt8)

/-- The requests that are answered `SPIPROXY_OK` for what they do to the claim or to the reset
line. -/
def Entry.controls (e : Entry) : Bool :=
  e.kind = some .claim || e.kind = some .release || e.kind = some .reset

/-- **The script of a request**: the accesses that are made for it until it has come to this
stage. -/
inductive Script (rst : Bool) (r : Req) : Stage → List Access → Prop
  | start : Script rst r (.busy (.ops [] .ok)) []
  | touch {a : Abs} {p p' : Progress} {x : Access} {xs : List Access}
      (h : Script rst r (.busy p) xs) (ht : Touch a r p x p') : Script rst r (.busy p') (xs ++ [x])
  | refused {ops out : List Op} {op : Op} {st : Status} {xs : List Access}
      (h : Script rst r (.busy (.ops out .ok)) xs) (hops : r.ops = some ops)
      (hsized : r.sized = true) (hop : ops[out.length]? = some op) :
      Script rst r (.busy (.ops (out ++ [op]) st)) xs
  | set {xs : List Access} (h : Script rst r (.busy .checked) xs) :
      Script rst r (.busy (.request [])) xs
  | bell {a : Abs} {ws : List UInt32} {xs : List Access} (h : Script rst r (.busy (.armed ws)) xs) :
      Script rst r .waiting (xs ++ [a.mbAccess r true mbFlag mbSetReq true])
  | poll {a : Abs} {v : UInt32} {xs : List Access} (h : Script rst r .waiting xs)
      (hv : v &&& mbFResp = 0) : Script rst r .waiting (xs ++ [a.mbAccess r false mbFlag v true])
  | wake {a : Abs} {p : Progress} {x : Access} {xs : List Access} (h : Script rst r .waiting xs)
      (hw : Wake a r x p) : Script rst r (.busy p) (xs ++ [x])
  | leave {st : Status} {cmd : UInt8} {payload : List UInt8} {xs : List Access}
      (h : Script rst r (.busy (.leave st cmd payload)) xs) :
      Script rst r (.busy (.answer st (r.mbReply cmd payload))) xs
  | control {xs : List Access} (h : Script rst r (.busy (.ops [] .ok)) xs)
      (hk : r.controls = true) : Script rst r (.busy (.answer .ok [])) xs
  | send {owner : Option Slot} {p : Progress} {st : Status} {body : List UInt8} {xs : List Access}
      (h : Script rst r (.busy p) xs) (ha : Answer rst owner r p st body) :
      Script rst r (.answered st body) xs

/-! ## Every request follows its script -/

/-- Every request being executed has followed its script. -/
structure Scripts (rst : Bool) (es : List Event) (a : Abs) : Prop where
  busy : ∀ r p, a.act = .exec r p → Script rst r (.busy p) (accessesFor r.agent es)
  waiting : ∀ r ∈ a.waiting, Script rst r .waiting (accessesFor r.agent es)

namespace Scripts

variable {rst : Bool} {es : List Event} {a a' : Abs} {e : Event} {r : Req} {p : Progress}

/-- Two requests being executed have different agents. -/
lemma agent_ne (hl : Ledger es a) {r r' : Req} (hr : r ∈ a.executing) (hr' : r' ∈ a.executing)
    (hne : r ≠ r') : r.agent ≠ r'.agent := by
  intro he
  simp only [Req.agent, Agent.request.injEq] at he
  exact hne (hl.live_inj (List.mem_append_left _ hr) (List.mem_append_left _ hr') he.1)

/-- The calls that wait are left alone by an event that is not theirs. -/
lemma waiting_of_other (h : Scripts rst es a)
    (he : ∀ r ∈ a.waiting, Event.accessFor r.agent e = none) :
    ∀ r ∈ a.waiting, Script rst r .waiting (accessesFor r.agent (es ++ [e])) := by
  intro r hr
  rw [accessesFor_other (he r hr)]
  exact h.waiting r hr

/-- An event that is no access. -/
lemma of_silent (h : Scripts rst es a) (he : ∀ ag, Event.accessFor ag e = none)
    (hw : a'.waiting = a.waiting)
    (hact : ∀ r p, a'.act = .exec r p → Script rst r (.busy p) (accessesFor r.agent es)) :
    Scripts rst (es ++ [e]) a' := by
  refine ⟨fun r p hr => ?_, fun r hr => ?_⟩
  · rw [accessesFor_other (he _)]
    exact hact r p hr
  · rw [hw] at hr
    exact h.waiting_of_other (fun r _ => he r.agent) r hr

/-- The same for a request that goes on. -/
lemma of_work (h : Scripts rst es a) (he : ∀ ag, Event.accessFor ag e = none)
    (hw : a'.waiting = a.waiting) (hact : a'.act = .exec r p)
    (hs : Script rst r (.busy p) (accessesFor r.agent es)) : Scripts rst (es ++ [e]) a' := by
  refine h.of_silent he hw fun r' p' hr' => ?_
  rw [hact, Activity.exec.injEq] at hr'
  obtain ⟨rfl, rfl⟩ := hr'
  exact hs

/-- The same when nothing is at work. -/
lemma of_idle (h : Scripts rst es a) (he : ∀ ag, Event.accessFor ag e = none)
    (hw : a'.waiting = a.waiting) (hact : ∀ r p, a'.act ≠ .exec r p) : Scripts rst (es ++ [e]) a' :=
  h.of_silent he hw fun r p hr => absurd hr (hact r p)

/-- An access for the cleanup list. -/
lemma of_cleanup (h : Scripts rst es a) {rid : ℕ} {c : Slot} {x : Access} {todo : List Op}
    (hx : x.agent = .cleanup rid c) :
    Scripts rst (es ++ [.access x]) (a.cleaning rid c todo) := by
  refine ⟨fun r p hr => absurd hr (Abs.cleaning_notExec _ _ _ _ _ _), fun r hr => ?_⟩
  rw [Abs.cleaning_waiting] at hr
  refine h.waiting_of_other (fun r _ => accessFor_of_ne ?_) r hr
  rw [hx]
  simp [Req.agent]

/-- An access for the request at work, by which it goes on or begins to wait. -/
lemma of_access (h : Scripts rst es a) (hl : Ledger es a) {x : Access} (hact : a.act = .exec r p)
    (hx : x.agent = r.agent) {s : Stage} (hs : Script rst r s (accessesFor r.agent es ++ [x]))
    (hbusy : ∀ r' p', a'.act = .exec r' p' → r' = r ∧ s = .busy p')
    (hwait : ∀ r' ∈ a'.waiting, r' ∈ a.waiting ∨ r' = r ∧ s = .waiting) :
    Scripts rst (es ++ [.access x]) a' := by
  have hmem : r ∈ a.executing := Abs.mem_executing.mpr (Or.inr ⟨p, hact⟩)
  have hnot := hl.notMem_waiting hact
  refine ⟨fun r' p' hr' => ?_, fun r' hr' => ?_⟩
  · obtain ⟨rfl, rfl⟩ := hbusy r' p' hr'
    rw [accessesFor_snoc hx]
    exact hs
  · rcases hwait r' hr' with hr' | ⟨rfl, rfl⟩
    · refine h.waiting_of_other (fun r' hr' => accessFor_of_ne ?_) r' hr'
      rw [hx]
      exact agent_ne hl hmem (Abs.mem_executing.mpr (Or.inl hr')) fun he => hnot (he ▸ hr')
    · rw [accessesFor_snoc hx]
      exact hs

/-- An access for the innermost waiting call, by which it goes on.

**Proof sketch.** The access is one more for the innermost call. The other calls that wait are
other requests, whose accesses stay the same. -/
lemma of_wait (h : Scripts rst es a) (hl : Ledger es a) {x : Access} {rest : List Req}
    (hw : a.waiting = r :: rest) (hx : x.agent = r.agent) {s : Stage}
    (hs : Script rst r s (accessesFor r.agent es ++ [x]))
    (hbusy : ∀ r' p', a'.act = .exec r' p' → r' = r ∧ s = .busy p')
    (hwait : ∀ r' ∈ a'.waiting, r' ∈ rest ∨ r' = r ∧ s = .waiting) :
    Scripts rst (es ++ [.access x]) a' := by
  have hmem : ∀ r' ∈ a.waiting, r' ∈ a.executing := fun r' hr' =>
    Abs.mem_executing.mpr (Or.inl hr')
  have hnd : r ∉ rest := by
    have hnodup := hl.nodup.of_map
    rw [Abs.live, Abs.executing, hw] at hnodup
    have hsub : (r :: rest).Nodup := (List.nodup_append.mp (List.nodup_append.mp hnodup).1).2.1
    exact (List.nodup_cons.mp hsub).1
  refine ⟨fun r' p' hr' => ?_, fun r' hr' => ?_⟩
  · obtain ⟨rfl, rfl⟩ := hbusy r' p' hr'
    rw [accessesFor_snoc hx]
    exact hs
  · rcases hwait r' hr' with hr' | ⟨rfl, rfl⟩
    · have hr'w : r' ∈ a.waiting := by
        rw [hw]
        exact List.mem_cons_of_mem _ hr'
      have hne : x.agent ≠ r'.agent := by
        rw [hx]
        refine agent_ne hl (hmem r (by rw [hw]; exact List.mem_cons_self)) (hmem r' hr'w) ?_
        rintro rfl
        exact hnd hr'
      rw [accessesFor_other (accessFor_of_ne hne)]
      exact h.waiting r' hr'w
    · rw [accessesFor_snoc hx]
      exact hs

/-- **Every transition keeps the scripts.**

**Proof sketch.** Case analysis of the step. An access of the request at work, or of the call that
waits, adds one event to the script of that request and to no other; a request that is picked has
no accesses yet; all other events are no accesses. -/
lemma step (h : Scripts rst es a) (hr : Run rst es a) (hs : Step rst a e a') :
    Scripts rst (es ++ [e]) a' := by
  have hl := Run.ledger hr
  have hrun : Run rst (es ++ [e]) a' := hr.snoc hs
  cases hs with
  | note hn =>
    have he : ∀ ag, Event.accessFor ag e = none := fun ag => by
      cases e <;> simp [Event.isNote] at hn <;> rfl
    exact h.of_silent he rfl h.busy
  | connect hact _ _ => exact h.of_idle (fun _ => rfl) rfl (by simp [hact])
  | disconnect hact _ _ _ => exact h.of_idle (fun _ => rfl) rfl (by simp [hact])
  | recv _ _ _ _ => exact h.of_idle (fun _ => rfl) rfl (by simp)
  | reject _ _ _ => exact h.of_idle (fun _ => rfl) rfl (by simp)
  | enqueue _ _ => exact h.of_idle (fun _ => rfl) rfl (by simp)
  | claimEnd _ _ _ _ =>
    exact h.of_idle (fun _ => rfl) (Abs.cleaning_waiting _ _ _ _)
      fun r p => Abs.cleaning_notExec _ _ _ _ _ _
  | cleanupAccess _ _ _ => exact h.of_cleanup rfl
  | cleanupRefused _ _ =>
    exact h.of_idle (fun _ => rfl) (Abs.cleaning_waiting _ _ _ _)
      fun r p => Abs.cleaning_notExec _ _ _ _ _ _
  | @dispatch q pre post r hact _ _ _ _ =>
    -- nothing has been done for it before
    refine h.of_work (fun _ => rfl) rfl rfl ?_
    have hnil : accessesFor r.agent es = [] :=
      accessesFor_eq_nil fun x hx => Run.no_access_before hrun hx
    rw [hnil]
    exact Script.start
  | access hact ht =>
    refine h.of_access hl hact ht.agent.1 ((h.busy _ _ hact).touch ht) (fun r' p' hr' => ?_)
      fun r' hr' => Or.inl hr'
    simp only [Activity.exec.injEq] at hr'
    exact ⟨hr'.1.symm, by rw [hr'.2]⟩
  | doorbell hact =>
    refine h.of_access hl hact rfl (h.busy _ _ hact).bell (by simp) fun r' hr' => ?_
    rcases List.mem_cons.mp hr' with rfl | hr'
    · exact Or.inr ⟨rfl, rfl⟩
    · exact Or.inl hr'
  | @poll r rest v hact hw hv =>
    have hwait := h.waiting r (by rw [hw]; exact List.mem_cons_self)
    refine h.of_wait hl hw rfl (hwait.poll hv) (by simp [hact]) fun r' hr' => ?_
    rw [hw] at hr'
    exact (List.mem_cons.mp hr').symm.imp_right fun he => ⟨he, rfl⟩
  | @wake r rest p x hact hw hk =>
    have hwait := h.waiting r (by rw [hw]; exact List.mem_cons_self)
    refine h.of_wait hl hw hk.agent.1 (hwait.wake hk) (fun r' p' hr' => ?_) fun r' hr' => Or.inl hr'
    simp only [Activity.exec.injEq] at hr'
    exact ⟨hr'.1.symm, by rw [hr'.2]⟩
  | refused hact hops hsized hop _ =>
    exact h.of_work (fun _ => rfl) rfl rfl ((h.busy _ _ hact).refused hops hsized hop)
  | mbSet hact => exact h.of_work (fun _ => rfl) rfl rfl (h.busy _ _ hact).set
  | mbClear hact => exact h.of_work (fun _ => rfl) rfl rfl (h.busy _ _ hact).leave
  | grant hact hk _ _ =>
    exact h.of_work (fun _ => rfl) rfl rfl ((h.busy _ _ hact).control (by simp [Entry.controls, hk]))
  | release hact hk _ =>
    exact h.of_work (fun _ => rfl) rfl rfl ((h.busy _ _ hact).control (by simp [Entry.controls, hk]))
  | reset hact hk _ _ =>
    exact h.of_work (fun _ => rfl) rfl rfl ((h.busy _ _ hact).control (by simp [Entry.controls, hk]))
  | send _ _ _ => exact h.of_idle (fun _ => rfl) rfl (by simp)

end Scripts

/-- **Every request follows its script**, whatever the others do. -/
theorem Run.scripts {rst : Bool} {es : List Event} {a : Abs} (h : Run rst es a) :
    Scripts rst es a :=
  Steps.invariant (P := Scripts rst) ⟨by simp [Abs.init], by simp [Abs.init]⟩
    (fun _ _ _ _ hr hi hs => hi.step hr hs) h

/-- **A request that was answered** has followed its script to the end, and no register is accessed
for it afterwards. -/
theorem Run.answered {rst : Bool} {es : List Event} {a : Abs} (h : Run rst es a) {r : Req}
    {o : Option Slot} {w q : List Entry} (hr : Event.dispatch r.toEntry r.body o w q ∈ es) {c : Slot}
    {fd : ℕ} {type : UInt8} {st : Status} {seq : UInt32} {body : List UInt8}
    (hs : Event.send r.rid c fd type st seq body ∈ es) :
    Script rst r (.answered st body) (accessesFor r.agent es) := by
  have hL := Run.ledger h
  obtain ⟨pre, post, rfl⟩ := List.append_of_mem hs
  obtain ⟨t, t', h₀, hstep, -⟩ := h.split_cons
  have hL₀ := Run.ledger h₀
  have hpost : accessesFor r.agent post = [] :=
    accessesFor_eq_nil fun x hx => Run.no_access_after h hx
  rw [List.append_cons, accessesFor_append, accessesFor_other rfl, hpost, List.append_nil]
  rcases hstep.send_inv.2 with ⟨msg, hact, -⟩ | ⟨r', p, hact, hrid, -, -, -, ha⟩
  · -- a datagram that is answered at once is never picked
    exfalso
    rcases List.mem_append.mp hr with hr | hr
    · obtain ⟨⟨o', ho'⟩, -⟩ := hL₀.dispatched hr
      exact (hL₀.received hact).2 ho' rfl
    · rcases List.mem_cons.mp hr with hr | hr
      · simp at hr
      · exact (Run.confined_after h).dispatched hr rfl
  · have hmem : r' ∈ t.live := List.mem_append_left _ (Abs.mem_executing.mpr (Or.inr ⟨p, hact⟩))
    obtain ⟨⟨o', ho'⟩, -⟩ := hL.dispatched hr
    obtain rfl := hL.known_unique (hL₀.known hmem).mono (hL.enqueued ho') hrid
    exact ((Run.scripts h₀).busy _ _ hact).send ha

end Spid

import SpidevProxy.InFlight

set_option relaxedAutoImplicit false
set_option autoImplicit false

/-!
# Quiescence at a hardware reset

A `RESET` is eligible for everybody at any time, so it is picked inside the wait of a mailbox call
and while another client holds the claim. Datagrams are received at the main loop only: a `RESET`
meets a mailbox call if it is in a queue when the `MAILBOX` is picked, and it meets the claim of
another client if that client holds the claim when the `RESET` arrives, or gets it while the `RESET`
is in a queue. Where none of this happens, the reset line is pulsed in quiescence.

## Main definitions

* `Spid.Entry.isReset` — the requests that pulse the reset line.
* `Spid.resetClear` — the condition on what is received and picked while a `RESET` is queued.
* `Spid.Calm` — what then holds in every state of the protocol.

## Main results

* `Spid.reset_quiescent` — the reset line is pulsed outside every mailbox call and not under the
  claim of another client.
-/

namespace Spid

open History

/-- A `RESET` of the right size. -/
def Entry.isReset (e : Entry) : Bool := e.kind = some .reset && e.hdr.len.toNat = resetSize

/-- A `RESET` arrives while nobody else holds the claim; no `RESET` is queued when a `MAILBOX` is
picked that does not fail at once, and none of another client when a `CLAIM` is picked that can be
granted. -/
def resetClear : Event → Bool
  | .enqueue e _ owner => !e.isReset || owner = none || owner = some e.c
  | .dispatch e body owner _ queued =>
    (!(e.kind = some .mailbox && Req.sized ⟨e, body⟩ && Req.inRange ⟨e, body⟩) ||
      queued.all fun e' => !e'.isReset) &&
    (!(e.kind = some .claim && Req.sized ⟨e, body⟩ && (owner = none || owner = some e.c)) ||
      queued.all fun e' => !e'.isReset || e'.c = e.c)
  | _ => true

/-- While a mailbox call is being executed no `RESET` is queued, a `RESET` is executed outside every
mailbox call, and no `RESET` meets the claim of another client, granted or about to be. -/
structure Calm (a : Abs) : Prop where
  mailbox : ∀ r ∈ a.executing, r.IsMailbox → ∀ r' ∈ a.queued, r'.isReset = false
  reset : ∀ r ∈ a.executing, r.isReset = true → a.waiting = []
  owner : ∀ r ∈ a.live, r.isReset = true → a.claim.owner = none ∨ a.claim.owner = some r.c
  granting : ∀ r, a.act = .exec r (.ops [] .ok) → r.kind = some .claim → r.sized = true →
    (a.claim.owner = none ∨ a.claim.owner = some r.c) → ∀ r' ∈ a.queued, r'.isReset = true →
    r'.c = r.c

/-- A `RESET` is of its kind. -/
lemma Entry.kind_of_isReset {e : Entry} (h : e.isReset = true) : e.kind = some .reset := by
  simp only [Entry.isReset, Bool.and_eq_true, decide_eq_true_eq] at h
  exact h.1

namespace Calm

variable {rst : Bool} {a a' : Abs} {e : Event}

/-- At the start. -/
lemma init : Calm Abs.init := by
  constructor <;> simp [Abs.init, Abs.live, Abs.executing, Abs.queued]

/-- What `resetClear` demands of a picked `MAILBOX`. -/
lemma mailbox_of_dispatch {r : Req} {o : Option Slot} {w q : List Entry} (hr : r.IsMailbox)
    (he : resetClear (.dispatch r.toEntry r.body o w q) = true) :
    ∀ e' ∈ q, e'.isReset = false := by
  simp only [resetClear, Bool.and_eq_true] at he
  have hm : (r.kind = some .mailbox && r.sized && r.inRange) = true := by
    simp [hr.kind, hr.sized, hr.inRange]
  simpa [hm] using he.1

/-- What `resetClear` demands of a picked `CLAIM`. -/
lemma claim_of_dispatch {r : Req} {o : Option Slot} {w q : List Entry}
    (hk : r.kind = some .claim) (hs : r.sized = true) (ho : o = none ∨ o = some r.c)
    (he : resetClear (.dispatch r.toEntry r.body o w q) = true) :
    ∀ e' ∈ q, e'.isReset = true → e'.c = r.c := by
  simp only [resetClear, Bool.and_eq_true] at he
  have hm : (r.kind = some .claim && r.sized && (o = none || o = some r.c)) = true := by
    simp [hk, hs, ho]
  intro e' he' hr
  have h := he.2
  simp only [hm, Bool.not_true, Bool.false_or, List.all_eq_true] at h
  simpa [hr] using h e' he'

/-- A `RESET` that is live while a `CLAIM` is at its start is queued. -/
lemma queued_of_claim (hb : Basics a) {r r₀ : Req} {p : Progress} (hact : a.act = .exec r₀ p)
    (hk : r₀.kind = some .claim) (hr : r ∈ a.live) (hreset : r.isReset = true) : r ∈ a.queued := by
  have hkr := Entry.kind_of_isReset hreset
  refine (List.mem_append.mp hr).resolve_left fun hx => ?_
  rw [Abs.executing, hact] at hx
  rcases List.mem_append.mp hx with hx | hx
  · rw [Activity.reqs_exec, List.mem_singleton] at hx
    rw [← hx, hkr] at hk
    exact absurd hk (by simp)
  · rw [(hb.waiting r hx).kind] at hkr
    exact absurd hkr (by simp)

/-- At most one request is being executed while no mailbox call waits. -/
lemma executing_unique {r m : Req} (hw : a.waiting = []) (hr : r ∈ a.executing) (hm : m ∈ a.executing) :
    m = r := by
  rw [Abs.executing, hw, List.append_nil] at hr hm
  cases hact : a.act with
  | exec r₀ p =>
    rw [hact, Activity.reqs_exec, List.mem_singleton] at hr hm
    rw [hr, hm]
  | _ => simp [hact] at hr

/-- Every transition keeps calm, if what is received and picked is as `resetClear` demands.

**Proof sketch.** One field at a time, each by who is at work or queued after the step. A request
that starts was picked, and `resetClear` says who else was queued or waiting; a `RESET` comes in
only if the claim is free or its own client's; and a claim is granted only beside a `RESET` of the
same client. -/
lemma step (h : Calm a) (hb : Basics a) (hb' : Basics a') (hs : Step rst a e a')
    (he : resetClear e = true) : Calm a' := by
  constructor
  case mailbox =>
    intro r hr hm r' hr'
    rcases hs.executing_sub hr with hr | ⟨hq, o, w, q, rfl⟩
    · rcases hs.queued_sub hr' with hr' | ⟨o, rfl⟩
      · exact h.mailbox r hr hm r' hr'
      · rw [hs.executing_of_enqueue hb] at hr
        exact absurd hr (by simp)
    · obtain ⟨-, -, -, -, -, -, -, hq'⟩ := hs.dispatch_inv
      exact mailbox_of_dispatch hm he r'.toEntry (hq' ▸ List.mem_map_of_mem hr')
  case reset =>
    intro r hr hreset
    rcases hs.executing_sub hr with hr | ⟨hq, o, w, q, rfl⟩
    · -- the one request at work is the `RESET`, so no `MAILBOX` starts to wait
      have hw := h.reset r hr hreset
      rw [List.eq_nil_iff_forall_not_mem]
      intro m hm
      have hkm := (hb'.waiting m hm).kind
      rw [executing_unique hw hr (hs.waiting_sub hm), Entry.kind_of_isReset hreset] at hkm
      exact absurd hkm (by simp)
    · obtain ⟨-, -, -, hw', -⟩ := hs.dispatch_inv
      rw [hw', List.eq_nil_iff_forall_not_mem]
      intro m hm
      have hnot := h.mailbox m (List.mem_append_right _ hm) (hb.waiting m hm) r hq
      rw [hreset] at hnot
      exact absurd hnot (by decide)
  case owner =>
    intro r hr hreset
    have hold : a.claim.owner = none ∨ a.claim.owner = some r.c := by
      rcases Ledger.live_sub hs hr with hr | ⟨o, rfl⟩
      · exact h.owner r hr hreset
      · obtain ⟨msg, -, -, rfl, -⟩ := hs.enqueue_inv
        simpa [resetClear, hreset] using he
    rcases hs.owner_inv with ho | ho | ⟨r₀, hact, hk, hsized, ho, ho'⟩
    · rwa [ho]
    · exact Or.inl ho
    · -- a claim is granted: a `RESET` in a queue is of the same client
      right
      have hlive : r ∈ a.live := by
        rcases Ledger.live_sub hs hr with hr | ⟨o, rfl⟩
        · exact hr
        · obtain ⟨msg, hact', -⟩ := hs.enqueue_inv
          simp [hact] at hact'
      have hq := queued_of_claim hb hact hk hlive hreset
      rw [ho', h.granting r₀ hact hk hsized ho r hq hreset]
  case granting =>
    intro r hact' hk hsized ho r' hr' hreset
    rcases hs.start_inv hact' with ⟨rfl, -⟩ | ⟨hq, o, w, q, rfl⟩
    · exact h.granting r hact' hk hsized ho r' hr' hreset
    · obtain ⟨-, -, -, -, ho', hcl, -, hq'⟩ := hs.dispatch_inv
      rw [hcl, ← ho'] at ho
      exact claim_of_dispatch hk hsized ho he r'.toEntry (hq' ▸ List.mem_map_of_mem hr') hreset

end Calm

/-- It is calm after every run in which what is received and picked is as `resetClear` demands. -/
lemma Run.calm {rst : Bool} {es : List Event} {a : Abs} (h : Run rst es a)
    (hc : ∀ e ∈ es, resetClear e = true) : Calm a :=
  Steps.invariant_on (P := fun _ a => Calm a) Calm.init
    (fun _ _ _ _ hr hi hs he => hi.step (Run.basics hr) (Run.basics (hr.snoc hs)) hs he) h hc

/-- What pulses the reset line is a `RESET` at its start. -/
lemma Step.reset_inv {rst : Bool} {a a' : Abs} {en : Entry} {o : Option Slot} {w : List Entry}
    {x y : UInt32} (h : Step rst a (.reset en o w x y) a') :
    ∃ r : Req, r.toEntry = en ∧ a.act = .exec r (.ops [] .ok) ∧ r.isReset = true ∧
      o = a.claim.owner ∧ w = a.waiting.map Req.toEntry := by
  cases h with
  | note hn => simp [Event.isNote] at hn
  | @reset r _ _ hact hk hsized _ =>
    refine ⟨r, rfl, hact, ?_, rfl, rfl⟩
    simp only [Req.sized, hk, decide_eq_true_eq] at hsized
    simp [Entry.isReset, hk, show r.hdr.len.toNat = resetSize from hsized]

/-- **Quiescence at a hardware reset.** If every `RESET` arrives while nobody else holds the claim,
no `RESET` is queued when a `MAILBOX` is picked, and none of another client when a `CLAIM` is picked
that can be granted, then the reset line is pulsed outside every mailbox call and while nobody but
the requester holds the claim. -/
theorem reset_quiescent {env : Env} {cfg : Config} {g : Daemon} (h : Reachable env cfg g)
    (hc : ∀ e ∈ g.evs, resetClear e = true) {pre post : List Event} {en : Entry} {o : Option Slot}
    {w : List Entry} {x y : UInt32} (he : g.evs = pre ++ .reset en o w x y :: post) :
    w = [] ∧ (∀ rid, ¬InCall pre rid) ∧ (o = none ∨ o = some en.c) := by
  have hrun := h.good.run
  rw [he] at hrun
  obtain ⟨t, t', h₀, hs, -⟩ := hrun.split_cons
  have hcalm := Run.calm h₀ fun e hm => hc e (he ▸ List.mem_append_left _ hm)
  obtain ⟨r, rfl, hact, hreset, rfl, rfl⟩ := hs.reset_inv
  have hex : r ∈ t.executing := Abs.mem_executing.mpr (Or.inr ⟨_, hact⟩)
  have hw : t.waiting = [] := hcalm.reset r hex hreset
  refine ⟨by rw [hw]; rfl, fun rid hin => ?_, hcalm.owner r (List.mem_append_left _ hex) hreset⟩
  obtain ⟨r', -, hr'⟩ := Run.inside_of_inCall h₀ rid hin
  rw [Abs.inside_of_exec hact, hw] at hr'
  simp [Progress.inCall] at hr'

/-- The daemon started with a reset line. -/
def Config.withReset : Config := { Config.plain with rst := true }

/-- Client 0 claims the device, pulses the reset line, and runs a mailbox command. -/
def resetThenMailbox : Daemon :=
  run Env.ticking Config.withReset
    (connects [(7, ['a'])] ++
      [⟨[.client 0 (datagram .claim 0 1 [0xe8, 3, 0, 0, 0, 0, 0, 0])], 64⟩,
      .none, .none, ⟨[.client 0 (datagram .reset 0 2 [0, 0, 0, 0, 0, 0, 0, 0])], 64⟩, .none, .none,
      ⟨[.client 0 (datagram .mailbox 0 3 [0, 5, 0, 0, 0xff, 0xff, 0xff, 0xff])], 64⟩, .none])

/-- A pulse of the reset line. -/
def isPulse : Event → Bool
  | .reset _ _ _ _ _ => true
  | _ => false

/-- The theorem at a run in which the owner of the claim pulses the reset line. -/
theorem reset_quiescent_ownReset :
    (∀ e ∈ resetThenMailbox.evs, resetClear e = true) ∧
      ∃ pre en o w x y post, resetThenMailbox.evs = pre ++ .reset en o w x y :: post ∧ w = [] ∧
        (o = none ∨ o = some en.c) := by
  have hc : ∀ e ∈ resetThenMailbox.evs, resetClear e = true := by decide +kernel
  have hex : ∃ e ∈ resetThenMailbox.evs, isPulse e = true := by decide +kernel
  refine ⟨hc, ?_⟩
  obtain ⟨e, hm, hp⟩ := hex
  obtain ⟨pre, post, he⟩ := List.append_of_mem hm
  cases e with
  | reset en o w x y =>
    have hr : Reachable Env.ticking Config.withReset resetThenMailbox := Reachable.run _ _ _
    obtain ⟨hw, -, ho⟩ := reset_quiescent hr hc he
    exact ⟨pre, en, o, w, x, y, post, he, hw, ho⟩
  | _ => simp [isPulse] at hp

/-- Client 0 claims the device; then it runs a mailbox command, and client 1 sends a `RESET`. -/
def resetDuringMailbox : Daemon :=
  run Env.ticking Config.withReset
    (connects [(7, ['a']), (8, ['b'])] ++
      [⟨[.client 0 (datagram .claim 0 1 [0xff, 0xff, 0xff, 0, 0, 0, 0, 0])], 64⟩, .none, .none,
      ⟨[.client 0 (datagram .mailbox 0 2 [0, 5, 0, 0, 0xff, 0xff, 0xff, 0xff]),
        .client 1 (datagram .reset 0 1 [0, 0, 0, 0, 0, 0, 0, 0])], 64⟩,
      .none, .none, .none, .none])

/-- A pulse of the reset line inside the wait of a mailbox call and under the claim of another
client. -/
def isRudePulse : Event → Bool
  | .reset en o w _ _ => !w.isEmpty && o.any fun c => c ≠ en.c
  | _ => false

/-- **Quiescence fails** without the condition: client 1's `RESET` is executed inside the wait of
client 0's mailbox call and while client 0 holds the claim. -/
theorem reset_not_quiescent :
    Reachable Env.ticking Config.withReset resetDuringMailbox ∧ Config.withReset.rst = true ∧
      ∃ en o w x y, Event.reset en o w x y ∈ resetDuringMailbox.evs ∧ w ≠ [] ∧
        ∃ c, o = some c ∧ c ≠ en.c := by
  refine ⟨Reachable.run _ _ _, rfl, ?_⟩
  have hex : ∃ e ∈ resetDuringMailbox.evs, isRudePulse e = true := by decide +kernel
  obtain ⟨e, hm, hp⟩ := hex
  cases e with
  | reset en o w x y =>
    simp only [isRudePulse, Bool.and_eq_true, Bool.not_eq_true', List.isEmpty_eq_false_iff,
      Option.any_eq_true, decide_eq_true_eq] at hp
    obtain ⟨hw, c, ho, hc⟩ := hp
    exact ⟨en, o, w, x, y, hm, hw, c, ho, hc⟩
  | _ => simp [isRudePulse] at hp

end Spid

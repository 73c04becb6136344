import SpidevProxy.Ledger
import SpidevProxy.Refinement

set_option relaxedAutoImplicit false
set_option autoImplicit false

/-!
# The in-flight guard of the mailbox

`g.mb_inflight` is one flag for all calls of `exec_mailbox`, and a call that waits lets the
scheduler run, which may start another call. The only thing that keeps a nested call out is the bit
`MB_F_BUSY` of the slice it names. As long as no call gets past that check while the flag is set,
the flag stays set from the moment a call sets it to its return, and the mailbox region is left to
that call.

## Main definitions

* `Spid.flagAfter` — the value of `g.mb_inflight` after a history.
* `Spid.InCall` — a mailbox call has set the flag and has not returned.
* `Spid.Abs.Inside` — the same in the state of the protocol.
* `Spid.Guarded` — what holds in every state if no call sets the flag a second time.

## Main results

* `Spid.mailbox_guarded` — the guard holds from set to return; outside every call the flag is clear.
-/

namespace Spid

open History

/-- The value of `g.mb_inflight` after a history. -/
def flagAfter (es : List Event) : Bool :=
  es.foldl (fun b e => match e with
    | .mbSet _ _ _ => true
    | .mbClear _ _ => false
    | .reset _ _ _ _ _ => false
    | _ => b) false

/-- The mailbox call of request `rid` has set `g.mb_inflight` and has not returned. -/
def InCall (es : List Event) (rid : ℕ) : Prop :=
  (∃ c was, Event.mbSet rid c was ∈ es) ∧ ∀ c, Event.mbClear rid c ∉ es

/-- The history gives the flag. -/
lemma Run.flagAfter_eq {rst : Bool} {es : List Event} {a : Abs} (h : Run rst es a) :
    flagAfter es = a.inflight := by
  refine Steps.invariant (P := fun es a => flagAfter es = a.inflight) rfl
    (fun es a e a' _ hi hs => ?_) h
  rw [flagAfter, List.foldl_append, List.foldl_cons, List.foldl_nil, ← flagAfter, hi]
  cases hs with
  | note hn => cases e <;> simp [Event.isNote] at hn <;> rfl
  | @claimEnd c how => cases a.claim.cleanup <;> rfl
  | @cleanupAccess rid c op todo => cases todo <;> rfl
  | @cleanupRefused rid c op todo => cases todo <;> rfl
  | _ => rfl

/-! ## Inside a call -/

/-- The mailbox call of request `r` is between setting the flag and returning. -/
def Abs.Inside (a : Abs) (r : Req) : Prop :=
  r ∈ a.waiting ∨ ∃ p, a.act = .exec r p ∧ p.inCall = true

/-- The calls inside when a request is at work. -/
lemma Abs.inside_of_exec {a : Abs} {r r' : Req} {p : Progress} (hact : a.act = .exec r p) :
    a.Inside r' ↔ r' ∈ a.waiting ∨ r' = r ∧ p.inCall = true := by
  unfold Abs.Inside
  rw [hact]
  constructor
  · rintro (h | ⟨p', h, hp⟩)
    · exact Or.inl h
    · simp only [Activity.exec.injEq] at h
      obtain ⟨rfl, rfl⟩ := h
      exact Or.inr ⟨rfl, hp⟩
  · rintro (h | ⟨rfl, hp⟩)
    · exact Or.inl h
    · exact Or.inr ⟨p, rfl, hp⟩

/-- The calls inside when no request is at work. -/
lemma Abs.inside_of_reqs {a : Abs} {r : Req} (hact : a.act.reqs = []) :
    a.Inside r ↔ r ∈ a.waiting := by
  unfold Abs.Inside
  constructor
  · rintro (h | ⟨p, h, -⟩)
    · exact h
    · rw [h] at hact
      simp at hact
  · exact Or.inl

/-- A call is entered by setting the flag and left by clearing it; nothing else changes who is
inside.

**Proof sketch.** Case analysis of the step. `mbSet` and `mbClear` are the two exceptions; the
doorbell and waking move a call between those that wait and the one at work, which is inside in
both places; otherwise neither those that wait nor whether the one at work is inside changes. -/
lemma Step.inside {rst : Bool} {a a' : Abs} {e : Event} (h : Step rst a e a') (r : Req) :
    (a'.Inside r → a.Inside r ∨
      e = .mbSet r.rid r.c a.inflight ∧ a'.act = .exec r (.request []) ∧ a'.inflight = true) ∧
      (a.Inside r → a'.Inside r ∨ e = .mbClear r.rid r.c) := by
  have key : (a'.Inside r ↔ a.Inside r) →
      (a'.Inside r → a.Inside r ∨
        e = .mbSet r.rid r.c a.inflight ∧ a'.act = .exec r (.request []) ∧ a'.inflight = true) ∧
        (a.Inside r → a'.Inside r ∨ e = .mbClear r.rid r.c) := fun k =>
    ⟨fun h => Or.inl (k.mp h), fun h => Or.inl (k.mpr h)⟩
  cases h with
  | note _ => exact key Iff.rfl
  | connect _ _ _ => exact key Iff.rfl
  | disconnect _ _ _ _ => exact key Iff.rfl
  | recv hact _ _ _ =>
    apply key
    rw [Abs.inside_of_reqs rfl, Abs.inside_of_reqs (by simp [hact])]
  | reject hact _ _ =>
    apply key
    rw [Abs.inside_of_reqs rfl, Abs.inside_of_reqs (by simp [hact])]
  | enqueue hact _ =>
    apply key
    rw [Abs.inside_of_reqs rfl, Abs.inside_of_reqs (by simp [hact])]
  | claimEnd hact _ _ _ =>
    apply key
    rw [Abs.inside_of_reqs (by simp), Abs.inside_of_reqs (by simp [hact]), Abs.cleaning_waiting]
  | cleanupAccess hact _ _ =>
    apply key
    rw [Abs.inside_of_reqs (by simp), Abs.inside_of_reqs (by simp [hact]), Abs.cleaning_waiting]
  | cleanupRefused hact _ =>
    apply key
    rw [Abs.inside_of_reqs (by simp), Abs.inside_of_reqs (by simp [hact]), Abs.cleaning_waiting]
  | dispatch hact _ _ _ _ =>
    apply key
    rw [Abs.inside_of_exec rfl, Abs.inside_of_reqs (by simp [hact])]
    simp [Progress.inCall]
  | access hact ht =>
    apply key
    rw [Abs.inside_of_exec rfl, Abs.inside_of_exec hact, ht.inCall]
  | doorbell hact =>
    apply key
    rw [Abs.inside_of_reqs rfl, Abs.inside_of_exec hact, List.mem_cons, or_comm]
    simp [Progress.inCall]
  | poll _ _ _ => exact key Iff.rfl
  | wake hact hw hk =>
    apply key
    rw [Abs.inside_of_exec rfl, Abs.inside_of_reqs (by simp [hact]), hw, List.mem_cons, or_comm,
      hk.inCall]
    simp
  | refused hact _ _ _ _ =>
    apply key
    rw [Abs.inside_of_exec rfl, Abs.inside_of_exec hact]
    simp [Progress.inCall]
  | mbSet hact =>
    rw [Abs.inside_of_exec rfl, Abs.inside_of_exec hact]
    refine ⟨?_, fun h => Or.inl (Or.inl (h.resolve_right (by simp [Progress.inCall])))⟩
    rintro (h | ⟨rfl, -⟩)
    · exact Or.inl (Or.inl h)
    · exact Or.inr ⟨rfl, rfl, rfl⟩
  | mbClear hact =>
    rw [Abs.inside_of_exec rfl, Abs.inside_of_exec hact]
    refine ⟨fun h => Or.inl (Or.inl (h.resolve_right (by simp [Progress.inCall]))), ?_⟩
    rintro (h | ⟨rfl, -⟩)
    · exact Or.inl (Or.inl h)
    · exact Or.inr rfl
  | grant hact _ _ _ =>
    apply key
    rw [Abs.inside_of_exec rfl, Abs.inside_of_exec hact]
    simp [Progress.inCall]
  | release hact _ _ =>
    apply key
    rw [Abs.inside_of_exec rfl, Abs.inside_of_exec hact]
    simp [Progress.inCall]
  | reset hact _ _ _ =>
    apply key
    rw [Abs.inside_of_exec rfl, Abs.inside_of_exec hact]
    simp [Progress.inCall]
  | send hact _ ha =>
    apply key
    rw [Abs.inside_of_reqs rfl, Abs.inside_of_exec hact, ha.notInCall]
    simp

/-- When the flag changes, a call sets or clears it, or the reset line is pulsed. -/
lemma Step.inflight {rst : Bool} {a a' : Abs} {e : Event} (h : Step rst a e a') :
    a'.inflight = a.inflight ∨ a'.inflight = true ∨
      (∃ (r : Req) (p : Progress), e = .mbClear r.rid r.c ∧ a.act = .exec r p ∧ p.inCall = true ∧
        ∀ r', a'.Inside r' → r' ∈ a.waiting) ∨
      rst = true := by
  cases h with
  | @claimEnd c how => cases a.claim.cleanup <;> exact Or.inl rfl
  | @cleanupAccess rid c op todo => cases todo <;> exact Or.inl rfl
  | @cleanupRefused rid c op todo => cases todo <;> exact Or.inl rfl
  | mbSet hact => exact Or.inr (Or.inl rfl)
  | mbClear hact =>
    refine Or.inr (Or.inr (Or.inl ⟨_, _, rfl, hact, rfl, fun r' hr' => ?_⟩))
    rw [Abs.inside_of_exec rfl] at hr'
    exact hr'.resolve_right (by simp [Progress.inCall])
  | reset _ _ _ hrst => exact Or.inr (Or.inr (Or.inr hrst))
  | _ => exact Or.inl rfl

/-- The flag is set by a request that is then inside its call. -/
lemma Step.mbSet_inv {rst : Bool} {a a' : Abs} {rid : ℕ} {c : Slot} {was : Bool}
    (h : Step rst a (.mbSet rid c was) a') : ∃ r : Req, r.rid = rid ∧ a'.Inside r := by
  cases h with
  | note hn => simp [Event.isNote] at hn
  | mbSet hact => exact ⟨_, rfl, Or.inr ⟨_, rfl, rfl⟩⟩

/-- A call that is inside has just entered, or was inside before. -/
lemma InCall.of_append {es : List Event} {e : Event} {rid : ℕ} (h : InCall (es ++ [e]) rid) :
    (∃ c was, e = .mbSet rid c was) ∨ InCall es rid := by
  obtain ⟨⟨c, was, hm⟩, hn⟩ := h
  rcases List.mem_append.mp hm with hm | hm
  · exact Or.inr ⟨⟨c, was, hm⟩, fun c' hc => hn c' (List.mem_append_left _ hc)⟩
  · exact Or.inl ⟨c, was, (List.mem_singleton.mp hm).symm⟩

/-- The history knows who is inside. -/
lemma Run.inside_of_inCall {rst : Bool} {es : List Event} {a : Abs} (h : Run rst es a) :
    ∀ rid, InCall es rid → ∃ r, r.rid = rid ∧ a.Inside r := by
  refine Steps.invariant (P := fun es a => ∀ rid, InCall es rid → ∃ r, r.rid = rid ∧ a.Inside r)
    ?_ (fun es a e a' _ ih hs rid hin => ?_) h
  · rintro rid ⟨⟨c, was, hm⟩, -⟩
    exact absurd hm (by simp)
  · rcases hin.of_append with ⟨c, was, rfl⟩ | hin'
    · exact hs.mbSet_inv
    · obtain ⟨r, rfl, hr⟩ := ih rid hin'
      rcases (hs.inside r).2 hr with hr' | rfl
      · exact ⟨r, rfl, hr'⟩
      · exact absurd (List.mem_append_right _ (List.mem_singleton_self _)) (hin.2 r.c)

/-- At the main loop nobody is inside. -/
lemma Run.not_inCall {rst : Bool} {es : List Event} {a : Abs} (h : Run rst es a)
    (hact : a.act.reqs = []) (hw : a.waiting = []) (rid : ℕ) : ¬InCall es rid := by
  intro hin
  obtain ⟨r, -, hr⟩ := h.inside_of_inCall rid hin
  rw [Abs.inside_of_reqs hact, hw] at hr
  exact absurd hr (by simp)

/-! ## The guard -/

/-- A call sets the flag only when it is clear. -/
def setsOnce : Event → Bool
  | .mbSet _ _ was => !was
  | _ => true

/-- At most one call is inside, and while one is, the flag is set. -/
structure Guarded (a : Abs) : Prop where
  unique : ∀ r r', a.Inside r → a.Inside r' → r = r'
  flag : ∀ r, a.Inside r → a.inflight = true

/-- Every transition keeps the guard, if there is no reset line and calls set the flag only when it
is clear.

**Proof sketch.** Whoever enters finds the flag clear, so no one is inside; therefore the one
inside stays the only one. The flag goes down only when the one inside leaves, as there is no
reset, and then no one is inside. -/
lemma Guarded.step {es : List Event} {a a' : Abs} {e : Event} (h : Guarded a)
    (hl : Ledger es a) (hs : Step false a e a') (he : setsOnce e = true) : Guarded a' := by
  -- a call that sets the flag finds nobody inside
  have hset : ∀ {r : Req}, e = .mbSet r.rid r.c a.inflight → ∀ r', ¬a.Inside r' := by
    rintro r rfl r' hr'
    have hf : a.inflight = false := by simpa [setsOnce] using he
    rw [h.flag r' hr'] at hf
    exact absurd hf (by decide)
  constructor
  case unique =>
    intro r r' hr hr'
    rcases (hs.inside r).1 hr with hr | ⟨he₁, hact, -⟩
    · rcases (hs.inside r').1 hr' with hr' | ⟨he₂, -, -⟩
      · exact h.unique r r' hr hr'
      · exact absurd hr (hset he₂ r)
    · rcases (hs.inside r').1 hr' with hr' | ⟨-, hact', -⟩
      · exact absurd hr' (hset he₁ r')
      · rw [hact, Activity.exec.injEq] at hact'
        exact hact'.1
  case flag =>
    intro r hr
    rcases (hs.inside r).1 hr with hr₀ | ⟨-, -, hf⟩
    · rcases hs.inflight with hf | hf | ⟨r₁, p, -, hact, hp, hw⟩ | hrst
      · rw [hf]
        exact h.flag r hr₀
      · exact hf
      · -- the one call inside has just left, and it does not wait as well
        have hr₁ : r = r₁ := h.unique r r₁ hr₀ (Or.inr ⟨p, hact, hp⟩)
        exact absurd (hr₁ ▸ hw r hr) (hl.notMem_waiting hact)
      · exact absurd hrst (by decide)
    · exact hf

/-- The guard holds after every run without a reset line in which calls set the flag only when it
is clear. -/
lemma Run.guarded {es : List Event} {a : Abs} (h : Run false es a)
    (hc : ∀ e ∈ es, setsOnce e = true) : Guarded a := by
  refine Steps.invariant_on (P := fun _ a => Guarded a) ?_
    (fun _ _ _ _ hr hg hs he => hg.step (Run.ledger hr) hs he) h hc
  constructor <;> simp [Abs.Inside, Abs.init]

/-- While the flag is set, the mailbox region is accessed by `MAILBOX` requests only, and written
only from inside a call.

**Proof sketch.** Case analysis of the step. Cleanup lists run only while the flag is clear; an
operation in the guarded region would have been refused; the probe of a mailbox request only reads;
all other accesses are made from inside a call. -/
lemma Step.guarded_access {rst : Bool} {a a' : Abs} {x : Access} (h : Step rst a (.access x) a')
    (hb : Basics a) (hi : a.inflight = true) :
    x.inflight = true ∧ ∃ r, r ∈ a.executing ∧ x.agent = r.agent ∧
      (inGuard x.mmd x.reg = true → r.kind = some .mailbox ∧ (x.write = true → a.Inside r)) := by
  have hexec : ∀ {r p}, a.act = .exec r p → r ∈ a.executing := fun hact =>
    Abs.mem_executing.mpr (Or.inr ⟨_, hact⟩)
  have hwait : ∀ {r rest}, a.waiting = r :: rest → r ∈ a.waiting := fun hw => by
    rw [hw]
    exact List.mem_cons_self
  cases h with
  | note hn => simp [Event.isNote] at hn
  | cleanupAccess hact _ _ =>
    -- a cleanup list is run outside every call
    rw [(hb.cleaning _ _ _ hact).2.1] at hi
    exact absurd hi (by decide)
  | @access r p p' _ hact ht =>
    refine ⟨ht.agent.2.2.trans hi, r, hexec hact, ht.agent.1, fun hg => ?_⟩
    have hin : p.inCall = true → r.kind = some .mailbox ∧ (x.write = true → a.Inside r) := fun hp =>
      ⟨(hb.exec _ _ hact (Progress.ofMailbox_of_inCall hp)).kind,
        fun _ => Or.inr ⟨p, hact, hp⟩⟩
    cases ht with
    | @op ops out op val ok hops hsized hop hok hval =>
      -- `exec_op` would have refused it
      have hg' : inGuard op.mmd op.reg = true := hg
      simp [opRefusal, hi, hg'] at hok
      split_ifs at hok
    | probe hk hsized hr => exact ⟨hk, fun hw => absurd hw (by simp [Abs.mbAccess, Abs.access])⟩
    | word => exact hin rfl
    | mask => exact hin rfl
    | enable => exact hin rfl
    | noBell => exact hin rfl
    | fetch => exact hin rfl
    | clear => exact hin rfl
  | doorbell hact =>
    exact ⟨hi, _, hexec hact, rfl, fun _ => ⟨(hb.exec _ _ hact rfl).kind,
      fun _ => Or.inr ⟨_, hact, rfl⟩⟩⟩
  | @poll r rest v hact hw _ =>
    have hr := hwait hw
    exact ⟨hi, r, List.mem_append_right _ hr, rfl, fun _ => ⟨(hb.waiting r hr).kind,
      fun _ => Or.inl hr⟩⟩
  | @wake r rest p _ hact hw hk =>
    have hr := hwait hw
    exact ⟨hk.agent.2.2.trans hi, r, List.mem_append_right _ hr, hk.agent.1,
      fun _ => ⟨(hb.waiting r hr).kind, fun _ => Or.inl hr⟩⟩

/-- **The in-flight guard.** The history tells the flag, and at the main loop it is clear. Without a
reset line, and if no call sets the flag while it is set, the flag stays set from the moment a call
sets it until that call returns; in between the mailbox region is accessed for `MAILBOX` requests
only, and no other call writes to it. -/
theorem mailbox_guarded {env : Env} {cfg : Config} {g : Daemon} (h : Reachable env cfg g) :
    flagAfter g.evs = g.mbInflight ∧ (g.stack = [] → g.mbInflight = false) ∧
      (cfg.rst = false → (∀ e ∈ g.evs, setsOnce e = true) →
        (∀ pre post rid, g.evs = pre ++ post → InCall pre rid → flagAfter pre = true) ∧
        ∀ pre x post rid, g.evs = pre ++ .access x :: post → InCall pre rid →
          inGuard x.mmd x.reg = true →
          ∃ r o w q, Event.dispatch (Req.toEntry r) r.body o w q ∈ pre ∧ x.agent = r.agent ∧
            r.kind = some .mailbox ∧ (x.write = true → r.rid = rid)) := by
  have hrun := h.good.run
  refine ⟨hrun.flagAfter_eq, fun hst => ?_, fun hrst hc => ⟨?_, ?_⟩⟩
  · refine hrun.basics.calm rfl ?_
    simp [Daemon.abs, Daemon.waitingPtrs, hst]
  · intro pre post rid he hin
    rw [hrst, he] at hrun
    obtain ⟨a, hpre, -⟩ := hrun.split
    have hg := Run.guarded hpre fun e hm => hc e (by rw [he]; exact List.mem_append_left _ hm)
    obtain ⟨r, -, hr⟩ := Run.inside_of_inCall hpre rid hin
    rw [Run.flagAfter_eq hpre]
    exact hg.flag r hr
  · intro pre x post rid he hin hx
    rw [hrst, he] at hrun
    obtain ⟨a, a', hpre, hs, -⟩ := hrun.split_cons
    have hg := Run.guarded hpre fun e hm => hc e (by rw [he]; exact List.mem_append_left _ hm)
    obtain ⟨r, hrid, hr⟩ := Run.inside_of_inCall hpre rid hin
    obtain ⟨-, r', hmem, hag, hguard⟩ := hs.guarded_access (Run.basics hpre) (hg.flag r hr)
    obtain ⟨hk, hwr⟩ := hguard hx
    obtain ⟨o, w, q, hd⟩ := (Run.ledger hpre).executing r' hmem
    refine ⟨r', o, w, q, hd, hag, hk, fun hw => ?_⟩
    rw [hg.unique r' r (hwr hw) hr, hrid]

/-- A device that answers zeros, and a clock that moves on by a second at each reading. -/
def Env.ticking : Env := { Env.still 0 with clock := fun k => 1000000 * UInt64.ofNat k }

/-- Client 0 sends a `MAILBOX` with a long timeout, and client 1 a `WRITE` to `MB_FLAG`. -/
def mailboxOnce : Daemon :=
  run Env.ticking Config.plain
    (connects [(7, ['a']), (8, ['b'])] ++
      [⟨[.client 0 (datagram .mailbox 0 1 [0, 5, 0, 0, 0xff, 0xff, 0xff, 0xff]),
        .client 1 (datagram .write 0 1 [0, 1, 0x1e, 0, 0, 0xda, 0, 0, 0, 0, 0, 2])], 64⟩,
      .none, .none, .none])

/-- The theorem at a run with a single mailbox call: it is still waiting, and the flag is set. -/
theorem mailbox_guarded_mailboxOnce :
    (∀ e ∈ mailboxOnce.evs, setsOnce e = true) ∧ InCall mailboxOnce.evs 0 ∧
      mailboxOnce.mbInflight = true := by
  have hc : ∀ e ∈ mailboxOnce.evs, setsOnce e = true := by decide +kernel
  have hin : InCall mailboxOnce.evs 0 := ⟨⟨0, false, by decide +kernel⟩, by decide +kernel⟩
  obtain ⟨hflag, -, hg⟩ := mailbox_guarded (Reachable.run _ _ _ : Reachable _ _ mailboxOnce)
  exact ⟨hc, hin, hflag ▸ (hg rfl hc).1 mailboxOnce.evs [] 0 (List.append_nil _).symm hin⟩

/-- Client 0 sends a `MAILBOX` for slice 0 with a long timeout, client 1 one for slice 1 with a timeout
of a millisecond, and client 2 a `WRITE` to `MB_FLAG`. -/
def mailboxTwice : Daemon :=
  run Env.ticking Config.plain
    (connects [(7, ['a']), (8, ['b']), (9, ['c'])] ++
      [⟨[.client 0 (datagram .mailbox 0 1 [0, 5, 0, 0, 0xff, 0xff, 0xff, 0xff]),
        .client 1 (datagram .mailbox 0 1 [1, 5, 0, 0, 1, 0, 0, 0]),
        .client 2 (datagram .write 0 1 [0, 1, 0x1e, 0, 0, 0xda, 0, 0, 0, 0, 0, 2])], 64⟩,
      .none, .none, .none, .none, .none])

/-- **The guard fails** without the condition: the call of client 1, nested in the wait of client
0's, clears the flag on its way out, and the `WRITE` of client 2 to `MB_FLAG` reaches the device while client
0's call still waits. -/
theorem mailbox_not_guarded :
    Reachable Env.ticking Config.plain mailboxTwice ∧ Config.plain.rst = false ∧
      ∃ pre x post, mailboxTwice.evs = pre ++ .access x :: post ∧ InCall pre 0 ∧
        flagAfter pre = false ∧ x.agent = .request 2 2 ∧ x.write = true ∧
        inGuard x.mmd x.reg = true := by
  refine ⟨Reachable.run _ _ _, rfl, mailboxTwice.evs.take 31,
    ⟨.request 2 2, true, 0, mmdGlobal, mbFlag, 0x02000000, true, none, false⟩,
    mailboxTwice.evs.drop 32, ?_, ⟨⟨0, false, ?_⟩, ?_⟩, ?_, rfl, rfl, rfl⟩
  all_goals decide +kernel

end Spid

import SpidevProxy.Protocol

set_option relaxedAutoImplicit false
set_option autoImplicit false

/-!
# Basic facts of the protocol

Invariants of the protocol that do not depend on how clients and device behave, and what an access
event tells about the state in which it happens.

## Main definitions

* `Spid.Req.touches` — the requests that access registers.
* `Spid.Progress.inCall` — the part of a mailbox call between setting and clearing
  `g.mb_inflight`.

## Main results

* `Spid.Run.basics` — only a `MAILBOX` is inside a mailbox call; a cleanup list is run for the owner
  of the claim and outside every mailbox call; `g.mb_inflight` is set only inside a mailbox call.
* `Spid.Step.access_inv` — on whose behalf a register is accessed.
-/

namespace Spid

open History

/-- The requests that access registers: `READ`, `WRITE`, `BATCH` and `MAILBOX`. -/
def Entry.touches (e : Entry) : Bool :=
  match e.kind with
  | some .read | some .write | some .batch | some .mailbox => true
  | _ => false

/-- A request with operations is a `READ`, `WRITE` or `BATCH`. -/
lemma Req.touches_of_ops {r : Req} {ops : List Op} (h : r.ops = some ops) : r.touches = true := by
  unfold Req.ops at h
  unfold Entry.touches
  split at h <;> simp_all

/-- A `MAILBOX` touches registers. -/
lemma Req.touches_of_mailbox {r : Req} (h : r.kind = some .mailbox) : r.touches = true := by
  unfold Entry.touches
  rw [h]

/-- While somebody else holds the claim, no request that accesses registers is eligible. -/
lemma client_eq_of_eligible {e : Entry} {c : Slot} (h : eligible (some c) e = true)
    (ht : e.touches = true) : e.c = c := by
  by_contra hne
  have hne' : ¬some c = some e.c := fun he => hne (Option.some.inj he).symm
  simp only [eligible, reduceCtorEq, decide_false, Bool.false_or, hne', Bool.and_eq_true,
    decide_eq_true_eq] at h
  obtain ⟨h₁, h₂⟩ := h
  unfold Entry.touches at ht
  split at ht
  · rename_i hk
    rw [MsgType.ofCode_eq_some.mp hk] at h₁
    exact absurd h₁ (by decide)
  · rename_i hk
    rw [MsgType.ofCode_eq_some.mp hk] at h₁
    exact absurd h₁ (by decide)
  · rename_i hk
    rw [MsgType.ofCode_eq_some.mp hk] at h₁
    exact absurd h₁ (by decide)
  · rename_i hk
    exact h₂ (MsgType.ofCode_eq_some.mp hk)
  · exact absurd ht (by decide)

/-! ## Inside a mailbox call -/

/-- Between setting and clearing `g.mb_inflight`. -/
def Progress.inCall : Progress → Bool
  | .request _ | .masked _ _ | .armed _ | .response _ | .leave _ _ _ => true
  | _ => false

/-- Inside `exec_mailbox`, past the first look at `MB_FLAG`. -/
def Progress.ofMailbox (p : Progress) : Bool :=
  match p with
  | .checked => true
  | p => p.inCall

/-- A request inside a mailbox call is a mailbox request. -/
lemma Progress.ofMailbox_of_inCall {p : Progress} (h : p.inCall = true) : p.ofMailbox = true := by
  cases p with
  | checked => rfl
  | _ => exact h

/-- A `MAILBOX` that `exec_mailbox` has not turned down. -/
structure Req.IsMailbox (r : Req) : Prop where
  kind : r.kind = some .mailbox
  sized : r.sized = true
  inRange : r.inRange = true

/-- The register number of a word in a window. -/
lemma toNat_window (base : UInt16) {j : ℕ} (hb : base.toNat + j < 65536) :
    (base + UInt16.ofNat j).toNat = base.toNat + j := by
  simp
  omega

/-- The length of a request packet. -/
lemma Req.toNat_pktLen {r : Req} (hr : r.inRange = true) :
    r.mb.pktLen.toNat = 6 + r.mb.payloadLen.toNat ∧ r.mb.payloadLen.toNat ≤ 1018 := by
  simp only [Req.inRange, Bool.and_eq_true, decide_eq_true_eq] at hr
  exact ⟨Mb.toNat_pktLen hr.1, hr.1⟩

/-- An access for a request is made for it, under the claim and the flag of the moment. -/
lemma Touch.agent {a : Abs} {r : Req} {p p' : Progress} {x : Access} (h : Touch a r p x p') :
    x.agent = r.agent ∧ x.owner = a.claim.owner ∧ x.inflight = a.inflight := by
  cases h <;> exact ⟨rfl, rfl, rfl⟩

/-- So is the access of a call that wakes up. -/
lemma Wake.agent {a : Abs} {r : Req} {p : Progress} {x : Access} (h : Wake a r x p) :
    x.agent = r.agent ∧ x.owner = a.claim.owner ∧ x.inflight = a.inflight := by
  cases h <;> exact ⟨rfl, rfl, rfl⟩

/-- A call that wakes up is still inside. -/
lemma Wake.inCall {a : Abs} {r : Req} {p : Progress} {x : Access} (h : Wake a r x p) :
    p.inCall = true := by
  cases h <;> rfl

/-- An access keeps a call inside, or belongs to a request that is not inside. -/
lemma Touch.inCall {a : Abs} {r : Req} {p p' : Progress} {x : Access} (h : Touch a r p x p') :
    p'.inCall = p.inCall := by
  cases h with
  | op => split_ifs <;> rfl
  | probe => split_ifs <;> rfl
  | word => split_ifs <;> rfl
  | mask => split_ifs <;> rfl
  | enable => split_ifs <;> rfl
  | noBell => rfl
  | fetch => split_ifs <;> rfl
  | clear => rfl

/-- A request that goes on inside `exec_mailbox` was there, or is a `MAILBOX` that has just got past
its first check. -/
lemma Touch.ofMailbox {a : Abs} {r : Req} {p p' : Progress} {x : Access} (h : Touch a r p x p')
    (hp : p'.ofMailbox = true) : p.ofMailbox = true ∨ r.IsMailbox := by
  cases h with
  | op => exact absurd hp (by split_ifs <;> simp [Progress.ofMailbox, Progress.inCall])
  | probe hk hs hr => exact Or.inr ⟨hk, hs, hr⟩
  | word => exact Or.inl rfl
  | mask => exact Or.inl rfl
  | enable => exact Or.inl rfl
  | noBell => exact Or.inl rfl
  | fetch => exact Or.inl rfl
  | clear => exact Or.inl rfl

/-- A request that touches a register is one that may. -/
lemma Touch.touches {a : Abs} {r : Req} {p p' : Progress} {x : Access} (h : Touch a r p x p')
    (hp : p.ofMailbox = true → r.IsMailbox) : r.touches = true := by
  cases h with
  | op hops => exact Req.touches_of_ops hops
  | probe hk => exact Req.touches_of_mailbox hk
  | word => exact Req.touches_of_mailbox (hp rfl).kind
  | mask => exact Req.touches_of_mailbox (hp rfl).kind
  | enable => exact Req.touches_of_mailbox (hp rfl).kind
  | noBell => exact Req.touches_of_mailbox (hp rfl).kind
  | fetch => exact Req.touches_of_mailbox (hp rfl).kind
  | clear => exact Req.touches_of_mailbox (hp rfl).kind

/-- An access leaves a request past its start. -/
lemma Touch.ne_start {a : Abs} {r : Req} {p p' : Progress} {x : Access} (h : Touch a r p x p') :
    p' ≠ .ops [] .ok := by
  cases h <;> (try split_ifs) <;> simp

/-- A call that wakes up has begun. -/
lemma Wake.ne_start {a : Abs} {r : Req} {p : Progress} {x : Access} (h : Wake a r x p) :
    p ≠ .ops [] .ok := by
  cases h <;> simp

/-- An answer is given outside the call. -/
lemma Answer.notInCall {rst : Bool} {owner : Option Slot} {r : Req} {p : Progress} {st : Status}
    {body : List UInt8} (h : Answer rst owner r p st body) : p.inCall = false := by
  cases h <;> rfl

/-- A `MAILBOX` is answered with `SPIPROXY_OK` only after its call has returned. -/
lemma Answer.mailbox_ok {rst : Bool} {owner : Option Slot} {r : Req} {p : Progress}
    {body : List UInt8} (h : Answer rst owner r p .ok body) (hk : r.kind = some .mailbox) :
    p = .answer .ok body := by
  cases h with
  | done => rfl
  | ops hops => simp [Req.ops, hk] at hops
  | released hk' => simp [hk] at hk'
  | text hk' => simp [hk] at hk'

/-! ## Invariants -/

/-- Invariants of the protocol, whatever clients and device do: only a `MAILBOX` is inside
`exec_mailbox`; `g.mb_inflight` is set only while a mailbox call is inside; a cleanup list is run for
the owner of the claim, and a datagram is framed, outside every mailbox call. -/
structure Basics (a : Abs) : Prop where
  exec : ∀ r p, a.act = .exec r p → p.ofMailbox = true → r.IsMailbox
  waiting : ∀ r ∈ a.waiting, r.IsMailbox
  inflight : a.inflight = true → a.waiting ≠ [] ∨ ∃ r p, a.act = .exec r p ∧ p.inCall = true
  cleaning : ∀ rid c todo, a.act = .cleaning rid c todo →
    a.waiting = [] ∧ a.inflight = false ∧ a.claim.owner = some c ∧ a.claim.rid = rid
  received : ∀ rid c msg, a.act = .received rid c msg → a.waiting = [] ∧ a.inflight = false

namespace Basics

variable {rst : Bool} {a a' : Abs} {r : Req} {p : Progress}

/-- At the start. -/
lemma init : Basics Abs.init := by
  constructor <;> simp [Abs.init]

/-- Outside every mailbox call `g.mb_inflight` is clear. -/
lemma calm (h : Basics a) (hact : a.act = .idle) (hw : a.waiting = []) : a.inflight = false := by
  by_contra hne
  rcases h.inflight (by simpa using hne) with h' | ⟨r, p, h', -⟩
  · exact h' hw
  · rw [hact] at h'
    exact absurd h' (by simp)

/-- While a request is at work, `g.mb_inflight` is set by a call that waits or by its own. -/
lemma inflight_exec (h : Basics a) (hact : a.act = .exec r p) (hi : a.inflight = true) :
    a.waiting ≠ [] ∨ p.inCall = true := by
  rcases h.inflight hi with h' | ⟨r', p', h', hp⟩
  · exact Or.inl h'
  · rw [hact, Activity.exec.injEq] at h'
    obtain ⟨-, rfl⟩ := h'
    exact Or.inr hp

/-- A state in which a request is being executed. -/
lemma of_exec (hact : a.act = .exec r p) (hp : p.ofMailbox = true → r.IsMailbox)
    (hw : ∀ r ∈ a.waiting, r.IsMailbox)
    (hi : a.inflight = true → a.waiting ≠ [] ∨ p.inCall = true) : Basics a where
  exec r' p' h hp' := by
    rw [hact, Activity.exec.injEq] at h
    obtain ⟨rfl, rfl⟩ := h
    exact hp hp'
  waiting := hw
  inflight h := (hi h).imp_right fun hp => ⟨r, p, hact, hp⟩
  cleaning _ _ _ h := by simp [hact] at h
  received _ _ _ h := by simp [hact] at h

/-- A state in which nothing goes on. -/
lemma of_idle (hact : a.act = .idle) (hw : ∀ r ∈ a.waiting, r.IsMailbox)
    (hi : a.inflight = true → a.waiting ≠ []) : Basics a where
  exec _ _ h := by simp [hact] at h
  waiting := hw
  inflight h := Or.inl (hi h)
  cleaning _ _ _ h := by simp [hact] at h
  received _ _ _ h := by simp [hact] at h

/-- A state in which a cleanup list is being run. -/
lemma of_cleaning {rid : ℕ} {c : Slot} (hw : a.waiting = []) (hi : a.inflight = false)
    (ho : a.claim.owner = some c) (hr : a.claim.rid = rid) (todo : List Op) :
    Basics (a.cleaning rid c todo) := by
  cases todo with
  | nil => exact of_idle rfl (by simp [Abs.cleaning, hw]) (by simp [Abs.cleaning, hi])
  | cons op todo => constructor <;> simp +contextual [Abs.cleaning, hw, hi, ho, hr]

/-- Every transition keeps the invariants.

**Proof sketch.** Case analysis of the step. Whoever becomes busy is described by `of_exec`,
`of_idle` or `of_cleaning`; the flag is up only while someone waits or is inside a call, so it is
down whenever the daemon is idle and no one waits (`calm`). -/
lemma step {e : Event} (h : Basics a) (hs : Step rst a e a') : Basics a' := by
  cases hs with
  | note _ => exact h
  | connect hact hw _ => exact ⟨h.exec, h.waiting, h.inflight, h.cleaning, h.received⟩
  | disconnect hact hw _ _ => exact ⟨h.exec, h.waiting, h.inflight, h.cleaning, h.received⟩
  | recv hact hw _ _ =>
    have hi := h.calm hact hw
    constructor <;> simp [hw, hi]
  | reject hact _ _ =>
    obtain ⟨hw, hi⟩ := h.received _ _ _ hact
    exact of_idle rfl h.waiting (by simp [hi])
  | enqueue hact _ =>
    obtain ⟨hw, hi⟩ := h.received _ _ _ hact
    exact of_idle rfl h.waiting (by simp [hi])
  | claimEnd hact hw ho _ => exact of_cleaning hw (h.calm hact hw) ho rfl _
  | cleanupAccess hact _ _ =>
    obtain ⟨hw, hi, ho, hr⟩ := h.cleaning _ _ _ hact
    exact of_cleaning hw hi ho hr _
  | cleanupRefused hact _ =>
    obtain ⟨hw, hi, ho, hr⟩ := h.cleaning _ _ _ hact
    exact of_cleaning hw hi ho hr _
  | dispatch hact _ _ _ _ =>
    refine of_exec rfl (by simp [Progress.ofMailbox, Progress.inCall]) h.waiting fun hi => ?_
    by_contra hne
    rw [not_or, not_not] at hne
    have hc := h.calm hact hne.1
    simp [hc] at hi
  | access hact ht =>
    refine of_exec rfl (fun hp => ?_) h.waiting fun hi => ?_
    · exact (ht.ofMailbox hp).elim (h.exec _ _ hact) id
    · rw [ht.inCall]
      exact h.inflight_exec hact hi
  | doorbell hact =>
    refine of_idle rfl (fun r hr => ?_) (by simp)
    rcases List.mem_cons.mp hr with rfl | hr
    · exact h.exec _ _ hact rfl
    · exact h.waiting r hr
  | poll hact hw _ => exact h
  | wake hact hw hk =>
    have hm : ∀ r ∈ a.waiting, r.IsMailbox := h.waiting
    rw [hw] at hm
    exact of_exec rfl (fun _ => hm _ List.mem_cons_self)
      (fun r hr => hm r (List.mem_cons_of_mem _ hr)) fun _ => Or.inr hk.inCall
  | refused hact _ _ _ _ =>
    exact of_exec rfl (by simp [Progress.ofMailbox, Progress.inCall]) h.waiting
      fun hi => (h.inflight_exec hact hi).imp_right fun hp => by simp [Progress.inCall] at hp
  | mbSet hact =>
    exact of_exec rfl (fun _ => h.exec _ _ hact rfl) h.waiting fun _ => Or.inr rfl
  | mbClear hact =>
    exact of_exec rfl (by simp [Progress.ofMailbox, Progress.inCall]) h.waiting (by simp)
  | grant hact _ _ _ =>
    exact of_exec rfl (by simp [Progress.ofMailbox, Progress.inCall]) h.waiting
      fun hi => (h.inflight_exec hact hi).imp_right fun hp => by simp [Progress.inCall] at hp
  | release hact _ _ =>
    exact of_exec rfl (by simp [Progress.ofMailbox, Progress.inCall]) h.waiting
      fun hi => (h.inflight_exec hact hi).imp_right fun hp => by simp [Progress.inCall] at hp
  | reset hact _ _ _ =>
    exact of_exec rfl (by simp [Progress.ofMailbox, Progress.inCall]) h.waiting (by simp)
  | send hact _ ha =>
    refine of_idle rfl h.waiting fun hi => (h.inflight_exec hact hi).resolve_right ?_
    simp [ha.notInCall]

end Basics

/-- **The basic invariants** hold after every run. -/
theorem Run.basics {rst : Bool} {es : List Event} {a : Abs} (h : Run rst es a) : Basics a :=
  Steps.invariant (P := fun _ a => Basics a) Basics.init (fun _ _ _ _ _ hb hs => hb.step hs) h

/-! ## Accesses -/

/-- The request `r` is being executed: it is the one at work, or its mailbox call waits. -/
def Abs.Executing (a : Abs) (r : Req) : Prop := r ∈ a.waiting ∨ ∃ p, a.act = .exec r p

/-- **On whose behalf a register is accessed**: for the cleanup list of the owner of the claim, or
for a request that is being executed and may access registers. -/
lemma Step.access_inv {rst : Bool} {a a' : Abs} {x : Access} (h : Step rst a (.access x) a')
    (hb : Basics a) :
    x.owner = a.claim.owner ∧ x.inflight = a.inflight ∧
      ((∃ rid c op todo, a.act = .cleaning rid c (op :: todo) ∧ x.agent = .cleanup rid c) ∨
        ∃ r, a.Executing r ∧ r.touches = true ∧ x.agent = r.agent) := by
  cases h with
  | note hn => simp [Event.isNote] at hn
  | cleanupAccess hact _ _ => exact ⟨rfl, rfl, Or.inl ⟨_, _, _, _, hact, rfl⟩⟩
  | access hact ht =>
    obtain ⟨hx, ho, hi⟩ := ht.agent
    exact ⟨ho, hi, Or.inr ⟨_, Or.inr ⟨_, hact⟩, ht.touches (hb.exec _ _ hact), hx⟩⟩
  | doorbell hact =>
    exact ⟨rfl, rfl, Or.inr ⟨_, Or.inr ⟨_, hact⟩,
      Req.touches_of_mailbox (hb.exec _ _ hact rfl).kind, rfl⟩⟩
  | poll hact hw _ =>
    have hm := hb.waiting
    rw [hw] at hm
    exact ⟨rfl, rfl, Or.inr ⟨_, Or.inl (by rw [hw]; exact List.mem_cons_self),
      Req.touches_of_mailbox (hm _ List.mem_cons_self).kind, rfl⟩⟩
  | wake hact hw hk =>
    obtain ⟨hx, ho, hi⟩ := hk.agent
    have hm := hb.waiting
    rw [hw] at hm
    exact ⟨ho, hi, Or.inr ⟨_, Or.inl (by rw [hw]; exact List.mem_cons_self),
      Req.touches_of_mailbox (hm _ List.mem_cons_self).kind, hx⟩⟩

end Spid

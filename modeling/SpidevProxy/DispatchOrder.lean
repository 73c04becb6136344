import SpidevProxy.ProgramOrder

set_option relaxedAutoImplicit false
set_option autoImplicit false

/-!
# The order of dispatch

`drain_queues` looks for the first eligible item, queue by queue. Whatever it passes over is held
back by a foreign claim. Among requests that are eligible the order is therefore by priority class,
and first in, first out within a class.

## Main definitions

* `Spid.Entry.gated` — the types that a foreign claim holds back.
* `Spid.Ahead` — a request that should be picked before another one.

## Main results

* `Spid.Run.held_back` — a request that is passed over is held back by a foreign claim.
* `Spid.dispatch_order` — the order of dispatch in every run.
-/

namespace Spid

open History

/-! ## Eligibility -/

/-- The types that a foreign claim holds back: those below `CLAIM`, and `MAILBOX`. -/
def Entry.gated (e : Entry) : Bool :=
  e.hdr.type < MsgType.claim.code || e.hdr.type = MsgType.mailbox.code

/-- What is not eligible is held back by the claim of another client. -/
lemma eligible_eq_false {owner : Option Slot} {e : Entry} :
    eligible owner e = false ↔ ∃ c, owner = some c ∧ c ≠ e.c ∧ e.gated = true := by
  have hg : (decide (MsgType.claim.code ≤ e.hdr.type) &&
      decide (e.hdr.type ≠ MsgType.mailbox.code)) = !e.gated := by
    rw [Entry.gated, Bool.not_or, ← decide_not, ← decide_not]
    simp only [UInt8.not_lt, ne_eq]
  cases owner with
  | none => simp [eligible]
  | some c =>
    rw [eligible, hg]
    simp

/-- Eligibility depends on the client and on being gated. -/
lemma eligible_congr {owner : Option Slot} {x y : Entry} (hc : x.c = y.c)
    (hg : x.gated = y.gated) : eligible owner x = eligible owner y := by
  rw [Bool.eq_iff_iff, ← not_iff_not, Bool.not_eq_true, Bool.not_eq_true, eligible_eq_false,
    eligible_eq_false, hc, hg]

/-! ## What is passed over -/

/-- In the history `es`, request `x` was enqueued before request `y`. -/
def EnqueuedBefore (es : List Event) (x y : Entry) : Prop :=
  ∃ p₁ p₂ p₃ b b' o o', es = p₁ ++ .enqueue x b o :: (p₂ ++ .enqueue y b' o' :: p₃)

/-- Request `x` should be picked before `y`: it has a higher class, or the same class and an earlier
place in the queue. -/
def Ahead (es : List Event) (x y : Entry) : Prop :=
  x.hdr.prio < y.hdr.prio ∨ x.hdr.prio = y.hdr.prio ∧ EnqueuedBefore es x y

/-- Numbers grow in the order of arrival. -/
lemma EnqueuedBefore.rid_lt {rst : Bool} {es : List Event} {a : Abs} {x y : Entry}
    (h : EnqueuedBefore es x y) (hr : Run rst es a) : x.rid < y.rid := by
  obtain ⟨p₁, p₂, p₃, b, b', o, o', rfl⟩ := h
  rw [← List.cons_append, ← List.append_assoc] at hr
  exact hr.rid_lt (List.mem_append_right _ List.mem_cons_self)

/-- The earlier one was queued. -/
lemma EnqueuedBefore.mem {es : List Event} {x y : Entry} (h : EnqueuedBefore es x y) :
    ∃ b o, Event.enqueue x b o ∈ es := by
  obtain ⟨p₁, p₂, p₃, b, b', o, o', rfl⟩ := h
  exact ⟨b, o, List.mem_append_right _ List.mem_cons_self⟩

section

variable {rst : Bool} {pre : List Event} {t t' : Abs} {y : Entry} {body : List UInt8}
  {owner : Option Slot} {waiting queued : List Entry}

/-- What is picked is eligible. -/
lemma Step.eligible_of_dispatch (h : Step rst t (.dispatch y body owner waiting queued) t') :
    eligible owner y = true := by
  cases h with
  | note hn => simp [Event.isNote] at hn
  | dispatch _ _ hel _ _ => exact hel

/-- **A request that is passed over is held back**: when `y` is picked, what is still queued and
ahead of `y` is not eligible.

**Proof sketch.** In the same class, a request that is ahead is before `y` in the queue, because
queues are sorted by arrival, and the search passed over it; in a class above, the search passed
over the whole queue. Queued requests are in the class that their header says (`Run.fifo`). -/
lemma Run.held_back (h : Run rst pre t)
    (hs : Step rst t (.dispatch y body owner waiting queued) t') {x : Entry} (hx : x ∈ queued)
    (ha : Ahead pre x y) : eligible owner x = false := by
  have hf := Run.fifo h
  cases hs with
  | note hn => simp [Event.isNote] at hn
  | @dispatch q before after r hact hq _ hpre hlt =>
    have hr : r.hdr.prio = q := hf.prio q r (by rw [hq]; simp)
    obtain ⟨r', hr', rfl⟩ := List.mem_map.mp hx
    obtain ⟨q', hq'⟩ := Abs.mem_queued.mp hr'
    dsimp only at hq'
    by_cases hqq : q' = q
    · -- the same class: it arrived later, or was looked at before
      subst hqq
      rw [Function.update_self] at hq'
      rcases List.mem_append.mp hq' with hmem | hmem
      · exact hpre r' hmem
      · have hsorted := hf.sorted q'
        rw [hq] at hsorted
        have hle : r.rid < r'.rid :=
          (List.pairwise_cons.mp (List.pairwise_append.mp hsorted).2.1).1 r' hmem
        have hr'q : r'.hdr.prio = q' := hf.prio q' r' (by rw [hq]; simp [hmem])
        rcases ha with ha | ⟨-, ha⟩
        · rw [hr'q, hr] at ha
          exact absurd ha (lt_irrefl _)
        · have hlt' := ha.rid_lt h
          omega
    · -- another class: only those above were searched
      rw [Function.update_of_ne hqq] at hq'
      have hr'q : r'.hdr.prio = q' := hf.prio q' r' hq'
      rcases ha with ha | ⟨ha, -⟩
      · rw [hr'q, hr] at ha
        exact hlt q' ha r' hq'
      · rw [hr'q, hr] at ha
        exact absurd ha hqq

end

/-! ## What is picked later -/

/-- From a point on, number `n` is neither queued nor picked. -/
structure Unqueued (n : ℕ) (es : List Event) (a : Abs) : Prop where
  lt : n < a.nRecv
  received : ∀ {rid c msg}, a.act = .received rid c msg → rid ≠ n
  queued : ∀ r ∈ a.queued, r.rid ≠ n
  dispatched : ∀ {en body o w q}, Event.dispatch en body o w q ∈ es → en.rid ≠ n

/-- A number that has left the queues does not come back. -/
lemma Unqueued.step {rst : Bool} {n : ℕ} {es : List Event} {a a' : Abs} {e : Event}
    (h : Unqueued n es a) (hs : Step rst a e a') : Unqueued n (es ++ [e]) a' := by
  constructor
  case lt => exact h.lt.trans_le hs.nRecv_le
  case received =>
    intro rid c msg hact
    rcases hs.received_inv hact with ⟨rfl, -⟩ | ⟨fd, -, hrid⟩
    · exact h.received hact
    · exact hrid ▸ h.lt.ne'
  case queued =>
    intro r hr
    rcases hs.queued_sub hr with hr | ⟨o, rfl⟩
    · exact h.queued r hr
    · obtain ⟨msg, hact, -⟩ := hs.enqueue_inv
      exact h.received hact
  case dispatched =>
    intro en body o w q hm
    rcases List.mem_append.mp hm with hm | hm
    · exact h.dispatched hm
    · obtain rfl := List.mem_singleton.mp hm
      obtain ⟨-, hq, -⟩ := hs.dispatch_inv
      exact h.queued _ hq

/-- **What is not queued is never picked again.** If `x` has been enqueued and is not queued any more
when `y` has been picked, it is not picked after `y`. -/
lemma Run.not_picked_later {rst : Bool} {pre post : List Event} {u : Abs} {x y : Entry}
    {b body : List UInt8} {o owner : Option Slot} {waiting queued : List Entry}
    (h : Run rst (pre ++ .dispatch y body owner waiting queued :: post) u)
    (hx : Event.enqueue x b o ∈ pre) (hq : x ∉ queued) {b' : List UInt8} {o' : Option Slot}
    {w q : List Entry} : Event.dispatch x b' o' w q ∉ post := by
  intro hm
  obtain ⟨t, t', h₀, hs, h₁⟩ := h.split_cons
  have hL := Run.ledger h₀
  have hL' : Ledger (pre ++ [.dispatch y body owner waiting queued]) t' := Run.ledger (h₀.snoc hs)
  obtain ⟨-, -, hact', -, -, -, -, hqueued⟩ := hs.dispatch_inv
  have hk := hL.enqueued hx
  have hnil : Unqueued x.rid [] t' := by
    refine ⟨(hL.known_lt hk).trans_le hs.nRecv_le, fun hact => by simp [hact'] at hact, ?_, by simp⟩
    intro r hr hrid
    obtain rfl : r = ⟨x, b⟩ :=
      hL'.known_unique (hL'.known (List.mem_append_right _ hr)) hk.mono hrid
    exact hq (hqueued ▸ List.mem_map_of_mem hr)
  have hend : Unqueued x.rid post u :=
    Steps.invariant (P := Unqueued x.rid) hnil (fun _ _ _ _ _ hi hs => hi.step hs) h₁
  exact hend.dispatched hm rfl

/-- **The order of dispatch.** Whenever a request `y` is picked, every request `x` still queued that
is ahead of `y` is held back: another client holds the claim, and the type of `x` is `MAILBOX` or below
`CLAIM`. Hence a request that is ahead of `y` and eligible at that moment has left the queues and is
not picked after `y`; and an earlier request of the same client and class that is gated like `y` is
not picked after `y` either. -/
theorem dispatch_order {env : Env} {cfg : Config} {g : Daemon} (h : Reachable env cfg g)
    {pre post : List Event} {y : Entry} {body : List UInt8} {owner : Option Slot}
    {waiting queued : List Entry}
    (he : g.evs = pre ++ .dispatch y body owner waiting queued :: post) :
    (∀ x ∈ queued, Ahead pre x y → ∃ c, owner = some c ∧ c ≠ x.c ∧
      (x.hdr.type = MsgType.mailbox.code ∨ x.hdr.type < MsgType.claim.code)) ∧
    (∀ x b o, Event.enqueue x b o ∈ pre → Ahead pre x y → eligible owner x = true →
      x ∉ queued ∧ ∀ b' o' w q, Event.dispatch x b' o' w q ∉ post) ∧
    (∀ x, EnqueuedBefore pre x y → x.c = y.c → x.hdr.prio = y.hdr.prio → x.gated = y.gated →
      ∀ b o w q, Event.dispatch x b o w q ∉ post) := by
  have hrun := h.good.run
  rw [he] at hrun
  obtain ⟨t, t', h₀, hs, -⟩ := hrun.split_cons
  -- what is ahead and eligible is not passed over
  have hpast : ∀ x b o, Event.enqueue x b o ∈ pre → Ahead pre x y → eligible owner x = true →
      x ∉ queued ∧ ∀ b' o' w q, Event.dispatch x b' o' w q ∉ post := by
    intro x b o hx ha hel
    have hq : x ∉ queued := fun hq => by
      rw [Run.held_back h₀ hs hq ha] at hel
      exact Bool.false_ne_true hel
    exact ⟨hq, fun b' o' w q => hrun.not_picked_later hx hq⟩
  refine ⟨fun x hx ha => ?_, hpast, fun x hb hc hp hg b o w q => ?_⟩
  · obtain ⟨c, ho, hc, hg⟩ := eligible_eq_false.mp (Run.held_back h₀ hs hx ha)
    refine ⟨c, ho, hc, ?_⟩
    simp only [Entry.gated, Bool.or_eq_true, decide_eq_true_eq] at hg
    exact hg.symm
  · obtain ⟨b₀, o₀, hx⟩ := hb.mem
    have hel : eligible owner x = true := (eligible_congr hc hg).trans hs.eligible_of_dispatch
    exact (hpast x b₀ o₀ hx (Or.inr ⟨hp, hb⟩) hel).2 b o w q

/-- A `READ` of register 0 with these flags. -/
def readAs (flags : UInt16) : List UInt8 :=
  datagram .read flags 2 [0, 0, 0x1e, 0, 0, 0, 0, 0, 0, 0, 0, 0]

/-- Client 0 claims the device; then client 1 sends a `READ` of high priority and client 0 one of low
priority. -/
def readOverClaim : Daemon :=
  run Env.ticking Config.plain
    (connects [(7, ['a']), (8, ['b'])] ++
      [⟨[.client 0 (datagram .claim 0 1 [0xff, 0xff, 0xff, 0, 0, 0, 0, 0])], 64⟩, .none, .none,
      ⟨[.client 1 (readAs 1), .client 0 (readAs 2)], 64⟩, .none])

/-- The theorem at a run in which the `READ` of high priority is passed over. -/
theorem dispatch_order_readOverClaim :
    ∃ pre y body owner waiting queued post,
      readOverClaim.evs = pre ++ .dispatch y body owner waiting queued :: post ∧
      ∃ x ∈ queued, Ahead pre x y ∧ ∃ c, owner = some c ∧ c ≠ x.c ∧
        (x.hdr.type = MsgType.mailbox.code ∨ x.hdr.type < MsgType.claim.code) := by
  have he : readOverClaim.evs = readOverClaim.evs.take 11 ++
      .dispatch ⟨2, 0, Hdr.decode (readAs 2)⟩ ((readAs 2).drop hdrSize) (some 0) []
        [⟨1, 1, Hdr.decode (readAs 1)⟩] :: readOverClaim.evs.drop 12 := by decide +kernel
  have ha : Ahead (readOverClaim.evs.take 11) ⟨1, 1, Hdr.decode (readAs 1)⟩
      ⟨2, 0, Hdr.decode (readAs 2)⟩ := Or.inl (by decide)
  exact ⟨_, _, _, _, _, _, _, he, _, List.mem_singleton_self _, ha,
    (dispatch_order (Reachable.run _ _ _) he).1 _ (List.mem_singleton_self _) ha⟩

end Spid

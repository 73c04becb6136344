import SpidevProxy.Facts
import SpidevProxy.Refinement

set_option relaxedAutoImplicit false
set_option autoImplicit false

/-!
# Claim exclusivity

While a client holds the claim, registers are accessed for that client only, provided that no claim
is granted over the waiting mailbox call of another client. Eligibility is checked when a request is
picked, but a mailbox call goes on accessing registers while it waits, and a `CLAIM` picked during
that wait is granted at once.

## Main definitions

* `Spid.grantAlone` — a `CLAIM` that can be granted is picked with no mailbox call of another client
  waiting.
* `Spid.Exclusive` — what then holds in every state of the protocol.

## Main results

* `Spid.claim_exclusive` — every register access made while the claim is held is made for its
  owner.
-/

namespace Spid

open History

/-- When a `CLAIM` that can be granted is picked, all waiting mailbox calls are its own client's. -/
def grantAlone : Event → Bool
  | .dispatch e body owner waiting _ =>
    if e.kind = some .claim ∧ Req.sized ⟨e, body⟩ = true ∧ (owner = none ∨ owner = some e.c) then
      waiting.all fun w => w.c = e.c
    else true
  | _ => true

/-- Everything in progress that may access registers belongs to the owner of the claim, and a
`CLAIM` about to be granted finds only its own client's mailbox calls waiting. -/
structure Exclusive (a : Abs) : Prop where
  waiting : ∀ c, a.claim.owner = some c → ∀ r ∈ a.waiting, r.c = c
  exec : ∀ c r p, a.claim.owner = some c → a.act = .exec r p → r.touches = true → r.c = c
  granting : ∀ r, a.act = .exec r (.ops [] .ok) → r.kind = some .claim → r.sized = true →
    (a.claim.owner = none ∨ a.claim.owner = some r.c) → ∀ w ∈ a.waiting, w.c = r.c

namespace Exclusive

variable {rst : Bool} {a a' : Abs} {r : Req} {p : Progress}

/-- At the start no one holds the claim. -/
lemma init : Exclusive Abs.init := by
  constructor <;> simp [Abs.init]

/-- Nothing that touches registers is at work. -/
lemma of_notExec (hact : ∀ r p, a.act ≠ .exec r p)
    (hw : ∀ c, a.claim.owner = some c → ∀ r ∈ a.waiting, r.c = c) : Exclusive a :=
  ⟨hw, fun _ r p _ h => absurd h (hact r p), fun r h => absurd h (hact r _)⟩

/-- A request is at work that is past the point of being granted a claim. -/
lemma of_exec (hact : a.act = .exec r p) (hp : p ≠ .ops [] .ok)
    (hw : ∀ c, a.claim.owner = some c → ∀ r ∈ a.waiting, r.c = c)
    (hr : ∀ c, a.claim.owner = some c → r.touches = true → r.c = c) : Exclusive a := by
  refine ⟨hw, fun c r' p' ho h ht => ?_, fun r' h => ?_⟩
  · rw [hact, Activity.exec.injEq] at h
    obtain ⟨rfl, rfl⟩ := h
    exact hr c ho ht
  · rw [hact, Activity.exec.injEq] at h
    exact absurd h.2 hp

/-- The cleanup list is run outside every mailbox call. -/
lemma of_cleaning (hw : a.waiting = []) (rid : ℕ) (c : Slot) (todo : List Op) :
    Exclusive (a.cleaning rid c todo) := by
  cases todo with
  | nil => exact Exclusive.of_notExec (by simp [Abs.cleaning]) (by simp [Abs.cleaning, hw])
  | cons op todo => exact Exclusive.of_notExec (by simp [Abs.cleaning]) (by simp [Abs.cleaning, hw])

end Exclusive

/-- Every transition keeps exclusivity, if a `CLAIM` is picked as `grantAlone` demands.

**Proof sketch.** Case analysis of the step. When a request is picked, eligibility was just
checked, and `grantAlone` says who waits while a `CLAIM` is at work; the doorbell moves the request
at work to those that wait, and waking moves it back; a grant relies on the clause about the
`CLAIM` at work; everything else keeps the owner, or leaves no one at work. -/
lemma Exclusive.step {rst : Bool} {a a' : Abs} {e : Event} (h : Exclusive a) (hb : Basics a)
    (hs : Step rst a e a') (he : grantAlone e = true) : Exclusive a' := by
  cases hs with
  | note _ => exact h
  | connect hact _ _ => exact Exclusive.of_notExec (by simp [hact]) h.waiting
  | disconnect hact _ _ _ => exact Exclusive.of_notExec (by simp [hact]) h.waiting
  | recv _ _ _ _ => exact Exclusive.of_notExec (by simp) h.waiting
  | reject _ _ _ => exact Exclusive.of_notExec (by simp) h.waiting
  | enqueue _ _ => exact Exclusive.of_notExec (by simp) h.waiting
  | claimEnd _ hw _ _ => exact Exclusive.of_cleaning hw _ _ _
  | cleanupAccess hact _ _ => exact Exclusive.of_cleaning (hb.cleaning _ _ _ hact).1 _ _ _
  | cleanupRefused hact _ => exact Exclusive.of_cleaning (hb.cleaning _ _ _ hact).1 _ _ _
  | dispatch hact _ hr _ _ =>
    refine ⟨h.waiting, fun c r' p' ho h' ht => ?_, fun r' h' hk hs ho w hw => ?_⟩
    · -- eligibility was checked just now
      simp only [Activity.exec.injEq] at h'
      obtain ⟨rfl, rfl⟩ := h'
      rw [show a.claim.owner = some c from ho] at hr
      exact client_eq_of_eligible hr ht
    · simp only [Activity.exec.injEq, and_true] at h'
      subst h'
      rw [grantAlone, if_pos ⟨hk, hs, ho⟩] at he
      have hall := List.all_eq_true.mp he w.toEntry (List.mem_map_of_mem hw)
      simpa using hall
  | access hact ht =>
    exact Exclusive.of_exec rfl ht.ne_start h.waiting fun c ho htc => h.exec c _ _ ho hact htc
  | doorbell hact =>
    refine Exclusive.of_notExec (by simp) fun c ho r hr => ?_
    rcases List.mem_cons.mp hr with rfl | hr
    · exact h.exec c _ _ ho hact (Req.touches_of_mailbox (hb.exec _ _ hact rfl).kind)
    · exact h.waiting c ho r hr
  | poll _ _ _ => exact h
  | wake _ hw hk =>
    have hwait := h.waiting
    rw [hw] at hwait
    exact Exclusive.of_exec rfl hk.ne_start (fun c ho r hr => hwait c ho r (List.mem_cons_of_mem _ hr))
      fun c ho _ => hwait c ho _ List.mem_cons_self
  | refused hact _ _ _ _ =>
    exact Exclusive.of_exec rfl (by simp) h.waiting fun c ho ht => h.exec c _ _ ho hact ht
  | mbSet hact => exact Exclusive.of_exec rfl (by simp) h.waiting fun c ho ht => h.exec c _ _ ho hact ht
  | mbClear hact => exact Exclusive.of_exec rfl (by simp) h.waiting fun c ho ht => h.exec c _ _ ho hact ht
  | grant hact hk hs ho =>
    refine Exclusive.of_exec rfl (by simp) (fun c hc r hr => ?_) fun c hc _ => Option.some.inj hc
    rw [← Option.some.inj hc]
    exact h.granting _ hact hk hs ho r hr
  | release _ _ _ => exact Exclusive.of_exec rfl (by simp) (by simp [Abs.ended]) (by simp [Abs.ended])
  | reset hact _ _ _ =>
    exact Exclusive.of_exec rfl (by simp) h.waiting fun c ho ht => h.exec c _ _ ho hact ht
  | send _ _ _ => exact Exclusive.of_notExec (by simp) h.waiting

/-- **Claim exclusivity.** If no claim is granted over the waiting mailbox call of another client,
every register access made while a client holds the claim is made for that client. -/
theorem claim_exclusive {env : Env} {cfg : Config} {g : Daemon} (h : Reachable env cfg g)
    (hq : ∀ e ∈ g.evs, grantAlone e = true) (x : Access) (hx : Event.access x ∈ g.evs) (c : Slot)
    (ho : x.owner = some c) : x.agent.client = c := by
  have key : Exclusive (g.abs g.waitingPtrs .idle) ∧
      ∀ x, Event.access x ∈ g.evs → ∀ c, x.owner = some c → x.agent.client = c := by
    refine Steps.invariant_on (P := fun es a => Exclusive a ∧
      ∀ x, Event.access x ∈ es → ∀ c, x.owner = some c → x.agent.client = c)
      ⟨Exclusive.init, by simp⟩ (fun es a e a' hr hi hs he => ?_) h.good.run hq
    have hb := Run.basics hr
    refine ⟨hi.1.step hb hs he, fun x hx c ho => ?_⟩
    rcases List.mem_append.mp hx with hx | hx
    · exact hi.2 x hx c ho
    · obtain rfl := List.mem_singleton.mp hx
      obtain ⟨howner, -, hcase⟩ := hs.access_inv hb
      rw [howner] at ho
      rcases hcase with ⟨rid, d, op, todo, hact, hag⟩ | ⟨r, hr | ⟨p, hact⟩, ht, hag⟩
      · -- the cleanup list of the owner
        rw [hag]
        exact Option.some.inj ((hb.cleaning _ _ _ hact).2.2.1.symm.trans ho)
      · rw [hag]
        exact hi.1.waiting c ho r hr
      · rw [hag]
        exact hi.1.exec c r p ho hact ht
  exact key.2 x hx c ho

/-- Client 0 claims the device and reads a register. -/
def claimThenRead : Daemon :=
  run (Env.still 0) Config.plain
    (connects [(7, ['a'])] ++
      [⟨[.client 0 (datagram .claim 0 1 [0xe8, 3, 0, 0, 0, 0, 0, 0])], 64⟩, .none, .none,
      ⟨[.client 0 (datagram .read 0 2 [0, 0, 0x1e, 0, 0, 0, 0, 0, 0, 0, 0, 0])], 64⟩, .none])

/-- The theorem at a run in which the claim is held: the `READ` of its owner is executed. -/
theorem claim_exclusive_claimThenRead :
    (∀ e ∈ claimThenRead.evs, grantAlone e = true) ∧
      Event.access ⟨.request 1 0, false, 0, 0x1e, 0, 0, true, some 0, false⟩ ∈ claimThenRead.evs ∧
      Agent.client (.request 1 0) = 0 := by
  have hq : ∀ e ∈ claimThenRead.evs, grantAlone e = true := by decide +kernel
  have hx : Event.access ⟨.request 1 0, false, 0, 0x1e, 0, 0, true, some 0, false⟩ ∈
      claimThenRead.evs := by decide +kernel
  exact ⟨hq, hx, claim_exclusive (Reachable.run _ _ _) hq _ hx 0 rfl⟩

/-- Client 0 sends a `MAILBOX` and client 1 a `CLAIM`, and the device does not answer the mailbox
command. The claim is granted inside the wait of client 0's mailbox call. -/
def claimDuringMailbox : Daemon :=
  run (Env.still 0) Config.plain
    (connects [(7, ['a']), (8, ['b'])] ++
      [⟨[.client 0 (datagram .mailbox 0 1 [0, 5, 0, 0, 0, 0, 0, 0]),
        .client 1 (datagram .claim 0 1 [0xe8, 3, 0, 0, 0, 0, 0, 0])], 64⟩,
      .none, .none, .none, .none, .none])

/-- **Exclusivity fails** without the condition: client 0's mailbox call polls `MB_FLAG` while
client 1 holds the claim. -/
theorem claim_not_exclusive :
    Reachable (Env.still 0) Config.plain claimDuringMailbox ∧
      ∃ x c, Event.access x ∈ claimDuringMailbox.evs ∧ x.owner = some c ∧ x.agent.client ≠ c := by
  refine ⟨Reachable.run _ _ _,
    ⟨.request 0 0, false, 0, mmdGlobal, mbFlag, 0, true, some 1, true⟩, 1, ?_, rfl, by decide⟩
  decide +kernel

end Spid

import SpidevProxy.Lib.History
import SpidevProxy.Registers

set_option relaxedAutoImplicit false
set_option autoImplicit false

/-!
# The life of a claim

What a claim is for, as a transition system of its own: nobody holds the claim, or a client holds it
with a deadline and a cleanup list, or the cleanup list of a claim that has ended is being run.
While a cleanup list is run nothing else happens. What clients may rely on when a claim ends is
proved here from these transitions alone.

## Main definitions

* `Spid.claimAfter` — the claim in force after a history.
* `Spid.Attempt` — the events by which a cleanup operation is attempted.
* `Spid.Phase`, `Spid.Life` — the states and the transitions of the claim.

## Main results

* `Spid.Life.cleanup_block` — the cleanup list is run at once, in order and without interruption.
* `Spid.Life.claimEnd_once` — a claim ends once, and no cleanup operation of it is attempted
  otherwise.
* `Spid.Life.same_client_of_grant` — the claim passes to another client only after it has ended.
-/

namespace Spid

open History

/-! ## Histories -/

/-- The claim in force after a history: the `CLAIM` granted last, its deadline and its cleanup list,
unless it has ended since. -/
def claimAfter (es : List Event) : Option (Entry × UInt64 × List Op) :=
  es.foldl (fun cl e => match e with
    | .grant en d ops => some (en, d, ops)
    | .claimEnd _ _ _ => none
    | _ => cl) none

/-- The numbers of the requests to which a claim was granted. -/
def grants (es : List Event) : List ℕ :=
  es.filterMap fun e => match e with
    | .grant en _ _ => some en.rid
    | _ => none

/-- An event by which the operation `op` is attempted for the cleanup list of the claim granted to
request `rid` of client `c`: an access outside every mailbox transaction, or a refusal. -/
inductive Attempt (rid : ℕ) (c : Slot) (op : Op) : Event → Prop
  | access {x : Access} (hx : x.agent = .cleanup rid c) (hop : x.Performs op)
      (hi : x.inflight = false) : Attempt rid c op (.access x)
  | refused {st : Status} : Attempt rid c op (.refused (.cleanup rid c) op st)

/-- The claim for whose cleanup list an operation is attempted. -/
def Agent.claim : Agent → Option ℕ
  | .cleanup rid _ => some rid
  | _ => none

/-- The claim for whose cleanup list an event attempts an operation. -/
def Event.cleanupFor : Event → Option ℕ
  | .access x => x.agent.claim
  | .refused agent _ _ => agent.claim
  | _ => none

/-- A claim is granted or ends. -/
def Event.turnsClaim : Event → Bool
  | .grant _ _ _ | .claimEnd _ _ _ => true
  | _ => false

/-- The events of the life of a claim. -/
def Event.ofClaim (e : Event) : Bool := e.turnsClaim || e.cleanupFor.isSome

/-- A note has nothing to do with the claim. -/
lemma Event.ofClaim_of_isNote {e : Event} (h : e.isNote = true) : e.ofClaim = false := by
  cases e <;> simp [Event.isNote] at h <;> rfl

/-- An attempt of a cleanup list is made for its claim. -/
lemma Attempt.cleanupFor {rid : ℕ} {c : Slot} {op : Op} {e : Event} (h : Attempt rid c op e) :
    e.cleanupFor = some rid := by
  cases h with
  | access hx => simp [Event.cleanupFor, hx, Agent.claim]
  | refused => rfl

/-- It neither grants nor ends one. -/
lemma Event.turnsClaim_of_cleanupFor {e : Event} {rid : ℕ} (h : e.cleanupFor = some rid) :
    e.turnsClaim = false := by
  cases e <;> simp [Event.cleanupFor] at h <;> rfl

/-- Only a grant or an end changes the claim in force. -/
lemma claimAfter_snoc {e : Event} (h : e.turnsClaim = false) (es : List Event) :
    claimAfter (es ++ [e]) = claimAfter es := by
  rw [claimAfter, List.foldl_append, ← claimAfter]
  cases e <;> simp [Event.turnsClaim] at h <;> rfl

/-- The claim stays while it is neither granted nor ended. -/
lemma claimAfter_append {es es' : List Event} (h : ∀ e ∈ es', e.turnsClaim = false) :
    claimAfter (es ++ es') = claimAfter es := by
  induction es' using List.reverseRecOn with
  | nil => rw [List.append_nil]
  | append_singleton es' e ih =>
    rw [← List.append_assoc, claimAfter_snoc (h e (by simp))]
    exact ih fun e he => h e (List.mem_append_left _ he)

/-- A claim that has just been granted is held. -/
lemma claimAfter_grant (es : List Event) (en : Entry) (d : UInt64) (ops : List Op) :
    claimAfter (es ++ [.grant en d ops]) = some (en, d, ops) := by
  rw [claimAfter, List.foldl_append]
  rfl

/-- One that has just ended is not. -/
lemma claimAfter_claimEnd (es : List Event) (rid : ℕ) (c : Slot) (how : ClaimEnd) :
    claimAfter (es ++ [.claimEnd rid c how]) = none := by
  rw [claimAfter, List.foldl_append]
  rfl

/-- The claim in force was granted. -/
lemma grant_mem_of_claimAfter {es : List Event} {en : Entry} {d : UInt64} {ops : List Op}
    (h : claimAfter es = some (en, d, ops)) : Event.grant en d ops ∈ es := by
  induction es using List.reverseRecOn with
  | nil => simp [claimAfter] at h
  | append_singleton es e ih =>
    rw [List.mem_append]
    cases ht : e.turnsClaim with
    | false => exact Or.inl (ih (by rwa [claimAfter_snoc ht] at h))
    | true =>
      cases e with
      | grant en' d' ops' =>
        rw [claimAfter_grant] at h
        simp only [Option.some.injEq, Prod.mk.injEq] at h
        obtain ⟨rfl, rfl, rfl⟩ := h
        exact Or.inr (List.mem_singleton_self _)
      | claimEnd rid c how => simp [claimAfter_claimEnd] at h
      | _ => simp [Event.turnsClaim] at ht

/-- The numbers of the requests that were granted. -/
lemma mem_grants {es : List Event} {rid : ℕ} :
    rid ∈ grants es ↔ ∃ en d ops, Event.grant en d ops ∈ es ∧ en.rid = rid := by
  rw [grants, List.mem_filterMap]
  constructor
  · rintro ⟨e, he, h⟩
    cases e with
    | grant en d ops => exact ⟨en, d, ops, he, by simpa using h⟩
    | _ => simp at h
  · rintro ⟨en, d, ops, he, rfl⟩
    exact ⟨_, he, rfl⟩

/-- An event that is not a grant adds none, -/
lemma grants_snoc {e : Event} (h : e.turnsClaim = false) (es : List Event) :
    grants (es ++ [e]) = grants es := by
  refine filterMap_snoc_none ?_ es
  cases e <;> simp [Event.turnsClaim] at h <;> rfl

/-- a grant adds one, -/
lemma grants_grant (es : List Event) (en : Entry) (d : UInt64) (ops : List Op) :
    grants (es ++ [.grant en d ops]) = grants es ++ [en.rid] := by
  simp [grants]

/-- and the end of a claim adds none. -/
lemma grants_claimEnd (es : List Event) (rid : ℕ) (c : Slot) (how : ClaimEnd) :
    grants (es ++ [.claimEnd rid c how]) = grants es := by
  simp [grants]

/-- An event that does not end the claim is not its end. -/
lemma claimEnd_mem_snoc {e : Event} (h : e.turnsClaim = false) {es : List Event} {rid : ℕ}
    {c : Slot} {how : ClaimEnd} :
    Event.claimEnd rid c how ∈ es ++ [e] ↔ Event.claimEnd rid c how ∈ es := by
  rw [List.mem_append, List.mem_singleton, or_iff_left]
  rintro rfl
  simp [Event.turnsClaim] at h

/-! ## States and transitions -/

/-- The states of the claim. -/
inductive Phase
  | free
  | held (rid : ℕ) (c : Slot) (deadline : UInt64) (cleanup : List Op)
  | cleaning (rid : ℕ) (c : Slot) (op : Op) (todo : List Op)

namespace Phase

/-- The state with the operations `todo` of a cleanup list left. -/
def clean (rid : ℕ) (c : Slot) : List Op → Phase
  | [] => .free
  | op :: todo => .cleaning rid c op todo

/-- A cleanup list is being run. -/
def busy : Phase → Bool
  | .cleaning _ _ _ _ => true
  | _ => false

end Phase

/-- **The life of a claim.** -/
inductive Life : Phase → Event → Phase → Prop
  | note {s : Phase} {e : Event} (h : e.isNote = true) : Life s e s
  /-- What else happens does not concern the claim, and waits until a cleanup list is finished. -/
  | other {s : Phase} {e : Event} (hs : s.busy = false) (he : e.ofClaim = false) : Life s e s
  | grant {en : Entry} {d : UInt64} {ops : List Op} :
      Life .free (.grant en d ops) (.held en.rid en.c d ops)
  /-- The owner claims again. -/
  | renew {en : Entry} {rid : ℕ} {d d' : UInt64} {ops ops' : List Op} :
      Life (.held rid en.c d ops) (.grant en d' ops') (.held en.rid en.c d' ops')
  | release {rid : ℕ} {c : Slot} {d : UInt64} {ops : List Op} :
      Life (.held rid c d ops) (.claimEnd rid c .release) .free
  | abnormal {rid : ℕ} {c : Slot} {d : UInt64} {ops : List Op} {how : ClaimEnd}
      (hh : how.abnormal = true) :
      Life (.held rid c d ops) (.claimEnd rid c how) (.clean rid c ops)
  | attempt {rid : ℕ} {c : Slot} {op : Op} {todo : List Op} {e : Event} (h : Attempt rid c op e) :
      Life (.cleaning rid c op todo) e (.clean rid c todo)

namespace Life

/-- **The cleanup list is run at once**, operation by operation, in order and without anything else
in between.

**Proof sketch.** Induction on the history. A log line joins the block, an attempt consumes the
next operation, and nothing else can happen while operations are left; the run does not stop in the
middle of the list. -/
theorem cleanup_block {rid : ℕ} {c : Slot} {u : Phase} (hu : u.busy = false) :
    ∀ {es : List Event} {todo : List Op}, Steps Life (.clean rid c todo) es u →
      ∃ blk rest, es = blk ++ rest ∧
        List.Forall₂ (Attempt rid c) todo (blk.filter fun e => !e.isNote) ∧
        Steps Life (.clean rid c todo) blk .free ∧ Steps Life .free rest u := by
  intro es
  induction es with
  | nil =>
    intro todo h
    cases todo with
    | nil => exact ⟨[], [], rfl, List.Forall₂.nil, Steps.nil _, h⟩
    | cons op todo =>
      -- the run cannot stop here, in the middle of the list
      rw [h.nil_inv] at hu
      exact absurd hu (by simp [Phase.clean, Phase.busy])
  | cons e es ih =>
    intro todo h
    cases todo with
    | nil => exact ⟨[], e :: es, rfl, List.Forall₂.nil, Steps.nil _, h⟩
    | cons op todo =>
      obtain ⟨t, hs, h₁⟩ := h.cons_inv
      rw [Phase.clean] at hs
      cases hs with
      | note hn =>
        have h₂ : Steps Life (.clean rid c (op :: todo)) es u := h₁
        obtain ⟨blk, rest, rfl, hblk, hrun, hrest⟩ := ih h₂
        exact ⟨e :: blk, rest, rfl, by simpa [hn] using hblk, .cons (.note hn) hrun, hrest⟩
      | other hb _ => exact absurd hb (by simp [Phase.busy])
      | attempt ha =>
        obtain ⟨blk, rest, rfl, hblk, hrun, hrest⟩ := ih h₁
        have hn : e.isNote = false := by cases ha <;> rfl
        refine ⟨e :: blk, rest, rfl, ?_, .cons (.attempt ha) hrun, hrest⟩
        simpa [hn] using And.intro ha hblk

/-- What a history tells about the state of the claim: the claim in force is the one held, what has
ended was granted and, if claims are granted to different requests, is not held any more, and
cleanup operations are attempted for claims that have ended. -/
structure Tracks (es : List Event) (s : Phase) : Prop where
  held : ∀ {rid c d ops}, s = .held rid c d ops →
    ∃ en : Entry, claimAfter es = some (en, d, ops) ∧ en.rid = rid ∧ en.c = c
  notHeld : (∀ rid c d ops, s ≠ .held rid c d ops) → claimAfter es = none
  cleaning : ∀ {rid c op todo}, s = .cleaning rid c op todo →
    ∃ how, Event.claimEnd rid c how ∈ es
  granted : ∀ {rid c how}, Event.claimEnd rid c how ∈ es → rid ∈ grants es
  attempted : ∀ {e rid}, e ∈ es → e.cleanupFor = some rid → ∃ c how, Event.claimEnd rid c how ∈ es
  past : (grants es).Nodup → ∀ {rid c how}, Event.claimEnd rid c how ∈ es →
    ∀ c' d ops, s ≠ .held rid c' d ops

namespace Tracks

variable {es : List Event} {s s' : Phase} {e : Event}

/-- An event between a grant and the next end, or between an end and the next grant.

**Proof sketch.** One field at a time. The event turns no claim, so the claim in force and the
grants are what they were before; what has ended before has still ended. -/
lemma quiet (h : Tracks es s) (ht : e.turnsClaim = false)
    (hheld : ∀ {rid c d ops}, s' = .held rid c d ops ↔ s = .held rid c d ops)
    (hclean : ∀ {rid c op todo}, s' = .cleaning rid c op todo →
      ∃ op' todo', s = .cleaning rid c op' todo')
    (hatt : ∀ {rid}, e.cleanupFor = some rid → ∃ c how, Event.claimEnd rid c how ∈ es) :
    Tracks (es ++ [e]) s' := by
  constructor
  case held =>
    intro rid c d ops hs'
    rw [claimAfter_snoc ht]
    exact h.held (hheld.mp hs')
  case notHeld =>
    intro hn
    rw [claimAfter_snoc ht]
    exact h.notHeld fun rid c d ops hs => hn rid c d ops (hheld.mpr hs)
  case cleaning =>
    intro rid c op todo hs'
    obtain ⟨op', todo', hs⟩ := hclean hs'
    obtain ⟨how, hm⟩ := h.cleaning hs
    exact ⟨how, List.mem_append_left _ hm⟩
  case granted =>
    intro rid c how hm
    rw [grants_snoc ht]
    exact h.granted ((claimEnd_mem_snoc ht).mp hm)
  case attempted =>
    intro e' rid hm he
    have hend : ∃ c how, Event.claimEnd rid c how ∈ es := by
      rcases List.mem_append.mp hm with hm | hm
      · exact h.attempted hm he
      · rw [List.mem_singleton.mp hm] at he
        exact hatt he
    obtain ⟨c, how, hm⟩ := hend
    exact ⟨c, how, List.mem_append_left _ hm⟩
  case past =>
    intro hnd rid c how hm c' d ops hs'
    rw [grants_snoc ht] at hnd
    exact h.past hnd ((claimEnd_mem_snoc ht).mp hm) c' d ops (hheld.mp hs')

/-- A claim is granted. -/
lemma grant (h : Tracks es s) (en : Entry) (d : UInt64) (ops : List Op) :
    Tracks (es ++ [.grant en d ops]) (.held en.rid en.c d ops) := by
  have hend : ∀ {rid c how}, Event.claimEnd rid c how ∈ es ++ [.grant en d ops] →
      Event.claimEnd rid c how ∈ es := by simp
  constructor
  case held =>
    rintro rid c d' ops' ⟨⟩
    exact ⟨en, claimAfter_grant .., rfl, rfl⟩
  case notHeld => exact fun hn => absurd rfl (hn _ _ _ _)
  case cleaning => simp
  case granted =>
    intro rid c how hm
    rw [grants_grant]
    exact List.mem_append_left _ (h.granted (hend hm))
  case attempted =>
    intro e rid hm he
    rcases List.mem_append.mp hm with hm | hm
    · obtain ⟨c, how, hm⟩ := h.attempted hm he
      exact ⟨c, how, List.mem_append_left _ hm⟩
    · rw [List.mem_singleton.mp hm] at he
      exact absurd he (by simp [Event.cleanupFor])
  case past =>
    -- what has ended was granted before, so not to this request
    rintro hnd rid c how hm c' d' ops' ⟨⟩
    rw [grants_grant, List.nodup_append] at hnd
    exact hnd.2.2 _ (h.granted (hend hm)) _ (List.mem_singleton_self _) rfl

/-- The claim ends.

**Proof sketch.** One field at a time. No claim is in force any more; the end that a cleanup goes
back to is the event itself, and it was granted because it was in force. -/
lemma claimEnd {rid : ℕ} {c : Slot} {d : UInt64} {ops : List Op} (h : Tracks es (.held rid c d ops))
    (how : ClaimEnd) (todo : List Op) :
    Tracks (es ++ [.claimEnd rid c how]) (.clean rid c todo) := by
  have hnot : ∀ rid' c' d' ops', Phase.clean rid c todo ≠ .held rid' c' d' ops' := by
    cases todo <;> simp [Phase.clean]
  constructor
  case held => exact fun hs => absurd hs (hnot _ _ _ _)
  case notHeld => exact fun _ => claimAfter_claimEnd ..
  case cleaning =>
    intro rid' c' op todo' hs
    cases todo <;> simp [Phase.clean] at hs
    obtain ⟨rfl, rfl, -, -⟩ := hs
    exact ⟨how, List.mem_append_right _ (List.mem_singleton_self _)⟩
  case granted =>
    intro rid' c' how' hm
    rw [grants_claimEnd]
    rcases List.mem_append.mp hm with hm | hm
    · exact h.granted hm
    · obtain ⟨en, hcl, hrid, -⟩ := h.held rfl
      have hrid' : rid' = rid := by simpa using And.left (Event.claimEnd.inj (List.mem_singleton.mp hm))
      rw [hrid', mem_grants]
      exact ⟨en, d, ops, grant_mem_of_claimAfter hcl, hrid⟩
  case attempted =>
    intro e rid' hm he
    rcases List.mem_append.mp hm with hm | hm
    · obtain ⟨c', how', hm⟩ := h.attempted hm he
      exact ⟨c', how', List.mem_append_left _ hm⟩
    · rw [List.mem_singleton.mp hm] at he
      exact absurd he (by simp [Event.cleanupFor])
  case past => exact fun _ _ _ _ _ => hnot _

/-- Every transition keeps track. -/
lemma step (h : Tracks es s) (hs : Life s e s') : Tracks (es ++ [e]) s' := by
  cases hs with
  | note hn =>
    have he := Event.ofClaim_of_isNote hn
    simp only [Event.ofClaim, Bool.or_eq_false_iff, Option.isSome_eq_false_iff,
      Option.isNone_iff_eq_none] at he
    exact h.quiet he.1 Iff.rfl (fun hs => ⟨_, _, hs⟩) (by simp [he.2])
  | other _ he =>
    simp only [Event.ofClaim, Bool.or_eq_false_iff, Option.isSome_eq_false_iff,
      Option.isNone_iff_eq_none] at he
    exact h.quiet he.1 Iff.rfl (fun hs => ⟨_, _, hs⟩) (by simp [he.2])
  | grant => exact h.grant _ _ _
  | renew => exact h.grant _ _ _
  | release => exact h.claimEnd .release []
  | abnormal _ => exact h.claimEnd _ _
  | @attempt rid c op todo _ ha =>
    refine h.quiet (Event.turnsClaim_of_cleanupFor ha.cleanupFor) ?_ ?_ ?_
    · intro rid c d ops
      cases todo <;> simp [Phase.clean]
    · intro rid' c' op' todo' hs
      cases todo <;> simp [Phase.clean] at hs
      obtain ⟨rfl, rfl, -, -⟩ := hs
      exact ⟨_, _, rfl⟩
    · intro rid' hr
      rw [ha.cleanupFor, Option.some.injEq] at hr
      obtain ⟨how, hm⟩ := h.cleaning rfl
      exact ⟨c, how, hr ▸ hm⟩

end Tracks

/-- The history keeps track of the claim. -/
lemma tracks {es : List Event} {s : Phase} (h : Steps Life .free es s) : Tracks es s := by
  refine Steps.invariant (P := Tracks) ?_ (fun _ _ _ _ _ ht hs => ht.step hs) h
  constructor <;> simp [claimAfter]

/-! ## The end of a claim -/

/-- Which claim a cleanup operation is attempted for. -/
lemma attempt_inv {s s' : Phase} {e : Event} {rid : ℕ} (h : Life s e s')
    (he : e.cleanupFor = some rid) : ∃ c op todo, s = .cleaning rid c op todo := by
  cases h with
  | note hn =>
    have ho := Event.ofClaim_of_isNote hn
    simp [Event.ofClaim, he] at ho
  | other _ ho => simp [Event.ofClaim, he] at ho
  | attempt ha =>
    obtain rfl := Option.some.inj (ha.cleanupFor.symm.trans he)
    exact ⟨_, _, _, rfl⟩
  | _ => simp [Event.cleanupFor] at he

/-- How a cleanup list comes to be run. -/
lemma cleaning_inv {s s' : Phase} {e : Event} {rid : ℕ} {c : Slot} {op : Op} {todo : List Op}
    (h : Life s e s') (hs' : s' = .cleaning rid c op todo) :
    (∃ op' todo', s = .cleaning rid c op' todo') ∨ ∃ d ops, s = .held rid c d ops := by
  cases h with
  | note _ => exact Or.inl ⟨_, _, hs'⟩
  | other _ _ => exact Or.inl ⟨_, _, hs'⟩
  | @abnormal rid c d ops how hh =>
    cases ops <;> simp [Phase.clean] at hs'
    obtain ⟨rfl, rfl, -, -⟩ := hs'
    exact Or.inr ⟨_, _, rfl⟩
  | @attempt rid c op todo _ ha =>
    cases todo <;> simp [Phase.clean] at hs'
    obtain ⟨rfl, rfl, -, -⟩ := hs'
    exact Or.inl ⟨_, _, rfl⟩
  | _ => simp at hs'

/-- While a claim is held, no cleanup operation of it has been attempted. -/
lemma no_attempt_before {es : List Event} {rid : ℕ} {c : Slot} {d : UInt64} {ops : List Op}
    (h : Steps Life .free es (.held rid c d ops)) (hnd : (grants es).Nodup) :
    ∀ e ∈ es, e.cleanupFor ≠ some rid := by
  intro e he hr
  obtain ⟨c', how, hm⟩ := (tracks h).attempted he hr
  exact (tracks h).past hnd hm c d ops rfl

/-- Once a claim has ended and its cleanup list is not being run, no cleanup operation of it is
attempted any more. -/
lemma no_attempt_after {pre es : List Event} {s u : Phase} {rid : ℕ} {c : Slot} {how : ClaimEnd}
    (h₀ : Steps Life .free pre s) (hm : Event.claimEnd rid c how ∈ pre) (hs : s.busy = false)
    (h : Steps Life s es u) (hnd : (grants (pre ++ es)).Nodup) :
    (∀ c op todo, u ≠ .cleaning rid c op todo) ∧ ∀ e ∈ es, e.cleanupFor ≠ some rid := by
  induction h with
  | nil => exact ⟨fun c op todo he => absurd hs (by simp [he, Phase.busy]), by simp⟩
  | @snoc t u es e hr hst ih =>
    rw [← List.append_assoc] at hnd
    have hnd' : (grants (pre ++ es)).Nodup := by
      rw [grants, List.filterMap_append] at hnd
      exact (List.nodup_append.mp hnd).1
    obtain ⟨ih₁, ih₂⟩ := ih hnd'
    refine ⟨fun c' op todo hu => ?_, fun e' he' => ?_⟩
    · rcases hst.cleaning_inv hu with ⟨op', todo', ht⟩ | ⟨d, ops, ht⟩
      · exact ih₁ _ _ _ ht
      · exact (tracks (h₀.trans hr)).past hnd' (List.mem_append_left _ hm) _ _ _ ht
    · rcases List.mem_append.mp he' with he' | he'
      · exact ih₂ e' he'
      · rw [List.mem_singleton.mp he']
        intro hc
        obtain ⟨c', op, todo, ht⟩ := hst.attempt_inv hc
        exact ih₁ _ _ _ ht

/-- **The end of a claim.** What ends is the claim in force. After a release no cleanup operation of
it is attempted; after any other end its cleanup list is run at once, and nothing of it is attempted
before or afterwards.

**Proof sketch.** Split the history at the end. The claim was in force just before it (`tracks`),
with the list that was granted. Nothing is attempted before an end, since grants are not repeated
(`no_attempt_before`); after a release the claim is past, and after any other end the list is run
at once (`cleanup_block`) and the claim is past then (`no_attempt_after`). -/
theorem claimEnd_once {pre post : List Event} {u : Phase} {rid : ℕ} {c : Slot} {how : ClaimEnd}
    (h : Steps Life .free (pre ++ .claimEnd rid c how :: post) u) (hu : u.busy = false)
    (hnd : (grants (pre ++ .claimEnd rid c how :: post)).Nodup) :
    ∃ (en : Entry) (d : UInt64) (ops : List Op), claimAfter pre = some (en, d, ops) ∧
      en.rid = rid ∧ en.c = c ∧
      (how.abnormal = false →
        ∀ e ∈ pre ++ .claimEnd rid c how :: post, e.cleanupFor ≠ some rid) ∧
      (how.abnormal = true → ∃ blk rest, post = blk ++ rest ∧
        List.Forall₂ (Attempt rid c) ops (blk.filter fun e => !e.isNote) ∧
        ∀ e ∈ pre ++ rest, e.cleanupFor ≠ some rid) := by
  obtain ⟨s, s', h₀, hs, h₁⟩ := h.split_cons
  have hnd₀ : (grants pre).Nodup := by
    rw [grants, List.filterMap_append] at hnd
    exact (List.nodup_append.mp hnd).1
  have hend : Event.claimEnd rid c how ∈ pre ++ [.claimEnd rid c how] :=
    List.mem_append_right _ (List.mem_singleton_self _)
  cases hs with
  | note hn => simp [Event.isNote] at hn
  | other _ he => simp [Event.ofClaim, Event.turnsClaim] at he
  | attempt ha => exact absurd ha.cleanupFor (by simp [Event.cleanupFor])
  | @release _ _ d ops =>
    obtain ⟨en, hcl, hrid, hc⟩ := (tracks h₀).held rfl
    refine ⟨en, d, ops, hcl, hrid, hc, fun _ e he => ?_, by simp [ClaimEnd.abnormal]⟩
    have hafter := no_attempt_after (h₀.snoc .release) hend rfl h₁ (by simpa using hnd)
    rcases List.mem_append.mp he with he | he
    · exact no_attempt_before h₀ hnd₀ e he
    · rcases List.mem_cons.mp he with rfl | he
      · simp [Event.cleanupFor]
      · exact hafter.2 e he
  | @abnormal _ _ d ops _ hh =>
    obtain ⟨en, hcl, hrid, hc⟩ := (tracks h₀).held rfl
    refine ⟨en, d, ops, hcl, hrid, hc, by simp [hh], fun _ => ?_⟩
    obtain ⟨blk, rest, rfl, hblk, hrun, hrest⟩ := cleanup_block hu h₁
    have hafter := no_attempt_after ((h₀.snoc (.abnormal hh)).trans hrun)
      (List.mem_append_left _ hend) rfl hrest (by simpa using hnd)
    refine ⟨blk, rest, rfl, hblk, fun e he => ?_⟩
    rcases List.mem_append.mp he with he | he
    · exact no_attempt_before h₀ hnd₀ e he
    · exact hafter.2 e he

/-- **Ownership does not change hands** while a claim is in force. -/
theorem same_client_of_grant {pre post : List Event} {u : Phase} {en : Entry} {d : UInt64}
    {ops : List Op} (h : Steps Life .free (pre ++ .grant en d ops :: post) u) {en' : Entry}
    {d' : UInt64} {ops' : List Op} (hcl : claimAfter pre = some (en', d', ops')) : en'.c = en.c := by
  obtain ⟨s, s', h₀, hs, -⟩ := h.split_cons
  cases hs with
  | note hn => simp [Event.isNote] at hn
  | other _ he => simp [Event.ofClaim, Event.turnsClaim] at he
  | attempt ha => exact absurd ha.cleanupFor (by simp [Event.cleanupFor])
  | grant => simp [(tracks h₀).notHeld (by simp)] at hcl
  | renew =>
    obtain ⟨en₀, hcl₀, -, hc⟩ := (tracks h₀).held rfl
    rw [hcl₀, Option.some.injEq, Prod.mk.injEq] at hcl
    rw [← hcl.1, hc]

end Life

end Spid

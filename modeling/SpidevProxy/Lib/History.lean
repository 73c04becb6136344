import Mathlib.Data.List.Induction
import Mathlib.Order.WellFounded

set_option relaxedAutoImplicit false
set_option autoImplicit false

/-!
# Runs of labelled transition systems and their histories

A labelled transition system is a relation `R s e s'`: in state `s` the event `e` may happen and
leads to `s'`. A run records its events, oldest first, and safety properties are predicates of
the history and the state reached.

## Main definitions

* `History.Steps` — the runs of a labelled transition system with their histories.
* `History.After`, `History.Before` — every element of a list stands in a relation to what comes
  after it, or before it.
* `History.Joint` — two systems side by side, the events of the first among those of the second.

## Main results

* `History.Steps.invariant` — a predicate of history and state that every step keeps holds along
  every run.
* `History.Steps.trans`, `History.Steps.split` — runs compose and split.
* `History.Steps.joint` — two runs whose histories fit together are one run of the joint system.
* `History.exists_iterate`, `History.exists_iterate_of_rounds` — the variant rule: a deterministic
  system that makes a well-founded measure smaller, with each step or each round, until it is done is
  done some time.
-/

namespace History

variable {σ ε : Type*} {R : σ → ε → σ → Prop}

/-- `Steps R s es s'`: some run from `s` to `s'` has the history `es`. -/
inductive Steps (R : σ → ε → σ → Prop) : σ → List ε → σ → Prop
  | nil (s : σ) : Steps R s [] s
  | snoc {s t u : σ} {es : List ε} {e : ε} (h : Steps R s es t) (hs : R t e u) :
      Steps R s (es ++ [e]) u

/-- The view of a history through a partial map, when an event is added that it does not see. -/
lemma filterMap_snoc_none {α : Type*} {f : ε → Option α} {e : ε} (h : f e = none) (es : List ε) :
    (es ++ [e]).filterMap f = es.filterMap f := by
  rw [List.filterMap_append, List.filterMap_cons_none h, List.filterMap_nil, List.append_nil]

/-- The view of a history through a partial map, when an event is added that it sees. -/
lemma filterMap_snoc_some {α : Type*} {f : ε → Option α} {e : ε} {x : α} (h : f e = some x)
    (es : List ε) : (es ++ [e]).filterMap f = es.filterMap f ++ [x] := by
  rw [List.filterMap_append, List.filterMap_cons_some h, List.filterMap_nil]

/-- If the events with property `p` all show the same number `n` through `f`, and the numbers that
`f` shows are all different, there is at most one such event. -/
lemma length_filter_le_one {α β : Type*} {f : ε → Option (α × β)} {p : ε → Bool} {n : α}
    {es : List ε} (hp : ∀ e ∈ es, p e = true → ∃ y, f e = some (n, y))
    (hnd : ((es.filterMap f).map fun k => k.1).Nodup) : (es.filter p).length ≤ 1 := by
  have hsub : ((es.filter p).filterMap f).map (fun k => k.1) =
      List.replicate (es.filter p).length n := by
    have key : ∀ l : List ε, (∀ e ∈ l, ∃ y, f e = some (n, y)) →
        (l.filterMap f).map (fun k => k.1) = List.replicate l.length n := by
      intro l
      induction l with
      | nil => exact fun _ => rfl
      | cons e l ih =>
        intro hl
        obtain ⟨y, hy⟩ := hl e List.mem_cons_self
        rw [List.filterMap_cons_some hy, List.map_cons,
          ih fun e he => hl e (List.mem_cons_of_mem _ he)]
        rfl
    refine key _ fun e he => ?_
    rw [List.mem_filter] at he
    exact hp e he.1 he.2
  have hfilter : (es.filter p).Sublist es := List.filter_sublist
  have hnd' := hnd.sublist ((hfilter.filterMap f).map fun k => k.1)
  rw [hsub, List.nodup_replicate] at hnd'
  exact hnd'

/-- If only one event of a history has property `p`, no event before it has. -/
lemma eq_false_of_filter_eq {p : ε → Bool} {l l' : List ε} {e e' : ε}
    (h : (l ++ e :: l').filter p = [e']) (he : p e = true) : ∀ x ∈ l, p x = false := by
  rw [List.filter_append, List.filter_cons_of_pos he] at h
  have hl : l.filter p = [] := by
    cases hf : l.filter p with
    | nil => rfl
    | cons y ys => simp [hf] at h
  intro x hx
  simpa using List.filter_eq_nil_iff.mp hl x hx

/-! ## What follows an element -/

/-- The splits of a list at one of its elements, when an element is added. -/
lemma split_snoc {es pre post : List ε} {e x : ε} (h : es ++ [e] = pre ++ x :: post) :
    (post = [] ∧ es = pre ∧ e = x) ∨ ∃ post', post = post' ++ [e] ∧ es = pre ++ x :: post' := by
  rcases List.eq_nil_or_concat post with rfl | ⟨post, y, rfl⟩
  · obtain ⟨rfl, hx⟩ := List.append_inj' h rfl
    exact Or.inl ⟨rfl, rfl, List.singleton_inj.mp hx⟩
  · rw [List.concat_eq_append, ← List.cons_append, ← List.append_assoc] at h
    obtain ⟨rfl, hx⟩ := List.append_inj' h rfl
    rw [List.concat_eq_append, List.singleton_inj.mp hx]
    exact Or.inr ⟨post, rfl, rfl⟩

/-- Every element of a list stands in the relation `P` to what comes after it. -/
def After (P : ε → List ε → Prop) (es : List ε) : Prop :=
  ∀ pre e post, es = pre ++ e :: post → P e post

namespace After

variable {P P' : ε → List ε → Prop} {es : List ε} {e : ε}

/-- Nothing has happened. -/
lemma nil : After P [] := fun pre e post h => by simp at h

/-- An element is added. -/
lemma snoc (h : After P es) (hs : ∀ x ∈ es, ∀ post, P x post → P' x (post ++ [e]))
    (he : P' e []) : After P' (es ++ [e]) := by
  intro pre x post heq
  rcases split_snoc heq with ⟨rfl, rfl, rfl⟩ | ⟨post, rfl, rfl⟩
  · exact he
  · exact hs x (by simp) post (h _ _ _ rfl)

end After

/-! ## What precedes an element -/

/-- Every element of a list stands in the relation `P` to what comes before it. -/
def Before (P : List ε → ε → Prop) (es : List ε) : Prop :=
  ∀ pre e post, es = pre ++ e :: post → P pre e

namespace Before

variable {P : List ε → ε → Prop} {es : List ε}

/-- Nothing has happened. -/
lemma nil : Before P [] := fun pre e post h => by simp at h

/-- Elements are added. -/
lemma append {es' : List ε} (h : Before P es)
    (h' : ∀ pre e post, es' = pre ++ e :: post → P (es ++ pre) e) : Before P (es ++ es') := by
  intro pre e post heq
  rcases List.append_eq_append_iff.mp heq with ⟨p, rfl, hp⟩ | ⟨p, hp, hq⟩
  · exact h' p e post hp
  · cases p with
    | nil =>
      rw [List.append_nil] at hp
      rw [← hp, ← List.append_nil es]
      exact h' [] e post hq.symm
    | cons x p =>
      obtain ⟨rfl, -⟩ := List.cons.inj hq
      exact h pre e p hp

end Before

namespace Steps

/-- A single step is a run. -/
lemma single {s t : σ} {e : ε} (h : R s e t) : Steps R s [e] t :=
  Steps.snoc (Steps.nil s) h

/-- Runs compose. -/
lemma trans {s t u : σ} {es es' : List ε} (h : Steps R s es t) (h' : Steps R t es' u) :
    Steps R s (es ++ es') u := by
  induction h' with
  | nil => simpa using h
  | snoc _ hs ih => rw [← List.append_assoc]; exact ih.snoc hs

/-- A step followed by a run is a run. -/
lemma cons {s t u : σ} {e : ε} {es : List ε} (h : R s e t) (h' : Steps R t es u) :
    Steps R s (e :: es) u :=
  (single h).trans h'

/-- A run splits at every point of its history. -/
lemma split {s u : σ} {es' : List ε} : ∀ {es : List ε}, Steps R s (es ++ es') u →
    ∃ t, Steps R s es t ∧ Steps R t es' u := by
  induction es' using List.reverseRecOn generalizing u with
  | nil =>
    intro es h
    rw [List.append_nil] at h
    exact ⟨u, h, Steps.nil u⟩
  | append_singleton es' e ih =>
    intro es h
    rw [← List.append_assoc] at h
    generalize hl : es ++ es' ++ [e] = l at h
    cases h with
    | nil => simp at hl
    | snoc h hs =>
      obtain ⟨rfl, rfl⟩ := List.append_inj' hl rfl |>.imp id List.singleton_inj.mp
      obtain ⟨t, h₁, h₂⟩ := ih h
      exact ⟨t, h₁, h₂.snoc hs⟩

/-- A run splits around every event of its history. -/
lemma split_cons {s u : σ} {es es' : List ε} {e : ε} (h : Steps R s (es ++ e :: es') u) :
    ∃ t t', Steps R s es t ∧ R t e t' ∧ Steps R t' es' u := by
  rw [List.append_cons] at h
  obtain ⟨t', h₁, h₂⟩ := h.split
  generalize hl : es ++ [e] = l at h₁
  cases h₁ with
  | nil => simp at hl
  | snoc h₁ hs =>
    obtain ⟨rfl, rfl⟩ := List.append_inj' hl rfl |>.imp id List.singleton_inj.mp
    exact ⟨_, _, h₁, hs, h₂⟩

/-- Nothing happens in a run without events. -/
lemma nil_inv {s u : σ} (h : Steps R s [] u) : u = s := by
  generalize hl : ([] : List ε) = l at h
  cases h with
  | nil => rfl
  | snoc _ _ => simp at hl

/-- A run with events starts with a step. -/
lemma cons_inv {s u : σ} {e : ε} {es : List ε} (h : Steps R s (e :: es) u) :
    ∃ t, R s e t ∧ Steps R t es u := by
  rw [← List.nil_append (e :: es)] at h
  obtain ⟨t, t', h₁, hs, h₂⟩ := h.split_cons
  rw [h₁.nil_inv] at hs
  exact ⟨t', hs, h₂⟩

/-- A run with a single event is a step. -/
lemma single_inv {s u : σ} {e : ε} (h : Steps R s [e] u) : R s e u := by
  obtain ⟨t, hs, h'⟩ := h.cons_inv
  rwa [h'.nil_inv]

/-- **The invariant rule.** A predicate of the history and the state that holds at the start and
that every step from a reachable state keeps holds after every run. -/
lemma invariant {s₀ : σ} {P : List ε → σ → Prop} (h₀ : P [] s₀)
    (hs : ∀ es s e s', Steps R s₀ es s → P es s → R s e s' → P (es ++ [e]) s')
    {es : List ε} {s : σ} (h : Steps R s₀ es s) : P es s := by
  induction h with
  | nil => exact h₀
  | snoc hr hst ih => exact hs _ _ _ _ hr ih hst

/-- **The invariant rule under a condition on the events.** -/
lemma invariant_on {s₀ : σ} {C : ε → Prop} {P : List ε → σ → Prop} (h₀ : P [] s₀)
    (hs : ∀ es s e s', Steps R s₀ es s → P es s → R s e s' → C e → P (es ++ [e]) s')
    {es : List ε} {s : σ} (h : Steps R s₀ es s) (hC : ∀ e ∈ es, C e) : P es s := by
  induction h with
  | nil => exact h₀
  | snoc hr hst ih =>
    exact hs _ _ _ _ hr (ih fun e he => hC e (List.mem_append_left _ he)) hst
      (hC _ (List.mem_append_right _ (List.mem_singleton_self _)))

/-- More transitions allow more runs. -/
lemma mono {R' : σ → ε → σ → Prop} (hR : ∀ s e s', R s e s' → R' s e s') {s u : σ} {es : List ε}
    (h : Steps R s es u) : Steps R' s es u := by
  induction h with
  | nil => exact Steps.nil _
  | snoc _ hs ih => exact ih.snoc (hR _ _ _ hs)

end Steps

/-! ## Two systems side by side -/

variable {τ φ : Type*} {Q : τ → φ → τ → Prop} {f : φ → Option ε}

/-- Two systems side by side: `f` tells which events of the second are events of the first, and
which. -/
def Joint (R : σ → ε → σ → Prop) (Q : τ → φ → τ → Prop) (f : φ → Option ε) (p : σ × τ) (e : φ)
    (p' : σ × τ) : Prop :=
  Q p.2 e p'.2 ∧ match f e with
    | some x => R p.1 x p'.1
    | none => p'.1 = p.1

namespace Steps

/-- **Two runs whose histories fit together** are one run of the joint system. -/
lemma joint {s₀ s : σ} {es : List ε} {t₀ t : τ} {fs : List φ} (h : Steps R s₀ es s)
    (h' : Steps Q t₀ fs t) (hf : fs.filterMap f = es) : Steps (Joint R Q f) (s₀, t₀) fs (s, t) := by
  induction h' generalizing es s with
  | nil =>
    subst hf
    rw [h.nil_inv]
    exact Steps.nil _
  | @snoc t u fs e _ hs ih =>
    rw [List.filterMap_append] at hf
    subst hf
    obtain ⟨s', h₁, h₂⟩ := h.split
    refine (ih h₁ rfl).snoc ⟨hs, ?_⟩
    -- the last event is one of the first system, or not
    cases hfe : f e with
    | none =>
      rw [List.filterMap_cons_none hfe] at h₂
      exact h₂.nil_inv
    | some x =>
      rw [List.filterMap_cons_some hfe] at h₂
      exact h₂.single_inv

/-- The first system's part of a joint run. -/
lemma joint_left {p q : σ × τ} {fs : List φ} (h : Steps (Joint R Q f) p fs q) :
    Steps R p.1 (fs.filterMap f) q.1 := by
  induction h with
  | nil => exact Steps.nil _
  | @snoc q u fs e _ hs ih =>
    obtain ⟨-, hs⟩ := hs
    rw [List.filterMap_append]
    cases hfe : f e with
    | none =>
      rw [hfe] at hs
      simpa [List.filterMap_cons_none hfe, hs] using ih
    | some x =>
      rw [hfe] at hs
      rw [List.filterMap_cons_some hfe]
      exact ih.snoc hs

end Steps

/-! ## Deterministic systems -/

/-- **The variant rule for rounds.** If `I` holds again after some number of steps, with a smaller
measure `μ`, as long as `D` does not hold, then `D` is reached. -/
lemma exists_iterate_of_rounds {β : Type*} [Preorder β] [WellFoundedLT β] {f : σ → σ}
    {I D : σ → Prop} {μ : σ → β}
    (hμ : ∀ s, I s → ¬D s → ∃ k, I (f^[k] s) ∧ μ (f^[k] s) < μ s) {s : σ} (hs : I s) :
    ∃ k, D (f^[k] s) := by
  generalize hb : μ s = b
  induction b using WellFoundedLT.induction generalizing s with
  | ind b ih =>
    subst hb
    by_cases hD : D s
    · exact ⟨0, hD⟩
    · obtain ⟨k, hI, hlt⟩ := hμ s hs hD
      obtain ⟨k', hk'⟩ := ih _ hlt hI rfl
      rw [← Function.iterate_add_apply] at hk'
      exact ⟨k' + k, hk'⟩

/-- **The variant rule.** A step function that keeps `I`, and makes the measure `μ` smaller as long as
`D` does not hold, reaches `D`. -/
lemma exists_iterate {β : Type*} [Preorder β] [WellFoundedLT β] {f : σ → σ} {I D : σ → Prop}
    {μ : σ → β} (hI : ∀ s, I s → I (f s)) (hμ : ∀ s, I s → ¬D s → μ (f s) < μ s) {s : σ} (hs : I s) :
    ∃ k, D (f^[k] s) :=
  exists_iterate_of_rounds (fun s hs hD => ⟨1, hI s hs, hμ s hs hD⟩) hs

end History

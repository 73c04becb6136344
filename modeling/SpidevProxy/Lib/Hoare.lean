import Mathlib.Tactic.Basic

set_option relaxedAutoImplicit false
set_option autoImplicit false

/-!
# Programs that may exit, and their rules

A program that works on a state and either returns or leaves early is a computation in the monad
`EStateM`. A triple says what holds when it returns and what holds when it leaves; the rules below
follow the constructs a program is written with.

## Main definitions

* `Hoare.Triple` — a precondition, a program, and postconditions for its return and for its exit.
* `Hoare.Keeps` — an invariant of a program, kept whichever way it ends.

## Main results

* `Hoare.Triple.bind`, `Hoare.Triple.mono` — sequence and consequence.
* `Hoare.Triple.result` — the result of the program in a given state may be named.
* `Hoare.Keeps.bind`, `Hoare.Keeps.pure`, `Hoare.Keeps.throw`, `Hoare.Keeps.ite` — the same for
  invariants.
-/

namespace Hoare

variable {ε σ α β : Type}

/-- From a state with `P`, the program returns a value and a state with `Q`, or exits with `E`. -/
def Triple (P : σ → Prop) (x : EStateM ε σ α) (Q : α → σ → Prop) (E : ε → σ → Prop) : Prop :=
  ∀ s, P s → match x s with
    | .ok a s' => Q a s'
    | .error e s' => E e s'

variable {P P' : σ → Prop} {Q Q' : α → σ → Prop} {R : β → σ → Prop} {E E' : ε → σ → Prop}
  {x y : EStateM ε σ α} {f : α → EStateM ε σ β}

namespace Triple

/-- A value is returned. -/
lemma pure {a : α} (h : ∀ s, P s → Q a s) : Triple P (Pure.pure a : EStateM ε σ α) Q E := h

/-- The program exits. -/
lemma throw {e : ε} (h : ∀ s, P s → E e s) : Triple P (MonadExcept.throw e : EStateM ε σ α) Q E := h

/-- The state is updated. -/
lemma modifyGet {g : σ → α × σ} (h : ∀ s, P s → Q (g s).1 (g s).2) :
    Triple P (MonadStateOf.modifyGet g : EStateM ε σ α) Q E := h

/-- An update in front of a program is executed in a given state. -/
lemma step {g : σ → α × σ} {s : σ} (h : Triple (· = (g s).2) (f (g s).1) R E) :
    Triple (· = s) ((MonadStateOf.modifyGet g : EStateM ε σ α) >>= f) R E := by
  rintro _ rfl
  exact h _ rfl

/-- So is a look at the state. -/
lemma look {f : σ → EStateM ε σ β} {s : σ} (h : Triple (· = s) (f s) R E) :
    Triple (· = s) ((MonadState.get : EStateM ε σ σ) >>= f) R E := by
  rintro _ rfl
  exact h _ rfl

/-- A triple holds state by state. -/
lemma of_states (h : ∀ s, P s → Triple (· = s) x Q E) : Triple P x Q E := fun s hs => h s hs s rfl

/-- What does not depend on the state is a hypothesis. -/
lemma of_and {p : Prop} (h : p → Triple P x Q E) : Triple (fun s => P s ∧ p) x Q E :=
  fun s hs => h hs.2 s hs.1

/-- The rule of sequence. -/
lemma bind (hx : Triple P x Q E) (hf : ∀ a, Triple (Q a) (f a) R E) : Triple P (x >>= f) R E := by
  intro s hs
  have h := hx s hs
  change match EStateM.bind x f s with
    | .ok a s' => R a s'
    | .error e s' => E e s'
  unfold EStateM.bind
  cases hxs : x s with
  | ok a s' =>
    rw [hxs] at h
    exact hf a s' h
  | error e s' =>
    rw [hxs] at h
    exact h

/-- The rule of consequence. -/
lemma mono (h : Triple P x Q E) (hP : ∀ s, P' s → P s) (hQ : ∀ a s, Q a s → Q' a s)
    (hE : ∀ e s, E e s → E' e s) : Triple P' x Q' E' := by
  intro s hs
  have h' := h s (hP s hs)
  cases hx : x s with
  | ok a s' =>
    rw [hx] at h'
    exact hQ a s' h'
  | error e s' =>
    rw [hx] at h'
    exact hE e s' h'

/-- In a given state the result of the program may be named. -/
lemma result {s : σ} (h : Triple (· = s) x Q E) :
    Triple (· = s) x (fun a s' => x s = .ok a s' ∧ Q a s') (fun e s' => x s = .error e s' ∧ E e s') := by
  rintro _ rfl
  have h' := h _ rfl
  cases hx : x _ with
  | ok a s' =>
    rw [hx] at h'
    exact ⟨rfl, h'⟩
  | error e s' =>
    rw [hx] at h'
    exact ⟨rfl, h'⟩

end Triple

/-- The program keeps the invariant `I`, whether it returns or exits, and exits with `E` only. -/
def Keeps (I : σ → Prop) (E : ε → Prop) (x : EStateM ε σ α) : Prop :=
  Triple I x (fun _ => I) (fun e s => I s ∧ E e)

namespace Keeps

variable {I : σ → Prop} {E : ε → Prop}

/-- A value is returned. -/
lemma pure (a : α) : Keeps I E (Pure.pure a : EStateM ε σ α) := Triple.pure fun _ h => h

/-- The program exits as it may. -/
lemma throw {e : ε} (he : E e) : Keeps I E (MonadExcept.throw e : EStateM ε σ α) :=
  Triple.throw fun _ h => ⟨h, he⟩

/-- The state is updated. -/
lemma modifyGet {g : σ → α × σ} (h : ∀ s, I s → I (g s).2) :
    Keeps I E (MonadStateOf.modifyGet g : EStateM ε σ α) := Triple.modifyGet h

/-- The rule of sequence. -/
lemma bind (hx : Keeps I E x) (hf : ∀ a, Keeps I E (f a)) : Keeps I E (x >>= f) := Triple.bind hx hf

/-- The rule of branches. -/
lemma ite {c : Prop} [Decidable c] (hx : c → Keeps I E x) (hy : ¬c → Keeps I E y) :
    Keeps I E (if c then x else y) := by
  split
  · exact hx ‹_›
  · exact hy ‹_›

end Keeps

end Hoare

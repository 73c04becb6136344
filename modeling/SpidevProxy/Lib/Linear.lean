import Mathlib.Data.List.Basic
import Mathlib.Data.List.Nodup

set_option relaxedAutoImplicit false
set_option autoImplicit false

/-!
# Linearization points

Operations on a shared object overlap: each is invoked at one event of a history and answered at a
later one. An order of the operations linearizes the history if it holds every answered operation
once and agrees with real time, so that an operation that was answered before another was invoked
comes before it. If every operation has a point in the history, between its invocation and its
answer, the order of the points does.

## Main definitions

* `Linear.Precedes` — one element stands before another one in a list.
* `Linear.Linearizes` — an order of operations agrees with a history.

## Main results

* `Linear.Linearizes.of_points` — the order of the points linearizes the history.
-/

namespace Linear

variable {ε ι : Type*}

/-- `i` stands before `j`. -/
def Precedes (order : List ι) (i j : ι) : Prop := ∃ l l', order = l ++ l' ∧ i ∈ l ∧ j ∈ l'

/-- `order` holds operations that were invoked, no one twice and every one that was answered, and
one that was answered before another was invoked stands before it. -/
structure Linearizes (inv res : ε → Option ι) (es : List ε) (order : List ι) : Prop where
  nodup : order.Nodup
  invoked : ∀ i ∈ order, ∃ e ∈ es, inv e = some i
  complete : ∀ i, (∃ e ∈ es, res e = some i) → i ∈ order
  realTime : ∀ pre e post i j, es = pre ++ e :: post → res e = some i →
    (∃ f ∈ post, inv f = some j) → j ∈ order → Precedes order i j

/-- **The order of the points linearizes the history**, if there is one point for each operation, an
invocation before it and none after it, and one before every answer.

**Proof sketch.** Take the points in the order of the history. If the answer to `i` comes before
the invocation of `j`, the point of `i` is before that answer and the point of `j` behind it, since
no invocation of `j` follows its point. -/
lemma Linearizes.of_points {inv res point : ε → Option ι} {es : List ε}
    (hnd : (es.filterMap point).Nodup)
    (hinv : ∀ pre e post i, es = pre ++ e :: post → point e = some i →
      (∃ f ∈ pre, inv f = some i) ∧ ∀ f ∈ post, inv f ≠ some i)
    (hres : ∀ pre e post i, es = pre ++ e :: post → res e = some i → ∃ f ∈ pre, point f = some i) :
    Linearizes inv res es (es.filterMap point) where
  nodup := hnd
  invoked i hi := by
    obtain ⟨e, he, hp⟩ := List.mem_filterMap.mp hi
    obtain ⟨pre, post, rfl⟩ := List.append_of_mem he
    obtain ⟨f, hf, hfi⟩ := (hinv pre e post i rfl hp).1
    exact ⟨f, List.mem_append_left _ hf, hfi⟩
  complete i hi := by
    obtain ⟨e, he, hr⟩ := hi
    obtain ⟨pre, post, rfl⟩ := List.append_of_mem he
    obtain ⟨f, hf, hp⟩ := hres pre e post i rfl hr
    exact List.mem_filterMap.mpr ⟨f, List.mem_append_left _ hf, hp⟩
  realTime pre e post i j hes hr hf hj := by
    obtain ⟨f, hf, hfj⟩ := hf
    obtain ⟨p, hp, hpi⟩ := hres pre e post i hes hr
    obtain ⟨p', hp', hpj⟩ := List.mem_filterMap.mp hj
    have hsplit : es = (pre ++ [e]) ++ post := by rw [hes]; simp
    refine ⟨(pre ++ [e]).filterMap point, post.filterMap point, ?_, ?_, ?_⟩
    · rw [hsplit, List.filterMap_append]
    · exact List.mem_filterMap.mpr ⟨p, List.mem_append_left _ hp, hpi⟩
    · -- a point of `j` before the answer to `i` would have an invocation of `j` after it
      rw [hsplit] at hp'
      rcases List.mem_append.mp hp' with hp' | hp'
      · obtain ⟨l, l', hl⟩ := List.append_of_mem hp'
        have hes' : es = l ++ p' :: (l' ++ post) := by rw [hsplit, hl]; simp
        exact absurd hfj ((hinv l p' _ j hes' hpj).2 f (List.mem_append_right _ hf))
      · exact List.mem_filterMap.mpr ⟨p', hp', hpj⟩

end Linear

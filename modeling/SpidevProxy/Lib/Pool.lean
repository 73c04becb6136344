import Mathlib.Data.List.Nodup
import Mathlib.Data.Fintype.BigOperators
import Mathlib.Algebra.BigOperators.Fin
import Mathlib.Algebra.Order.BigOperators.Group.Finset

set_option relaxedAutoImplicit false
set_option autoImplicit false

/-!
# Intrusive queues over a pool of nodes

A pool of `m` nodes linked through one `next` field: a free list, used as a stack, and `n`
first-in first-out queues with a cached tail. A node is unlinked from the middle of its queue
through a pointer to the link that leads to it.

## Main definitions

* `Intrusive.Chain` — following `next` from a pointer visits the nodes of a list and ends.
* `Intrusive.Pool` — the pool; `Intrusive.Pool.take`, `put`, `release`, `purge` — its operations,
  on the pointers.
* `Intrusive.Pool.Rep` — the pool represents a free list, queues, and nodes held outside.
* `Intrusive.Pool.queue` — the nodes of a queue, computed from the pointers.

## Main results

* `Intrusive.Pool.Rep.take_some`, `Intrusive.Pool.Rep.put_some`,
  `Intrusive.Pool.Rep.release`, `Intrusive.Pool.Rep.purge` — what each operation does to the
  lists represented.
-/

namespace Intrusive

variable {m n : ℕ}

/-! ## Chains -/

/-- `Chain next h l`: starting at the pointer `h` and following `next`, the nodes visited are
those of `l`, in this order, and then the null pointer is reached. -/
def Chain (next : Fin m → Option (Fin m)) : Option (Fin m) → List (Fin m) → Prop
  | h, [] => h = none
  | h, i :: l => h = some i ∧ Chain next (next i) l

/-- A pointer is the head of at most one chain. -/
lemma Chain.unique {next : Fin m → Option (Fin m)} {h : Option (Fin m)} {l l' : List (Fin m)}
    (c : Chain next h l) (c' : Chain next h l') : l = l' := by
  induction l generalizing h l' with
  | nil =>
    cases l' with
    | nil => rfl
    | cons j l' => simp only [Chain] at c c'; simp [c] at c'
  | cons i l ih =>
    cases l' with
    | nil => simp only [Chain] at c c'; simp [c'] at c
    | cons j l' =>
      obtain ⟨rfl, c⟩ := c
      obtain ⟨hij, c'⟩ := c'
      obtain rfl : i = j := by simpa using hij
      rw [ih c c']

/-- A chain is empty exactly when it starts with the null pointer. -/
lemma Chain.eq_nil_iff {next : Fin m → Option (Fin m)} {h : Option (Fin m)} {l : List (Fin m)}
    (c : Chain next h l) : l = [] ↔ h = none := by
  cases l with
  | nil => exact ⟨fun _ => c, fun _ => rfl⟩
  | cons i l =>
    have hh : h = some i := c.1
    simp [hh]

/-- Every node of a chain starts the chain of what follows it. -/
lemma Chain.suffix {next : Fin m → Option (Fin m)} {h : Option (Fin m)} {l₁ l₂ : List (Fin m)}
    {i : Fin m} (c : Chain next h (l₁ ++ i :: l₂)) : Chain next (some i) (i :: l₂) := by
  induction l₁ generalizing h with
  | nil => exact ⟨rfl, c.2⟩
  | cons j l₁ ih => exact ih c.2

/-- Chains are acyclic: no node occurs twice.

**Proof sketch.** A node that comes back would start two chains of different lengths, against
`Chain.unique`. -/
lemma Chain.nodup {next : Fin m → Option (Fin m)} {h : Option (Fin m)} {l : List (Fin m)}
    (c : Chain next h l) : l.Nodup := by
  induction l generalizing h with
  | nil => exact List.nodup_nil
  | cons i l ih =>
    refine List.nodup_cons.mpr ⟨fun hi => ?_, ih c.2⟩
    obtain ⟨l₁, l₂, rfl⟩ := List.append_of_mem hi
    have c₁ : Chain next (some i) (i :: (l₁ ++ i :: l₂)) := ⟨rfl, c.2⟩
    have c₂ : Chain next (some i) (i :: l₂) := Chain.suffix c.2
    have hlen := congrArg List.length (c₁.unique c₂)
    simp only [List.length_cons, List.length_append] at hlen
    omega

/-- A link of a node outside the chain may change. -/
lemma Chain.update {next : Fin m → Option (Fin m)} {h : Option (Fin m)} {l : List (Fin m)}
    (c : Chain next h l) {i : Fin m} (hi : i ∉ l) (v : Option (Fin m)) :
    Chain (Function.update next i v) h l := by
  induction l generalizing h with
  | nil => exact c
  | cons j l ih =>
    simp only [List.mem_cons, not_or] at hi
    refine ⟨c.1, ?_⟩
    rw [Function.update_of_ne (Ne.symm hi.1)]
    exact ih c.2 hi.2

/-- Redirecting the last link of a prefix of a chain splices another chain in after it. -/
lemma Chain.splice {next : Fin m → Option (Fin m)} {h : Option (Fin m)} {l₁ l₂ l₃ : List (Fin m)}
    {j : Fin m} {v : Option (Fin m)} (c : Chain next h (l₁ ++ j :: l₂)) (c' : Chain next v l₃)
    (hj : j ∉ l₃) : Chain (Function.update next j v) h (l₁ ++ j :: l₃) := by
  induction l₁ generalizing h with
  | nil =>
    refine ⟨c.1, ?_⟩
    rw [Function.update_self]
    exact c'.update hj v
  | cons i l₁ ih =>
    refine ⟨c.1, ?_⟩
    have hne : i ≠ j := by
      have hn := c.nodup
      simp only [List.cons_append, List.nodup_cons, List.mem_append, List.mem_cons, not_or] at hn
      exact hn.1.2.1
    rw [Function.update_of_ne hne]
    exact ih c.2

/-- All nodes in a row, each linked to the next one. -/
lemma Chain.finRange {next : Fin m → Option (Fin m)}
    (hn : ∀ i, next i = if h : i.val + 1 < m then some ⟨i.val + 1, h⟩ else none) :
    Chain next (if h : 0 < m then some ⟨0, h⟩ else none) (List.finRange m) := by
  -- the last `k` nodes, by induction on `k`
  have key : ∀ k ≤ m, Chain next (if h : m - k < m then some ⟨m - k, h⟩ else none)
      ((List.finRange m).drop (m - k)) := by
    intro k
    induction k with
    | zero =>
      intro _
      rw [List.drop_eq_nil_of_le (by simp), dif_neg (by omega)]
      rfl
    | succ k ih =>
      intro hk
      have hlt : m - (k + 1) < m := by omega
      have he : m - (k + 1) + 1 = m - k := by omega
      rw [dif_pos hlt, List.drop_eq_getElem_cons (by simpa using hlt)]
      refine ⟨by simp, ?_⟩
      have hnext : next (⟨m - (k + 1), hlt⟩ : Fin m) =
          if h : m - k < m then some ⟨m - k, h⟩ else none := by
        rw [hn]
        simp only [he]
      rw [List.getElem_finRange, he]
      simp only [Fin.cast_mk]
      rw [hnext]
      exact ih (by omega)
  have h := key m le_rfl
  simp only [Nat.sub_self, List.drop_zero] at h
  exact h

/-- The nodes reached from a pointer, at most `fuel` of them. -/
def walk (next : Fin m → Option (Fin m)) : ℕ → Option (Fin m) → List (Fin m)
  | 0, _ => []
  | _ + 1, none => []
  | fuel + 1, some i => i :: walk next fuel (next i)

/-- With enough fuel the walk finds the chain. -/
lemma Chain.walk_eq {next : Fin m → Option (Fin m)} {h : Option (Fin m)} {l : List (Fin m)}
    (c : Chain next h l) {fuel : ℕ} (hf : l.length ≤ fuel) : walk next fuel h = l := by
  induction l generalizing h fuel with
  | nil => simp only [Chain] at c; subst c; cases fuel <;> rfl
  | cons i l ih =>
    obtain ⟨rfl, c⟩ := c
    cases fuel with
    | zero => simp at hf
    | succ fuel =>
      simp only [walk, List.cons.injEq, true_and]
      exact ih c (by simpa using hf)

/-- The last node reached from a pointer: `t = h; while (t && t->next) t = t->next`. -/
def lastFrom (next : Fin m → Option (Fin m)) : ℕ → Option (Fin m) → Option (Fin m)
  | 0, t => t
  | _ + 1, none => none
  | fuel + 1, some i =>
    match next i with
    | none => some i
    | some j => lastFrom next fuel (some j)

/-- The loop for the last node finds the last entry of the chain. -/
lemma Chain.lastFrom_eq {next : Fin m → Option (Fin m)} {h : Option (Fin m)} {l : List (Fin m)}
    (c : Chain next h l) {fuel : ℕ} (hf : l.length ≤ fuel) : lastFrom next fuel h = l.getLast? := by
  induction l generalizing h fuel with
  | nil => simp only [Chain] at c; subst c; cases fuel <;> rfl
  | cons i l ih =>
    obtain ⟨rfl, c⟩ := c
    cases fuel with
    | zero => simp at hf
    | succ fuel =>
      simp only [lastFrom]
      cases l with
      | nil => simp only [Chain] at c; simp [c]
      | cons j l =>
        have hn : next i = some j := c.1
        rw [hn] at c ⊢
        simp only
        rw [ih c (by simpa using hf), List.getLast?_cons_cons]

/-! ## The pool and its operations -/

/-- The pointers of a pool of `m` nodes with `n` queues. -/
structure Pool (m n : ℕ) where
  /-- The link field of each node. -/
  next : Fin m → Option (Fin m)
  /-- The head of the free list. -/
  freel : Option (Fin m)
  /-- The head of each queue. -/
  qh : Fin n → Option (Fin m)
  /-- The cached tail of each queue. -/
  qt : Fin n → Option (Fin m)
  /-- The number of queued nodes. -/
  count : ℤ

/-- A place that holds a link: the head of a queue or the `next` field of a node. -/
inductive Link (m n : ℕ)
  | head (q : Fin n)
  | next (i : Fin m)

namespace Pool

/-- The pointer stored in a link. -/
def deref (P : Pool m n) : Link m n → Option (Fin m)
  | .head q => P.qh q
  | .next i => P.next i

/-- Store a pointer in a link. -/
def store (P : Pool m n) (pp : Link m n) (v : Option (Fin m)) : Pool m n :=
  match pp with
  | .head q => { P with qh := Function.update P.qh q v }
  | .next i => { P with next := Function.update P.next i v }

/-- The first link, from `pp` on, that leads to a node with property `p`, and that node. -/
def findLink (P : Pool m n) (p : Fin m → Bool) : ℕ → Link m n → Option (Link m n × Fin m)
  | 0, _ => none
  | fuel + 1, pp =>
    match P.deref pp with
    | none => none
    | some i => if p i then some (pp, i) else findLink P p fuel (.next i)

/-- Unlink the first node of queue `q` with property `p`; the tail is recomputed when that node
was the tail. -/
def takeFrom (P : Pool m n) (p : Fin m → Bool) (q : Fin n) : Option (Fin m × Pool m n) :=
  match P.findLink p (m + 1) (.head q) with
  | none => none
  | some (pp, it) =>
    let P := P.store pp (P.next it)
    if P.qt q = some it then
      some (it, { P with qt := Function.update P.qt q (lastFrom P.next m (P.qh q)) })
    else some (it, P)

/-- Unlink the first node with property `p`, trying the queues in order. -/
def take (P : Pool m n) (p : Fin m → Bool) : Option (Fin m × Pool m n) :=
  ((List.finRange n).findSome? (P.takeFrom p)).map fun r =>
    (r.1, { r.2 with count := r.2.count - 1 })

/-- Push a node on the free list. -/
def release (P : Pool m n) (i : Fin m) : Pool m n :=
  { P with next := Function.update P.next i P.freel, freel := some i }

/-- Pop a node from the free list and append it to queue `q`. -/
def put (P : Pool m n) (q : Fin n) : Option (Fin m × Pool m n) :=
  match P.freel with
  | none => none
  | some it =>
    let P := { P with freel := P.next it, next := Function.update P.next it none }
    let P := match P.qt q with
      | some t => { P with next := Function.update P.next t (some it) }
      | none => { P with qh := Function.update P.qh q (some it) }
    some (it, { P with qt := Function.update P.qt q (some it), count := P.count + 1 })

/-- Move the nodes with property `dead` from the link `pp` on to the free list. -/
def purgeFrom (dead : Fin m → Bool) : ℕ → Link m n → Pool m n → Pool m n
  | 0, _, P => P
  | fuel + 1, pp, P =>
    match P.deref pp with
    | none => P
    | some it =>
      if dead it then
        let P := (P.store pp (P.next it)).release it
        purgeFrom dead fuel pp { P with count := P.count - 1 }
      else purgeFrom dead fuel (.next it) P

/-- Move the nodes of queue `q` with property `dead` to the free list and recompute the tail. -/
def purgeQueue (dead : Fin m → Bool) (P : Pool m n) (q : Fin n) : Pool m n :=
  let P := purgeFrom dead (m + 1) (.head q) P
  { P with qt := Function.update P.qt q (lastFrom P.next m (P.qh q)) }

/-- Move the queued nodes with property `dead` to the free list, queue by queue. -/
def purge (P : Pool m n) (dead : Fin m → Bool) : Pool m n :=
  (List.finRange n).foldl (purgeQueue dead) P

/-- The nodes of queue `q`, first to last. -/
def queue (P : Pool m n) (q : Fin n) : List (Fin m) := walk P.next m (P.qh q)

/-! ## What a pool represents -/

/-- The lists a pool is linked into: the free list, the queues, and the nodes `out` that are on
no list. Every node is at exactly one place. -/
structure Linked (P : Pool m n) (free : List (Fin m)) (qs : Fin n → List (Fin m))
    (out : List (Fin m)) : Prop where
  free_chain : Chain P.next P.freel free
  queue_chain : ∀ q, Chain P.next (P.qh q) (qs q)
  partition : ∀ i, free.count i + ∑ q, (qs q).count i + out.count i = 1

/-- The lists a pool stands for: it is linked into them, the cached tails are the last nodes and
the counter is the number of queued nodes. -/
structure Rep (P : Pool m n) (free : List (Fin m)) (qs : Fin n → List (Fin m))
    (out : List (Fin m)) : Prop extends Linked P free qs out where
  tail : ∀ q, P.qt q = (qs q).getLast?
  count_eq : P.count = ∑ q, ((qs q).length : ℤ)

/-- Replacing one member of a family changes a sum over the family accordingly. -/
lemma sum_update {α M : Type*} [AddCommMonoid M] (f : Fin n → α) (g : α → M) (q : Fin n) (a : α) :
    ∑ q', g (Function.update f q a q') + g (f q) = ∑ q', g (f q') + g a := by
  have h₁ := Finset.sum_erase_add Finset.univ (fun q' => g (Function.update f q a q'))
    (Finset.mem_univ q)
  have h₂ := Finset.sum_erase_add Finset.univ (fun q' => g (f q')) (Finset.mem_univ q)
  rw [← h₁, ← h₂, Function.update_self]
  have h₃ : ∑ q' ∈ Finset.univ.erase q, g (Function.update f q a q') =
      ∑ q' ∈ Finset.univ.erase q, g (f q') :=
    Finset.sum_congr rfl fun q' hq => by rw [Function.update_of_ne (Finset.ne_of_mem_erase hq)]
  rw [h₃, add_right_comm]

namespace Linked

variable {P : Pool m n} {free out : List (Fin m)} {qs : Fin n → List (Fin m)}

/-- The entries of a list of the family are counted in the sum. -/
lemma count_le_sum (qs : Fin n → List (Fin m)) (q : Fin n) (i : Fin m) :
    (qs q).count i ≤ ∑ q', (qs q').count i :=
  Finset.single_le_sum (f := fun q' => (qs q').count i) (fun _ _ => Nat.zero_le _)
    (Finset.mem_univ q)

/-- A queued node is not free. -/
lemma notMem_free (L : Linked P free qs out) {q : Fin n} {i : Fin m} (hi : i ∈ qs q) :
    i ∉ free := by
  intro hf
  have h := L.partition i
  have h₁ := List.count_pos_iff.mpr hi
  have h₂ := List.count_pos_iff.mpr hf
  have h₃ := count_le_sum qs q i
  omega

/-- A queued node is not held outside. -/
lemma notMem_out (L : Linked P free qs out) {q : Fin n} {i : Fin m} (hi : i ∈ qs q) :
    i ∉ out := by
  intro hf
  have h := L.partition i
  have h₁ := List.count_pos_iff.mpr hi
  have h₂ := List.count_pos_iff.mpr hf
  have h₃ := count_le_sum qs q i
  omega

/-- A node held outside is on no list. -/
lemma notMem_of_mem_out (L : Linked P free qs out) {i : Fin m} (hi : i ∈ out) :
    i ∉ free ∧ ∀ q, i ∉ qs q := by
  refine ⟨fun hf => ?_, fun q hq => L.notMem_out hq hi⟩
  have h := L.partition i
  have h₁ := List.count_pos_iff.mpr hi
  have h₂ := List.count_pos_iff.mpr hf
  omega

/-- A free node is on no queue and not held outside. -/
lemma notMem_of_mem_free (L : Linked P free qs out) {i : Fin m} (hi : i ∈ free) :
    i ∉ out ∧ ∀ q, i ∉ qs q := by
  refine ⟨fun hf => ?_, fun q hq => L.notMem_free hq hi⟩
  have h := L.partition i
  have h₁ := List.count_pos_iff.mpr hi
  have h₂ := List.count_pos_iff.mpr hf
  omega

/-- No node is held outside twice. -/
lemma nodup_out (L : Linked P free qs out) : out.Nodup := by
  refine List.nodup_iff_count_le_one.mpr fun i => ?_
  have h := L.partition i
  omega

/-- A node is on one queue only. -/
lemma queue_unique (L : Linked P free qs out) {q q' : Fin n} {i : Fin m} (hi : i ∈ qs q)
    (hi' : i ∈ qs q') : q = q' := by
  by_contra hne
  have h := L.partition i
  have h₁ := List.count_pos_iff.mpr hi
  have h₂ := List.count_pos_iff.mpr hi'
  have h₃ : ∑ x ∈ {q, q'}, (qs x).count i ≤ ∑ x, (qs x).count i :=
    Finset.sum_le_sum_of_subset (Finset.subset_univ _)
  rw [Finset.sum_pair hne] at h₃
  omega

/-- A queue has at most `m` nodes. -/
lemma length_queue_le (L : Linked P free qs out) (q : Fin n) : (qs q).length ≤ m := by
  have h := (L.queue_chain q).nodup.length_le_card
  rwa [Fintype.card_fin] at h

/-- The queue computed from the pointers is the one represented. -/
lemma queue_eq (L : Linked P free qs out) (q : Fin n) : P.queue q = qs q :=
  (L.queue_chain q).walk_eq (L.length_queue_le q)

/-- The link that leads to what follows the prefix `pre` of queue `q`. -/
def linkAfter (q : Fin n) (pre : List (Fin m)) : Link m n :=
  match pre.getLast? with
  | none => .head q
  | some j => .next j

/-- Storing past a node unlinks it: the node leaves its queue and is held outside.

**Proof sketch.** The link stored to is the head of the queue when the node is the first one,
and the `next` field of the node before it otherwise; that node is on no other list. -/
lemma unlink (L : Linked P free qs out) {q : Fin n} {pre post : List (Fin m)} {i : Fin m}
    (hq : qs q = pre ++ i :: post) :
    Linked (P.store (linkAfter q pre) (P.next i)) free (Function.update qs q (pre ++ post))
      (i :: out) := by
  have hpart : ∀ x, free.count x + ∑ q', (Function.update qs q (pre ++ post) q').count x +
      (i :: out).count x = 1 := by
    intro x
    have h := L.partition x
    have hs := sum_update qs (List.count x) q (pre ++ post)
    rw [hq] at hs
    simp only [List.count_append, List.count_cons] at hs ⊢
    omega
  have hc := L.queue_chain q
  rw [hq] at hc
  have hi : i ∈ qs q := by simp [hq]
  rcases List.eq_nil_or_concat pre with rfl | ⟨pre', j, rfl⟩
  · refine ⟨L.free_chain, fun q' => ?_, hpart⟩
    by_cases hqq : q' = q
    · subst hqq
      simpa [linkAfter, store] using hc.2
    · simpa [linkAfter, store, Function.update_of_ne hqq] using L.queue_chain q'
  · simp only [List.concat_eq_append, List.append_assoc, List.singleton_append] at hq hc hpart ⊢
    have hj : j ∈ qs q := by simp [hq]
    have hlink : linkAfter (n := n) q (pre' ++ [j]) = .next j := by simp [linkAfter]
    rw [hlink]
    refine ⟨L.free_chain.update (L.notMem_free hj) _, fun q' => ?_, hpart⟩
    by_cases hqq : q' = q
    · subst hqq
      rw [Function.update_self]
      have hjp : j ∉ post := by
        have hn := hc.nodup
        simp only [List.nodup_append, List.nodup_cons, List.mem_cons, not_or] at hn
        exact hn.2.1.1.2
      have hc' : Chain P.next (P.qh q') ((pre' ++ [j]) ++ i :: post) := by simpa using hc
      exact hc.splice hc'.suffix.2 hjp
    · rw [Function.update_of_ne hqq]
      exact (L.queue_chain q').update (fun hm => hqq (L.queue_unique hm hj)) _

/-- Pushing a node held outside on the free list. -/
lemma release {i : Fin m} {out₁ out₂ : List (Fin m)} (L : Linked P free qs (out₁ ++ i :: out₂)) :
    Linked (P.release i) (i :: free) qs (out₁ ++ out₂) := by
  obtain ⟨hf, hq⟩ := L.notMem_of_mem_out (i := i) (by simp)
  refine ⟨⟨rfl, ?_⟩, fun q => (L.queue_chain q).update (hq q) _, fun x => ?_⟩
  · simp only [Pool.release, Function.update_self]
    exact L.free_chain.update hf _
  · have h := L.partition x
    simp only [List.count_append, List.count_cons] at h ⊢
    omega

/-- The search for a link, when a node with property `p` is on the chain ahead. -/
lemma findLink_some (P : Pool m n) (p : Fin m → Bool) {i : Fin m} {post : List (Fin m)}
    (hp : p i = true) :
    ∀ (pre : List (Fin m)) (fuel : ℕ) (pp : Link m n),
      Chain P.next (P.deref pp) (pre ++ i :: post) → (∀ j ∈ pre, p j = false) →
      pre.length < fuel →
      P.findLink p fuel pp = some (match pre.getLast? with | none => pp | some j => .next j, i) := by
  intro pre
  induction pre with
  | nil =>
    intro fuel pp c _ hf
    obtain ⟨fuel, rfl⟩ : ∃ f, fuel = f + 1 := ⟨fuel - 1, by simp at hf; omega⟩
    rw [findLink, c.1]
    simp [hp]
  | cons j pre ih =>
    intro fuel pp c hpre hf
    obtain ⟨fuel, rfl⟩ : ∃ f, fuel = f + 1 := ⟨fuel - 1, by simp at hf; omega⟩
    have hj : p j = false := hpre j (by simp)
    have hrec := ih fuel (.next j) c.2 (fun x hx => hpre x (by simp [hx]))
      (by simpa using hf)
    rw [findLink, c.1]
    simp only [hj, Bool.false_eq_true, if_false, hrec]
    rcases List.eq_nil_or_concat pre with rfl | ⟨pre', k, rfl⟩
    · rfl
    · simp [List.getLast?_append, List.getLast?_cons]

/-- The search for a link, when no node ahead has property `p`. -/
lemma findLink_none (P : Pool m n) (p : Fin m → Bool) :
    ∀ (l : List (Fin m)) (fuel : ℕ) (pp : Link m n), Chain P.next (P.deref pp) l →
      (∀ j ∈ l, p j = false) → P.findLink p fuel pp = none := by
  intro l
  induction l with
  | nil =>
    intro fuel pp c _
    simp only [Chain] at c
    cases fuel <;> simp [findLink, c]
  | cons j l ih =>
    intro fuel pp c hl
    cases fuel with
    | zero => rfl
    | succ fuel =>
      rw [findLink, c.1]
      simp only [hl j (by simp), Bool.false_eq_true, if_false]
      exact ih fuel (.next j) c.2 fun x hx => hl x (by simp [hx])

/-- The link after a prefix of a queue leads to the first node of the rest. -/
lemma deref_linkAfter (L : Linked P free qs out) {q : Fin n} {pre rest : List (Fin m)}
    (hq : qs q = pre ++ rest) : P.deref (linkAfter q pre) = rest.head? := by
  have hc := L.queue_chain q
  rw [hq] at hc
  have hd : ∀ {h : Option (Fin m)} {l : List (Fin m)}, Chain P.next h l → h = l.head? := by
    intro h l c
    cases l with
    | nil => exact c
    | cons i l => exact c.1
  rcases List.eq_nil_or_concat pre with rfl | ⟨pre', j, rfl⟩
  · exact hd hc
  · simp only [List.concat_eq_append, List.append_assoc, List.singleton_append] at hc ⊢
    simp only [linkAfter, List.getLast?_append, List.getLast?_singleton, Option.some_or, deref]
    exact hd hc.suffix.2

/-- Purging the rest of a queue moves its dead nodes to the free list, last one first, and leaves
the others linked.

**Proof sketch.** Induction on the rest. A dead node is unlinked (`unlink`) and released, and the
loop stays at the same link; a live one is passed over and joins the prefix. -/
lemma purgeFrom (dead : Fin m → Bool) (q : Fin n) :
    ∀ (rest : List (Fin m)) (fuel : ℕ) (P : Pool m n) (free : List (Fin m))
      (qs : Fin n → List (Fin m)) (pre : List (Fin m)), Linked P free qs out →
      qs q = pre ++ rest → rest.length < fuel →
      Linked (purgeFrom dead fuel (linkAfter q pre) P) ((rest.filter dead).reverse ++ free)
          (Function.update qs q (pre ++ rest.filter fun i => !dead i)) out ∧
        (Pool.purgeFrom dead fuel (linkAfter q pre) P).qt = P.qt ∧
        (Pool.purgeFrom dead fuel (linkAfter q pre) P).count =
          P.count - (rest.filter dead).length := by
  intro rest
  induction rest with
  | nil =>
    intro fuel P free qs pre L hq hf
    obtain ⟨fuel, rfl⟩ : ∃ f, fuel = f + 1 := ⟨fuel - 1, by simp at hf; omega⟩
    rw [Pool.purgeFrom, L.deref_linkAfter hq]
    have hu : Function.update qs q pre = qs := by
      conv_rhs => rw [← Function.update_eq_self q qs, hq, List.append_nil]
    simpa [hu] using L
  | cons it rest ih =>
    intro fuel P free qs pre L hq hf
    obtain ⟨fuel, rfl⟩ : ∃ f, fuel = f + 1 := ⟨fuel - 1, by simp at hf; omega⟩
    have hf' : rest.length < fuel := by simpa using hf
    rw [Pool.purgeFrom, L.deref_linkAfter hq]
    simp only [List.head?_cons]
    by_cases hd : dead it = true
    · have L₀ : Linked (P.store (linkAfter q pre) (P.next it)) free
          (Function.update qs q (pre ++ rest)) ([] ++ it :: out) := L.unlink hq
      have L₁ := L₀.release
      have hq₁ : Function.update qs q (pre ++ rest) q = pre ++ rest := Function.update_self ..
      set P₁ := (P.store (linkAfter q pre) (P.next it)).release it with hP₁
      have L₂ : Linked { P₁ with count := P₁.count - 1 } (it :: free)
          (Function.update qs q (pre ++ rest)) out :=
        ⟨L₁.free_chain, L₁.queue_chain, by simpa using L₁.partition⟩
      have hqt : P₁.qt = P.qt := by
        rw [hP₁]; cases linkAfter (n := n) q pre <;> rfl
      have hcnt : P₁.count = P.count := by
        rw [hP₁]; cases linkAfter (n := n) q pre <;> rfl
      obtain ⟨h₁, h₂, h₃⟩ := ih fuel _ _ _ pre L₂ hq₁ hf'
      simp only [hd, if_true]
      refine ⟨?_, h₂.trans hqt, ?_⟩
      · simpa [hd, Function.update_idem] using h₁
      · rw [h₃]
        simp only [hcnt, hd, List.filter_cons_of_pos, List.length_cons, Nat.cast_add, Nat.cast_one]
        omega
    · have hlink : (Link.next it : Link m n) = linkAfter q (pre ++ [it]) := by
        simp [linkAfter]
      obtain ⟨h₁, h₂, h₃⟩ := ih fuel P free qs (pre ++ [it]) L (by simpa using hq) hf'
      simp only [hd, Bool.false_eq_true, if_false, hlink]
      refine ⟨?_, h₂, ?_⟩
      · simpa [hd] using h₁
      · simpa [hd] using h₃

end Linked

namespace Rep

variable {P : Pool m n} {free out : List (Fin m)} {qs : Fin n → List (Fin m)}

/-- When a queue has no node with property `p`, nothing is taken from it. -/
lemma takeFrom_none (R : Rep P free qs out) (p : Fin m → Bool) {q : Fin n}
    (h : ∀ i ∈ qs q, p i = false) : P.takeFrom p q = none := by
  have hf := Linked.findLink_none P p (qs q) (m + 1) (.head q) (R.queue_chain q) h
  rw [takeFrom, hf]

/-- Taking the first node with property `p` from a queue unlinks it and keeps the tail right.

**Proof sketch.** `Linked.findLink_some` finds the link, `Linked.unlink` says what storing to it
does. If the node was the tail, the loop recomputes it; if it was not, some node follows it in
the queue and the last node stays the last. -/
lemma takeFrom_some (R : Rep P free qs out) (p : Fin m → Bool) {q : Fin n}
    {pre post : List (Fin m)} {i : Fin m} (hq : qs q = pre ++ i :: post)
    (hpre : ∀ j ∈ pre, p j = false) (hi : p i = true) :
    ∃ P', P.takeFrom p q = some (i, P') ∧ P'.count = P.count ∧
      Linked P' free (Function.update qs q (pre ++ post)) (i :: out) ∧
      ∀ q', P'.qt q' = (Function.update qs q (pre ++ post) q').getLast? := by
  have hlen := R.length_queue_le q
  have hc := R.queue_chain q
  rw [hq] at hlen hc
  have hf := Linked.findLink_some P p hi pre (m + 1) (.head q) hc hpre
    (by simp at hlen; omega)
  have hL := R.toLinked.unlink hq
  have hlink : (match pre.getLast? with | none => (.head q : Link m n) | some j => .next j) =
      Linked.linkAfter q pre := rfl
  rw [hlink] at hf
  set P₁ := P.store (Linked.linkAfter q pre) (P.next i) with hP₁
  have hqt : P₁.qt = P.qt := by
    rw [hP₁]
    cases Linked.linkAfter (n := n) q pre <;> rfl
  have hcount : P₁.count = P.count := by
    rw [hP₁]
    cases Linked.linkAfter (n := n) q pre <;> rfl
  have hother : ∀ q', q' ≠ q → P.qt q' = (Function.update qs q (pre ++ post) q').getLast? := by
    intro q' hne
    rw [Function.update_of_ne hne]
    exact R.tail q'
  by_cases ht : P₁.qt q = some i
  · refine ⟨{ P₁ with qt := Function.update P₁.qt q (lastFrom P₁.next m (P₁.qh q)) }, ?_,
      hcount, ⟨hL.free_chain, hL.queue_chain, hL.partition⟩, fun q' => ?_⟩
    · simp only [takeFrom, hf, ← hP₁, ht, if_true]
    · by_cases hne : q' = q
      · subst hne
        have hlast := (hL.queue_chain q').lastFrom_eq (hL.length_queue_le q')
        simp only [Function.update_self] at hlast ⊢
        exact hlast
      · simp only [Function.update_of_ne hne, hqt]
        simpa [Function.update_of_ne hne] using hother q' hne
  · refine ⟨P₁, ?_, hcount, hL, fun q' => ?_⟩
    · simp only [takeFrom, hf, ← hP₁, ht, if_false]
    · rw [hqt] at ht ⊢
      by_cases hne : q' = q
      · subst hne
        rw [Function.update_self, R.tail q', hq]
        rw [R.tail q', hq] at ht
        rcases List.eq_nil_or_concat post with rfl | ⟨post', k, rfl⟩
        · simp at ht
        · simp [List.getLast?_append, List.getLast?_cons]
      · exact hother q' hne

/-- When nothing is taken from a queue, none of its nodes has property `p`. -/
lemma notProp_of_takeFrom_none (R : Rep P free qs out) (p : Fin m → Bool) {q : Fin n}
    (h : P.takeFrom p q = none) : ∀ i ∈ qs q, p i = false := by
  intro i hi
  by_contra hpi
  have hsome : ((qs q).find? p).isSome := by
    rw [List.find?_isSome]
    exact ⟨i, hi, by simpa using hpi⟩
  obtain ⟨x, hx⟩ := Option.isSome_iff_exists.mp hsome
  obtain ⟨hpx, as, bs, hl, has⟩ := List.find?_eq_some_iff_append.mp hx
  obtain ⟨P', hP', -⟩ := R.takeFrom_some p hl (fun j hj => by simpa using has j hj) hpx
  rw [hP'] at h
  simp at h

/-- When nothing is taken, no queued node has property `p`. -/
lemma notProp_of_take_none (R : Rep P free qs out) {p : Fin m → Bool} (h : P.take p = none) :
    ∀ q, ∀ i ∈ qs q, p i = false := by
  simp only [take, Option.map_eq_none_iff, List.findSome?_eq_none_iff] at h
  exact fun q => R.notProp_of_takeFrom_none p (h q (List.mem_finRange q))

/-- **Taking a node.** The node taken has property `p`, is the first such node of its queue, and no
node of an earlier queue has the property; it leaves its queue and is held outside.

**Proof sketch.** The loop over the queues stops at the first queue with such a node, so no earlier
queue has one (`takeFrom_none`); in that queue `takeFrom_some` says what is unlinked, and the count
goes down with the length of the queue. -/
lemma take_some (R : Rep P free qs out) (p : Fin m → Bool) {i : Fin m} {P' : Pool m n}
    (h : P.take p = some (i, P')) :
    ∃ q pre post, qs q = pre ++ i :: post ∧ p i = true ∧ (∀ j ∈ pre, p j = false) ∧
      (∀ q' < q, ∀ j ∈ qs q', p j = false) ∧
      Rep P' free (Function.update qs q (pre ++ post)) (i :: out) := by
  simp only [take, Option.map_eq_some_iff] at h
  obtain ⟨⟨i₀, P₀⟩, hfs, he⟩ := h
  simp only [Prod.mk.injEq] at he
  obtain ⟨rfl, rfl⟩ := he
  obtain ⟨l₁, q, l₂, hl, hq, hl₁⟩ := List.findSome?_eq_some_iff.mp hfs
  have hbefore : ∀ q' < q, q' ∈ l₁ := by
    intro q' hlt
    have hmem : q' ∈ l₁ ++ q :: l₂ := hl ▸ List.mem_finRange q'
    have hsort : (l₁ ++ q :: l₂).Pairwise (· < ·) := by
      rw [← hl]
      exact List.pairwise_lt_finRange n
    rcases List.mem_append.mp hmem with hm | hm
    · exact hm
    · have hs := (List.pairwise_append.mp hsort).2.1
      rcases List.mem_cons.mp hm with rfl | hm
      · exact absurd hlt (lt_irrefl _)
      · exact absurd hlt (not_lt.mpr ((List.pairwise_cons.mp hs).1 q' hm).le)
  have hsome : ((qs q).find? p).isSome := by
    by_contra hns
    have hall : ∀ j ∈ qs q, p j = false := by
      simpa using hns
    rw [R.takeFrom_none p hall] at hq
    simp at hq
  obtain ⟨x, hx⟩ := Option.isSome_iff_exists.mp hsome
  obtain ⟨hpx, pre, post, hqs, hpre⟩ := List.find?_eq_some_iff_append.mp hx
  have hpre' : ∀ j ∈ pre, p j = false := fun j hj => by simpa using hpre j hj
  obtain ⟨P₁, hP₁, hcnt, hL, ht⟩ := R.takeFrom_some p hqs hpre' hpx
  rw [hP₁] at hq
  simp only [Option.some.injEq, Prod.mk.injEq] at hq
  obtain ⟨rfl, rfl⟩ := hq
  refine ⟨q, pre, post, hqs, hpx, hpre', fun q' hlt => R.notProp_of_takeFrom_none p ?_,
    ⟨hL.free_chain, hL.queue_chain, hL.partition⟩, ht, ?_⟩
  · simpa using hl₁ q' (hbefore q' hlt)
  · have hs := sum_update qs (fun l => (l.length : ℤ)) q (pre ++ post)
    rw [hqs] at hs
    have hc := R.count_eq
    simp only [List.length_append, List.length_cons, Nat.cast_add, Nat.cast_one] at hs ⊢
    rw [hcnt]
    omega

/-- **Releasing a node** held outside. -/
lemma release {i : Fin m} {out₁ out₂ : List (Fin m)} (R : Rep P free qs (out₁ ++ i :: out₂)) :
    Rep (P.release i) (i :: free) qs (out₁ ++ out₂) :=
  ⟨R.toLinked.release, R.tail, R.count_eq⟩

/-- **Putting a node** of the free list at the end of a queue.

**Proof sketch.** If the queue is empty its head is set; otherwise the last node, which is the
cached tail, gets the new node as successor (`Chain.splice`). -/
lemma put_some (R : Rep P free qs out) {q : Fin n} {i : Fin m} {P' : Pool m n}
    (h : P.put q = some (i, P')) :
    ∃ free', free = i :: free' ∧ Rep P' free' (Function.update qs q (qs q ++ [i])) out := by
  have hfc := R.free_chain
  cases hf : P.freel with
  | none => simp [put, hf] at h
  | some it =>
    rw [hf] at hfc
    cases free with
    | nil => simp [Chain] at hfc
    | cons j free' =>
      obtain ⟨hj, hfc'⟩ := hfc
      obtain rfl : it = j := by simpa using hj
      have hni : it ∉ free' := by
        have hn := R.free_chain.nodup
        exact (List.nodup_cons.mp hn).1
      obtain ⟨hio, hiq⟩ := R.notMem_of_mem_free (i := it) (by simp)
      have hcnt : ∑ q', ((Function.update qs q (qs q ++ [it]) q').length : ℤ) =
          ∑ q', ((qs q').length : ℤ) + 1 := by
        have hs := sum_update qs (fun l => (l.length : ℤ)) q (qs q ++ [it])
        simp only [List.length_append, List.length_singleton, Nat.cast_add, Nat.cast_one] at hs
        omega
      have hpart : ∀ x, free'.count x +
          ∑ q', (Function.update qs q (qs q ++ [it]) q').count x + out.count x = 1 := by
        intro x
        have hp := R.partition x
        have hs := sum_update qs (List.count x) q (qs q ++ [it])
        simp only [List.count_append, List.count_cons, List.count_nil] at hs hp ⊢
        omega
      have htail : ∀ q', (Function.update P.qt q (some it)) q' =
          (Function.update qs q (qs q ++ [it]) q').getLast? := by
        intro q'
        by_cases hne : q' = q
        · subst hne; simp
        · simpa [Function.update_of_ne hne] using R.tail q'
      have ht := R.tail q
      simp only [put, hf] at h
      cases hqt : P.qt q with
      | none =>
        rw [hqt] at ht h
        have hnil : qs q = [] := List.getLast?_eq_none_iff.mp ht.symm
        simp only [Option.some.injEq, Prod.mk.injEq] at h
        obtain ⟨rfl, rfl⟩ := h
        refine ⟨free', rfl, ⟨hfc'.update hni _, fun q' => ?_, hpart⟩, htail, ?_⟩
        · by_cases hne : q' = q
          · subst hne
            simp [hnil, Chain]
          · simp only [Function.update_of_ne hne]
            exact (R.queue_chain q').update (hiq q') _
        · rw [hcnt, ← R.count_eq]
      | some t =>
        rw [hqt] at ht h
        simp only [Option.some.injEq, Prod.mk.injEq] at h
        obtain ⟨rfl, rfl⟩ := h
        obtain ⟨l, hl⟩ : ∃ l, qs q = l ++ [t] := by
          rcases List.eq_nil_or_concat (qs q) with hnil | ⟨l, k, hk⟩
          · simp [hnil] at ht
          · rw [hk] at ht
            simp only [List.concat_eq_append, List.getLast?_append, List.getLast?_singleton,
              Option.some_or, Option.some.injEq] at ht
            exact ⟨l, by rw [hk, ht]; simp⟩
        have htq : t ∈ qs q := by simp [hl]
        have hti : t ≠ it := fun he => hiq q (he ▸ htq)
        refine ⟨free', rfl, ⟨?_, fun q' => ?_, hpart⟩, htail, ?_⟩
        · refine (hfc'.update hni _).update (fun hm => ?_) _
          exact R.notMem_free htq (List.mem_cons_of_mem _ hm)
        · by_cases hne : q' = q
          · subst hne
            have hc := (R.queue_chain q').update (hiq q') none
            rw [hl] at hc
            simp only [Function.update_self, hl, List.append_assoc, List.singleton_append]
            have hnew : Chain (Function.update P.next it none) (some it) [it] :=
              ⟨rfl, by simp [Chain]⟩
            exact hc.splice hnew (by simpa using hti)
          · simp only [Function.update_of_ne hne]
            refine ((R.queue_chain q').update (hiq q') _).update (fun hm => hne ?_) _
            exact R.queue_unique hm htq
        · rw [hcnt, ← R.count_eq]

/-- Purging one queue keeps the representation, with the queue filtered. -/
lemma purgeQueue (R : Rep P free qs out) (dead : Fin m → Bool) (q : Fin n) :
    ∃ free', Rep (purgeQueue dead P q) free'
      (Function.update qs q ((qs q).filter fun i => !dead i)) out := by
  have hlen := R.length_queue_le q
  obtain ⟨hL, hqt, hcnt⟩ := Linked.purgeFrom dead q (qs q) (m + 1) P free qs [] R.toLinked
    (by simp) (by omega)
  simp only [List.nil_append] at hL hcnt
  refine ⟨_, ⟨hL.free_chain, hL.queue_chain, hL.partition⟩, fun q' => ?_, ?_⟩
  · by_cases hne : q' = q
    · subst hne
      have hlast := (hL.queue_chain q').lastFrom_eq (hL.length_queue_le q')
      simpa [Pool.purgeQueue, Linked.linkAfter] using hlast
    · have h := R.tail q'
      simp only [Pool.purgeQueue, Function.update_of_ne hne]
      rw [← h, ← hqt]
      rfl
  · have hs := sum_update qs (fun l => (l.length : ℤ)) q ((qs q).filter fun i => !dead i)
    have hc := R.count_eq
    have hsplit : (qs q).length = ((qs q).filter fun i => !dead i).length +
        ((qs q).filter dead).length := by
      rw [add_comm]
      exact List.length_eq_length_filter_add dead
    have hcnt' : (Pool.purgeQueue dead P q).count = P.count - ((qs q).filter dead).length := hcnt
    rw [hcnt']
    omega

/-- **Purging** the dead nodes of all queues keeps the representation, with every queue filtered. -/
lemma purge (R : Rep P free qs out) (dead : Fin m → Bool) :
    ∃ free', Rep (P.purge dead) free' (fun q => (qs q).filter fun i => !dead i) out := by
  have key : ∀ (l : List (Fin n)) (P : Pool m n) (free : List (Fin m))
      (qs : Fin n → List (Fin m)), Rep P free qs out →
      ∃ free', Rep (l.foldl (Pool.purgeQueue dead) P) free'
        (fun q => if q ∈ l then (qs q).filter fun i => !dead i else qs q) out := by
    intro l
    induction l with
    | nil => exact fun P free qs R => ⟨free, by simpa using R⟩
    | cons q l ih =>
      intro P free qs R
      obtain ⟨free₁, R₁⟩ := R.purgeQueue dead q
      obtain ⟨free₂, R₂⟩ := ih _ _ _ R₁
      refine ⟨free₂, ?_⟩
      rw [List.foldl_cons]
      convert R₂ using 1
      funext q'
      by_cases hne : q' = q
      · subst hne
        simp [List.filter_filter]
      · simp [hne]
  obtain ⟨free', R'⟩ := key (List.finRange n) P free qs R
  exact ⟨free', by simpa [Pool.purge] using R'⟩

/-! ### What the queues hold afterwards -/

/-- What is taken was in a queue. -/
lemma exists_mem_of_take (R : Rep P free qs out) {p : Fin m → Bool} {i : Fin m} {P' : Pool m n}
    (h : P.take p = some (i, P')) : ∃ q, i ∈ qs q := by
  obtain ⟨q, pre, post, hq, -⟩ := R.take_some p h
  exact ⟨q, by rw [hq]; simp⟩

/-- Taking a node puts nothing into the queues. -/
lemma mem_queue_of_take (R : Rep P free qs out) {p : Fin m → Bool} {i : Fin m} {P' : Pool m n}
    (h : P.take p = some (i, P')) {q : Fin n} {j : Fin m} (hj : j ∈ P'.queue q) : j ∈ qs q := by
  obtain ⟨q₀, pre, post, hq, -, -, -, R'⟩ := R.take_some p h
  rw [R'.queue_eq q] at hj
  by_cases hqq : q = q₀
  · subst hqq
    rw [Function.update_self] at hj
    rw [hq]
    rcases List.mem_append.mp hj with hj | hj
    · exact List.mem_append_left _ hj
    · exact List.mem_append_right _ (List.mem_cons_of_mem _ hj)
  · rwa [Function.update_of_ne hqq] at hj

/-- What is put is in its queue. -/
lemma mem_queue_put (R : Rep P free qs out) {q : Fin n} {i : Fin m} {P' : Pool m n}
    (h : P.put q = some (i, P')) : i ∈ P'.queue q := by
  obtain ⟨free', -, R'⟩ := R.put_some h
  rw [R'.queue_eq q, Function.update_self]
  exact List.mem_append_right _ (List.mem_singleton.mpr rfl)

/-- After putting a node, every queue holds what it held, and the one it was put on also the node. -/
lemma mem_queue_of_put (R : Rep P free qs out) {q : Fin n} {i : Fin m} {P' : Pool m n}
    (h : P.put q = some (i, P')) {q' : Fin n} {j : Fin m} (hj : j ∈ P'.queue q') :
    j ≠ i ∧ j ∈ qs q' ∨ j = i ∧ q' = q := by
  obtain ⟨free', hfree, R'⟩ := R.put_some h
  have hnot := (R.notMem_of_mem_free (i := i) (by rw [hfree]; exact List.mem_cons_self)).2
  rw [R'.queue_eq q'] at hj
  by_cases hq : q' = q
  · subst hq
    rw [Function.update_self] at hj
    rcases List.mem_append.mp hj with hj | hj
    · exact Or.inl ⟨fun he => hnot _ (he ▸ hj), hj⟩
    · exact Or.inr ⟨List.mem_singleton.mp hj, rfl⟩
  · rw [Function.update_of_ne hq] at hj
    exact Or.inl ⟨fun he => hnot _ (he ▸ hj), hj⟩

/-- What is left after a purge was there and is not dead. -/
lemma mem_queue_of_purge (R : Rep P free qs out) {dead : Fin m → Bool} {q : Fin n} {j : Fin m}
    (hj : j ∈ (P.purge dead).queue q) : j ∈ qs q ∧ dead j = false := by
  obtain ⟨free', R'⟩ := R.purge dead
  rw [R'.queue_eq q, List.mem_filter] at hj
  simpa using hj

end Rep

end Pool

end Intrusive

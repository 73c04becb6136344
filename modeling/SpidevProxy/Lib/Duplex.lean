import Mathlib.Data.List.Basic

set_option relaxedAutoImplicit false
set_option autoImplicit false

/-!
# Conversations over a connection

A client and a server talk over a connection that keeps the order of messages in both directions. A
conversation is the list of what both do, in the order in which it happens: the client calls, the server
takes the call, the server replies, the client gets the reply. Each side sees its own part only.

## Main definitions

* `Duplex.Act` — what the two sides do.
* `Duplex.Ordered` — nothing is taken that was not sent before, and in that order.
* `Duplex.dialogue` — the part of a client that waits for each reply before its next call.

## Main results

* `Duplex.Ordered.lockstep` — the server of such a client has sent a reply to all calls it has taken when it
  takes the next one.
* `Duplex.Ordered.complete` — it has taken no other calls, and it has sent all the replies.
-/

namespace Duplex

variable {α β : Type*}

/-- What the client and the server do. -/
inductive Act (α β : Type*)
  | call (a : α)
  | take (a : α)
  | reply (b : β)
  | got (b : β)

/-- The calls. -/
def calls (s : List (Act α β)) : List α := s.filterMap fun
  | .call a => some a
  | _ => none

/-- The calls taken. -/
def takes (s : List (Act α β)) : List α := s.filterMap fun
  | .take a => some a
  | _ => none

/-- The replies. -/
def replies (s : List (Act α β)) : List β := s.filterMap fun
  | .reply b => some b
  | _ => none

/-- The replies received. -/
def gots (s : List (Act α β)) : List β := s.filterMap fun
  | .got b => some b
  | _ => none

/-- What the client does. -/
def Act.ofClient : Act α β → Bool
  | .call _ => true
  | .got _ => true
  | _ => false

/-- What the server does. -/
def Act.ofServer : Act α β → Option (α ⊕ β)
  | .take a => some (.inl a)
  | .reply b => some (.inr b)
  | _ => none

/-- At any time, what has arrived is the first part of what was sent. -/
def Ordered (s : List (Act α β)) : Prop :=
  ∀ p q, s = p ++ q → takes p <+: calls p ∧ gots p <+: replies p

/-- A client that waits for each reply before its next call. -/
def dialogue (xs : List (α × β)) : List (Act α β) := xs.flatMap fun x => [.call x.1, .got x.2]

/-- Such a client is at most one reply short. -/
lemma length_calls_le {xs : List (α × β)} {l : List (Act α β)} (h : l <+: dialogue xs) :
    (calls l).length ≤ (gots l).length + 1 := by
  induction xs generalizing l with
  | nil =>
    rw [List.prefix_nil.mp h]
    exact Nat.zero_le _
  | cons x xs ih =>
    rw [dialogue, List.flatMap_cons, List.cons_append, List.cons_append, List.nil_append] at h
    match l, h with
    | [], _ => exact Nat.zero_le _
    | [_], h =>
      obtain ⟨rfl, -⟩ := List.cons_prefix_cons.mp h
      exact Nat.le_refl _
    | _ :: _ :: l, h =>
      obtain ⟨rfl, hgot⟩ := List.cons_prefix_cons.mp h
      obtain ⟨rfl, hrest⟩ := List.cons_prefix_cons.mp hgot
      exact Nat.succ_le_succ (ih hrest)

/-- The calls and the replies received are the client's part. -/
lemma calls_filter (s : List (Act α β)) : calls (s.filter Act.ofClient) = calls s := by
  rw [calls, List.filterMap_filter]
  refine List.filterMap_congr fun e _ => ?_
  cases e <;> rfl

/-- What the client gets is in its own part of the history. -/
lemma gots_filter (s : List (Act α β)) : gots (s.filter Act.ofClient) = gots s := by
  rw [gots, List.filterMap_filter]
  refine List.filterMap_congr fun e _ => ?_
  cases e <;> rfl

/-- The calls taken and the replies are the server's part. -/
lemma filterMap_getLeft (s : List (Act α β)) :
    (s.filterMap Act.ofServer).filterMap Sum.getLeft? = takes s := by
  rw [List.filterMap_filterMap, takes]
  refine List.filterMap_congr fun e _ => ?_
  cases e <;> rfl

/-- What the server replies is in its own part. -/
lemma filterMap_getRight (s : List (Act α β)) :
    (s.filterMap Act.ofServer).filterMap Sum.getRight? = replies s := by
  rw [List.filterMap_filterMap, replies]
  refine List.filterMap_congr fun e _ => ?_
  cases e <;> rfl

/-- The calls of a dialogue, -/
lemma calls_dialogue (xs : List (α × β)) : calls (dialogue xs) = xs.map Prod.fst := by
  induction xs with
  | nil => rfl
  | cons x xs ih => exact congrArg (x.1 :: ·) ih

/-- and what they get. -/
lemma gots_dialogue (xs : List (α × β)) : gots (dialogue xs) = xs.map Prod.snd := by
  induction xs with
  | nil => rfl
  | cons x xs ih => exact congrArg (x.2 :: ·) ih

namespace Ordered

variable {s : List (Act α β)} {xs : List (α × β)}

/-- **The server is in step**: when it takes a call, it has replied to all calls it has taken before.

**Proof sketch.** The call was made before, so one more call was made than taken so far. The client has
got all replies but one at most, and these were sent. -/
lemma lockstep (h : Ordered s) (hx : s.filter Act.ofClient = dialogue xs) {pre post : List (α ⊕ β)} {a : α}
    (hs : s.filterMap Act.ofServer = pre ++ .inl a :: post) :
    (pre.filterMap Sum.getLeft?).length ≤ (pre.filterMap Sum.getRight?).length := by
  obtain ⟨p, q, rfl, hp, hq⟩ := List.filterMap_eq_append_iff.mp hs
  obtain ⟨q₁, e, q₂, rfl, hq₁, he, -⟩ := List.filterMap_eq_cons_iff.mp hq
  have htake : e = .take a := by
    cases e with
    | take a' =>
      simp only [Act.ofServer, Option.some.injEq, Sum.inl.injEq] at he
      rw [he]
    | _ => simp [Act.ofServer] at he
  subst htake
  have hnone : (p ++ q₁).filterMap Act.ofServer = pre := by
    rw [List.filterMap_append, hp, List.filterMap_eq_nil_iff.mpr hq₁, List.append_nil]
  obtain ⟨htakes, -⟩ := h (p ++ q₁ ++ [.take a]) q₂ (by simp)
  obtain ⟨-, hgots⟩ := h (p ++ q₁) (.take a :: q₂) (by simp)
  have hcalls : (calls (p ++ q₁)).length ≤ (gots (p ++ q₁)).length + 1 := by
    rw [← calls_filter, ← gots_filter]
    refine @length_calls_le _ _ xs _ ?_
    rw [← hx, ← List.append_assoc]
    exact (List.prefix_append (p ++ q₁) (.take a :: q₂)).filter _
  have h₁ : takes (p ++ q₁ ++ [.take a]) = takes (p ++ q₁) ++ [a] := List.filterMap_append
  have h₂ : calls (p ++ q₁ ++ [.take a]) = calls (p ++ q₁) := by
    rw [calls, List.filterMap_append]
    exact List.append_nil _
  have hle₁ := htakes.length_le
  have hle₂ := hgots.length_le
  rw [h₁, h₂, List.length_append, List.length_singleton] at hle₁
  rw [← hnone, filterMap_getLeft, filterMap_getRight]
  omega

/-- What the server of such a client has taken, and what it has sent. -/
lemma complete (h : Ordered s) (hx : s.filter Act.ofClient = dialogue xs) :
    takes s <+: xs.map Prod.fst ∧ xs.map Prod.snd <+: replies s := by
  have hs := h s [] (List.append_nil s).symm
  rwa [← calls_filter, ← gots_filter, hx, calls_dialogue, gots_dialogue] at hs

end Ordered

end Duplex

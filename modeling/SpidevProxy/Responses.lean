import Mathlib.Data.List.Perm.Subperm
import SpidevProxy.Ledger
import SpidevProxy.Refinement

set_option relaxedAutoImplicit false
set_option autoImplicit false

/-!
# One response for each request

Every datagram received on a connection is owed one response on that connection: as long as the
connection is open, the datagrams received on it are those answered on it and those still queued or
being executed. What is owed is a list in the state of the protocol to which a reception adds an
entry and from which an answer takes one away; the datagrams on both sides are told apart by their
numbers.

## Main definitions

* `Spid.Abs.owed` — the responses owed, with the slots they are owed to.
* `Spid.Accounts` — what was received, what was answered and what is owed, connection by connection.

## Main results

* `Spid.Step.owed` — how each transition changes what is owed.
* `Spid.Run.accounts` — the accounts balance along every run.
* `Spid.one_response` — exactly one response for each request, to its sender.
-/

namespace Spid

open History

/-! ## What is owed -/

/-- What tells a response: the number of the datagram, and `seq` and `type` of the response. -/
abbrev Key : Type := ℕ × UInt32 × UInt8

/-- The response owed for a datagram. -/
def msgKey (rid : ℕ) (msg : List UInt8) : Key :=
  (rid, (frameHdr msg).seq, (frameHdr msg).type ||| respBit)

/-- The response owed for a request. -/
def Req.key (r : Req) : Key := (r.rid, r.hdr.seq, r.hdr.type ||| respBit)

/-- The response owed for the datagram being framed. -/
def Abs.framing (a : Abs) : List (Slot × Key) :=
  match a.act with
  | .received rid c msg => [(c, msgKey rid msg)]
  | _ => []

/-- The responses owed, with the slots they are owed to. -/
def Abs.owed (a : Abs) : List (Slot × Key) := a.framing ++ a.live.map fun r => (r.c, r.key)

/-- The header of a datagram that passes the framing check. -/
lemma frameHdr_of_ok {msg : List UInt8} (h : frameOk msg = true) :
    frameHdr msg = Hdr.decode msg :=
  if_pos (frameOk_len h).2.2

/-- The datagram being framed, before and after an event. -/
def FramingStep (a : Abs) (e : Event) (a' : Abs) : Prop :=
  match e with
  | .recv rid c _ msg => a.framing = [] ∧ a'.framing = [(c, msgKey rid msg)]
  | .send _ _ _ _ _ _ _ => a'.framing = []
  | .enqueue _ _ _ => a'.framing = []
  | _ => a'.framing = a.framing

/-- A step of the protocol is one of the framing. -/
lemma Step.framing {rst : Bool} {a a' : Abs} {e : Event} (h : Step rst a e a') :
    FramingStep a e a' := by
  cases h with
  | note hn => cases e <;> simp [Event.isNote] at hn <;> rfl
  | connect _ _ _ => rfl
  | disconnect _ _ _ _ => rfl
  | recv hact _ _ _ => exact ⟨by simp [Abs.framing, hact], rfl⟩
  | reject _ _ _ => rfl
  | enqueue _ _ => rfl
  | claimEnd hact _ _ _ =>
    cases a.claim.cleanup <;> simp [FramingStep, Abs.framing, Abs.cleaning, hact]
  | @cleanupAccess rid c op todo val ok hact _ _ =>
    cases todo <;> simp [FramingStep, Abs.framing, Abs.cleaning, hact]
  | @cleanupRefused rid c op todo st hact _ =>
    cases todo <;> simp [FramingStep, Abs.framing, Abs.cleaning, hact]
  | poll _ _ _ => rfl
  | send _ _ _ => rfl
  | dispatch hact _ _ _ _ => simp [FramingStep, Abs.framing, hact]
  | access hact _ => simp [FramingStep, Abs.framing, hact]
  | doorbell hact => simp [FramingStep, Abs.framing, hact]
  | wake hact _ _ => simp [FramingStep, Abs.framing, hact]
  | refused hact _ _ _ _ => simp [FramingStep, Abs.framing, hact]
  | mbSet hact => simp [FramingStep, Abs.framing, hact]
  | mbClear hact => simp [FramingStep, Abs.framing, hact]
  | grant hact _ _ _ => simp [FramingStep, Abs.framing, hact]
  | release hact _ _ => simp [FramingStep, Abs.framing, hact]
  | reset hact _ _ _ => simp [FramingStep, Abs.framing, hact]

/-- What an event does to what is owed. -/
def OwedStep (a : Abs) (e : Event) (a' : Abs) : Prop :=
  match e with
  | .recv rid c fd msg => a.conn c = some fd ∧ a'.owed.Perm ((c, msgKey rid msg) :: a.owed)
  | .send rid c fd type _ seq _ => a.conn c = some fd ∧ a.owed.Perm ((c, rid, seq, type) :: a'.owed)
  | .disconnect c _ => a'.owed = a.owed.filter fun p => !decide (p.1 = c)
  | _ => a'.owed.Perm a.owed

/-- **How each transition changes what is owed**: a datagram adds a response, an answer takes one
away, a disconnect drops those of its client; otherwise they stay.

**Proof sketch.** What is owed is for the datagram being framed and for the live requests, and
`Step.framing` and `Step.live` say how these change. A datagram that is enqueued goes from the
first to the second with the same key. -/
lemma Step.owed {rst : Bool} {a a' : Abs} {e : Event} (h : Step rst a e a') : OwedStep a e a' := by
  have hf := h.framing
  have hl := h.live
  -- the live requests and the datagram being framed stay as they are
  have hsame : a'.framing = a.framing → a'.live.Perm a.live → a'.owed.Perm a.owed := by
    intro hf hl
    rw [Abs.owed, Abs.owed, hf]
    exact List.Perm.append_left _ (hl.map _)
  cases e with
  | recv rid c fd msg =>
    obtain ⟨h₀, h₁⟩ := hf
    refine ⟨h.recv_inv.2.2.1, ?_⟩
    rw [Abs.owed, Abs.owed, h₀, h₁]
    exact (List.Perm.map _ hl).cons _
  | enqueue en body o =>
    obtain ⟨msg, hact, hok, -, hreq⟩ := h.enqueue_inv
    have hf' : a'.framing = [] := hf
    have hf₀ : a.framing = [(en.c, msgKey en.rid msg)] := by simp [Abs.framing, hact]
    have hkey : Req.key ⟨en, body⟩ = msgKey en.rid msg := by
      rw [hreq, msgKey, frameHdr_of_ok hok]
      rfl
    have hp : a'.live.Perm (⟨en, body⟩ :: a.live) := hl
    change a'.owed.Perm a.owed
    rw [Abs.owed, Abs.owed, hf', hf₀, ← hkey]
    exact hp.map _
  | send rid c fd type st seq body =>
    cases h with
    | note hn => simp [Event.isNote] at hn
    | reject hact hc _ =>
      refine ⟨hc, ?_⟩
      simp [Abs.owed, Abs.framing, Abs.live, Abs.executing, Abs.queued, hact, msgKey]
    | send hact hc _ =>
      refine ⟨hc, ?_⟩
      simp [Abs.owed, Abs.framing, Abs.live, Abs.executing, Abs.queued, hact, Req.key]
  | disconnect c fd =>
    have hf' : a'.framing = a.framing := hf
    have hl' : a'.live = a.live.filter fun r => !decide (r.c = c) := hl
    cases h with
    | note hn => simp [Event.isNote] at hn
    | disconnect hact _ _ _ =>
      have hf₀ : a.framing = [] := by simp [Abs.framing, hact]
      simp only [OwedStep]
      rw [Abs.owed, hf', hl', Abs.owed, hf₀, List.nil_append, List.nil_append, List.filter_map]
      rfl
  | connect c fd => exact hsame hf hl
  | dispatch en body o w q => exact hsame hf hl
  | access x => exact hsame hf hl
  | refused agent op st => exact hsame hf hl
  | grant en d ops => exact hsame hf hl
  | claimEnd rid c how => exact hsame hf hl
  | mbSet rid c was => exact hsame hf hl
  | mbClear rid c => exact hsame hf hl
  | reset en o w x y => exact hsame hf hl
  | opLine agent line => exact hsame hf hl
  | warn w => exact hsame hf hl

/-! ## Connections -/

section

variable {rst : Bool} {a a' : Abs} {e : Event}

/-- A connection that is open was open, or has just got the next number. -/
lemma Step.conn_sub (h : Step rst a e a') {c : Slot} {fd : ℕ} (hc : a'.conn c = some fd) :
    a.conn c = some fd ∨
      fd = a.nConn ∧ e = .connect c fd ∧ a'.nConn = a.nConn + 1 ∧ a.conn c = none := by
  cases h with
  | @connect d hact hw hd =>
    dsimp only at hc
    by_cases hcd : c = d
    · subst hcd
      rw [Function.update_self, Option.some.injEq] at hc
      exact Or.inr ⟨hc.symm, by rw [hc], rfl, hd⟩
    · rw [Function.update_of_ne hcd] at hc
      exact Or.inl hc
  | @disconnect d fd' hact hw hd ho =>
    dsimp only at hc
    by_cases hcd : c = d
    · subst hcd
      rw [Function.update_self] at hc
      exact absurd hc (by simp)
    · rw [Function.update_of_ne hcd] at hc
      exact Or.inl hc
  | claimEnd => exact Or.inl (by rwa [Abs.cleaning_conn] at hc)
  | cleanupAccess => exact Or.inl (by rwa [Abs.cleaning_conn] at hc)
  | cleanupRefused => exact Or.inl (by rwa [Abs.cleaning_conn] at hc)
  | _ => exact Or.inl hc

/-- An open connection stays open until its client is dropped. -/
lemma Step.conn_keep (h : Step rst a e a') {c : Slot} {fd : ℕ} (hc : a.conn c = some fd) :
    a'.conn c = some fd ∨ e = .disconnect c fd := by
  cases h with
  | @connect d hact hw hd =>
    have hcd : c ≠ d := by
      rintro rfl
      rw [hc] at hd
      exact absurd hd (by simp)
    exact Or.inl ((Function.update_of_ne hcd _ _).trans hc)
  | @disconnect d fd' hact hw hd ho =>
    by_cases hcd : c = d
    · subst hcd
      rw [hc, Option.some.injEq] at hd
      exact Or.inr (by rw [hd])
    · exact Or.inl ((Function.update_of_ne hcd _ _).trans hc)
  | claimEnd => exact Or.inl (by rwa [Abs.cleaning_conn])
  | cleanupAccess => exact Or.inl (by rwa [Abs.cleaning_conn])
  | cleanupRefused => exact Or.inl (by rwa [Abs.cleaning_conn])
  | _ => exact Or.inl hc

/-- The counter of connections does not go back. -/
lemma Step.nConn_le (h : Step rst a e a') : a.nConn ≤ a'.nConn := by
  cases h with
  | connect => exact Nat.le_succ _
  | @claimEnd c how => cases a.claim.cleanup <;> exact le_rfl
  | @cleanupAccess rid c op todo => cases todo <;> exact le_rfl
  | @cleanupRefused rid c op todo => cases todo <;> exact le_rfl
  | _ => exact le_rfl

/-- A datagram that fails the framing check is turned down at once. -/
lemma Step.rejected_inv {es : List Event} {rid : ℕ} {c : Slot} {msg : List UInt8} {fd : ℕ}
    (h : Step rst a e a') (hact : a.act = .received rid c msg) (hc : a.conn c = some fd)
    (hbad : frameOk msg = false) :
    a'.act = .received rid c msg ∨
      Event.send rid c fd ((frameHdr msg).type ||| respBit) .einval (frameHdr msg).seq [] ∈
        es ++ [e] := by
  cases h with
  | note _ => exact Or.inl hact
  | reject hact' hc' hst =>
    rw [hact, Activity.received.injEq] at hact'
    obtain ⟨rfl, rfl, rfl⟩ := hact'
    rw [hc, Option.some.injEq] at hc'
    subst hc'
    rw [hbad, if_neg (by decide)] at hst
    rw [hst]
    exact Or.inr (List.mem_append_right _ (List.mem_singleton_self _))
  | enqueue hact' hok =>
    rw [hact, Activity.received.injEq] at hact'
    obtain ⟨rfl, rfl, rfl⟩ := hact'
    rw [hbad] at hok
    exact absurd hok (by decide)
  | _ => simp_all

/-- A response that is owed was owed, or its datagram has just been received. -/
lemma Step.owed_sub (h : Step rst a e a') {p : Slot × Key} (hp : p ∈ a'.owed) :
    p ∈ a.owed ∧ (∀ fd, e ≠ .disconnect p.1 fd) ∨
      ∃ rid fd msg, e = .recv rid p.1 fd msg ∧ a.conn p.1 = some fd := by
  have ho := h.owed
  cases e with
  | recv rid c fd msg =>
    rcases List.mem_cons.mp (ho.2.mem_iff.mp hp) with rfl | hp
    · exact Or.inr ⟨rid, fd, msg, rfl, ho.1⟩
    · exact Or.inl ⟨hp, by simp⟩
  | send rid c fd type st seq body =>
    exact Or.inl ⟨ho.2.mem_iff.mpr (List.mem_cons_of_mem _ hp), by simp⟩
  | disconnect c fd =>
    have ho' : a'.owed = a.owed.filter fun p => !decide (p.1 = c) := ho
    rw [ho', List.mem_filter] at hp
    refine Or.inl ⟨hp.1, fun fd' he => ?_⟩
    simp only [Event.disconnect.injEq] at he
    simp [he.1] at hp
  | connect c fd => exact Or.inl ⟨ho.mem_iff.mp hp, by simp⟩
  | enqueue en body o => exact Or.inl ⟨ho.mem_iff.mp hp, by simp⟩
  | dispatch en body o w q => exact Or.inl ⟨ho.mem_iff.mp hp, by simp⟩
  | access x => exact Or.inl ⟨ho.mem_iff.mp hp, by simp⟩
  | refused agent op st => exact Or.inl ⟨ho.mem_iff.mp hp, by simp⟩
  | grant en d ops => exact Or.inl ⟨ho.mem_iff.mp hp, by simp⟩
  | claimEnd rid c how => exact Or.inl ⟨ho.mem_iff.mp hp, by simp⟩
  | mbSet rid c was => exact Or.inl ⟨ho.mem_iff.mp hp, by simp⟩
  | mbClear rid c => exact Or.inl ⟨ho.mem_iff.mp hp, by simp⟩
  | reset en o w x y => exact Or.inl ⟨ho.mem_iff.mp hp, by simp⟩
  | opLine agent line => exact Or.inl ⟨ho.mem_iff.mp hp, by simp⟩
  | warn w => exact Or.inl ⟨ho.mem_iff.mp hp, by simp⟩

end

/-! ## The accounts -/

/-- The response owed for a datagram received on connection `fd`. -/
def recvKey (fd : ℕ) : Event → Option Key
  | .recv rid _ fd' msg => if fd' = fd then some (msgKey rid msg) else none
  | _ => none

/-- A response sent on connection `fd`. -/
def sendKey (fd : ℕ) : Event → Option Key
  | .send rid _ fd' type _ seq _ => if fd' = fd then some (rid, seq, type) else none
  | _ => none

/-- The keys of what is received, -/
lemma recvKey_eq_some {fd : ℕ} {e : Event} {k : Key} (h : recvKey fd e = some k) :
    ∃ rid c msg, e = .recv rid c fd msg ∧ k = msgKey rid msg := by
  cases e with
  | recv rid c fd' msg =>
    simp only [recvKey, Option.ite_none_right_eq_some, Option.some.injEq] at h
    exact ⟨rid, c, msg, by rw [h.1], h.2.symm⟩
  | _ => simp [recvKey] at h

/-- and of what is sent. -/
lemma sendKey_eq_some {fd : ℕ} {e : Event} {k : Key} (h : sendKey fd e = some k) :
    ∃ rid c type st seq body, e = .send rid c fd type st seq body ∧ k = (rid, seq, type) := by
  cases e with
  | send rid c fd' type st seq body =>
    simp only [sendKey, Option.ite_none_right_eq_some, Option.some.injEq] at h
    exact ⟨rid, c, type, st, seq, body, by rw [h.1], h.2.symm⟩
  | _ => simp [sendKey] at h

/-- The responses owed to a slot. -/
def Abs.owedTo (a : Abs) (c : Slot) : List Key :=
  (a.owed.filter fun p => decide (p.1 = c)).map fun p => p.2

/-- **The accounts**: connections have numbers of their own; what was received on an open one was
answered on it or is still owed; and nothing was answered that was not received. -/
structure Accounts (es : List Event) (a : Abs) : Prop where
  lt : ∀ c fd, a.conn c = some fd → fd < a.nConn
  inj : ∀ c c' fd, a.conn c = some fd → a.conn c' = some fd → c = c'
  fresh : ∀ fd, a.nConn ≤ fd → es.filterMap (recvKey fd) = [] ∧ es.filterMap (sendKey fd) = []
  connected : ∀ p ∈ a.owed, ∃ fd, a.conn p.1 = some fd
  nodup : ∀ fd, ((es.filterMap (recvKey fd)).map fun k => k.1).Nodup
  balance : ∀ c fd, a.conn c = some fd →
    (es.filterMap (recvKey fd)).Perm (es.filterMap (sendKey fd) ++ a.owedTo c)
  sub : ∀ fd, (es.filterMap (sendKey fd)).Subperm (es.filterMap (recvKey fd))
  framing : ∀ rid c msg, a.act = .received rid c msg →
    ∃ fd, a.conn c = some fd ∧ Event.recv rid c fd msg ∈ es
  rejected : ∀ rid c fd msg, Event.recv rid c fd msg ∈ es → frameOk msg = false →
    a.act = .received rid c msg ∨
      Event.send rid c fd ((frameHdr msg).type ||| respBit) .einval (frameHdr msg).seq [] ∈ es

namespace Accounts

variable {rst : Bool} {es : List Event} {a a' : Abs} {e : Event}

/-- At the start. -/
lemma init : Accounts [] Abs.init := by
  constructor <;> simp [Abs.init]
  simp [Abs.owed, Abs.framing, Abs.live, Abs.executing, Abs.queued]

/-- A response owed before and after concerns the same slot. -/
lemma owedTo_perm (h : a'.owed.Perm a.owed) (c : Slot) : (a'.owedTo c).Perm (a.owedTo c) :=
  (h.filter _).map _

/-- Nothing is owed to a slot without connection. -/
lemma owedTo_nil (h : Accounts es a) {c : Slot} (hc : a.conn c = none) : a.owedTo c = [] := by
  rw [Abs.owedTo, List.map_eq_nil_iff, List.filter_eq_nil_iff]
  intro p hp hpc
  obtain ⟨fd, hfd⟩ := h.connected p hp
  rw [of_decide_eq_true hpc, hc] at hfd
  exact absurd hfd (by simp)

/-- **The balance of an open connection** after an event.

**Proof sketch.** By `Step.owed`. A datagram on the connection adds the same key on both sides, a
response moves its key from what is owed to what was sent; descriptors of open connections are
different, so everything else leaves the connection alone. -/
lemma balance_step (h : Accounts es a) (hs : Step rst a e a') {c : Slot} {fd : ℕ}
    (hc : a.conn c = some fd) (hc' : a'.conn c = some fd) :
    ((es ++ [e]).filterMap (recvKey fd)).Perm ((es ++ [e]).filterMap (sendKey fd) ++ a'.owedTo c) := by
  have hb := h.balance c fd hc
  have ho := hs.owed
  -- neither a datagram nor a response on this connection
  have hsame : recvKey fd e = none → sendKey fd e = none → (a'.owedTo c).Perm (a.owedTo c) →
      ((es ++ [e]).filterMap (recvKey fd)).Perm
        ((es ++ [e]).filterMap (sendKey fd) ++ a'.owedTo c) := by
    intro hr hs ho
    rw [filterMap_snoc_none hr, filterMap_snoc_none hs]
    exact hb.trans (ho.symm.append_left _)
  cases e with
  | recv rid d fd' msg =>
    obtain ⟨hd, ho⟩ := ho
    have hp := (ho.filter fun p => decide (p.1 = c)).map fun p => p.2
    by_cases hfd : fd' = fd
    · obtain rfl := h.inj c d fd hc (hfd ▸ hd)
      have hp' : (a'.owedTo c).Perm (msgKey rid msg :: a.owedTo c) := by
        simpa [Abs.owedTo] using hp
      rw [filterMap_snoc_some (show recvKey fd (.recv rid c fd' msg) = some (msgKey rid msg) from
        if_pos hfd), filterMap_snoc_none (show sendKey fd (.recv rid c fd' msg) = none from rfl)]
      refine (hb.append_right _).trans ?_
      rw [List.append_assoc]
      exact ((List.perm_append_singleton _ _).trans hp'.symm).append_left _
    · have hdc : d ≠ c := by
        rintro rfl
        rw [hc, Option.some.injEq] at hd
        exact hfd hd.symm
      exact hsame (if_neg hfd) rfl (by simpa [Abs.owedTo, hdc] using hp)
  | send rid d fd' type st seq body =>
    obtain ⟨hd, ho⟩ := ho
    have hp := (ho.filter fun p => decide (p.1 = c)).map fun p => p.2
    by_cases hfd : fd' = fd
    · obtain rfl := h.inj c d fd hc (hfd ▸ hd)
      have hp' : (a.owedTo c).Perm ((rid, seq, type) :: a'.owedTo c) := by
        simpa [Abs.owedTo] using hp
      rw [filterMap_snoc_none (show recvKey fd (.send rid c fd' type st seq body) = none from rfl),
        filterMap_snoc_some (show sendKey fd (.send rid c fd' type st seq body) =
          some (rid, seq, type) from if_pos hfd), List.append_assoc]
      exact hb.trans (hp'.append_left _)
    · have hdc : d ≠ c := by
        rintro rfl
        rw [hc, Option.some.injEq] at hd
        exact hfd hd.symm
      exact hsame rfl (if_neg hfd) (by simpa [Abs.owedTo, hdc] using hp.symm)
  | disconnect d fd' =>
    have ho' : a'.owed = a.owed.filter fun p => !decide (p.1 = d) := ho
    have hdc : d ≠ c := by
      rintro rfl
      cases hs with
      | note hn => simp [Event.isNote] at hn
      | disconnect _ _ _ _ => simp at hc'
    refine hsame rfl rfl ?_
    rw [Abs.owedTo, Abs.owedTo, ho', List.filter_filter]
    have hf : (fun p : Slot × Key => decide (p.1 = c) && !decide (p.1 = d)) =
        fun p => decide (p.1 = c) := by
      funext p
      by_cases hp : p.1 = c
      · simp [hp, hdc.symm]
      · simp [hp]
    rw [hf]
  | connect d fd' => exact hsame rfl rfl (owedTo_perm ho c)
  | enqueue en body o => exact hsame rfl rfl (owedTo_perm ho c)
  | dispatch en body o w q => exact hsame rfl rfl (owedTo_perm ho c)
  | access x => exact hsame rfl rfl (owedTo_perm ho c)
  | refused agent op st => exact hsame rfl rfl (owedTo_perm ho c)
  | grant en d ops => exact hsame rfl rfl (owedTo_perm ho c)
  | claimEnd rid c how => exact hsame rfl rfl (owedTo_perm ho _)
  | mbSet rid c was => exact hsame rfl rfl (owedTo_perm ho _)
  | mbClear rid c => exact hsame rfl rfl (owedTo_perm ho _)
  | reset en o w x y => exact hsame rfl rfl (owedTo_perm ho c)
  | opLine agent line => exact hsame rfl rfl (owedTo_perm ho c)
  | warn w => exact hsame rfl rfl (owedTo_perm ho c)

/-- A datagram or a response on a connection without number has not been seen. -/
lemma fresh_step (h : Accounts es a) (hs : Step rst a e a') {fd : ℕ} (hfd : a'.nConn ≤ fd) :
    (es ++ [e]).filterMap (recvKey fd) = [] ∧ (es ++ [e]).filterMap (sendKey fd) = [] := by
  obtain ⟨hr, hse⟩ := h.fresh fd (hs.nConn_le.trans hfd)
  have hlt : ∀ c, a.conn c ≠ some fd := fun c hc => by
    have h₁ := h.lt c fd hc
    have h₂ := hs.nConn_le
    omega
  have hr' : recvKey fd e = none := by
    by_contra hne
    obtain ⟨k, hk⟩ := Option.ne_none_iff_exists'.mp hne
    obtain ⟨rid, c, msg, rfl, -⟩ := recvKey_eq_some hk
    exact hlt c hs.recv_inv.2.2.1
  have hs' : sendKey fd e = none := by
    by_contra hne
    obtain ⟨k, hk⟩ := Option.ne_none_iff_exists'.mp hne
    obtain ⟨rid, c, type, st, seq, body, rfl, -⟩ := sendKey_eq_some hk
    exact hlt c hs.send_inv.1
  rw [filterMap_snoc_none hr', filterMap_snoc_none hs']
  exact ⟨hr, hse⟩

/-- **Every transition keeps the accounts.**

**Proof sketch.** One field at a time. A connection has a new descriptor, on which nothing was
received or sent; an open one keeps its balance (`balance_step`); what was sent on a connection
stays part of what was received there; a bad frame is answered by the very next event that concerns
it. -/
lemma step (h : Accounts es a) (hl : Ledger es a) (hs : Step rst a e a') :
    Accounts (es ++ [e]) a' := by
  have hbal : ∀ c fd, a'.conn c = some fd → ((es ++ [e]).filterMap (recvKey fd)).Perm
      ((es ++ [e]).filterMap (sendKey fd) ++ a'.owedTo c) := by
    intro c fd hc'
    rcases hs.conn_sub hc' with hc | ⟨rfl, rfl, -, hc⟩
    · exact h.balance_step hs hc hc'
    · -- a new connection: nothing was received, nothing is owed
      obtain ⟨hr, hse⟩ := h.fresh a.nConn le_rfl
      rw [filterMap_snoc_none rfl, filterMap_snoc_none rfl, hr, hse, List.nil_append]
      have ho := owedTo_perm hs.owed c
      rw [h.owedTo_nil hc] at ho
      exact ho.symm
  constructor
  case lt =>
    intro c fd hc'
    rcases hs.conn_sub hc' with hc | ⟨rfl, -, hn, -⟩
    · exact (h.lt c fd hc).trans_le hs.nConn_le
    · omega
  case inj =>
    intro c c' fd hc hc'
    rcases hs.conn_sub hc with h₁ | ⟨h₁, he₁, -⟩ <;> rcases hs.conn_sub hc' with h₂ | ⟨h₂, he₂, -⟩
    · exact h.inj c c' fd h₁ h₂
    · exact absurd (h.lt c fd h₁) (by omega)
    · exact absurd (h.lt c' fd h₂) (by omega)
    · rw [he₁] at he₂
      simp only [Event.connect.injEq, and_true] at he₂
      exact he₂
  case fresh => exact fun fd hfd => h.fresh_step hs hfd
  case connected =>
    intro p hp
    rcases hs.owed_sub hp with ⟨hp, hne⟩ | ⟨rid, fd, msg, rfl, hc⟩
    · obtain ⟨fd, hfd⟩ := h.connected p hp
      exact ⟨fd, (hs.conn_keep hfd).resolve_right (hne fd)⟩
    · exact ⟨fd, (hs.conn_keep hc).resolve_right (by simp)⟩
  case nodup =>
    intro fd
    cases hk : recvKey fd e with
    | none =>
      rw [filterMap_snoc_none hk]
      exact h.nodup fd
    | some k =>
      rw [filterMap_snoc_some hk, List.map_append, List.map_singleton, List.nodup_append]
      obtain ⟨rid, c, msg, rfl, rfl⟩ := recvKey_eq_some hk
      refine ⟨h.nodup fd, List.nodup_singleton _, fun n hn m hm => ?_⟩
      -- a new datagram gets a new number
      obtain ⟨k, hk, rfl⟩ := List.mem_map.mp hn
      obtain ⟨e, he, hke⟩ := List.mem_filterMap.mp hk
      obtain ⟨rid', c', msg', rfl, rfl⟩ := recvKey_eq_some hke
      rw [List.mem_singleton.mp hm]
      have hlt := hl.recv_lt he
      have hnew := hs.recv_inv.1
      simp only [msgKey]
      omega
  case balance => exact hbal
  case sub =>
    intro fd
    cases hk : sendKey fd e with
    | none =>
      rw [filterMap_snoc_none hk, List.filterMap_append]
      exact (h.sub fd).trans (List.sublist_append_left _ _).subperm
    | some k =>
      obtain ⟨rid, c, type, st, seq, body, rfl, rfl⟩ := sendKey_eq_some hk
      have hc' := (hs.conn_keep hs.send_inv.1).resolve_right (by simp)
      exact (List.sublist_append_left _ _).subperm.trans (hbal c fd hc').symm.subperm
  case framing =>
    intro rid c msg hact'
    rcases hs.received_inv hact' with ⟨rfl, -⟩ | ⟨fd, rfl, -⟩
    · obtain ⟨fd, hfd, hm⟩ := h.framing rid c msg hact'
      exact ⟨fd, hfd, List.mem_append_left _ hm⟩
    · exact ⟨fd, (hs.conn_keep hs.recv_inv.2.2.1).resolve_right (by simp),
        List.mem_append_right _ (List.mem_singleton_self _)⟩
  case rejected =>
    intro rid c fd msg hm hbad
    rcases List.mem_append.mp hm with hm | hm
    · rcases h.rejected rid c fd msg hm hbad with hact | hsend
      · obtain ⟨fd', hfd', hm'⟩ := h.framing rid c msg hact
        obtain ⟨-, rfl, -⟩ := hl.recv_unique hm hm'
        exact hs.rejected_inv hact hfd' hbad
      · exact Or.inr (List.mem_append_left _ hsend)
    · obtain rfl := List.mem_singleton.mp hm
      exact Or.inl hs.recv_inv.2.2.2

end Accounts

/-- **The accounts balance** along every run. -/
theorem Run.accounts {rst : Bool} {es : List Event} {a : Abs} (h : Run rst es a) : Accounts es a :=
  Steps.invariant (P := Accounts) Accounts.init
    (fun _ _ _ _ hr ha hs => ha.step (Run.ledger hr) hs) h

/-! ## Answers -/

/-- A response to the datagram number `rid`. -/
def isAnswer (rid : ℕ) : Event → Bool
  | .send rid' _ _ _ _ _ _ => rid' = rid
  | _ => false

/-- The answers to a request are what is sent for it. -/
lemma isAnswer_iff {rid : ℕ} {e : Event} : isAnswer rid e = true ↔
    ∃ c fd type st seq body, e = .send rid c fd type st seq body := by
  constructor
  · intro h
    cases e with
    | send rid' c fd type st seq body =>
      exact ⟨c, fd, type, st, seq, body, by rw [of_decide_eq_true h]⟩
    | _ => simp [isAnswer] at h
  · rintro ⟨c, fd, type, st, seq, body, rfl⟩
    simp [isAnswer]

section

variable {rst : Bool} {es : List Event} {a : Abs}

/-- A response answers a datagram received on the same connection. -/
lemma Accounts.recv_of_send (h : Accounts es a) {rid : ℕ} {c : Slot} {fd : ℕ} {type : UInt8}
    {st : Status} {seq : UInt32} {body : List UInt8}
    (hs : Event.send rid c fd type st seq body ∈ es) :
    ∃ c' msg, Event.recv rid c' fd msg ∈ es ∧ (rid, seq, type) = msgKey rid msg := by
  have hk : (rid, seq, type) ∈ es.filterMap (sendKey fd) :=
    List.mem_filterMap.mpr ⟨_, hs, if_pos rfl⟩
  obtain ⟨e, he, hke⟩ := List.mem_filterMap.mp ((h.sub fd).subset hk)
  obtain ⟨rid', c', msg, rfl, hkey⟩ := recvKey_eq_some hke
  obtain rfl : rid = rid' := congrArg Prod.fst hkey
  exact ⟨c', msg, he, hkey⟩

/-- **A request is answered at most once.** -/
lemma Accounts.answer_unique (h : Accounts es a) (hl : Ledger es a) {rid : ℕ} {e : Event}
    (he : e ∈ es) (ha : isAnswer rid e = true) : es.filter (isAnswer rid) = [e] := by
  obtain ⟨c, fd, type, st, seq, body, rfl⟩ := isAnswer_iff.mp ha
  obtain ⟨c₀, msg₀, hr₀, -⟩ := h.recv_of_send he
  have hle : (es.filter (isAnswer rid)).length ≤ 1 := by
    refine length_filter_le_one (f := sendKey fd) (n := rid) (fun e he ha => ?_) ?_
    · obtain ⟨c', fd', type', st', seq', body', rfl⟩ := isAnswer_iff.mp ha
      obtain ⟨c₁, msg₁, hr₁, -⟩ := h.recv_of_send he
      obtain ⟨-, rfl, -⟩ := hl.recv_unique hr₀ hr₁
      exact ⟨_, if_pos rfl⟩
    · obtain ⟨l, hperm, hsub⟩ := h.sub fd
      exact (hperm.map fun k => k.1).nodup_iff.mp ((h.nodup fd).sublist (hsub.map fun k => k.1))
  have hmem : Event.send rid c fd type st seq body ∈ es.filter (isAnswer rid) :=
    List.mem_filter.mpr ⟨he, ha⟩
  obtain ⟨x, hx⟩ := List.length_eq_one_iff.mp (le_antisymm hle (List.length_pos_of_mem hmem))
  rw [hx] at hmem ⊢
  rw [List.mem_singleton.mp hmem]

end

/-! ## The statement on connections -/

/-- `seq` and `type | 0x80` of a datagram with a header received on connection `fd`. -/
def recvHdr (fd : ℕ) : Event → Option (UInt32 × UInt8)
  | .recv _ _ fd' msg =>
    if fd' = fd ∧ hdrSize ≤ msg.length then
      some ((Hdr.decode msg).seq, (Hdr.decode msg).type ||| respBit)
    else none
  | _ => none

/-- The datagram number `rid` has a header. -/
def hasHdr (es : List Event) (rid : ℕ) : Bool :=
  es.any fun
    | .recv rid' _ _ msg => rid' = rid && hdrSize ≤ msg.length
    | _ => false

/-- `seq` and `type` of a response, sent on connection `fd`, to a datagram with a header. -/
def respHdr (es : List Event) (fd : ℕ) : Event → Option (UInt32 × UInt8)
  | .send rid _ fd' type _ seq _ => if fd' = fd ∧ hasHdr es rid = true then some (seq, type) else none
  | _ => none

/-- The requests that are being executed or queued. -/
def Daemon.unanswered (g : Daemon) : List Entry := g.waiting ++ g.queued

/-- `seq` and `type | 0x80` of the requests of a slot that are being executed or queued. -/
def Daemon.pendingOf (g : Daemon) (c : Slot) : List (UInt32 × UInt8) :=
  (g.unanswered.filter fun e => decide (e.c = c)).map fun e => (e.hdr.seq, e.hdr.type ||| respBit)

section

variable {es : List Event} {a : Abs}

/-- A message that is received has a header when it is long enough. -/
lemma Ledger.hasHdr_iff (h : Ledger es a) {rid : ℕ} {c : Slot} {fd : ℕ} {msg : List UInt8}
    (hm : Event.recv rid c fd msg ∈ es) : hasHdr es rid = true ↔ hdrSize ≤ msg.length := by
  simp only [hasHdr, List.any_eq_true]
  constructor
  · rintro ⟨e, he, hp⟩
    cases e with
    | recv rid' c' fd' msg' =>
      simp only [Bool.and_eq_true, decide_eq_true_eq] at hp
      obtain ⟨rfl, hp⟩ := hp
      obtain ⟨-, -, rfl⟩ := h.recv_unique hm he
      exact hp
    | _ => simp at hp
  · intro hlen
    exact ⟨_, hm, by simp [hlen]⟩

/-- What was received on a connection, less the datagrams without a header. -/
lemma Ledger.filterMap_recvHdr (h : Ledger es a) (fd : ℕ) :
    es.filterMap (recvHdr fd) =
      ((es.filterMap (recvKey fd)).filter fun k => hasHdr es k.1).map fun k => k.2 := by
  rw [List.filter_filterMap, List.map_filterMap]
  refine List.filterMap_congr fun e he => ?_
  cases e with
  | recv rid c fd' msg =>
    by_cases hfd : fd' = fd
    · by_cases hlen : hdrSize ≤ msg.length
      · have hh := (h.hasHdr_iff he).mpr hlen
        simp [recvHdr, recvKey, hfd, hlen, msgKey, hh, frameHdr]
      · have hh : hasHdr es rid = false := by
          rw [← Bool.not_eq_true]
          exact fun hh => hlen ((h.hasHdr_iff he).mp hh)
        simp [recvHdr, recvKey, hfd, hlen, msgKey, hh]
    · simp [recvHdr, recvKey, hfd]
  | _ => rfl

/-- What was answered on a connection, less the answers to datagrams without a header. -/
lemma filterMap_respHdr (es : List Event) (fd : ℕ) :
    es.filterMap (respHdr es fd) =
      ((es.filterMap (sendKey fd)).filter fun k => hasHdr es k.1).map fun k => k.2 := by
  rw [List.filter_filterMap, List.map_filterMap]
  refine List.filterMap_congr fun e he => ?_
  cases e with
  | send rid c fd' type st seq body =>
    by_cases hfd : fd' = fd
    · cases hh : hasHdr es rid <;> simp [respHdr, sendKey, hfd, hh]
    · simp [respHdr, sendKey, hfd]
  | _ => rfl

/-- A request that is queued or being executed has a header. -/
lemma Ledger.hasHdr_of_live (h : Ledger es a) {r : Req} (hr : r ∈ a.live) :
    hasHdr es r.rid = true := by
  obtain ⟨fd, msg, hm, hok, -⟩ := h.known hr
  exact (h.hasHdr_iff hm).mpr (frameOk_len hok).2.2

end

/-- The requests of the protocol state are those of the daemon. -/
lemma Daemon.map_live (g : Daemon) :
    (g.abs g.waitingPtrs .idle).live.map Req.toEntry = g.unanswered := by
  simp only [Abs.live, Abs.executing, Activity.reqs_idle, List.nil_append, List.map_append,
    Daemon.unanswered, Abs.queued, Daemon.abs, List.map_map, Daemon.waiting, Daemon.queued]
  rfl

/-- What is owed to a slot when nothing is going on. -/
lemma Daemon.owedTo (g : Daemon) (c : Slot) :
    (g.abs g.waitingPtrs .idle).owedTo c =
      (g.unanswered.filter fun e => decide (e.c = c)).map fun e =>
        (e.rid, e.hdr.seq, e.hdr.type ||| respBit) := by
  rw [← g.map_live, List.filter_map, List.map_map]
  simp only [Abs.owedTo, Abs.owed]
  rw [show (g.abs g.waitingPtrs .idle).framing = [] from rfl, List.nil_append, List.filter_map,
    List.map_map]
  rfl

/-- An answer goes to the slot from which its datagram came. -/
lemma Run.recv_of_send {rst : Bool} {es : List Event} {u : Abs} (h : Run rst es u) {rid : ℕ}
    {c : Slot} {fd : ℕ} {type : UInt8} {st : Status} {seq : UInt32} {body : List UInt8}
    (hs : Event.send rid c fd type st seq body ∈ es) :
    ∃ fd' msg, Event.recv rid c fd' msg ∈ es := by
  obtain ⟨pre, post, rfl⟩ := List.append_of_mem hs
  obtain ⟨a, a', hpre, hstep, -⟩ := h.split_cons
  obtain ⟨-, ⟨msg, hact, -⟩ | ⟨r, p, hact, rfl, rfl, -⟩⟩ := hstep.send_inv
  · obtain ⟨⟨fd', hm⟩, -⟩ := (Run.ledger hpre).received hact
    exact ⟨fd', msg, List.mem_append_left _ hm⟩
  · have hlive : r ∈ a.live := List.mem_append_left _ (Abs.mem_executing.mpr (Or.inr ⟨p, hact⟩))
    obtain ⟨fd', msg, hm, -⟩ := (Run.ledger hpre).known hlive
    exact ⟨fd', msg, List.mem_append_left _ hm⟩

/-- The balance of an open connection, less what concerns datagrams without a header. -/
lemma Daemon.header_balance {rst : Bool} {g : Daemon}
    (h : Run rst g.evs (g.abs g.waitingPtrs .idle)) {c : Slot} (hu : (g.cl c).used = true) :
    (g.evs.filterMap (recvHdr (g.cl c).fd)).Perm
      (g.evs.filterMap (respHdr g.evs (g.cl c).fd) ++ g.pendingOf c) := by
  have hL := h.ledger
  have hb := h.accounts.balance c (g.cl c).fd (Daemon.abs_conn hu)
  have hb' := (hb.filter fun k => hasHdr g.evs k.1).map fun k => k.2
  rw [← hL.filterMap_recvHdr, List.filter_append, List.map_append, ← filterMap_respHdr] at hb'
  refine hb'.trans (List.Perm.append_left _ ?_)
  rw [g.owedTo, List.filter_map, List.map_map, Daemon.pendingOf]
  have hall : ∀ e ∈ g.unanswered.filter (fun e => decide (e.c = c)),
      hasHdr g.evs e.rid = true := by
    intro e he
    rw [← g.map_live] at he
    obtain ⟨r, hr, rfl⟩ := List.mem_map.mp (List.mem_filter.mp he).1
    exact hL.hasHdr_of_live hr
  exact List.Perm.of_eq (congrArg (List.map fun e => (e.hdr.seq, e.hdr.type ||| respBit))
    (List.filter_eq_self.mpr hall))

/-- On an open connection a datagram is answered or pending, and not both.

**Proof sketch.** By the balance of the connection the key of the datagram is among those sent or
among those owed, and the keys are different, so it is not in both. -/
lemma Daemon.answered_iff {rst : Bool} {g : Daemon} (h : Run rst g.evs (g.abs g.waitingPtrs .idle))
    {rid : ℕ} {c : Slot} {msg : List UInt8} (hu : (g.cl c).used = true)
    (hm : Event.recv rid c (g.cl c).fd msg ∈ g.evs) :
    (∃ e ∈ g.evs, isAnswer rid e = true) ↔ ¬∃ e ∈ g.unanswered, e.rid = rid := by
  have hA := h.accounts
  have hL := h.ledger
  have hb := hA.balance c (g.cl c).fd (Daemon.abs_conn hu)
  have hnd := (hb.map fun k => k.1).nodup_iff.mp (hA.nodup _)
  rw [List.map_append, List.nodup_append] at hnd
  have hmem : msgKey rid msg ∈ g.evs.filterMap (recvKey (g.cl c).fd) :=
    List.mem_filterMap.mpr ⟨_, hm, if_pos rfl⟩
  rw [hb.mem_iff, List.mem_append, g.owedTo] at hmem
  constructor
  · rintro ⟨e, he, ha⟩ ⟨e', he', rfl⟩
    obtain ⟨c₁, fd, type, st, seq, body, rfl⟩ := isAnswer_iff.mp ha
    obtain ⟨c₂, msg₂, hr₂, -⟩ := hA.recv_of_send he
    obtain ⟨-, rfl, -⟩ := hL.recv_unique hr₂ hm
    have hc : e'.c = c := by
      rw [← g.map_live] at he'
      obtain ⟨r, hr, rfl⟩ := List.mem_map.mp he'
      obtain ⟨fd₃, msg₃, hr₃, -⟩ := hL.known hr
      exact (hL.recv_unique hr₃ hm).1
    refine hnd.2.2 e'.rid (List.mem_map.mpr ⟨_, List.mem_filterMap.mpr ⟨_, he, if_pos rfl⟩, rfl⟩)
      e'.rid ?_ rfl
    rw [g.owedTo, List.map_map]
    exact List.mem_map.mpr ⟨e', List.mem_filter.mpr ⟨he', by simp [hc]⟩, rfl⟩
  · intro hno
    rcases hmem with hk | hk
    · obtain ⟨e, he, hke⟩ := List.mem_filterMap.mp hk
      obtain ⟨rid', c', type, st, seq, body, rfl, hkey⟩ := sendKey_eq_some hke
      obtain rfl : rid = rid' := congrArg Prod.fst hkey
      exact ⟨_, he, by simp [isAnswer]⟩
    · obtain ⟨e, he, hkey⟩ := List.mem_map.mp hk
      exact absurd ⟨e, (List.mem_filter.mp he).1, congrArg Prod.fst hkey⟩ hno

/-- **Exactly one response for each request, to its sender.** On every open connection, what was
received with a header is what was answered of it and what is still queued or being executed; a
datagram without a header gets one `EINVAL`; no datagram is answered twice or on another connection;
and on an open connection each one is either answered or still pending.

**Proof sketch.** The balance of an open connection is one of keys (`Daemon.header_balance`). A
datagram without a header is a bad frame, which has been rejected. An answer was given to a
datagram with its key, and only once (`answer_unique`). -/
theorem one_response {env : Env} {cfg : Config} {g : Daemon} (h : Reachable env cfg g) :
    (∀ c, (g.cl c).used = true → (g.evs.filterMap (recvHdr (g.cl c).fd)).Perm
      (g.evs.filterMap (respHdr g.evs (g.cl c).fd) ++ g.pendingOf c)) ∧
    (∀ rid c fd msg, Event.recv rid c fd msg ∈ g.evs → msg.length < hdrSize →
      g.evs.filter (isAnswer rid) = [.send rid c fd 0x80 .einval 0 []]) ∧
    (∀ rid c fd type st seq body, Event.send rid c fd type st seq body ∈ g.evs →
      g.evs.filter (isAnswer rid) = [.send rid c fd type st seq body] ∧
      ∃ msg, Event.recv rid c fd msg ∈ g.evs ∧ seq = (frameHdr msg).seq ∧
        type = (frameHdr msg).type ||| respBit) ∧
    (∀ rid c msg, (g.cl c).used = true → Event.recv rid c (g.cl c).fd msg ∈ g.evs →
      ((∃ e ∈ g.evs, isAnswer rid e = true) ↔ ¬∃ e ∈ g.unanswered, e.rid = rid)) := by
  have hrun := h.good.run
  have hA := Run.accounts hrun
  have hL := Run.ledger hrun
  refine ⟨fun c hu => Daemon.header_balance hrun hu, fun rid c fd msg hm hlen => ?_,
    fun rid c fd type st seq body hs => ?_, fun rid c msg hu hm => Daemon.answered_iff hrun hu hm⟩
  · have hbad : frameOk msg = false := by
      by_contra hne
      exact absurd (frameOk_len (by simpa using hne)).2.2 (by omega)
    have hhdr : frameHdr msg = badHdr := if_neg (by omega)
    rcases hA.rejected rid c fd msg hm hbad with hact | hs
    · simp [Daemon.abs] at hact
    · rw [hhdr] at hs
      exact hA.answer_unique hL hs (by simp [isAnswer])
  · refine ⟨hA.answer_unique hL hs (by simp [isAnswer]), ?_⟩
    obtain ⟨c', msg, hr, hkey⟩ := hA.recv_of_send hs
    simp only [msgKey, Prod.mk.injEq, true_and] at hkey
    obtain ⟨fd', msg', hr'⟩ := hrun.recv_of_send hs
    obtain ⟨rfl, -, -⟩ := hL.recv_unique hr' hr
    exact ⟨msg, hr, hkey⟩

/-- While client 1 holds the claim, client 0 sends three bytes, a `MAILBOX` and a `READ`. Then client 1
releases it, and the mailbox call waits. -/
def shortAndPending : Daemon :=
  run (Env.still 0) Config.plain
    (connects [(7, ['a']), (8, ['b'])] ++
      [⟨[.client 1 (datagram .claim 0 1 [0xe8, 3, 0, 0, 0, 0, 0, 0])], 64⟩, .none, .none,
      ⟨[.client 0 [1, 2, 3]], 64⟩, .none,
      ⟨[.client 0 (datagram .mailbox 0 1 [0, 5, 0, 0, 0, 0, 0, 0])], 64⟩, .none,
      ⟨[.client 0 (datagram .read 0 2 [0, 0, 0x1e, 0, 0, 0, 0, 0, 0, 0, 0, 0])], 64⟩, .none,
      ⟨[.client 1 (datagram .release 0 2 [])], 64⟩, .none, .none])

/-- The theorem at a run with a datagram that is too short and two requests that are pending. -/
theorem one_response_shortAndPending :
    shortAndPending.pendingOf 0 = [(1, 0x86), (2, 0x81)] ∧
      shortAndPending.evs.filter (isAnswer 1) = [.send 1 0 0 0x80 .einval 0 []] ∧
      (shortAndPending.evs.filterMap (recvHdr 0)).Perm
        (shortAndPending.evs.filterMap (respHdr shortAndPending.evs 0) ++ [(1, 0x86), (2, 0x81)]) := by
  have hp : shortAndPending.pendingOf 0 = [(1, 0x86), (2, 0x81)] := by decide +kernel
  have hfd : (shortAndPending.cl 0).fd = 0 := by decide +kernel
  have hr : Reachable (Env.still 0) Config.plain shortAndPending := Reachable.run _ _ _
  obtain ⟨hperm, hshort, -⟩ := one_response hr
  have hb := hperm 0 (by decide +kernel)
  rw [hp, hfd] at hb
  exact ⟨hp, hshort 1 0 0 [1, 2, 3] (by decide +kernel) (by decide), hb⟩

end Spid

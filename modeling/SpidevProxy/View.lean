import SpidevProxy.Protocol

set_option relaxedAutoImplicit false
set_option autoImplicit false

/-!
# The state machine seen as the protocol

The abstraction function from the state of the daemon to the state of the protocol, the invariant
under which it makes sense, and what it means that a piece of the daemon's work is followed by the
protocol.

## Main definitions

* `Spid.Daemon.abs` — the protocol state that a daemon state stands for.
* `Spid.WF` — the representation invariant: the pool is linked into its lists, and whoever owns a
  request or the claim is connected.
* `Spid.Sim` — the protocol follows the daemon from one state to another, event by event.
* `Spid.Work` — work on one queue item: the protocol follows, and the rest of the daemon stays.

## Main results

* `Spid.WF.work` — work on an item that is being executed keeps the representation invariant.
-/

namespace Spid

open Bytes Intrusive History

/-! ## The abstraction function -/

/-- The request in a queue item. -/
def Daemon.req (g : Daemon) (it : Ptr) : Req := ⟨g.entry it, g.bodyOf it⟩

/-- The protocol state that `g` stands for while the mailbox calls for the items `w` wait and `act`
goes on. -/
def Daemon.abs (g : Daemon) (w : List Ptr) (act : Activity) : Abs where
  conn := fun c => if (g.cl c).used then some (g.cl c).fd else none
  queue := fun q => (g.pool.queue q).map g.req
  waiting := w.map g.req
  claim := g.claim
  inflight := g.mbInflight
  nConn := g.nConn
  nRecv := g.nRecv
  act := act

/-- A connected slot has its connection in the protocol state. -/
lemma Daemon.abs_conn {g : Daemon} {w : List Ptr} {act : Activity} {c : Slot}
    (h : (g.cl c).used = true) : (g.abs w act).conn c = some (g.cl c).fd := by
  simp [Daemon.abs, h]

/-- The `Io` part is not part of the view. -/
lemma Extends.exists_io {g g' : Daemon} {es : List Event} (h : Extends g g' es) :
    ∃ io, g' = { g with io := io } ∧ io.evs = g.evs ++ es :=
  ⟨g'.io, h.1, h.2⟩

/-- Events do not change what the protocol sees of the state. -/
lemma Extends.abs_eq {g g' : Daemon} {es : List Event} (h : Extends g g' es) (w : List Ptr)
    (act : Activity) : g'.abs w act = g.abs w act := by
  obtain ⟨io, rfl, -⟩ := h.exists_io
  rfl

/-! ## Being followed by the protocol -/

/-- The protocol follows the daemon from `g` to `g'`: the new events lead from the view of `g` to the
view of `g'`. -/
def Sim (rst : Bool) (g : Daemon) (w : List Ptr) (act : Activity) (g' : Daemon) (w' : List Ptr)
    (act' : Activity) : Prop :=
  ∃ es, g'.evs = g.evs ++ es ∧ Steps (Step rst) (g.abs w act) es (g'.abs w' act')

namespace Sim

variable {rst : Bool} {g g₁ g₂ g' : Daemon} {w w₁ w₂ w' : List Ptr} {act act₁ act₂ act' : Activity}

/-- One piece of work after another. -/
lemma trans (h : Sim rst g w act g₁ w₁ act₁) (h' : Sim rst g₁ w₁ act₁ g₂ w₂ act₂) :
    Sim rst g w act g₂ w₂ act₂ := by
  obtain ⟨es, he, hs⟩ := h
  obtain ⟨es', he', hs'⟩ := h'
  exact ⟨es ++ es', by rw [he', he, List.append_assoc], hs.trans hs'⟩

/-- Nothing happens that the protocol sees. -/
lemma of_eq (he : g'.evs = g.evs) (ha : g'.abs w' act' = g.abs w act) :
    Sim rst g w act g' w' act' :=
  ⟨[], by simp [he], ha ▸ Steps.nil _⟩

/-- Nothing is done. -/
lemma refl : Sim rst g w act g w act := of_eq rfl rfl

/-- One event happens. -/
lemma of_step {e : Event} (he : g'.evs = g.evs ++ [e])
    (hs : Step rst (g.abs w act) e (g'.abs w' act')) : Sim rst g w act g' w' act' :=
  ⟨[e], he, Steps.single hs⟩

/-- Notes are steps of the protocol that change nothing. -/
lemma steps_notes {a : Abs} : ∀ {es : List Event}, (∀ e ∈ es, e.isNote = true) →
    Steps (Step rst) a es a
  | [], _ => Steps.nil a
  | e :: _, h =>
    Steps.cons (.note (h e List.mem_cons_self))
      (steps_notes fun e' he' => h e' (List.mem_cons_of_mem e he'))

/-- Notes are no step of the protocol. -/
lemma of_notes (h : Notes g g') : Sim rst g w act g' w act := by
  obtain ⟨es, he, hn⟩ := h
  exact ⟨es, he.2, by rw [he.abs_eq]; exact steps_notes hn⟩

/-- One access happens, with notes behind it. -/
lemma of_accessed {x : Access} (h : Accessed g g' x)
    (hs : Step rst (g.abs w act) (.access x) (g.abs w' act')) : Sim rst g w act g' w' act' := by
  obtain ⟨notes, he, hn⟩ := h
  exact ⟨_, he.2, by rw [he.abs_eq]; exact Steps.cons hs (steps_notes hn)⟩

/-- One event other than an access happens, and nothing but the `Io` part changes. -/
lemma of_extends {e : Event} (h : Extends g g' [e])
    (hs : Step rst (g.abs w act) e (g.abs w' act')) : Sim rst g w act g' w' act' :=
  of_step h.2 (by rw [h.abs_eq]; exact hs)

end Sim

/-! ## Work on an item -/

/-- What work on item `it` leaves alone: the pool, the call stack, who is connected, all other items
and the identity of `it`. The claim may at most go to the client of `it`. -/
structure Leaves (it : Ptr) (g g' : Daemon) : Prop where
  pool : g'.pool = g.pool
  stack : g'.stack = g.stack
  used : ∀ c, (g'.cl c).used = (g.cl c).used
  fd : ∀ c, (g'.cl c).fd = (g.cl c).fd
  item : ∀ j, j ≠ it → g'.item j = g.item j
  entry : g'.entry it = g.entry it
  nConn : g'.nConn = g.nConn
  nRecv : g'.nRecv = g.nRecv
  owner : ∀ c, g'.claim.owner = some c → g.claim.owner = some c ∨ c = (g.item it).c

namespace Leaves

variable {it : Ptr} {g g₁ g₂ : Daemon}

/-- Nothing is done. -/
lemma refl (it : Ptr) (g : Daemon) : Leaves it g g where
  pool := rfl
  stack := rfl
  used _ := rfl
  fd _ := rfl
  item _ _ := rfl
  entry := rfl
  nConn := rfl
  nRecv := rfl
  owner _ h := Or.inl h

/-- The client of the item stays, -/
lemma client (h : Leaves it g g₁) : (g₁.item it).c = (g.item it).c := congrArg Entry.c h.entry

/-- and so does its header. -/
lemma hdr (h : Leaves it g g₁) : (g₁.item it).hdr = (g.item it).hdr := congrArg Entry.hdr h.entry

/-- One piece of work after another. -/
lemma trans (h : Leaves it g g₁) (h' : Leaves it g₁ g₂) : Leaves it g g₂ where
  pool := h'.pool.trans h.pool
  stack := h'.stack.trans h.stack
  used c := (h'.used c).trans (h.used c)
  fd c := (h'.fd c).trans (h.fd c)
  item j hj := (h'.item j hj).trans (h.item j hj)
  entry := h'.entry.trans h.entry
  nConn := h'.nConn.trans h.nConn
  nRecv := h'.nRecv.trans h.nRecv
  owner c hc := (h'.owner c hc).elim (h.owner c) fun hc => Or.inr (hc.trans h.client)

/-- Events leave the item alone, -/
lemma of_extends {es : List Event} (h : Extends g g₁ es) : Leaves it g g₁ := by
  obtain ⟨io, rfl, -⟩ := h.exists_io
  exact ⟨rfl, rfl, fun _ => rfl, fun _ => rfl, fun _ _ => rfl, rfl, rfl, rfl, fun _ => Or.inl⟩

/-- an access does, -/
lemma of_accessed {x : Access} (h : Accessed g g₁ x) : Leaves it g g₁ := by
  obtain ⟨notes, he, -⟩ := h
  exact of_extends he

/-- and notes do. -/
lemma of_notes (h : Notes g g₁) : Leaves it g g₁ := by
  obtain ⟨es, he, -⟩ := h
  exact of_extends he

/-- Writing into the body of the item. -/
lemma setBody (it : Ptr) (g : Daemon) (b : Block msgMax) : Leaves it g (g.setBody it b) where
  pool := rfl
  stack := rfl
  used _ := rfl
  fd _ := rfl
  item j hj := by simp [Daemon.setBody, Daemon.setItem, hj]
  entry := by simp [Daemon.setBody, Daemon.setItem, Daemon.entry]
  nConn := rfl
  nRecv := rfl
  owner _ h := Or.inl h

/-- Changing the counters of a client. -/
lemma setClient (it : Ptr) (g : Daemon) {c : Slot} {x : Client} (hu : x.used = (g.cl c).used)
    (hf : x.fd = (g.cl c).fd) : Leaves it g (g.setClient c x) where
  pool := rfl
  stack := rfl
  used d := by
    by_cases h : d = c
    · subst h
      simpa [Daemon.setClient] using hu
    · simp [Daemon.setClient, h]
  fd d := by
    by_cases h : d = c
    · subst h
      simpa [Daemon.setClient] using hf
    · simp [Daemon.setClient, h]
  item _ _ := rfl
  entry := rfl
  nConn := rfl
  nRecv := rfl
  owner _ h := Or.inl h

end Leaves

/-- An item that is being executed: it is neither queued nor waiting. -/
structure Off (g : Daemon) (w : List Ptr) (it : Ptr) : Prop where
  queue : ∀ q, it ∉ g.pool.queue q
  waiting : it ∉ w

/-- An item that is off the queue stays off it. -/
lemma Off.leaves {g g' : Daemon} {w : List Ptr} {it : Ptr} (h : Off g w it) (hf : Leaves it g g') :
    Off g' w it :=
  ⟨fun q => by rw [hf.pool]; exact h.queue q, h.waiting⟩

/-- The view does not depend on the body of the item being executed. -/
lemma Leaves.abs_eq {g g' : Daemon} {w : List Ptr} {it : Ptr} (hf : Leaves it g g') (h : Off g w it)
    (hc : g'.claim = g.claim) (hm : g'.mbInflight = g.mbInflight) (act : Activity) :
    g'.abs w act = g.abs w act := by
  have hreq : ∀ j, j ≠ it → g'.req j = g.req j := fun j hj => by
    simp only [Daemon.req, Daemon.entry, Daemon.bodyOf, hf.item j hj]
  simp only [Daemon.abs, hc, hm, hf.used, hf.fd, hf.nConn, hf.nRecv, hf.pool, Abs.mk.injEq,
    true_and, and_true]
  refine ⟨funext fun q => List.map_congr_left fun j hj => hreq j ?_,
    List.map_congr_left fun j hj => hreq j ?_⟩
  · rintro rfl
    exact h.queue q hj
  · rintro rfl
    exact h.waiting hj

/-- The view does not depend on anything else of the clients than who is connected. -/
lemma Leaves.abs_eq_of_item {g g' : Daemon} {it : Ptr} (hf : Leaves it g g')
    (hi : g'.item = g.item) (hc : g'.claim = g.claim) (hm : g'.mbInflight = g.mbInflight)
    (w : List Ptr) (act : Activity) : g'.abs w act = g.abs w act := by
  have hreq : g'.req = g.req := by
    funext j
    simp only [Daemon.req, Daemon.entry, Daemon.bodyOf, hi]
  simp only [Daemon.abs, hc, hm, hf.used, hf.fd, hf.nConn, hf.nRecv, hf.pool, hreq]

/-- Work on item `it` leads from `g` to `g'`, and the protocol follows it. -/
structure Work (rst : Bool) (it : Ptr) (w : List Ptr) (g : Daemon) (act : Activity) (g' : Daemon)
    (act' : Activity) : Prop where
  leaves : Leaves it g g'
  sim : Sim rst g w act g' w act'

namespace Work

variable {rst : Bool} {it : Ptr} {w : List Ptr} {g g₁ g₂ : Daemon} {act act₁ act₂ : Activity}

/-- Nothing is done. -/
lemma refl : Work rst it w g act g act := ⟨Leaves.refl it g, Sim.refl⟩

/-- One piece of work after another. -/
lemma trans (h : Work rst it w g act g₁ act₁) (h' : Work rst it w g₁ act₁ g₂ act₂) :
    Work rst it w g act g₂ act₂ :=
  ⟨h.leaves.trans h'.leaves, h.sim.trans h'.sim⟩

/-- Notes are work without a step of the protocol. -/
lemma of_notes (h : Notes g g₁) : Work rst it w g act g₁ act :=
  ⟨Leaves.of_notes h, Sim.of_notes h⟩

/-- A change that the protocol does not see. -/
lemma of_leaves (hf : Leaves it g g₁) (ho : Off g w it) (he : g₁.evs = g.evs)
    (hc : g₁.claim = g.claim) (hm : g₁.mbInflight = g.mbInflight) : Work rst it w g act g₁ act :=
  ⟨hf, Sim.of_eq he (hf.abs_eq ho hc hm act)⟩

end Work

/-! ## Work on the device -/

/-- Register accesses lead from `g` to `g'`: only the `Io` part changes, and the protocol follows. -/
structure IoSim (rst : Bool) (w : List Ptr) (g : Daemon) (act : Activity) (g' : Daemon)
    (act' : Activity) : Prop where
  only_io : g' = { g with io := g'.io }
  sim : Sim rst g w act g' w act'

namespace IoSim

variable {rst : Bool} {it : Ptr} {w : List Ptr} {g g₁ g₂ : Daemon} {act act₁ act₂ : Activity}

/-- Nothing is done. -/
lemma refl : IoSim rst w g act g act := ⟨rfl, Sim.refl⟩

/-- One piece of work after another. -/
lemma trans (h : IoSim rst w g act g₁ act₁) (h' : IoSim rst w g₁ act₁ g₂ act₂) :
    IoSim rst w g act g₂ act₂ :=
  ⟨by rw [h'.only_io, h.only_io], h.sim.trans h'.sim⟩

/-- Notes change the `Io` part only. -/
lemma of_notes (h : Notes g g₁) : IoSim rst w g act g₁ act := by
  obtain ⟨es, he, hn⟩ := h
  exact ⟨he.1, Sim.of_notes ⟨es, he, hn⟩⟩

/-- So does an access, which is one step of the protocol. -/
lemma of_accessed {x : Access} (h : Accessed g g₁ x)
    (hs : Step rst (g.abs w act) (.access x) (g.abs w act₁)) : IoSim rst w g act g₁ act₁ := by
  obtain ⟨notes, he, hn⟩ := h
  exact ⟨he.1, Sim.of_accessed ⟨notes, he, hn⟩ hs⟩

/-- The items stay, -/
lemma item (h : IoSim rst w g act g₁ act₁) : g₁.item = g.item := by rw [h.only_io]

/-- the claim does, -/
lemma claim (h : IoSim rst w g act g₁ act₁) : g₁.claim = g.claim := by rw [h.only_io]

/-- the clients do, -/
lemma cl (h : IoSim rst w g act g₁ act₁) : g₁.cl = g.cl := by rw [h.only_io]

/-- and the requests. -/
lemma req (h : IoSim rst w g act g₁ act₁) : g₁.req = g.req := by rw [h.only_io]; rfl

/-- It leaves the item alone, -/
lemma leaves (h : IoSim rst w g act g₁ act₁) : Leaves it g g₁ := by
  obtain ⟨he, -⟩ := h
  rw [he]
  exact ⟨rfl, rfl, fun _ => rfl, fun _ => rfl, fun _ _ => rfl, rfl, rfl, rfl, fun _ => Or.inl⟩

/-- so it is work on the item. -/
lemma work (h : IoSim rst w g act g₁ act₁) : Work rst it w g act g₁ act₁ := ⟨h.leaves, h.sim⟩

end IoSim

/-! ## The representation invariant -/

/-- **The representation invariant.** The pool is linked into the free list, the queues and the
items `out` that are being executed; a queued item is in the queue of its priority; the client of
every queued or executed item and the owner of the claim are connected; no body is longer than its
buffer. -/
structure WF (g : Daemon) (out : List Ptr) : Prop where
  rep : ∃ free, g.pool.Rep free g.pool.queue out
  prio : ∀ q, ∀ i ∈ g.pool.queue q, (g.item i).hdr.prio = q
  queued : ∀ q, ∀ i ∈ g.pool.queue q, (g.cl (g.item i).c).used = true
  executed : ∀ i ∈ out, (g.cl (g.item i).c).used = true
  owner : ∀ c, g.claim.owner = some c → (g.cl c).used = true
  len : ∀ i, (g.item i).hdr.len.toNat ≤ msgMax

namespace WF

variable {g g' : Daemon} {out w : List Ptr} {it : Ptr}

/-- The item in front is neither queued nor waiting. -/
lemma off (h : WF g (it :: w)) : Off g w it := by
  obtain ⟨free, hr⟩ := h.rep
  exact ⟨fun q hq => hr.notMem_out hq List.mem_cons_self, (List.nodup_cons.mp hr.nodup_out).1⟩

/-- The invariant does not depend on anything else. -/
lemma congr (h : WF g out) (hp : g'.pool = g.pool) (hi : g'.item = g.item)
    (hu : ∀ c, (g'.cl c).used = (g.cl c).used) (ho : g'.claim.owner = g.claim.owner) :
    WF g' out := by
  refine ⟨by rw [hp]; exact h.rep, ?_, ?_, ?_, ?_, by rw [hi]; exact h.len⟩
  · rw [hp, hi]
    exact h.prio
  · simp only [hp, hi, hu]
    exact h.queued
  · simp only [hi, hu]
    exact h.executed
  · simp only [ho, hu]
    exact h.owner

/-- **Work on an executed item** keeps the representation invariant. -/
lemma work (h : WF g out) (hit : it ∈ out) (hf : Leaves it g g') : WF g' out := by
  have hc : ∀ i, (g'.item i).c = (g.item i).c ∧ (g'.item i).hdr = (g.item i).hdr := by
    intro i
    by_cases hi : i = it
    · subst hi
      exact ⟨hf.client, hf.hdr⟩
    · simp [hf.item i hi]
  refine ⟨by rw [hf.pool]; exact h.rep, fun q i hi => ?_, fun q i hi => ?_, fun i hi => ?_,
    fun c ho => ?_, fun i => by rw [(hc i).2]; exact h.len i⟩
  · rw [(hc i).2]
    exact h.prio q i (by rwa [hf.pool] at hi)
  · rw [hf.used, (hc i).1]
    exact h.queued q i (by rwa [hf.pool] at hi)
  · rw [hf.used, (hc i).1]
    exact h.executed i hi
  · rw [hf.used]
    rcases hf.owner c ho with ho | rfl
    · exact h.owner c ho
    · exact h.executed it hit

end WF

end Spid

import SpidevProxy.Alike
import SpidevProxy.Refinement

set_option relaxedAutoImplicit false
set_option autoImplicit false

/-!
# Recycled queue items

What the daemon does depends only on the bytes that were received, and never on what an earlier
request, possibly of another client, left in a queue item.

## Main definitions

* `Spid.Daemon.Held` — the items that hold a request: queued, or of a waiting mailbox call.

## Main results

* `Spid.Alike.step` — one step of the daemon.
* `Spid.no_leak` — two runs with the same surroundings.
-/

namespace Spid

open Bytes

/-! ## Steps of the scheduler -/

/-- The items that hold a request: the queued ones, and those of the mailbox calls that wait. -/
def Daemon.Held (g : Daemon) (i : Ptr) : Prop := (∃ q, i ∈ g.pool.queue q) ∨ i ∈ g.waitingPtrs

section

variable {env : Env} {cfg : Config} {H : Ptr → Prop} {g g' : Daemon}

/-- Picking a request. -/
lemma Alike.picked (h : Alike H g g') (budget : ℤ) {it : Ptr} (hit : H it)
    (pool : Intrusive.Pool 256 3) :
    Alike H (picked g budget it pool) (picked g' budget it pool) := by
  have h₁ : Alike H { g with pool := pool, stack := .drain (budget - 1) :: g.stack.tail }
      { g' with pool := pool, stack := .drain (budget - 1) :: g'.stack.tail } :=
    h.map (f := fun g => { g with pool := pool, stack := .drain (budget - 1) :: g.stack.tail })
      fun _ => rfl
  unfold Spid.picked
  dsimp only
  rw [h₁.entry, h₁.bodyOf hit, h₁.waiting, h₁.queued, h.owner]
  exact h₁.map (f := fun g => g.emit _) fun _ => rfl

/-- Freeing the item, or pushing the frame, does the same in both states. -/
lemma Alike.settle {r r' : Option MbFrame × Daemon} (he : r'.1 = r.1) (h : Alike H r.2 r'.2)
    (it : Ptr) : Alike H (settle it r) (settle it r') := by
  unfold Spid.settle
  rw [he]
  cases r.1 with
  | none => exact h.map (f := fun g => freeItem g it) fun _ => rfl
  | some f => exact h.map (f := fun g => { g with stack := .wait f :: g.stack }) fun _ => rfl

/-- **One round of `drain_queues`.**

**Proof sketch.** Both states pick the same item, because eligibility looks at the parts of the
items that agree. The item holds a request, so `execItem_alike` applies. -/
lemma Alike.drainStep (h : Alike g.Held g g') (hg : Good cfg g) (budget : ℤ) :
    Alike g.Held (drainStep env cfg g budget) (drainStep env cfg g' budget) := by
  have hel : itemEligible g' = itemEligible g := by
    funext i
    rw [itemEligible, itemEligible, h.c, h.hdr, h.owner]
  have htake : g'.pool.take (itemEligible g') = g.pool.take (itemEligible g) := by
    rw [hel, h.pool]
  rcases drainStep_cases env cfg g budget with ⟨hc, hd⟩ | ⟨it, pool, hb, ht, hd⟩
  · have hd' : Spid.drainStep env cfg g' budget = popStack g' := by
      rcases drainStep_cases env cfg g' budget with ⟨-, hd'⟩ | ⟨it, pool, hb, ht, -⟩
      · exact hd'
      · rcases hc with hc | hc
        · exact absurd hc hb
        · rw [htake, hc] at ht
          simp at ht
    rw [hd, hd']
    exact h.map (f := popStack) fun _ => rfl
  · have hd' : Spid.drainStep env cfg g' budget =
        Spid.settle it (execItem env cfg (Spid.picked g' budget it pool) it) := by
      rcases drainStep_cases env cfg g' budget with ⟨hc, -⟩ | ⟨it', pool', -, ht', hd'⟩
      · rcases hc with hc | hc
        · exact absurd hc hb
        · rw [htake, ht] at hc
          simp at hc
      · rw [htake, ht, Option.some.injEq, Prod.mk.injEq] at ht'
        obtain ⟨rfl, rfl⟩ := ht'
        exact hd'
    have hit : g.Held it := by
      obtain ⟨free, hr⟩ := hg.wf.rep
      exact Or.inl (hr.exists_mem_of_take ht)
    rw [hd, hd']
    obtain ⟨he, hx⟩ := execItem_alike env cfg (h.picked budget hit pool) hit
    exact Alike.settle he hx it

/-- **One round of the wait loop.** -/
lemma Alike.waitStep (h : Alike g.Held g g') (hg : Good cfg g) {f : MbFrame}
    (hf : f.it ∈ g.waitingPtrs) : Alike g.Held (waitStep env cfg g f) (waitStep env cfg g' f) := by
  have hit : g.Held f.it := Or.inr hf
  have hlen := hg.mailbox f.it hf
  obtain ⟨he, hx⟩ := execMailboxPoll_alike env cfg h hit hlen
  have hentry := (execMailboxPoll_footprint env cfg g f).entry f.it
  unfold Spid.waitStep
  dsimp only
  rw [he]
  generalize execMailboxPoll env cfg g f = r at *
  generalize execMailboxPoll env cfg g' f = r' at *
  obtain ⟨d | f', g₁⟩ := r
  · have hlen₁ : mbSize ≤ (g₁.item f.it).hdr.len.toNat := by
      rw [show (g₁.item f.it).hdr = (g.item f.it).hdr from congrArg Entry.hdr hentry]
      exact hlen
    exact (mailboxReply_alike env hx hit hlen₁ d.1 d.2).map
      (f := fun g => freeItem (popStack g) f.it) fun _ => rfl
  · exact hx.map (f := fun g => { g with stack := .drain 4 :: .wait f' :: g.stack.tail }) fun _ => rfl

/-! ## The items that hold a request -/

/-- Which items are held depends on the pool and the stack only. -/
lemma held_congr (hp : g'.pool = g.pool) (hs : g'.stack = g.stack) : g'.Held = g.Held := by
  funext i
  rw [Daemon.Held, Daemon.Held, Daemon.waitingPtrs, Daemon.waitingPtrs, hp, hs]

/-- A round of `drain_queues` makes no item hold a request.

**Proof sketch.** An item that holds a request behind the round is in a queue, which has only lost
items, or belongs to a call that waits; the one call that may be new is that of the picked item,
which was queued. -/
lemma Good.held_drainStep (hg : Good cfg g) {budget : ℤ} {rest : List Activation}
    (hs : g.stack = .drain budget :: rest) {i : Ptr} (hi : (drainStep env cfg g budget).Held i) :
    g.Held i := by
  rcases drainStep_cases env cfg g budget with ⟨-, hd⟩ | ⟨it, pool, -, ht, hd⟩
  · rw [hd] at hi
    have hw : (popStack g).waitingPtrs = g.waitingPtrs := by simp [popStack, Daemon.waitingPtrs, hs]
    exact hi.imp id fun hi => hw ▸ hi
  · rw [hd] at hi
    obtain ⟨hwf, -⟩ := take_sim cfg.rst hg.wf hs ht
    have hw := waitingPtrs_picked hs it pool
    obtain ⟨free, hr⟩ := hg.wf.rep
    have hex := execItem_sim env cfg hwf.ready hw
    generalize execItem env cfg (picked g budget it pool) it = res at *
    obtain ⟨o, g₂⟩ := res
    have hpool : g₂.pool = pool := hex.1.pool
    have hw₂ : g₂.waitingPtrs = g.waitingPtrs := by
      rw [← hw, Daemon.waitingPtrs, Daemon.waitingPtrs, hex.1.stack]
    cases o with
    | none =>
      have hwf₂ : WF g₂ (it :: g.waitingPtrs) := hwf.work List.mem_cons_self hex.1
      rcases hi with ⟨q', hi⟩ | hi
      · have hi' : i ∈ (g₂.pool.release it).queue q' := hi
        rw [hwf₂.queue_release, hpool] at hi'
        exact Or.inl ⟨q', hr.mem_queue_of_take ht hi'⟩
      · exact Or.inr (hw₂ ▸ hi)
    | some f =>
      obtain ⟨rfl, -⟩ := hex.2
      rcases hi with ⟨q', hi⟩ | hi
      · have hi' : i ∈ g₂.pool.queue q' := hi
        rw [hpool] at hi'
        exact Or.inl ⟨q', hr.mem_queue_of_take ht hi'⟩
      · have hi' : i ∈ f.it :: g₂.waitingPtrs := hi
        rcases List.mem_cons.mp hi' with rfl | hi'
        · exact Or.inl (hr.exists_mem_of_take ht)
        · exact Or.inr (hw₂ ▸ hi')

/-- A round of the wait loop makes no item hold a request. -/
lemma Good.held_waitStep (hg : Good cfg g) {f : MbFrame} {rest : List Activation}
    (hs : g.stack = .wait f :: rest) {i : Ptr} (hi : (waitStep env cfg g f).Held i) : g.Held i := by
  obtain ⟨g₁, hf, hw⟩ := waitStep_cases env cfg g f
  have hptrs : g.waitingPtrs = f.it :: ({ g with stack := rest } : Daemon).waitingPtrs := by
    simp [Daemon.waitingPtrs, hs]
  rcases hw with hw | ⟨v, m, hw, -⟩
  · rw [hw] at hi
    rcases hi with ⟨q, hi⟩ | hi
    · have hwf := hg.wf
      rw [hptrs] at hwf
      have hi' : i ∈ (g₁.pool.release f.it).queue q := hi
      rw [hf.pool, hwf.queue_release] at hi'
      exact Or.inl ⟨q, hi'⟩
    · refine Or.inr ?_
      rw [hptrs]
      refine List.mem_cons_of_mem _ ?_
      simpa [Daemon.waitingPtrs, freeItem, popStack, hf.stack, hs] using hi
  · rw [hw] at hi
    rcases hi with ⟨q, hi⟩ | hi
    · have hi' : i ∈ g₁.pool.queue q := hi
      rw [hf.pool] at hi'
      exact Or.inl ⟨q, hi'⟩
    · refine Or.inr ?_
      simpa [Daemon.waitingPtrs, hf.stack, hs] using hi

/-! ## Clients -/

/-- An answer sent from the loop of `main`. -/
lemma Alike.sendResp (h : Alike g.Held g g') (rid : ℕ) (c : Slot) (req : Hdr) (st : Status) :
    Alike (sendResp env g rid c req st []).Held (sendResp env g rid c req st [])
      (Spid.sendResp env g' rid c req st []) := by
  have hf := sendResp_footprint (P := fun _ => True) env g rid c req st [] trivial
  rw [held_congr hf.pool hf.stack]
  exact h.map (f := fun g => Spid.sendResp env g rid c req st []) fun y =>
    sendResp_withItems env g y rid c req st []

/-- **`enqueue`** overwrites what was left in the item as far as the request reaches.

**Proof sketch.** If the pool is full both send the same answer. Otherwise both take the same item
and write the same body into it, and only as much of the body as the header says is ever looked at;
all other items that hold a request held one before. -/
lemma Alike.enqueue (h : Alike g.Held g g') (hg : ∃ free, g.pool.Rep free g.pool.queue [])
    (rid : ℕ) (c : Slot) (hdr : Hdr) (body : List UInt8) (hlen : body.length = hdr.len.toNat)
    (hmax : hdr.len.toNat ≤ msgMax) :
    Alike (enqueue env g rid c hdr body).Held (enqueue env g rid c hdr body)
      (Spid.enqueue env g' rid c hdr body) := by
  unfold Spid.enqueue
  rw [h.pool]
  cases hp : g.pool.put hdr.prio with
  | none => exact h.sendResp rid c hdr _
  | some p =>
    obtain ⟨it, pool⟩ := p
    dsimp only
    obtain ⟨free, hr⟩ := hg
    obtain ⟨y, rfl, hy⟩ := h
    have htake : body.take hdr.len.toNat = body := List.take_of_length_le hlen.le
    have hread : ∀ b : Block msgMax, (b.write 0 body).read 0 hdr.len.toNat = body := fun b => by
      rw [← hlen]
      exact b.read_write_self 0 body (by omega)
    rw [htake]
    have h₁ : Alike (({ g with pool := pool } : Daemon).setItem it
        ⟨c, hdr, (g.item it).body.write 0 body, rid⟩).Held
        (({ g with pool := pool } : Daemon).setItem it ⟨c, hdr, (g.item it).body.write 0 body, rid⟩)
        (({ g.withItems y with pool := pool } : Daemon).setItem it
          ⟨c, hdr, (y it).body.write 0 body, rid⟩) := by
      refine ⟨_, rfl, hy.put it rfl rfl rfl (fun _ => (hread _).trans (hread _).symm) ?_⟩
      -- the other items that hold a request held one before
      rintro i hne (⟨q, hi⟩ | hi)
      · rcases hr.mem_queue_of_put hp hi with ⟨-, hi⟩ | ⟨rfl, -⟩
        · exact Or.inl ⟨q, hi⟩
        · exact absurd rfl hne
      · exact Or.inr hi
    have hit : (({ g with pool := pool } : Daemon).setItem it
        ⟨c, hdr, (g.item it).body.write 0 body, rid⟩).Held it :=
      Or.inl ⟨hdr.prio, hr.mem_queue_put hp⟩
    have he := h₁.entry it
    have hb := h₁.bodyOf hit
    have ho := h₁.owner
    generalize ({ g with pool := pool } : Daemon).setItem it
      ⟨c, hdr, (g.item it).body.write 0 body, rid⟩ = g₁ at *
    have hx : (g.withItems y).item it = y it := rfl
    rw [hx]
    generalize ({ g.withItems y with pool := pool } : Daemon).setItem it
      ⟨c, hdr, (y it).body.write 0 body, rid⟩ = g₁' at *
    rw [he, hb, ho]
    exact h₁.map (f := fun g => g.emit _) fun _ => rfl

/-- **`client_frame`**. -/
lemma Alike.clientFrame (h : Alike g.Held g g') (hg : WF g []) (rid : ℕ) (c : Slot)
    (msg : List UInt8) :
    Alike (clientFrame env g rid c msg).Held (clientFrame env g rid c msg)
      (Spid.clientFrame env g' rid c msg) := by
  unfold Spid.clientFrame
  split_ifs with hok
  · dsimp only
    rw [h.cl]
    simp only [frameOk, Bool.and_eq_true, decide_eq_true_eq] at hok
    obtain ⟨⟨⟨hsz, -⟩, hlen⟩, hmax⟩ := hok
    refine Alike.enqueue (h.map (f := fun g₁ => g₁.setClient c { g.cl c with
      nMsgs := (g.cl c).nMsgs + 1 }) fun _ => rfl) hg.rep rid c _ _ ?_ hmax
    rw [List.length_drop, hlen]
  · exact h.sendResp rid c _ _
  · exact h.sendResp rid c _ _

/-- **`client_drop`**. -/
lemma Alike.clientDrop (h : Alike H g g') (c : Slot) :
    Alike H (clientDrop env cfg g c) (Spid.clientDrop env cfg g' c) := by
  unfold Spid.clientDrop
  dsimp only
  have h₁ : Alike H (if g.claim.owner = some c then claimEnd env cfg g .disconnect else g)
      (if g'.claim.owner = some c then claimEnd env cfg g' .disconnect else g') := by
    rw [h.owner]
    split_ifs
    · exact h.map (f := fun g => claimEnd env cfg g .disconnect) fun y =>
        claimEnd_withItems env cfg g y _
    · exact h
  generalize (if g.claim.owner = some c then claimEnd env cfg g .disconnect else g) = g₁ at *
  generalize (if g'.claim.owner = some c then claimEnd env cfg g' .disconnect else g') = g₁' at *
  obtain ⟨y, rfl, hy⟩ := h₁
  have hdead : (fun it => decide (((g₁.withItems y).item it).c = c)) =
      fun it => decide ((g₁.item it).c = c) := funext fun it => by rw [← hy.c it]; rfl
  rw [hdead]
  exact ⟨y, rfl, hy⟩

/-- The end of a connection makes no item hold a request. -/
lemma held_clientDrop (hg : WF g []) (c : Slot) {i : Ptr}
    (hi : (clientDrop env cfg g c).Held i) : g.Held i := by
  have hfields : ∀ g₁ : Daemon, g₁.pool = g.pool → g₁.stack = g.stack →
      ({ g₁ with pool := g₁.pool.purge fun it => (g₁.item it).c = c } : Daemon).Held i →
      g.Held i := by
    rintro g₁ hp hs (⟨q, hi⟩ | hi)
    · have hi' : i ∈ (g₁.pool.purge fun it => (g₁.item it).c = c).queue q := hi
      obtain ⟨free, hr⟩ := hg.rep
      rw [hp] at hi'
      exact Or.inl ⟨q, (hr.mem_queue_of_purge hi').1⟩
    · rw [← held_congr hp hs]
      exact Or.inr hi
  by_cases ho : g.claim.owner = some c
  · obtain ⟨io, lctx, he⟩ := claimEnd_fields env cfg g .disconnect
    refine hfields (claimEnd env cfg g .disconnect) (by rw [he]; rfl) (by rw [he]; rfl) ?_
    simp only [clientDrop, ho, if_true] at hi
    exact hi
  · refine hfields g rfl rfl ?_
    simp only [clientDrop, ho, if_false] at hi
    exact hi

/-- **`client_msg`**. -/
lemma Alike.clientMsg (h : Alike g.Held g g') (hg : WF g []) (c : Slot) (datagram : List UInt8) :
    Alike (clientMsg env cfg g c datagram).Held (clientMsg env cfg g c datagram)
      (Spid.clientMsg env cfg g' c datagram) := by
  unfold Spid.clientMsg
  dsimp only
  split_ifs
  · exact (h.clientDrop c).mono fun i hi => held_clientDrop hg c hi
  · obtain ⟨y, rfl, hy⟩ := h
    have hrecv : Alike ({ g with nRecv := g.nRecv + 1 }.emit
        (.recv g.nRecv c (g.cl c).fd (datagram.take (hdrSize + msgMax)))).Held
        ({ g with nRecv := g.nRecv + 1 }.emit
          (.recv g.nRecv c (g.cl c).fd (datagram.take (hdrSize + msgMax))))
        ({ g.withItems y with nRecv := (g.withItems y).nRecv + 1 }.emit
          (.recv (g.withItems y).nRecv c ((g.withItems y).cl c).fd
            (datagram.take (hdrSize + msgMax)))) := ⟨y, rfl, hy⟩
    exact hrecv.clientFrame (hg.congr rfl rfl (fun _ => rfl) rfl) g.nRecv c _

/-- **One epoll event.** -/
lemma Alike.handleEvent (h : Alike g.Held g g') (hg : WF g []) (e : EpollEvent) :
    Alike (handleEvent env cfg g e).Held (handleEvent env cfg g e)
      (Spid.handleEvent env cfg g' e) := by
  cases e with
  | listen pid line =>
    have hkeep : (acceptClient g pid line).pool = g.pool ∧
        (acceptClient g pid line).stack = g.stack := by
      unfold acceptClient
      split
      · exact ⟨rfl, rfl⟩
      · exact ⟨rfl, rfl⟩
    change Alike (acceptClient g pid line).Held _ _
    rw [held_congr hkeep.1 hkeep.2]
    exact h.map (f := fun g => acceptClient g pid line) fun y => acceptClient_withItems g y pid line
  | client c datagram =>
    simp only [Spid.handleEvent]
    rw [h.cl]
    split_ifs
    · exact h.clientMsg hg c datagram
    · exact h

/-- So does the expiry check. -/
lemma Alike.checkExpiry (env : Env) (cfg : Config) (h : Alike g.Held g g') :
    Alike (checkExpiry env cfg g).Held (checkExpiry env cfg g) (Spid.checkExpiry env cfg g') := by
  have hkeep : (Spid.checkExpiry env cfg g).pool = g.pool ∧
      (Spid.checkExpiry env cfg g).stack = g.stack := by
    unfold Spid.checkExpiry
    dsimp only
    split_ifs
    · obtain ⟨io, lctx, he⟩ := claimEnd_fields env cfg (Spid.nowUs env g).2 .expired
      rw [he]
      exact ⟨rfl, rfl⟩
    · exact ⟨rfl, rfl⟩
    · exact ⟨rfl, rfl⟩
  rw [held_congr hkeep.1 hkeep.2]
  exact h.map (f := Spid.checkExpiry env cfg) fun y => checkExpiry_withItems env cfg g y

/-- The epoll events of one round of the loop of `main`. -/
lemma Alike.foldl_handleEvent (env : Env) (cfg : Config) (evs : List EpollEvent) :
    ∀ {g g' : Daemon}, Alike g.Held g g' → WF g [] → Alike (evs.foldl (Spid.handleEvent env cfg) g).Held
      (evs.foldl (Spid.handleEvent env cfg) g) (evs.foldl (Spid.handleEvent env cfg) g') := by
  induction evs with
  | nil => exact fun h _ => h
  | cons e evs ih =>
    intro g g' h hg
    have hq : Quiet cfg.rst g (Spid.handleEvent env cfg g e) := handleEvent_quiet cfg.rst hg e
    exact ih (h.handleEvent hg e) hq.wf

/-- **One step of the daemon.** -/
lemma Alike.step (h : Alike g.Held g g') (hg : Good cfg g) (i : Input) :
    Alike (step env cfg i g).Held (step env cfg i g) (Spid.step env cfg i g') := by
  have hstack : g'.stack = g.stack ∧ epollWait g' i.evs = epollWait g i.evs := by
    obtain ⟨y, rfl, -⟩ := h
    exact ⟨rfl, rfl⟩
  unfold Spid.step
  rw [hstack.1]
  cases hs : g.stack with
  | nil =>
    have h₁ := (Alike.foldl_handleEvent env cfg (epollWait g i.evs) h (hg.wf_nil hs)).checkExpiry env cfg
    dsimp only [mainStep]
    rw [hstack.2]
    refine (h₁.map (f := fun g => { g with stack := [.drain i.budget] }) fun _ => rfl).mono ?_
    rintro j (hj | hj)
    · exact Or.inl hj
    · simp [Daemon.waitingPtrs] at hj
  | cons a rest =>
    cases a with
    | drain budget =>
      exact (h.drainStep hg budget).mono fun j hj => hg.held_drainStep hs hj
    | wait f =>
      have hf : f.it ∈ g.waitingPtrs := by simp [Daemon.waitingPtrs, hs]
      exact (h.waitStep hg hf).mono fun j hj => hg.held_waitStep hs hj

end

/-! ## Two runs -/

/-- The state after the steps with the given inputs from `g`. -/
def runFrom (env : Env) (cfg : Config) (g : Daemon) (is : List Input) : Daemon :=
  is.foldl (fun g i => step env cfg i g) g

/-- A whole run. -/
lemma Alike.runFrom {env : Env} {cfg : Config} (is : List Input) : ∀ {g g' : Daemon},
    Alike g.Held g g' → Good cfg g →
      Alike (runFrom env cfg g is).Held (runFrom env cfg g is) (Spid.runFrom env cfg g' is) := by
  induction is with
  | nil => exact fun h _ => h
  | cons i is ih => exact fun h hg => ih (h.step hg i) (hg.step i)

/-- **Nothing leaks through recycled items.** Let two states differ in nothing but bytes of the items
that were not received for a request in them: those behind the body of a request that is queued or
whose mailbox call waits, and all bytes of the other items. With the same messages, device, clock and
sockets and the same packet buffers, their runs have the same accesses and responses, and reach the
same claim, queues, mailbox calls and lint state. The states that they reach differ in such bytes
only. -/
theorem no_leak {env : Env} {cfg : Config} {g g' : Daemon} (h : Reachable env cfg g)
    (hg : Alike g.Held g g') (is : List Input) :
    (runFrom env cfg g' is).evs = (runFrom env cfg g is).evs ∧
    (runFrom env cfg g' is).claim = (runFrom env cfg g is).claim ∧
    (runFrom env cfg g' is).pool = (runFrom env cfg g is).pool ∧
    (runFrom env cfg g' is).queued = (runFrom env cfg g is).queued ∧
    (runFrom env cfg g' is).waiting = (runFrom env cfg g is).waiting ∧
    (runFrom env cfg g' is).mbInflight = (runFrom env cfg g is).mbInflight ∧
    (runFrom env cfg g' is).io.lint = (runFrom env cfg g is).io.lint ∧
    Alike (runFrom env cfg g is).Held (runFrom env cfg g is) (runFrom env cfg g' is) := by
  have hrun : Alike _ (runFrom env cfg g is) (runFrom env cfg g' is) := Alike.runFrom is hg h.good
  have hio := hrun.io
  have hclaim : (runFrom env cfg g' is).claim = (runFrom env cfg g is).claim := by
    obtain ⟨y, hy, -⟩ := hrun
    rw [hy]
    rfl
  refine ⟨?_, hclaim, hrun.pool, hrun.queued, hrun.waiting, hrun.inflight, ?_, hrun⟩
  · rw [Daemon.evs, Daemon.evs, hio]
  · rw [hio]

/-- A `MAILBOX` without a body is queued, whose payload length is read from what its item held before;
the other items are free. -/
def emptyMailboxQueued : Daemon :=
  run (Env.still 0) Config.plain
    (connects [(7, ['a'])] ++ [⟨[.client 0 (datagram .mailbox 0 1 [])], 64⟩])

/-- Other bytes behind the requests: a mailbox command with one byte of payload. -/
def Daemon.spoil (g : Daemon) : Daemon :=
  g.withItems fun i =>
    { g.item i with body := (g.item i).body.write (g.item i).hdr.len.toNat [0, 5, 1, 0, 1, 0, 0, 0] }

/-- The theorem for the queued `MAILBOX` and for another that is received then. -/
theorem no_leak_spoil :
    emptyMailboxQueued.pool.queue 1 = [0] ∧
      (emptyMailboxQueued.spoil.item 0).body.read 0 4 ≠ (emptyMailboxQueued.item 0).body.read 0 4 ∧
      (runFrom (Env.still 0) Config.plain emptyMailboxQueued.spoil
        [.none, .none, ⟨[.client 0 (datagram .mailbox 0 2 [0, 7])], 64⟩, .none, .none]).evs =
      (runFrom (Env.still 0) Config.plain emptyMailboxQueued
        [.none, .none, ⟨[.client 0 (datagram .mailbox 0 2 [0, 7])], 64⟩, .none, .none]).evs := by
  have hspoil : Alike emptyMailboxQueued.Held emptyMailboxQueued emptyMailboxQueued.spoil := by
    refine ⟨_, rfl, fun _ => rfl, fun _ => rfl, fun _ => rfl, fun i _ => ?_⟩
    exact Block.read_write_of_disjoint _ _ _ _ _ (Or.inl (by omega))
  exact ⟨by decide +kernel, by decide +kernel, (no_leak (Reachable.run _ _ _) hspoil _).1⟩

end Spid

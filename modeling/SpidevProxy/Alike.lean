import SpidevProxy.Blind
import SpidevProxy.Requests

set_option relaxedAutoImplicit false
set_option autoImplicit false

/-!
# States with the same requests

The body of a queue item is not cleared when the item is reused, and the handlers read and overwrite
it in place, as structures. Two states are alike when they differ in nothing but the bytes behind the
requests. What is done for a request keeps them so, and has the same results.

## Main definitions

* `Spid.Covers` — items with the same requests, and the same bytes as far as they were received.
* `Spid.Alike` — two states that differ only in such items.

## Main results

* `Spid.execItem_alike` — `exec_item`, up to the wait loop of a mailbox call.
* `Spid.execMailboxPoll_alike` — one round of that loop.
-/

namespace Spid

open Bytes

/-! ## Items with the same requests -/

/-- The items `y` hold the same requests as the items `x`, and the bodies of those in `H` agree as far
as they were received. -/
structure Covers (H : Ptr → Prop) (x y : Ptr → Item) : Prop where
  rid : ∀ i, (y i).rid = (x i).rid
  c : ∀ i, (y i).c = (x i).c
  hdr : ∀ i, (y i).hdr = (x i).hdr
  body : ∀ i, H i → (y i).body.read 0 (x i).hdr.len.toNat = (x i).body.read 0 (x i).hdr.len.toNat

namespace Covers

variable {H H' : Ptr → Prop} {x y : Ptr → Item}

/-- Fewer bytes to agree in. -/
lemma mono (h : Covers H x y) (hH : ∀ i, H' i → H i) : Covers H' x y :=
  ⟨h.rid, h.c, h.hdr, fun i hi => h.body i (hH i hi)⟩

/-- Bytes that were received are the same. -/
lemma read (h : Covers H x y) {i : Ptr} (hi : H i) {off k : ℕ}
    (hk : off + k ≤ (x i).hdr.len.toNat) : (y i).body.read off k = (x i).body.read off k :=
  Block.read_eq_of_read_eq (h.body i hi) hk

/-- One item is replaced. -/
lemma put (h : Covers H x y) (it : Ptr) {a b : Item} (hr : b.rid = a.rid) (hc : b.c = a.c)
    (hh : b.hdr = a.hdr)
    (hb : H' it → b.body.read 0 a.hdr.len.toNat = a.body.read 0 a.hdr.len.toNat)
    (hH : ∀ i, i ≠ it → H' i → H i) :
    Covers H' (Function.update x it a) (Function.update y it b) := by
  refine ⟨fun i => ?_, fun i => ?_, fun i => ?_, fun i hi => ?_⟩ <;> by_cases hit : i = it
  · subst hit
    simpa using hr
  · simpa [hit] using h.rid i
  · subst hit
    simpa using hc
  · simpa [hit] using h.c i
  · subst hit
    simpa using hh
  · simpa [hit] using h.hdr i
  · subst hit
    simpa using hb hi
  · simpa [hit] using h.body i (hH i hit hi)

/-- The same bytes are written into the bodies of an item. -/
lemma write (h : Covers H x y) (it : Ptr) (off : ℕ) (src : List UInt8) :
    Covers H (Function.update x it { x it with body := (x it).body.write off src })
      (Function.update y it { y it with body := (y it).body.write off src }) :=
  h.put it (h.rid it) (h.c it) (h.hdr it)
    (fun hi => Block.read_write_eq_of_read_eq (h.body it hi) off src) fun _ _ => id

end Covers

/-- The states differ only in the queue items, which hold the same requests; and the bodies of those in
`H` agree as far as they were received. -/
def Alike (H : Ptr → Prop) (g g' : Daemon) : Prop := ∃ y, g' = g.withItems y ∧ Covers H g.item y

section

variable (env : Env) (cfg : Config) {H H' : Ptr → Prop} {g g' : Daemon} {it : Ptr}

namespace Alike

/-- Fewer items to agree in. -/
lemma mono (h : Alike H g g') (hH : ∀ i, H' i → H i) : Alike H' g g' := by
  obtain ⟨y, rfl, hy⟩ := h
  exact ⟨y, rfl, hy.mono hH⟩

/-- The requests in the items have the same numbers, -/
lemma rid (h : Alike H g g') (i : Ptr) : (g'.item i).rid = (g.item i).rid := by
  obtain ⟨y, rfl, hy⟩ := h
  exact hy.rid i

/-- the same clients, -/
lemma c (h : Alike H g g') (i : Ptr) : (g'.item i).c = (g.item i).c := by
  obtain ⟨y, rfl, hy⟩ := h
  exact hy.c i

/-- and the same headers. -/
lemma hdr (h : Alike H g g') (i : Ptr) : (g'.item i).hdr = (g.item i).hdr := by
  obtain ⟨y, rfl, hy⟩ := h
  exact hy.hdr i

/-- So their entries are the same. -/
lemma entry (h : Alike H g g') (i : Ptr) : g'.entry i = g.entry i := by
  rw [Daemon.entry, h.rid, h.c, h.hdr]
  rfl

/-- The claim has the same owner. -/
lemma owner (h : Alike H g g') : g'.claim.owner = g.claim.owner := by
  obtain ⟨y, rfl, -⟩ := h
  rfl

/-- The pool is the same. -/
lemma pool (h : Alike H g g') : g'.pool = g.pool := by
  obtain ⟨y, rfl, -⟩ := h
  rfl

/-- The clients are the same. -/
lemma cl (h : Alike H g g') : g'.cl = g.cl := by
  obtain ⟨y, rfl, -⟩ := h
  rfl

/-- The `Io` part is the same. -/
lemma io (h : Alike H g g') : g'.io = g.io := by
  obtain ⟨y, rfl, -⟩ := h
  rfl

/-- `g.mb_inflight` is the same. -/
lemma inflight (h : Alike H g g') : g'.mbInflight = g.mbInflight := by
  obtain ⟨y, rfl, -⟩ := h
  rfl

/-- The calls that wait are the same. -/
lemma waiting (h : Alike H g g') : g'.waiting = g.waiting := by
  have hw : g'.waitingPtrs = g.waitingPtrs := by
    obtain ⟨y, rfl, -⟩ := h
    rfl
  rw [Daemon.waiting, Daemon.waiting, hw]
  exact List.map_congr_left fun i _ => h.entry i

/-- The queued requests are the same. -/
lemma queued (h : Alike H g g') : g'.queued = g.queued := by
  rw [Daemon.queued, Daemon.queued, h.pool]
  exact List.map_congr_left fun i _ => h.entry i

/-- An item that is held has the same body, as far as it was received. -/
lemma bodyOf (h : Alike H g g') {i : Ptr} (hi : H i) : g'.bodyOf i = g.bodyOf i := by
  obtain ⟨y, rfl, hy⟩ := h
  have hb := hy.body i hi
  rw [← hy.hdr i] at hb
  exact hb.trans (by rw [hy.hdr i]; rfl)

/-- Reading within that part gives the same bytes. -/
lemma read (h : Alike H g g') {i : Ptr} (hi : H i) {off k : ℕ}
    (hk : off + k ≤ (g.item i).hdr.len.toNat) :
    (g'.item i).body.read off k = (g.item i).body.read off k := by
  obtain ⟨y, rfl, hy⟩ := h
  exact hy.read hi hk

/-- The same bytes are written into the body of an item. -/
lemma write (h : Alike H g g') (it : Ptr) (off : ℕ) (src : List UInt8) :
    Alike H (g.setBody it ((g.item it).body.write off src))
      (g'.setBody it ((g'.item it).body.write off src)) := by
  obtain ⟨y, rfl, hy⟩ := h
  exact ⟨_, rfl, hy.write it off src⟩

/-- A function that does not look at the items. -/
lemma map (h : Alike H g g') {f : Daemon → Daemon}
    (hf : ∀ y, f (g.withItems y) = (f g).withItems y) : Alike H (f g) (f g') := by
  obtain ⟨y, rfl, hy⟩ := h
  refine ⟨y, hf y, ?_⟩
  rwa [item_eq_of_withItems hf]

/-- A function with a result that does not look at the items. -/
lemma map_result {α : Type*} (h : Alike H g g') {f : Daemon → α × Daemon}
    (hf : ∀ y, f (g.withItems y) = ((f g).1, (f g).2.withItems y)) :
    (f g').1 = (f g).1 ∧ Alike H (f g).2 (f g').2 := by
  have hmap := h.map (f := fun g => (f g).2) fun y => congrArg Prod.snd (hf y)
  obtain ⟨y, rfl, hy⟩ := h
  exact ⟨by rw [hf y], hmap⟩

/-! ## Register accesses and answers -/

/-- `exec_op` does the same in both states. -/
lemma execOp (h : Alike H g g') (ag : Agent) (c : Option Slot) (op : Op) :
    (execOp env cfg g' ag c op).1 = (execOp env cfg g ag c op).1 ∧
      (Spid.execOp env cfg g' ag c op).2.1 = (Spid.execOp env cfg g ag c op).2.1 ∧
      Alike H (Spid.execOp env cfg g ag c op).2.2 (Spid.execOp env cfg g' ag c op).2.2 := by
  have hmap := h.map (f := fun g => (Spid.execOp env cfg g ag c op).2.2) fun y =>
    congrArg (fun r => r.2.2) (execOp_withItems env cfg g y ag c op)
  obtain ⟨y, rfl, hy⟩ := h
  have he := execOp_withItems env cfg g y ag c op
  exact ⟨congrArg (fun r => r.1) he, congrArg (fun r => r.2.1) he, hmap⟩

/-- So does `mb_rd`, -/
lemma mbRd (h : Alike H g g') (ag : Agent) (slice : UInt8) (reg : UInt16) (old : UInt32) :
    (mbRd env cfg g' ag slice reg old).1 = (mbRd env cfg g ag slice reg old).1 ∧
      (Spid.mbRd env cfg g' ag slice reg old).2.1 = (Spid.mbRd env cfg g ag slice reg old).2.1 ∧
      Alike H (Spid.mbRd env cfg g ag slice reg old).2.2
        (Spid.mbRd env cfg g' ag slice reg old).2.2 := by
  have hmap := h.map (f := fun g => (Spid.mbRd env cfg g ag slice reg old).2.2) fun y =>
    congrArg (fun r => r.2.2) (mbRd_withItems env cfg g y ag slice reg old)
  obtain ⟨y, rfl, hy⟩ := h
  have he := mbRd_withItems env cfg g y ag slice reg old
  exact ⟨congrArg (fun r => r.1) he, congrArg (fun r => r.2.1) he, hmap⟩

/-- `mb_wr`, -/
lemma mbWr (h : Alike H g g') (ag : Agent) (slice : UInt8) (reg : UInt16) (val : UInt32) :
    (mbWr env cfg g' ag slice reg val).1 = (mbWr env cfg g ag slice reg val).1 ∧
      Alike H (Spid.mbWr env cfg g ag slice reg val).2 (Spid.mbWr env cfg g' ag slice reg val).2 :=
  h.map_result (f := fun g => Spid.mbWr env cfg g ag slice reg val) fun y =>
    mbWr_withItems env cfg g y ag slice reg val

/-- the clock, -/
lemma nowUs (h : Alike H g g') :
    (nowUs env g').1 = (nowUs env g).1 ∧ Alike H (Spid.nowUs env g).2 (Spid.nowUs env g').2 :=
  h.map_result (f := Spid.nowUs env) fun y => nowUs_withItems env g y

/-- the loop that writes a packet, -/
lemma mbWriteWords (h : Alike H g g') (ag : Agent) (slice : UInt8) (pkt : Block pktSize) (k i : ℕ) :
    (mbWriteWords env cfg ag slice pkt k i g').1 = (mbWriteWords env cfg ag slice pkt k i g).1 ∧
      Alike H (Spid.mbWriteWords env cfg ag slice pkt k i g).2
        (Spid.mbWriteWords env cfg ag slice pkt k i g').2 :=
  h.map_result (f := Spid.mbWriteWords env cfg ag slice pkt k i) fun y =>
    mbWriteWords_withItems env cfg g y ag slice pkt k i

/-- the loop that reads one, -/
lemma mbReadWords (h : Alike H g g') (ag : Agent) (slice : UInt8) (k i : ℕ) (pkt : Block pktSize)
    (v : UInt32) :
    (mbReadWords env cfg ag slice k i pkt v g').1 = (mbReadWords env cfg ag slice k i pkt v g).1 ∧
      Alike H (Spid.mbReadWords env cfg ag slice k i pkt v g).2
        (Spid.mbReadWords env cfg ag slice k i pkt v g').2 :=
  h.map_result (f := Spid.mbReadWords env cfg ag slice k i pkt v) fun y =>
    mbReadWords_withItems env cfg g y ag slice k i pkt v

/-- `g.mb_inflight` is set or cleared. -/
lemma setInflight (h : Alike H g g') (b : Bool) (e : Event) :
    Alike H ({ g with mbInflight := b }.emit e) ({ g' with mbInflight := b }.emit e) :=
  h.map (f := fun g => { g with mbInflight := b }.emit e) fun _ => rfl

/-- The claim is granted. -/
lemma setClaim (h : Alike H g g') (cl : Claim) (e : Event) :
    Alike H ({ g with claim := cl }.emit e) ({ g' with claim := cl }.emit e) :=
  h.map (f := fun g => { g with claim := cl }.emit e) fun _ => rfl

/-- and the end of a mailbox call. -/
lemma mbLeave (h : Alike H g g') {x x' : Item} (hr : x'.rid = x.rid) (hc : x'.c = x.c) :
    Alike H (mbLeave g x) (mbLeave g' x') := by
  unfold Spid.mbLeave
  rw [hr, hc]
  exact h.setInflight _ _

/-- The answer to the request in an item. -/
lemma reply (h : Alike H g g') (it : Ptr) (st : Status) (body : List UInt8) :
    Alike H (reply env g it st body) (reply env g' it st body) := by
  unfold Spid.reply
  rw [h.rid, h.c, h.hdr]
  exact h.map (f := fun g₁ => sendResp env g₁ (g.item it).rid (g.item it).c (g.item it).hdr st body)
    fun y => sendResp_withItems env g y _ _ _ _ _

end Alike

/-! ## `READ`, `WRITE`, `BATCH` -/

/-- An operation inside the body that was received. -/
lemma execBodyOp_alike (h : Alike H g g') (hit : H it) {i : ℕ}
    (hi : opSize * i + opSize ≤ (g.item it).hdr.len.toNat) :
    (execBodyOp env cfg g' it i).1 = (execBodyOp env cfg g it i).1 ∧
      Alike H (execBodyOp env cfg g it i).2 (execBodyOp env cfg g' it i).2 := by
  have hop : opAt (g'.item it).body 0 i = opAt (g.item it).body 0 i := by
    rw [opAt, opAt, h.read hit (by omega)]
  unfold execBodyOp
  dsimp only
  rw [h.rid, h.c, hop]
  obtain ⟨h₁, h₂, h₃⟩ := h.execOp env cfg (.request (g.item it).rid (g.item it).c)
    (some (g.item it).c) (opAt (g.item it).body 0 i)
  rw [h₂]
  exact ⟨h₁, h₃.write it _ _⟩

/-- Executing an operation keeps the header of the item. -/
lemma hdr_execBodyOp (g : Daemon) (it : Ptr) (i : ℕ) :
    ((execBodyOp env cfg g it i).2.item it).hdr = (g.item it).hdr :=
  congrArg Entry.hdr ((execBodyOp_footprint env cfg g it i).entry it)

/-- The loop of `BATCH`, over operations that were received. -/
lemma batchLoop_alike (hit : H it) (k : ℕ) : ∀ {g g' : Daemon} {i : ℕ}, Alike H g g' →
    opSize * (i + k) ≤ (g.item it).hdr.len.toNat →
    (batchLoop env cfg it k i g').1 = (batchLoop env cfg it k i g).1 ∧
      (batchLoop env cfg it k i g').2.1 = (batchLoop env cfg it k i g).2.1 ∧
      Alike H (batchLoop env cfg it k i g).2.2 (batchLoop env cfg it k i g').2.2 := by
  induction k with
  | zero => exact fun h _ => ⟨rfl, rfl, h⟩
  | succ k ih =>
    intro g g' i h hlen
    have hop := execBodyOp_alike env cfg h hit (i := i) (by simp only [opSize] at hlen ⊢; omega)
    simp only [batchLoop]
    rw [hop.1]
    split_ifs
    · refine ih hop.2 ?_
      rw [hdr_execBodyOp]
      simp only [opSize] at hlen ⊢
      omega
    · exact ⟨rfl, rfl, hop.2⟩

/-- Counting operations. -/
lemma addOps_alike (h : Alike H g g') (c : Slot) (n : ℕ) : Alike H (addOps g c n) (addOps g' c n) :=
  h.map (f := fun g => addOps g c n) fun _ => rfl

/-- `READ` and `WRITE`. -/
lemma execReadWrite_alike (h : Alike H g g') (hit : H it) (wr : UInt8) :
    Alike H (execReadWrite env cfg g it wr) (execReadWrite env cfg g' it wr) := by
  unfold execReadWrite
  dsimp only
  rw [h.hdr, h.c]
  split_ifs with hlen
  · exact h.reply env it _ _
  · have hlen := not_not.mp hlen
    have hset := h.write it 1 [wr]
    have hlen' : ((g.setBody it ((g.item it).body.write 1 [wr])).item it).hdr.len.toNat = opSize := by
      simpa [Daemon.setBody, Daemon.setItem] using hlen
    obtain ⟨h₁, h₂⟩ := execBodyOp_alike env cfg hset hit (i := 0) (by rw [hlen']; simp)
    have h₃ := addOps_alike h₂ (g.item it).c 1
    have hlen₃ : opSize = ((addOps (execBodyOp env cfg (g.setBody it ((g.item it).body.write 1 [wr]))
        it 0).2 (g.item it).c 1).item it).hdr.len.toNat := by
      rw [← hlen', ← hdr_execBodyOp env cfg _ it 0]
      rfl
    rw [h₁, h₃.read hit (by omega)]
    exact h₃.reply env it _ _

/-- `BATCH`. -/
lemma execBatch_alike (h : Alike H g g') (hit : H it) :
    Alike H (execBatch env cfg g it) (execBatch env cfg g' it) := by
  unfold execBatch
  dsimp only
  rw [h.hdr, h.c]
  split_ifs with hn
  · exact h.reply env it _ _
  · have hle : opSize * (0 + (g.item it).hdr.len.toNat / opSize) ≤ (g.item it).hdr.len.toNat := by
      rw [Nat.zero_add]
      exact Nat.mul_div_le _ _
    obtain ⟨h₁, h₂, h₃⟩ := batchLoop_alike env cfg hit _ h hle
    rw [h₁, h₂]
    have h₄ := addOps_alike h₃ (g.item it).c
      (batchLoop env cfg it ((g.item it).hdr.len.toNat / opSize) 0 g).2.1
    have hhdr := congrArg Entry.hdr ((batchLoop_footprint env cfg it
      ((g.item it).hdr.len.toNat / opSize) 0 g).entry it)
    rw [h₄.read hit (by rw [Nat.zero_add]; exact (congrArg (fun h : Hdr => h.len.toNat) hhdr).ge)]
    exact h₄.reply env it _ _

/-! ## `CLAIM`, `RELEASE`, `RESET` -/

/-- The check of a `CLAIM` reads only what was received. -/
lemma claimValid_alike (h : Alike H g g') (hit : H it) :
    claimValid (g'.item it).hdr (g'.item it).body = claimValid (g.item it).hdr (g.item it).body := by
  unfold claimValid
  dsimp only
  rw [h.hdr]
  by_cases hlen : claimSize ≤ (g.item it).hdr.len.toNat
  · rw [h.read hit (by omega)]
  · simp [hlen]

/-- So does its cleanup list, if the check has passed. -/
lemma claimOps_alike (h : Alike H g g') (hit : H it)
    (hv : claimValid (g.item it).hdr (g.item it).body = true) :
    claimOps (g'.item it).body = claimOps (g.item it).body := by
  simp only [claimValid, Bool.and_eq_true, decide_eq_true_eq] at hv
  obtain ⟨⟨hlen, -⟩, hsz⟩ := hv
  unfold claimOps
  rw [h.read hit (by omega)]
  apply List.map_congr_left
  intro i hi
  have hin := List.mem_range.mp hi
  rw [opAt, opAt, h.read hit]
  simp only [opSize] at hsz ⊢
  omega

/-- `CLAIM`. -/
lemma execClaim_alike (h : Alike H g g') (hit : H it) :
    Alike H (execClaim env g it) (execClaim env g' it) := by
  unfold execClaim
  dsimp only
  rw [claimValid_alike h hit, h.owner, h.c]
  split_ifs with hv ho
  · exact h.reply env it _ _
  · exact h.reply env it _ _
  · have hv : claimValid (g.item it).hdr (g.item it).body = true := by simpa using hv
    have hlen : claimSize ≤ (g.item it).hdr.len.toNat := by
      simp only [claimValid, Bool.and_eq_true, decide_eq_true_eq] at hv
      exact hv.1.1
    obtain ⟨h₁, h₂⟩ := h.nowUs env
    rw [claimOps_alike h hit hv, h.read hit (by omega), h.rid, h.entry, h₁]
    exact Alike.reply env (h₂.setClaim _ _) it _ _

/-- `RELEASE`. -/
lemma execRelease_alike (h : Alike H g g') :
    Alike H (execRelease env cfg g it) (execRelease env cfg g' it) := by
  unfold execRelease
  dsimp only
  refine Alike.reply env ?_ it _ _
  rw [h.c, h.owner]
  split_ifs
  · exact h.map (f := fun g => claimEnd env cfg g .release) fun y => claimEnd_withItems env cfg g y _
  · exact h

/-- `RESET`. -/
lemma execReset_alike (h : Alike H g g') (hit : H it) :
    Alike H (execReset env cfg g it) (execReset env cfg g' it) := by
  unfold execReset
  dsimp only
  rw [h.hdr, h.entry, h.waiting, h.owner]
  by_cases hlen : (g.item it).hdr.len.toNat = resetSize
  · rw [h.read hit (by omega), if_neg (not_not.mpr hlen), if_neg (not_not.mpr hlen)]
    by_cases hrst : (!cfg.rst) = true
    · rw [if_pos hrst, if_pos hrst]
      exact h.reply env it _ _
    · rw [if_neg hrst, if_neg hrst]
      exact Alike.reply env (h.setInflight _ _) it _ _
  · rw [if_pos hlen, if_pos hlen]
    exact h.reply env it _ _

/-! ## `MAILBOX` -/

/-- The mailbox structure of a request that has one. -/
lemma mb_alike (h : Alike H g g') (hit : H it) (hlen : mbSize ≤ (g.item it).hdr.len.toNat) :
    Mb.decode ((g'.item it).body.read 0 mbSize) = Mb.decode ((g.item it).body.read 0 mbSize) := by
  rw [h.read hit (by omega)]

/-- The length check reads the payload length before the length is known to cover it; but then the
check fails, whatever was read. -/
lemma mailboxValid_alike (h : Alike H g g') (hit : H it) :
    mailboxValid (g'.item it).hdr (g'.item it).body =
      mailboxValid (g.item it).hdr (g.item it).body := by
  unfold mailboxValid
  rw [h.hdr]
  by_cases hlen : mbSize ≤ (g.item it).hdr.len.toNat
  · rw [mb_alike h hit hlen]
  · have hne : ∀ k, (g.item it).hdr.len.toNat ≠ mbSize + k := fun k => by omega
    simp [hne]

/-- The request part of a mailbox call. -/
lemma execMailboxRequest_alike (h : Alike H g g') (it : Ptr) (mb : Mb) (pkt : Block pktSize) :
    (execMailboxRequest env cfg g' it mb pkt).1 = (execMailboxRequest env cfg g it mb pkt).1 ∧
      Alike H (execMailboxRequest env cfg g it mb pkt).2
        (execMailboxRequest env cfg g' it mb pkt).2 := by
  have hr := h.rid it
  have hc := h.c it
  unfold execMailboxRequest
  dsimp only
  rw [hr, hc]
  generalize hag : Agent.request (g.item it).rid (g.item it).c = ag
  generalize hn : wordCount mb.pktLen = n
  obtain ⟨e₁, h₁⟩ := h.mbWriteWords env cfg ag mb.slice pkt n 0
  obtain ⟨e₂, v₂, h₂⟩ := h₁.mbRd env cfg ag mb.slice mbMcuMask (pktWord pkt (n - 1))
  rw [e₁, e₂, v₂]
  generalize (mbRd env cfg (mbWriteWords env cfg ag mb.slice pkt n 0 g).2 ag mb.slice mbMcuMask
    (pktWord pkt (n - 1))).2.1 = v
  obtain ⟨e₃, h₃⟩ := h₂.mbWr env cfg ag mb.slice mbMcuMask (v ||| 1)
  obtain ⟨e₄, h₄⟩ := h₃.mbWr env cfg ag mb.slice mbFlag mbSetReq
  obtain ⟨e₅, h₅⟩ := h₄.nowUs env
  rw [e₃, e₄, e₅]
  split_ifs
  · exact ⟨rfl, h₁.mbLeave hr hc⟩
  · exact ⟨rfl, h₂.mbLeave hr hc⟩
  · exact ⟨rfl, h₃.mbLeave hr hc⟩
  · exact ⟨rfl, h₄.mbLeave hr hc⟩
  · exact ⟨rfl, h₅⟩
  · exact ⟨rfl, h₅⟩

/-- `exec_mailbox` up to the wait loop, once the length check has passed. -/
lemma execMailboxStart_alike (h : Alike H g g') (hit : H it)
    (hv : mailboxValid (g.item it).hdr (g.item it).body = true) :
    (execMailboxStart env cfg g' it).1 = (execMailboxStart env cfg g it).1 ∧
      Alike H (execMailboxStart env cfg g it).2 (execMailboxStart env cfg g' it).2 := by
  have hlen : (g.item it).hdr.len.toNat =
      mbSize + (Mb.decode ((g.item it).body.read 0 mbSize)).payloadLen.toNat := by
    simpa [mailboxValid] using hv
  have h₀ : Alike H { g with io := { g.io with nPkt := g.io.nPkt + 1 } }
      { g' with io := { g.io with nPkt := g.io.nPkt + 1 } } :=
    h.map (f := fun g₁ => { g₁ with io := { g.io with nPkt := g.io.nPkt + 1 } }) fun _ => rfl
  unfold execMailboxStart
  dsimp only
  rw [mb_alike h hit (by omega), h.read hit (by omega), h.rid, h.c, h.io]
  generalize Mb.decode ((g.item it).body.read 0 mbSize) = mb at *
  obtain ⟨e₁, v₁, h₁⟩ := h₀.mbRd env cfg (.request (g.item it).rid (g.item it).c) mb.slice mbFlag 0
  rw [e₁, v₁]
  split_ifs
  · exact ⟨rfl, h₀⟩
  · exact ⟨rfl, h₁⟩
  · exact ⟨rfl, h₁⟩
  · rw [h₁.inflight]
    exact execMailboxRequest_alike env cfg (h₁.setInflight _ _) it _ _

/-- The end of `exec_mailbox`.

**Proof sketch.** Follow the body. The two states give the same values to each read, so both take
the same branch, and each register access keeps them alike; at the end the command byte in the body
of the item is written, the same in both. -/
lemma execMailboxFinish_alike (h : Alike H g g') {f : MbFrame} (hit : H f.it)
    (hlen : mbSize ≤ (g.item f.it).hdr.len.toNat) (v : UInt32) :
    (execMailboxFinish env cfg g' f v).1 = (execMailboxFinish env cfg g f v).1 ∧
      Alike H (execMailboxFinish env cfg g f v).2 (execMailboxFinish env cfg g' f v).2 := by
  have hr := h.rid f.it
  have hc := h.c f.it
  unfold execMailboxFinish
  dsimp only
  rw [mb_alike h hit hlen, hr, hc]
  generalize Mb.decode ((g.item f.it).body.read 0 mbSize) = mb
  generalize hag : Agent.request (g.item f.it).rid (g.item f.it).c = ag
  obtain ⟨e₁, v₁, h₁⟩ := h.mbRd env cfg ag mb.slice mbRespAddr v
  rw [e₁, v₁]
  generalize (mbRd env cfg g ag mb.slice mbRespAddr v).2.1 = w
  obtain ⟨-, h₂⟩ := h₁.mbWr env cfg ag mb.slice mbFlag mbClrResp
  obtain ⟨e₃, h₃⟩ := h₁.mbReadWords env cfg ag mb.slice (wordCount (w >>> 16).toUInt16 - 1) 1
    (f.pkt.write 0 (le32 w)) w
  rw [e₃]
  split_ifs
  · exact ⟨rfl, h₁.mbLeave hr hc⟩
  · exact ⟨rfl, h₂.mbLeave hr hc⟩
  · obtain ⟨-, h₄⟩ := h₃.mbWr env cfg ag mb.slice mbFlag mbClrResp
    have h₅ := h₄.mbLeave hr hc
    cases (mbReadWords env cfg ag mb.slice (wordCount (w >>> 16).toUInt16 - 1) 1
        (f.pkt.write 0 (le32 w)) w (mbRd env cfg g ag mb.slice mbRespAddr v).2.2).1 with
    | none => exact ⟨rfl, h₃.mbLeave hr hc⟩
    | some pkt =>
      dsimp only
      split_ifs
      · exact ⟨rfl, h₅.write f.it 1 [pkt.get 0]⟩
      · exact ⟨rfl, h₅⟩

/-- Reading a register keeps the items. -/
lemma item_mbRd (g : Daemon) (ag : Agent) (slice : UInt8) (reg : UInt16) (old : UInt32) :
    (mbRd env cfg g ag slice reg old).2.2.item = g.item :=
  item_eq_of_withItems (f := fun g => (mbRd env cfg g ag slice reg old).2.2) fun y =>
    congrArg (fun r => r.2.2) (mbRd_withItems env cfg g y ag slice reg old)

/-- **One round of the wait loop.** -/
lemma execMailboxPoll_alike (h : Alike H g g') {f : MbFrame} (hit : H f.it)
    (hlen : mbSize ≤ (g.item f.it).hdr.len.toNat) :
    (execMailboxPoll env cfg g' f).1 = (execMailboxPoll env cfg g f).1 ∧
      Alike H (execMailboxPoll env cfg g f).2 (execMailboxPoll env cfg g' f).2 := by
  have hr := h.rid f.it
  have hc := h.c f.it
  unfold execMailboxPoll
  dsimp only
  rw [mb_alike h hit hlen, hr, hc]
  generalize Mb.decode ((g.item f.it).body.read 0 mbSize) = mb
  generalize hag : Agent.request (g.item f.it).rid (g.item f.it).c = ag
  obtain ⟨e₁, v₁, h₁⟩ := h.mbRd env cfg ag mb.slice mbFlag f.v
  rw [e₁, v₁]
  obtain ⟨e₂, h₂⟩ := h₁.nowUs env
  rw [e₂]
  obtain ⟨-, h₃⟩ := h₂.mbWr env cfg ag mb.slice mbFlag mbClrReq
  split_ifs
  · exact ⟨rfl, h₁.mbLeave hr hc⟩
  · obtain ⟨e₄, h₄⟩ := execMailboxFinish_alike env cfg h₁ hit (by rw [item_mbRd]; exact hlen)
      (mbRd env cfg g ag mb.slice mbFlag f.v).2.1
    exact ⟨congrArg Sum.inl e₄, h₄⟩
  · exact ⟨rfl, h₃.mbLeave hr hc⟩
  · exact ⟨rfl, h₂⟩

/-- The answer to a `MAILBOX`. -/
lemma mailboxReply_alike (h : Alike H g g') (hit : H it)
    (hlen : mbSize ≤ (g.item it).hdr.len.toNat) (st : Status) (payload : List UInt8) :
    Alike H (mailboxReply env g it st payload) (mailboxReply env g' it st payload) := by
  have h₁ := h.write it 2 (le16 (UInt16.ofNat payload.length))
  unfold mailboxReply
  dsimp only
  rw [h₁.read hit (by simpa [Daemon.setBody, Daemon.setItem] using hlen)]
  exact h₁.reply env it _ _

/-- `MAILBOX`. -/
lemma execMailbox_alike (h : Alike H g g') (hit : H it) :
    (execMailbox env cfg g' it).1 = (execMailbox env cfg g it).1 ∧
      Alike H (execMailbox env cfg g it).2 (execMailbox env cfg g' it).2 := by
  unfold execMailbox
  dsimp only
  rw [mailboxValid_alike h hit]
  split_ifs with hv
  · exact ⟨rfl, h.reply env it _ _⟩
  · have hv : mailboxValid (g.item it).hdr (g.item it).body = true := by simpa using hv
    have hlen : mbSize ≤ (g.item it).hdr.len.toNat := by
      simp only [mailboxValid, decide_eq_true_eq] at hv
      omega
    obtain ⟨e₁, h₁⟩ := execMailboxStart_alike env cfg h hit hv
    have hentry := (execMailboxStart_footprint env cfg g it).entry it
    rw [e₁]
    generalize execMailboxStart env cfg g it = r at *
    generalize execMailboxStart env cfg g' it = r' at *
    obtain ⟨st | f, g₁⟩ := r
    · have hlen₁ : mbSize ≤ (g₁.item it).hdr.len.toNat := by
        rw [show (g₁.item it).hdr = (g.item it).hdr from congrArg Entry.hdr hentry]
        exact hlen
      exact ⟨rfl, mailboxReply_alike env h₁ hit hlen₁ _ _⟩
    · exact ⟨rfl, h₁⟩

/-! ## `exec_item` -/

/-- **`exec_item`** does the same for the same request.

**Proof sketch.** The log context is the same in both states, and so is the type of the request.
Each type has its lemma above; the texts of `STATS` and `TRACE` do not look at the items. -/
lemma execItem_alike (h : Alike H g g') (hit : H it) :
    (execItem env cfg g' it).1 = (execItem env cfg g it).1 ∧
      Alike H (execItem env cfg g it).2 (execItem env cfg g' it).2 := by
  have hctx : (⟨(g'.cl (g'.item it).c).id, (g'.cl (g'.item it).c).comm, (g'.item it).hdr.seq,
      .none⟩ : LogCtx) = ⟨(g.cl (g.item it).c).id, (g.cl (g.item it).c).comm, (g.item it).hdr.seq,
      .none⟩ := by
    rw [h.c, h.hdr, h.cl]
  unfold execItem
  dsimp only
  rw [hctx, h.hdr]
  generalize (⟨(g.cl (g.item it).c).id, (g.cl (g.item it).c).comm, (g.item it).hdr.seq, .none⟩ :
    LogCtx) = ctx
  have h₁ : Alike H { g with lctx := ctx } { g' with lctx := ctx } :=
    h.map (f := fun g => { g with lctx := ctx }) fun _ => rfl
  have hstats : statsText cfg { g' with lctx := ctx } = statsText cfg { g with lctx := ctx } := by
    obtain ⟨y, rfl, -⟩ := h
    rfl
  generalize ({ g with lctx := ctx } : Daemon) = g₁ at *
  generalize ({ g' with lctx := ctx } : Daemon) = g₁' at *
  cases MsgType.ofCode (g.item it).hdr.type with
  | none => exact ⟨rfl, h₁.reply env it _ _⟩
  | some ty =>
    cases ty with
    | read => exact ⟨rfl, execReadWrite_alike env cfg h₁ hit _⟩
    | write => exact ⟨rfl, execReadWrite_alike env cfg h₁ hit _⟩
    | batch => exact ⟨rfl, execBatch_alike env cfg h₁ hit⟩
    | claim => exact ⟨rfl, execClaim_alike env h₁ hit⟩
    | release => exact ⟨rfl, execRelease_alike env cfg h₁⟩
    | mailbox => exact execMailbox_alike env cfg h₁ hit
    | reset => exact ⟨rfl, execReset_alike env cfg h₁ hit⟩
    | stats =>
      dsimp only
      rw [hstats]
      exact ⟨rfl, h₁.reply env it _ _⟩
    | trace =>
      dsimp only
      rw [h.io]
      exact ⟨rfl, h₁.reply env it _ _⟩
    | _ => exact ⟨rfl, h₁.reply env it _ _⟩

end

end Spid

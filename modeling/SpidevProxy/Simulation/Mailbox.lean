import SpidevProxy.Layout

set_option relaxedAutoImplicit false
set_option autoImplicit false

/-!
# The protocol follows `exec_mailbox`

One lemma for each part of `exec_mailbox`: the words of the request, the way to the doorbell, the
words of the response, one round of the wait loop.

## Main results

* `Spid.execMailboxStart_sim` — from the entry to the wait loop, or to an early return.
* `Spid.execMailboxPoll_sim` — one round of the wait loop.
-/

namespace Spid

open Bytes

section

variable (env : Env) (cfg : Config) {rst : Bool} {w : List Ptr} {it : Ptr} {r : Req}

/-- An access of the request being executed. -/
lemma IoSim.touch {g g' : Daemon} {p p' : Progress} {x : Access} (h : Accessed g g' x)
    (ht : Touch (g.abs w (.exec r p)) r p x p') : IoSim rst w g (.exec r p) g' (.exec r p') :=
  IoSim.of_accessed h (Step.access rfl ht)

/-- Leaving `exec_mailbox`. -/
lemma mbLeave_work {g : Daemon} {x : Item} {st : Status} {cmd : UInt8} {payload : List UInt8}
    (hr : x.rid = r.rid) (hc : x.c = r.c) :
    Work rst it w g (.exec r (.leave st cmd payload)) (mbLeave g x)
      (.exec r (.answer st (r.mbReply cmd payload))) := by
  refine ⟨⟨rfl, rfl, fun _ => rfl, fun _ => rfl, fun _ _ => rfl, rfl, rfl, rfl, fun _ => Or.inl⟩,
    Sim.of_step (e := .mbClear r.rid r.c) ?_ (Step.mbClear rfl)⟩
  rw [← hr, ← hc]
  rfl

/-! ## The request -/

variable (rst w) in
/-- The words of the request: all of them are written, or the call leaves at the first failure.

**Proof sketch.** Induction on the words left. Each write is the next word of the packet; the bytes
behind the packet do not matter to the protocol. -/
lemma mbWriteWords_sim {pkt : Block pktSize}
    (hpkt : ∀ i, (le32 (pktWord pkt i)).take (r.packet.length - 4 * i) =
      (r.packet.drop (4 * i)).take 4) :
    ∀ (k : ℕ) (ws : List UInt32) (g : Daemon), ws.length + k = wordCount r.mb.pktLen →
      ((mbWriteWords env cfg r.agent r.mb.slice pkt k ws.length g).1 = true →
        ∃ ws', ws'.length = wordCount r.mb.pktLen ∧
          IoSim rst w g (.exec r (.request ws))
            (mbWriteWords env cfg r.agent r.mb.slice pkt k ws.length g).2
            (.exec r (.request ws'))) ∧
      ((mbWriteWords env cfg r.agent r.mb.slice pkt k ws.length g).1 = false →
        IoSim rst w g (.exec r (.request ws))
          (mbWriteWords env cfg r.agent r.mb.slice pkt k ws.length g).2
          (.exec r (.leave .eio r.mb.cmd []))) := by
  intro k
  induction k with
  | zero =>
    intro ws g hk
    exact ⟨fun _ => ⟨ws, hk, IoSim.refl⟩, fun h => by simp [mbWriteWords] at h⟩
  | succ k ih =>
    intro ws g hk
    have ht : IoSim rst w g (.exec r (.request ws)) _ _ :=
      IoSim.touch (mbWr_spec env cfg g r.agent r.mb.slice (mbCmdAddr + UInt16.ofNat ws.length)
        (pktWord pkt ws.length)) (Touch.word (by omega) (hpkt ws.length))
    simp only [mbWriteWords]
    cases hok : (mbWr env cfg g r.agent r.mb.slice (mbCmdAddr + UInt16.ofNat ws.length)
        (pktWord pkt ws.length)).1 with
    | false =>
      rw [hok] at ht
      exact ⟨fun h => by simp at h, fun _ => ht⟩
    | true =>
      rw [hok] at ht
      have h := ih (ws ++ [pktWord pkt ws.length])
        (mbWr env cfg g r.agent r.mb.slice (mbCmdAddr + UInt16.ofNat ws.length)
          (pktWord pkt ws.length)).2 (by simp; omega)
      rw [List.length_append, List.length_singleton] at h
      refine ⟨fun h₁ => ?_, fun h₁ => ht.trans (h.2 h₁)⟩
      obtain ⟨ws', hlen, hs⟩ := h.1 h₁
      exact ⟨ws', hlen, ht.trans hs⟩

/-- What a call of `exec_mailbox` has come to when it first stops: it has returned a status, with
only the answer left, or it waits. -/
def Started (rst : Bool) (w : List Ptr) (it : Ptr) (r : Req) (g : Daemon) (act : Activity)
    (res : (Status ⊕ MbFrame) × Daemon) : Prop :=
  res.2.item = g.item ∧
    match res.1 with
    | .inl st => Work rst it w g act res.2 (.exec r (.answer st (r.mbReply r.mb.cmd [])))
    | .inr f => f.it = it ∧ Leaves it g res.2 ∧ Sim rst g w act res.2 (it :: w) .idle

/-- A start that fails leaves the mailbox. -/
lemma Started.fail {g g' : Daemon} {act : Activity} {x : Item} (hr : x.rid = r.rid) (hc : x.c = r.c)
    (h : IoSim rst w g act g' (.exec r (.leave .eio r.mb.cmd []))) :
    Started rst w it r g act (.inl .eio, mbLeave g' x) :=
  ⟨h.item, h.work.trans (mbLeave_work hr hc)⟩

/-- Work before the start. -/
lemma Started.after {g g₁ : Daemon} {act act₁ : Activity} {res : (Status ⊕ MbFrame) × Daemon}
    (h : Work rst it w g act g₁ act₁) (hi : g₁.item = g.item)
    (h' : Started rst w it r g₁ act₁ res) : Started rst w it r g act res := by
  obtain ⟨st | f, g₂⟩ := res
  · exact ⟨h'.1.trans hi, h.trans h'.2⟩
  · exact ⟨h'.1.trans hi, h'.2.1, h.leaves.trans h'.2.2.1, h.sim.trans h'.2.2.2⟩

/-- From the flag to the wait loop.

**Proof sketch.** The steps of the code one by one: the words, the mask register read and written,
the doorbell. Each failure leaves the call (`Started.fail`); the doorbell makes the request one
that waits. -/
lemma execMailboxRequest_sim {g : Daemon} {pkt : Block pktSize} (hreq : g.req it = r)
    (hpkt : ∀ i, (le32 (pktWord pkt i)).take (r.packet.length - 4 * i) =
      (r.packet.drop (4 * i)).take 4) :
    Started rst w it r g (.exec r (.request [])) (execMailboxRequest env cfg g it r.mb pkt) := by
  have hrid : (g.item it).rid = r.rid := congrArg (·.rid) hreq
  have hc : (g.item it).c = r.c := congrArg (·.c) hreq
  have hagent : Agent.request (g.item it).rid (g.item it).c = r.agent := by rw [hrid, hc]; rfl
  unfold execMailboxRequest
  dsimp only
  rw [hagent]
  obtain ⟨hwt, hwf⟩ := mbWriteWords_sim env cfg rst w hpkt (wordCount r.mb.pktLen) [] g (by simp)
  rw [List.length_nil] at hwt hwf
  generalize mbWriteWords env cfg r.agent r.mb.slice pkt (wordCount r.mb.pktLen) 0 g = wr at *
  obtain ⟨ok, g₁⟩ := wr
  cases ok with
  | false => exact Started.fail hrid hc (hwf rfl)
  | true =>
    obtain ⟨ws, hws, h₁⟩ := hwt rfl
    simp only [Bool.not_true, Bool.false_eq_true, if_false]
    have h₂ : IoSim rst w g₁ (.exec r (.request ws)) _ _ :=
      IoSim.touch (mbRd_spec env cfg g₁ r.agent r.mb.slice mbMcuMask
        (pktWord pkt (wordCount r.mb.pktLen - 1))) (Touch.mask hws)
    generalize mbRd env cfg g₁ r.agent r.mb.slice mbMcuMask
      (pktWord pkt (wordCount r.mb.pktLen - 1)) = rd at *
    obtain ⟨ok, v, g₂⟩ := rd
    cases ok with
    | false => exact Started.fail hrid hc (h₁.trans h₂)
    | true =>
      simp only [Bool.not_true, Bool.false_eq_true, if_false, if_true] at h₂ ⊢
      have h₃ : IoSim rst w g₂ (.exec r (.masked ws v)) _ _ :=
        IoSim.touch (mbWr_spec env cfg g₂ r.agent r.mb.slice mbMcuMask (v ||| 1)) Touch.enable
      generalize mbWr env cfg g₂ r.agent r.mb.slice mbMcuMask (v ||| 1) = wr at *
      obtain ⟨ok, g₃⟩ := wr
      cases ok with
      | false => exact Started.fail hrid hc ((h₁.trans h₂).trans h₃)
      | true =>
        simp only [Bool.not_true, Bool.false_eq_true, if_false, if_true] at h₃ ⊢
        have h := (h₁.trans h₂).trans h₃
        have hbell := mbWr_spec env cfg g₃ r.agent r.mb.slice mbFlag mbSetReq
        generalize mbWr env cfg g₃ r.agent r.mb.slice mbFlag mbSetReq = wr at *
        obtain ⟨ok, g₄⟩ := wr
        cases ok with
        | false => exact Started.fail hrid hc (h.trans (IoSim.touch hbell Touch.noBell))
        | true =>
          have hn := Notes.nowUs env g₄
          -- the doorbell: the request itself is what now waits
          have hs : Sim rst g₃ w (.exec r (.armed ws)) g₄ (it :: w) .idle := by
            refine Sim.of_accessed hbell ?_
            have hd : Step rst (g₃.abs w (.exec r (.armed ws))) _ _ := Step.doorbell rfl
            have hr₃ : g₃.req it = r := by rw [h.req, hreq]
            rw [← hr₃] at hd ⊢
            exact hd
          refine ⟨?_, rfl, ?_, (h.sim.trans hs).trans (Sim.of_notes hn)⟩
          · obtain ⟨notes, he, -⟩ := hbell
            obtain ⟨io, rfl, -⟩ := he.exists_io
            exact h.item
          · exact (h.leaves.trans (Leaves.of_accessed hbell)).trans (Leaves.of_notes hn)

variable (rst w) in
/-- **`exec_mailbox` from its entry to the wait loop**, or to an early return.

**Proof sketch.** The limits are checked first, then the flag is read. If the mailbox is busy or
the read fails, the call returns; otherwise it sets its own flag and goes on with the request,
whose packet is the one built in the buffer. -/
lemma execMailboxStart_sim {g : Daemon} (hreq : g.req it = r) (hk : r.kind = some .mailbox)
    (hsized : r.sized = true) :
    (r.inRange = false ∧ (execMailboxStart env cfg g it).1 = .inl .einval ∧
      IoSim rst w g (.exec r (.ops [] .ok)) (execMailboxStart env cfg g it).2
        (.exec r (.ops [] .ok))) ∨
    Started rst w it r g (.exec r (.ops [] .ok)) (execMailboxStart env cfg g it) := by
  have hrid : (g.item it).rid = r.rid := congrArg (·.rid) hreq
  have hc : (g.item it).c = r.c := congrArg (·.c) hreq
  have hlen : (g.item it).hdr.len.toNat = r.len := congrArg (·.len) hreq
  have hagent : Agent.request (g.item it).rid (g.item it).c = r.agent := by rw [hrid, hc]; rfl
  have hl : r.len = mbSize + r.mb.payloadLen.toNat := by
    simpa only [Req.sized, hk, decide_eq_true_eq] using hsized
  have hmb : Mb.decode ((g.item it).body.read 0 mbSize) = r.mb := by
    rw [← hreq, req_mb (by omega)]
  have hpay : (g.item it).body.read mbSize r.mb.payloadLen.toNat =
      (r.body.drop mbSize).take r.mb.payloadLen.toNat := by
    rw [← hreq, drop_take_req_body (by rw [hreq]; omega)]
  unfold execMailboxStart
  dsimp only
  rw [hagent, hmb, hpay]
  generalize hg₁ : ({ g with io := { g.io with nPkt := g.io.nPkt + 1 } } : Daemon) = g₁
  have hn : Notes g g₁ := by
    rw [← hg₁]
    exact Notes.of_io rfl
  have hi₁ : g₁.item = g.item := by rw [← hg₁]
  by_cases hr : mbMax < r.mb.payloadLen.toNat ∨ 4 ≤ r.mb.slice.toNat
  · refine Or.inl ⟨?_, by rw [if_pos hr], by rw [if_pos hr]; exact IoSim.of_notes hn⟩
    simp only [Req.inRange, Bool.and_eq_false_iff, decide_eq_false_iff_not]
    omega
  · right
    rw [if_neg hr]
    refine Started.after (Work.of_notes hn) hi₁ ?_
    have hin : r.inRange = true := by
      simp only [Req.inRange, Bool.and_eq_true, decide_eq_true_eq]
      omega
    have hpkt : ∀ i, (le32 (pktWord (buildPacket (env.pkt g.io.nPkt) r.mb
        ((r.body.drop mbSize).take r.mb.payloadLen.toNat)) i)).take (r.packet.length - 4 * i) =
        (r.packet.drop (4 * i)).take 4 := by
      have hplen : ((r.body.drop mbSize).take r.mb.payloadLen.toNat).length =
          r.mb.payloadLen.toNat := by rw [← hpay, Block.length_read]
      have hb := read_buildPacket (env.pkt g.io.nPkt) r.mb _ hplen (by omega)
      refine take_le32_pktWord ?_
      have hpl : r.packet.length = mbHdrLen + r.mb.payloadLen.toNat + mbCrcLen := by
        simp only [Req.packet, List.length_append, hplen, length_le16]
        rfl
      rw [hpl, hb]
      rfl
    have h₁ : IoSim rst w g₁ (.exec r (.ops [] .ok)) _ _ :=
      IoSim.touch (mbRd_spec env cfg g₁ r.agent r.mb.slice mbFlag 0) (Touch.probe hk hsized hin)
    generalize mbRd env cfg g₁ r.agent r.mb.slice mbFlag 0 = rd at *
    obtain ⟨ok, v, g₂⟩ := rd
    cases ok with
    | false => exact ⟨h₁.item, h₁.work⟩
    | true =>
      by_cases hv : v &&& mbFBusy ≠ 0
      · simp only [Bool.not_true, Bool.false_eq_true, if_false, if_pos hv] at h₁ ⊢
        exact ⟨h₁.item, h₁.work⟩
      · simp only [Bool.not_true, Bool.false_eq_true, if_false, if_neg hv] at h₁ ⊢
        refine Started.after h₁.work h₁.item ?_
        have hset : Work rst it w g₂ (.exec r .checked)
            ({ g₂ with mbInflight := true }.emit (.mbSet r.rid r.c g₂.mbInflight))
            (.exec r (.request [])) :=
          ⟨⟨rfl, rfl, fun _ => rfl, fun _ => rfl, fun _ _ => rfl, rfl, rfl, rfl, fun _ => Or.inl⟩,
            Sim.of_step rfl (Step.mbSet rfl)⟩
        rw [hrid, hc]
        refine Started.after hset rfl (execMailboxRequest_sim env cfg ?_ hpkt)
        have hreq₂ : g₂.req it = r := by rw [h₁.req, ← hreq, ← hg₁]; rfl
        exact hreq₂

/-! ## The response -/

/-- The length of a response is in its first word. -/
lemma respLen_append {ws : List UInt32} (h : ws ≠ []) (v : UInt32) :
    respLen (ws ++ [v]) = respLen ws := by
  cases ws with
  | nil => exact absurd rfl h
  | cons x ws => rfl

variable (rst w) in
/-- The words of the response: all of them are read, or the call leaves at the first failure.

**Proof sketch.** Induction on the words left, with the buffer holding the words read so far. The
length in the first word says that there are more. -/
lemma mbReadWords_sim : ∀ (k : ℕ) (ws : List UInt32) (pkt : Block pktSize) (v : UInt32) (g : Daemon),
    ws ≠ [] → respSized ws = true → ws.length + k = wordCount (respLen ws) →
    pkt.read 0 (4 * ws.length) = ws.flatMap le32 →
    match (mbReadWords env cfg r.agent r.mb.slice k ws.length pkt v g).1 with
    | some pkt' => ∃ ws', respLen ws' = respLen ws ∧ ws'.length = wordCount (respLen ws') ∧
        pkt'.read 0 (4 * ws'.length) = ws'.flatMap le32 ∧ ws' ≠ [] ∧
        IoSim rst w g (.exec r (.response ws))
          (mbReadWords env cfg r.agent r.mb.slice k ws.length pkt v g).2 (.exec r (.response ws'))
    | none => IoSim rst w g (.exec r (.response ws))
        (mbReadWords env cfg r.agent r.mb.slice k ws.length pkt v g).2
        (.exec r (.leave .eio r.mb.cmd [])) := by
  intro k
  induction k with
  | zero =>
    intro ws pkt v g hne _ hk hr
    exact ⟨ws, rfl, hk, hr, hne, IoSim.refl⟩
  | succ k ih =>
    intro ws pkt v g hne hs hk hr
    have hmore : respMore ws = true := by
      simp only [respMore, hs, Bool.true_and, Bool.or_eq_true, decide_eq_true_eq]
      right
      omega
    have ht : IoSim rst w g (.exec r (.response ws)) _ _ :=
      IoSim.touch (mbRd_spec env cfg g r.agent r.mb.slice (mbRespAddr + UInt16.ofNat ws.length) v)
        (Touch.fetch hmore)
    simp only [mbReadWords]
    generalize mbRd env cfg g r.agent r.mb.slice (mbRespAddr + UInt16.ofNat ws.length) v = rd at *
    obtain ⟨ok, v', g₁⟩ := rd
    cases ok with
    | false => exact ht
    | true =>
      simp only [if_true] at ht ⊢
      have hle := (respSized_iff.mp hs).2
      have hfit : 4 * ws.length + (le32 v').length ≤ pktSize := by
        simp only [wordCount] at hk
        simp only [length_le32, pktSize]
        omega
      have hread : (pkt.write (4 * ws.length) (le32 v')).read 0 (4 * (ws ++ [v']).length) =
          (ws ++ [v']).flatMap le32 := by
        have hw := pkt.read_write_self (4 * ws.length) (le32 v') hfit
        rw [length_le32] at hw
        rw [List.length_append, List.length_singleton, Nat.mul_succ, Block.read_add,
          Block.read_write_of_disjoint _ _ _ _ _ (Or.inl (by omega)), hr, Nat.zero_add, hw]
        simp
      have h := ih (ws ++ [v']) (pkt.write (4 * ws.length) (le32 v')) v' g₁ (by simp)
        (by rw [respSized, respLen_append hne]; exact hs)
        (by rw [respLen_append hne]; simp; omega) hread
      rw [List.length_append, List.length_singleton, respLen_append hne] at h
      generalize mbReadWords env cfg r.agent r.mb.slice k (ws.length + 1)
        (pkt.write (4 * ws.length) (le32 v')) v' g₁ = res at *
      obtain ⟨_ | pkt', g₂⟩ := res
      · exact ht.trans h
      · obtain ⟨ws', h₁, h₂, h₃, h₄, h₅⟩ := h
        exact ⟨ws', h₁, h₂, h₃, h₄, ht.trans h₅⟩

/-- What a call of `exec_mailbox` has come to when it returns a status and a payload: only the
answer is left, and the body of the item starts with the mailbox structure to be sent. -/
def Finished (rst : Bool) (w : List Ptr) (it : Ptr) (r : Req) (g : Daemon) (act : Activity)
    (res : (Status × List UInt8) × Daemon) : Prop :=
  (res.1.1 ≠ .ok → res.1.2 = []) ∧
    ∃ cmd, Work rst it w g act res.2 (.exec r (.answer res.1.1 (r.mbReply cmd res.1.2))) ∧
      (res.2.item it).body.read 0 mbSize = { r.mb with cmd := cmd }.encode

/-- A return without a payload. -/
lemma Finished.fail {g g' : Daemon} {act : Activity} {x : Item} {st : Status}
    (hr : x.rid = r.rid) (hc : x.c = r.c) (hb : (g.item it).body.read 0 mbSize = r.mb.encode)
    (h : IoSim rst w g act g' (.exec r (.leave st r.mb.cmd []))) :
    Finished rst w it r g act ((st, []), mbLeave g' x) :=
  ⟨fun _ => rfl, r.mb.cmd, h.work.trans (mbLeave_work hr hc), by
    change (g'.item it).body.read 0 mbSize = _
    rw [h.item, hb]⟩

/-- A rejected response has no payload. -/
lemma mbDecode_payload {pkt : Block pktSize} {len : UInt16} (h : (mbDecode pkt len).1 ≠ .ok) :
    (mbDecode pkt len).2 = [] := by
  unfold mbDecode at h ⊢
  dsimp only at h ⊢
  split_ifs at h ⊢
  · rfl
  · exact absurd rfl h

/-- From the end of the response to the return: the flag is cleared and the packet decoded.

**Proof sketch.** All words have been read, so clearing the flag is the transition that decides the
outcome, which is what `mbDecode` finds in the buffer (`mbDecode_eq`). On success the command byte
is stored in the item. -/
lemma finish_sim {g : Daemon} {x : Item} {pkt : Block pktSize} {ws : List UInt32}
    (hrid : x.rid = r.rid) (hc : x.c = r.c) (ho : Off g w it)
    (hb : (g.item it).body.read 0 mbSize = r.mb.encode) (hne : ws ≠ [])
    (hs : respSized ws = true) (hl : ws.length = wordCount (respLen ws))
    (hr : pkt.read 0 (4 * ws.length) = ws.flatMap le32) :
    Finished rst w it r g (.exec r (.response ws))
      (if (mbDecode pkt (respLen ws)).1 = .ok then
        (mbDecode pkt (respLen ws),
          (mbLeave (mbWr env cfg g r.agent r.mb.slice mbFlag mbClrResp).2 x).setBody it
            (((mbLeave (mbWr env cfg g r.agent r.mb.slice mbFlag mbClrResp).2 x).item it).body.write
              1 [pkt.get 0]))
      else
        (mbDecode pkt (respLen ws),
          mbLeave (mbWr env cfg g r.agent r.mb.slice mbFlag mbClrResp).2 x)) := by
  have hmore : respMore ws = false := by
    have hemp : ws.isEmpty = false := by simpa using hne
    simp only [respMore, hemp, hs, Bool.true_and, Bool.false_or, decide_eq_false_iff_not]
    omega
  have ht : IoSim rst w g (.exec r (.response ws)) _ _ :=
    IoSim.touch (mbWr_spec env cfg g r.agent r.mb.slice mbFlag mbClrResp) (Touch.clear hmore)
  rw [mbDecode_eq r.mb.cmd hr hs hl] at ht
  generalize (mbWr env cfg g r.agent r.mb.slice mbFlag mbClrResp).2 = g₁ at *
  have hleave : Work rst it w g (.exec r (.response ws)) (mbLeave g₁ x) _ :=
    ht.work.trans (mbLeave_work hrid hc)
  by_cases hok : (mbDecode pkt (respLen ws)).1 = .ok
  · simp only [if_pos hok] at hleave ⊢
    refine ⟨fun h => absurd hok h, pkt.get 0, hleave.trans ?_, ?_⟩
    · exact Work.of_leaves (Leaves.setBody it _ _) (ho.leaves hleave.leaves) rfl rfl rfl
    · have hb₁ : ((mbLeave g₁ x).item it).body.read 0 mbSize = r.mb.encode := by
        change (g₁.item it).body.read 0 mbSize = _
        rw [ht.item, hb]
      simpa [Daemon.setBody, Daemon.setItem] using read_setCmd hb₁ (pkt.get 0)
  · simp only [if_neg hok] at hleave ⊢
    refine ⟨mbDecode_payload, r.mb.cmd, hleave, ?_⟩
    change (g₁.item it).body.read 0 mbSize = _
    rw [ht.item, hb]

/-- The end of `exec_mailbox`, from the response flag on.

**Proof sketch.** The first word tells the length. If it is out of range, the flag is cleared and
the call fails; otherwise the other words are read (`mbReadWords_sim`) and the packet is decoded
(`finish_sim`). -/
lemma execMailboxFinish_sim {g : Daemon} {f : MbFrame} {v : UInt32} (hf : f.it = it)
    (hreq : g.req it = r) (hsz : mbSize ≤ r.len) (ho : Off g w it) :
    Finished rst w it r g (.exec r (.response [])) (execMailboxFinish env cfg g f v) := by
  subst hf
  have hrid : (g.item f.it).rid = r.rid := congrArg (·.rid) hreq
  have hc : (g.item f.it).c = r.c := congrArg (·.c) hreq
  have hlen : (g.item f.it).hdr.len.toNat = r.len := congrArg (·.len) hreq
  have hagent : Agent.request (g.item f.it).rid (g.item f.it).c = r.agent := by rw [hrid, hc]; rfl
  have hmb : Mb.decode ((g.item f.it).body.read 0 mbSize) = r.mb := by
    rw [← hreq, req_mb (by omega)]
  have hb : (g.item f.it).body.read 0 mbSize = r.mb.encode := by rw [read_mb, hmb]
  unfold execMailboxFinish
  dsimp only
  rw [hagent, hmb]
  have h₁ : IoSim rst w g (.exec r (.response [])) _ _ :=
    IoSim.touch (mbRd_spec env cfg g r.agent r.mb.slice mbRespAddr v) (Touch.fetch rfl)
  generalize mbRd env cfg g r.agent r.mb.slice mbRespAddr v = rd at *
  obtain ⟨ok, v', g₁⟩ := rd
  cases ok with
  | false => exact Finished.fail hrid hc hb h₁
  | true =>
    simp only [Bool.not_true, Bool.false_eq_true, if_false, if_true, List.nil_append] at h₁ ⊢
    have hlen' : (v' >>> 16).toUInt16 = respLen [v'] := rfl
    rw [hlen']
    by_cases hbad : (respLen [v']).toNat < mbHdrLen + mbCrcLen ∨
        mbHdrLen + mbMax + mbCrcLen < (respLen [v']).toNat
    · have hns : respSized [v'] = false := by
        rw [← Bool.not_eq_true, respSized_iff]
        simp only [mbHdrLen, mbCrcLen, mbMax] at hbad
        omega
      rw [if_pos hbad]
      have h₂ : IoSim rst w g₁ (.exec r (.response [v'])) _ _ :=
        IoSim.touch (mbWr_spec env cfg g₁ r.agent r.mb.slice mbFlag mbClrResp)
          (Touch.clear (by simp [respMore, hns]))
      have hout : respOutcome r.mb.cmd [v'] = (.einval, r.mb.cmd, []) := by
        simp [respOutcome, hns]
      rw [hout] at h₂
      exact Finished.fail hrid hc hb (h₁.trans h₂)
    · have hs : respSized [v'] = true := by
        rw [respSized_iff]
        simp only [mbHdrLen, mbCrcLen, mbMax] at hbad
        omega
      rw [if_neg hbad]
      have hw : [v'].length + (wordCount (respLen [v']) - 1) = wordCount (respLen [v']) := by
        have := (respSized_iff.mp hs).1
        simp only [List.length_singleton, wordCount]
        omega
      have hread : (f.pkt.write 0 (le32 v')).read 0 (4 * [v'].length) = [v'].flatMap le32 := by
        have h := f.pkt.read_write_self 0 (le32 v') (by simp [pktSize])
        simpa using h
      have h₂ := mbReadWords_sim env cfg rst w (r := r) (wordCount (respLen [v']) - 1) [v']
        (f.pkt.write 0 (le32 v')) v' g₁ (by simp) hs hw hread
      rw [List.length_singleton] at h₂
      generalize mbReadWords env cfg r.agent r.mb.slice (wordCount (respLen [v']) - 1) 1
        (f.pkt.write 0 (le32 v')) v' g₁ = res at *
      obtain ⟨_ | pkt, g₂⟩ := res
      · exact Finished.fail hrid hc hb (h₁.trans h₂)
      · obtain ⟨ws, hlw, hlws, hrws, hne, h₃⟩ := h₂
        have h := h₁.trans h₃
        have hfin : Finished rst w f.it r g₂ (.exec r (.response ws)) _ :=
          finish_sim env cfg hrid hc (ho.leaves h.leaves) (by rw [h.item, hb]) hne
            (by rw [respSized, hlw]; exact hs) hlws hrws
        rw [hlw] at hfin
        obtain ⟨hp, cmd, hwork, hbody⟩ := hfin
        exact ⟨hp, cmd, h.work.trans hwork, hbody⟩

/-! ## The wait loop -/

/-- The access that ends the wait of the innermost call. -/
lemma Sim.wake {g g' : Daemon} {x : Access} {p : Progress} (hreq : g.req it = r)
    (h : Accessed g g' x) (hw : Wake (g.abs (it :: w) .idle) r x p) :
    Sim rst g (it :: w) .idle g' w (.exec r p) :=
  Sim.of_accessed h (Step.wake rfl (by rw [← hreq]; rfl) hw)

/-- What a round of the wait loop comes to: the call goes on waiting, or it returns as in
`Finished`. -/
def Polled (rst : Bool) (w : List Ptr) (it : Ptr) (r : Req) (g : Daemon)
    (res : ((Status × List UInt8) ⊕ MbFrame) × Daemon) : Prop :=
  Leaves it g res.2 ∧
    match res.1 with
    | .inl d => (d.1 ≠ .ok → d.2 = []) ∧
        ∃ cmd, Sim rst g (it :: w) .idle res.2 w (.exec r (.answer d.1 (r.mbReply cmd d.2))) ∧
          (res.2.item it).body.read 0 mbSize = { r.mb with cmd := cmd }.encode
    | .inr f => f.it = it ∧ res.2.item = g.item ∧ Sim rst g (it :: w) .idle res.2 (it :: w) .idle

/-- **One round of the wait loop.**

**Proof sketch.** The flag is read. A failure and a response wake the call; otherwise the protocol
polls, and the clock decides between the timeout, which clears the request flag, and another round. -/
lemma execMailboxPoll_sim {g : Daemon} {f : MbFrame} (hf : f.it = it) (hreq : g.req it = r)
    (hsz : mbSize ≤ r.len) (ho : Off g w it) :
    Polled rst w it r g (execMailboxPoll env cfg g f) := by
  subst hf
  have hrid : (g.item f.it).rid = r.rid := congrArg (·.rid) hreq
  have hc : (g.item f.it).c = r.c := congrArg (·.c) hreq
  have hlen : (g.item f.it).hdr.len.toNat = r.len := congrArg (·.len) hreq
  have hagent : Agent.request (g.item f.it).rid (g.item f.it).c = r.agent := by rw [hrid, hc]; rfl
  have hmb : Mb.decode ((g.item f.it).body.read 0 mbSize) = r.mb := by
    rw [← hreq, req_mb (by omega)]
  have hb : (g.item f.it).body.read 0 mbSize = r.mb.encode := by rw [read_mb, hmb]
  -- a return without a payload, from a state in which only accesses have been made
  have hfail : ∀ {g' : Daemon} {st : Status}, Leaves f.it g g' → g'.item = g.item →
      Sim rst g (f.it :: w) .idle g' w (.exec r (.leave st r.mb.cmd [])) →
      Polled rst w f.it r g (.inl (st, []), mbLeave g' (g.item f.it)) := by
    intro g' st hl hi hs
    have hleave : Work rst f.it w g' (.exec r (.leave st r.mb.cmd [])) (mbLeave g' (g.item f.it)) _ :=
      mbLeave_work hrid hc
    refine ⟨hl.trans hleave.leaves, fun _ => rfl, r.mb.cmd, hs.trans hleave.sim, ?_⟩
    change (g'.item f.it).body.read 0 mbSize = _
    rw [hi, hb]
  unfold execMailboxPoll
  dsimp only
  rw [hagent, hmb]
  have h₁ := mbRd_spec env cfg g r.agent r.mb.slice mbFlag f.v
  generalize mbRd env cfg g r.agent r.mb.slice mbFlag f.v = rd at *
  obtain ⟨ok, v, g₁⟩ := rd
  dsimp only at h₁
  have hl₁ : Leaves f.it g g₁ := Leaves.of_accessed h₁
  have hi₁ : g₁.item = g.item ∧ g₁.req = g.req := by
    obtain ⟨notes, he, -⟩ := h₁
    obtain ⟨io, rfl, -⟩ := he.exists_io
    exact ⟨rfl, rfl⟩
  cases ok with
  | false => exact hfail hl₁ hi₁.1 (Sim.wake hreq h₁ Wake.fail)
  | true =>
    simp only [Bool.not_true, Bool.false_eq_true, if_false]
    by_cases hv : v &&& mbFResp ≠ 0
    · rw [if_pos hv]
      have hs : Sim rst g (f.it :: w) .idle g₁ w _ := Sim.wake hreq h₁ (Wake.resp hv)
      have hfin : Finished rst w f.it r g₁ (.exec r (.response []))
          (execMailboxFinish env cfg g₁ f v) :=
        execMailboxFinish_sim env cfg rfl (by rw [hi₁.2, hreq]) hsz (ho.leaves hl₁)
      obtain ⟨hp, cmd, hwork, hbody⟩ := hfin
      exact ⟨hl₁.trans hwork.leaves, hp, cmd, hs.trans hwork.sim, hbody⟩
    · rw [if_neg hv]
      -- the flag is not set: the protocol polls and stays where it is
      have hs : Sim rst g (f.it :: w) .idle g₁ (f.it :: w) .idle :=
        Sim.of_accessed h₁ (Step.poll rfl (by rw [← hreq]; rfl) (not_not.mp hv))
      have hn := Notes.nowUs env g₁
      have ht := hs.trans (Sim.of_notes hn)
      have hl₂ := hl₁.trans (Leaves.of_notes hn)
      have hi₂ : (nowUs env g₁).2.item = g.item ∧ (nowUs env g₁).2.req = g.req := hi₁
      generalize nowUs env g₁ = t at *
      obtain ⟨now, g₂⟩ := t
      dsimp only at ht hl₂ hi₂ ⊢
      by_cases htm : f.tEnd < now
      · rw [if_pos htm]
        have h₃ := mbWr_spec env cfg g₂ r.agent r.mb.slice mbFlag mbClrReq
        refine hfail (hl₂.trans (Leaves.of_accessed h₃)) ?_
          (ht.trans (Sim.wake (by rw [hi₂.2, hreq]) h₃ Wake.timeout))
        obtain ⟨notes, he, -⟩ := h₃
        obtain ⟨io, hio, -⟩ := he.exists_io
        rw [hio]
        exact hi₂.1
      · rw [if_neg htm]
        exact ⟨hl₂, rfl, hi₂.1, ht⟩

end

end Spid

import SpidevProxy.Layout
import SpidevProxy.Script

set_option relaxedAutoImplicit false
set_option autoImplicit false

/-!
# The accesses of a mailbox call

What a `MAILBOX` has written and read when it has come to a certain stage of its script: the words
of its packet in the request window, the doorbell, and the words of the response.

## Main definitions

* `Spid.written`, `Spid.heard` — the words that were written to the request window and read from
  the response window.
* `Spid.Asked` — the whole packet has been written.
* `Spid.Closed` — what the call returns, by what it has heard.
* `Spid.InReach` — the registers that a call may access.

## Main results

* `Spid.Script.told` — at every stage of its script, what a `MAILBOX` has written and heard.
* `Spid.Script.registers` — every access of a `MAILBOX` is in its reach.
* `Spid.Run.answered_of_heard` — a call that has begun to read its response returns at once.
-/

namespace Spid

open Bytes History

/-! ## Words in the two windows -/

/-- The word that an access has written to the request window, with its index. -/
def Access.request (x : Access) : Option (ℕ × UInt32) :=
  if x.write = true ∧ x.ok = true ∧ x.mmd = mmdGlobal ∧ mbCmdAddr.toNat ≤ x.reg.toNat ∧
      x.reg.toNat < mbRespAddr.toNat then
    some (x.reg.toNat - mbCmdAddr.toNat, x.val)
  else none

/-- The word that an access has read from the response window, with its index. -/
def Access.response (x : Access) : Option (ℕ × UInt32) :=
  if x.write = false ∧ x.ok = true ∧ x.mmd = mmdGlobal ∧ mbRespAddr.toNat ≤ x.reg.toNat ∧
      x.reg.toNat < mbFlag.toNat then
    some (x.reg.toNat - mbRespAddr.toNat, x.val)
  else none

/-- The words written to the request window. -/
def written (xs : List Access) : List (ℕ × UInt32) := xs.filterMap Access.request

/-- The words read from the response window. -/
def heard (xs : List Access) : List (ℕ × UInt32) := xs.filterMap Access.response

/-- Words with their indices. -/
def indexed (ws : List UInt32) : List (ℕ × UInt32) := ws.mapIdx fun i w => (i, w)

/-- A doorbell that succeeds: `MB_SET_REQ` is written to `MB_FLAG`. -/
def Access.rings (x : Access) : Bool :=
  x.write && x.ok && x.mmd = mmdGlobal && x.reg = mbFlag && x.val = mbSetReq

/-- One more word. -/
lemma indexed_snoc (ws : List UInt32) (w : UInt32) :
    indexed (ws ++ [w]) = indexed ws ++ [(ws.length, w)] :=
  List.mapIdx_concat

/-- No word. -/
@[simp] lemma indexed_eq_nil {ws : List UInt32} : indexed ws = [] ↔ ws = [] := List.mapIdx_eq_nil_iff

section

variable {a : Abs} {r : Req} {v : UInt32} {ok : Bool} {l : List Access} {x : Access}

/-- Reads and failed accesses write no word. -/
lemma request_eq_none (h : x.write = false ∨ x.ok = false) : x.request = none := by
  rcases h with h | h <;> exact if_neg (by simp [h])

/-- Writes and failed accesses read no word. -/
lemma response_eq_none (h : x.write = true ∨ x.ok = false) : x.response = none := by
  rcases h with h | h <;> exact if_neg (by simp [h])

/-- An access behind the two windows leaves the words as they are. -/
lemma words_of_le (h : mbFlag.toNat ≤ x.reg.toNat) :
    written (l ++ [x]) = written l ∧ heard (l ++ [x]) = heard l := by
  have hle : mbRespAddr.toNat ≤ mbFlag.toNat := by decide
  have h₁ : x.request = none := if_neg (by omega)
  have h₂ : x.response = none := if_neg (by omega)
  exact ⟨filterMap_snoc_none h₁ _, filterMap_snoc_none h₂ _⟩

/-- So does one that fails. -/
lemma words_of_failed (h : x.ok = false) :
    written (l ++ [x]) = written l ∧ heard (l ++ [x]) = heard l :=
  ⟨filterMap_snoc_none (request_eq_none (Or.inr h)) _,
    filterMap_snoc_none (response_eq_none (Or.inr h)) _⟩

/-- A word of the packet is written. -/
lemma words_of_word {j : ℕ} (hj : j < 256) :
    written (l ++ [a.mbAccess r true (mbCmdAddr + UInt16.ofNat j) v true]) =
        written l ++ [(j, v)] ∧
      heard (l ++ [a.mbAccess r true (mbCmdAddr + UInt16.ofNat j) v true]) = heard l := by
  have hb : mbCmdAddr.toNat = 55296 := rfl
  have hr : mbRespAddr.toNat = 55552 := rfl
  have hw : (mbCmdAddr + UInt16.ofNat j).toNat = 55296 + j := toNat_window _ (by omega)
  refine ⟨filterMap_snoc_some ?_ _, filterMap_snoc_none (response_eq_none (Or.inl rfl)) _⟩
  simp only [Access.request, Abs.mbAccess, Abs.access, hw, hb, hr, true_and]
  rw [if_pos ⟨by omega, by omega⟩, Nat.add_sub_cancel_left]

/-- A word of the response is read. -/
lemma words_of_fetch {j : ℕ} (hj : j < 256) :
    written (l ++ [a.mbAccess r false (mbRespAddr + UInt16.ofNat j) v true]) = written l ∧
      heard (l ++ [a.mbAccess r false (mbRespAddr + UInt16.ofNat j) v true]) =
        heard l ++ [(j, v)] := by
  have hb : mbRespAddr.toNat = 55552 := rfl
  have hf : mbFlag.toNat = 55808 := rfl
  have hw : (mbRespAddr + UInt16.ofNat j).toNat = 55552 + j := toNat_window _ (by omega)
  refine ⟨filterMap_snoc_none (request_eq_none (Or.inl rfl)) _, filterMap_snoc_some ?_ _⟩
  simp only [Access.response, Abs.mbAccess, Abs.access, hw, hb, hf, true_and]
  rw [if_pos ⟨by omega, by omega⟩, Nat.add_sub_cancel_left]

/-- The packet of a `MAILBOX` in range fits the request window. -/
lemma wordCount_pktLen_le (hr : r.inRange = true) : wordCount r.mb.pktLen ≤ 256 := by
  obtain ⟨h₁, h₂⟩ := Req.toNat_pktLen hr
  rw [wordCount, h₁]
  omega

/-- So does every response that is read. -/
lemma length_lt_of_respMore {ws : List UInt32} (h : respMore ws = true) : ws.length < 256 := by
  simp only [respMore, Bool.or_eq_true, List.isEmpty_iff, Bool.and_eq_true, decide_eq_true_eq,
    respSized_iff] at h
  rcases h with rfl | ⟨⟨-, hle⟩, hlt⟩
  · exact Nat.zero_lt_succ _
  · rw [wordCount] at hlt
    omega

/-- An access that is no doorbell. -/
lemma rings_of_read (h : x.write = false) : x.rings = false := by simp [Access.rings, h]

/-- An access that failed does not ring. -/
lemma rings_of_failed (h : x.ok = false) : x.rings = false := by simp [Access.rings, h]

/-- Nor does one of another register. -/
lemma rings_of_reg (h : x.reg ≠ mbFlag) : x.rings = false := by simp [Access.rings, h]

/-- A word of the packet is no doorbell. -/
lemma rings_word {j : ℕ} (hj : j < 256) :
    (a.mbAccess r true (mbCmdAddr + UInt16.ofNat j) v ok).rings = false := by
  refine rings_of_reg fun h => ?_
  have hw : (mbCmdAddr + UInt16.ofNat j).toNat = mbCmdAddr.toNat + j :=
    toNat_window _ (by have : mbCmdAddr.toNat = 55296 := rfl; omega)
  have hb : mbCmdAddr.toNat = 55296 := rfl
  have hf : mbFlag.toNat = 55808 := rfl
  have h' : (mbCmdAddr + UInt16.ofNat j).toNat = mbFlag.toNat := congrArg UInt16.toNat h
  omega

end

/-! ## Stages of a mailbox call -/

/-- Inside `exec_mailbox`, past the first look at `MB_FLAG`. -/
def Stage.ofMailbox : Stage → Bool
  | .busy p => p.ofMailbox
  | .waiting => true
  | .answered _ _ => false

/-- Only a `MAILBOX` that was not turned down gets past the first look. -/
lemma Script.isMailbox {rst : Bool} {r : Req} {s : Stage} {xs : List Access}
    (h : Script rst r s xs) (hs : s.ofMailbox = true) : r.IsMailbox := by
  induction h with
  | start => exact absurd hs (by simp [Stage.ofMailbox, Progress.ofMailbox, Progress.inCall])
  | touch _ ht ih => exact (ht.ofMailbox hs).elim ih id
  | refused => exact absurd hs (by simp [Stage.ofMailbox, Progress.ofMailbox, Progress.inCall])
  | set _ ih => exact ih rfl
  | bell _ ih => exact ih rfl
  | poll _ _ ih => exact ih rfl
  | wake _ _ ih => exact ih rfl
  | leave => exact absurd hs (by simp [Stage.ofMailbox, Progress.ofMailbox, Progress.inCall])
  | control => exact absurd hs (by simp [Stage.ofMailbox, Progress.ofMailbox, Progress.inCall])
  | send => exact absurd hs (by simp [Stage.ofMailbox])

/-- The words hold the packet as far as they go; bytes behind its end are arbitrary. -/
def Spells (packet : List UInt8) (ws : List UInt32) : Prop :=
  (ws.flatMap le32).take packet.length = packet.take (4 * ws.length)

/-- Four bytes for each word. -/
lemma length_flatMap_le32 (ws : List UInt32) : (ws.flatMap le32).length = 4 * ws.length := by
  simp [List.length_flatMap, Nat.mul_comm]

/-- No word spells the beginning of every packet. -/
lemma Spells.nil (packet : List UInt8) : Spells packet [] := by simp [Spells]

/-- One more word of the packet. -/
lemma Spells.snoc {packet : List UInt8} {ws : List UInt32} {v : UInt32} (h : Spells packet ws)
    (hv : (le32 v).take (packet.length - 4 * ws.length) = (packet.drop (4 * ws.length)).take 4) :
    Spells packet (ws ++ [v]) := by
  unfold Spells at h ⊢
  rw [List.flatMap_append, List.flatMap_singleton, List.take_append, length_flatMap_le32, h, hv,
    List.length_append, List.length_singleton, Nat.mul_succ, List.take_add]

/-- The whole packet of `r` has been written to the request window. -/
structure Asked (r : Req) (xs : List Access) : Prop where
  isMailbox : r.IsMailbox
  words : ∃ ws, written xs = indexed ws ∧ Spells r.packet ws ∧ ws.length = wordCount r.mb.pktLen

/-- Every word of the response was read because more was wanted. -/
def Wanted (ws : List UInt32) : Prop := ∀ k < ws.length, respMore (ws.take k) = true

/-- One more word of the response, if it has more. -/
lemma Wanted.snoc {ws : List UInt32} {v : UInt32} (h : Wanted ws) (hm : respMore ws = true) :
    Wanted (ws ++ [v]) := by
  intro k hk
  rw [List.length_append, List.length_singleton] at hk
  rw [List.take_append_of_le_length (by omega)]
  rcases Nat.lt_succ_iff_lt_or_eq.mp hk with hk | rfl
  · exact h k hk
  · rwa [List.take_length]

/-- Nothing has been asked for yet: words of the packet may have been written, but the doorbell has
not been rung. -/
structure Unasked (xs : List Access) : Prop where
  silent : heard xs = []
  noBell : ∀ x ∈ xs, x.rings = false

/-- What a mailbox call returns, by what it has heard: the outcome of a complete response, or an
error if a transfer failed or no response came. -/
inductive Closed (r : Req) (xs : List Access) : Status → UInt8 → List UInt8 → Prop
  | response {ws : List UInt32} (hask : Asked r xs) (hh : heard xs = indexed ws)
      (hw : Wanted ws) (hws : respMore ws = false) :
      Closed r xs (respOutcome r.mb.cmd ws).1 (respOutcome r.mb.cmd ws).2.1
        (respOutcome r.mb.cmd ws).2.2
  | cut {st : Status} (hst : st ≠ .ok) (hask : Unasked xs ∨ Asked r xs)
      (hh : heard xs = [] ∨ ∃ x ∈ xs, x.ok = false) : Closed r xs st r.mb.cmd []

/-- What a `MAILBOX` has written and heard at each stage. -/
def Told (r : Req) (xs : List Access) : Stage → Prop
  | .busy (.request ws) => Unasked xs ∧ written xs = indexed ws ∧ Spells r.packet ws ∧
      ws.length ≤ wordCount r.mb.pktLen
  | .busy (.masked _ _) | .busy (.armed _) => Unasked xs ∧ Asked r xs
  | .waiting => Asked r xs ∧ heard xs = []
  | .busy (.response ws) => Asked r xs ∧ heard xs = indexed ws ∧ Wanted ws
  | .busy (.leave st cmd payload) => Closed r xs st cmd payload
  | .busy (.answer st body) =>
      ∃ cmd payload, body = r.mbReply cmd payload ∧ Closed r xs st cmd payload
  | .answered st body => Unasked xs ∧ r.sized = false ∧ st = .einval ∧ body = [] ∨
      ∃ cmd payload, body = r.mbReply cmd payload ∧ Closed r xs st cmd payload
  | .busy (.ops _ _) | .busy .checked => Unasked xs ∧ written xs = []

section

variable {a : Abs} {r : Req} {xs : List Access} {x : Access}

/-- An access that writes nothing to the window. -/
lemma Asked.snoc (h : Asked r xs) (hw : written (xs ++ [x]) = written xs) : Asked r (xs ++ [x]) := by
  obtain ⟨hr, ws, hws, h⟩ := h
  exact ⟨hr, ws, hw.trans hws, h⟩

/-- An access that neither reads the response nor rings. -/
lemma Unasked.snoc (h : Unasked xs) (hh : heard (xs ++ [x]) = heard xs) (hx : x.rings = false) :
    Unasked (xs ++ [x]) where
  silent := hh.trans h.silent
  noBell y hy := by
    rcases List.mem_append.mp hy with hy | hy
    · exact h.noBell y hy
    · obtain rfl := List.mem_singleton.mp hy
      exact hx

/-- A call that fails while it writes its packet. -/
lemma Unasked.cut (h : Unasked xs) {st : Status} (hst : st ≠ .ok) : Closed r xs st r.mb.cmd [] :=
  Closed.cut hst (Or.inl h) (Or.inl h.silent)

/-- A call that fails while it waits or reads. -/
lemma Asked.cut (h : Asked r xs) (hx : x.ok = false) :
    Closed r (xs ++ [x]) .eio r.mb.cmd [] :=
  Closed.cut (by decide) (Or.inr (h.snoc (words_of_failed hx).1))
    (Or.inr ⟨x, List.mem_append_right _ (List.mem_singleton_self x), hx⟩)

/-- No access of a mailbox call but the doorbell itself rings. -/
lemma Touch.rings {p p' : Progress} (ht : Touch a r p x p') (hk : r.kind = some .mailbox)
    (hr : p.ofMailbox = true → r.IsMailbox) : x.rings = false := by
  cases ht with
  | op hops => simp [Req.ops, hk] at hops
  | probe => exact rings_of_read rfl
  | word hws =>
    exact rings_word (hws.trans_le (wordCount_pktLen_le (hr rfl).inRange))
  | mask => exact rings_of_read rfl
  | enable => exact rings_of_reg (show mbMcuMask ≠ mbFlag by decide)
  | noBell => exact rings_of_failed rfl
  | fetch => exact rings_of_read rfl
  | clear => simp [Access.rings, Abs.mbAccess, Abs.access, mbClrResp, mbSetReq]

/-- **One access of a mailbox call.**

**Proof sketch.** Case analysis of the access. The words written to the window and those read from
it are read off the accesses, and each access adds at most one: a word of the packet, or one of the
response. Every failed access closes the call; nothing rings here. -/
lemma Told.touch {p p' : Progress} (h : Told r xs (.busy p)) (hk : r.kind = some .mailbox)
    (hr : p.ofMailbox = true → r.IsMailbox) (ht : Touch a r p x p') :
    Told r (xs ++ [x]) (.busy p') := by
  have hflag : mbFlag.toNat ≤ mbFlag.toNat := le_rfl
  have hmask : mbFlag.toNat ≤ mbMcuMask.toNat := by decide
  have hx := ht.rings hk hr
  cases ht with
  | op hops => simp [Req.ops, hk] at hops
  | @probe v ok =>
    obtain ⟨hu, hw⟩ := h
    obtain ⟨hw', hh'⟩ := words_of_le (x := a.mbAccess r false mbFlag v ok) (l := xs) hflag
    have hu' := hu.snoc hh' hx
    split_ifs
    · exact ⟨_, _, rfl, hu'.cut (by decide)⟩
    · exact ⟨_, _, rfl, hu'.cut (by decide)⟩
    · exact ⟨hu', hw'.trans hw⟩
  | @word ws v ok hws hv =>
    obtain ⟨hu, hw, hsp, -⟩ := h
    have hj : ws.length < 256 := hws.trans_le (wordCount_pktLen_le (hr rfl).inRange)
    cases ok with
    | false =>
      obtain ⟨-, hh'⟩ := words_of_failed (l := xs)
        (x := a.mbAccess r true (mbCmdAddr + UInt16.ofNat ws.length) v false) rfl
      exact (hu.snoc hh' hx).cut (by decide)
    | true =>
      obtain ⟨hw', hh'⟩ := words_of_word (a := a) (r := r) (v := v) (l := xs) hj
      refine ⟨hu.snoc hh' hx, ?_, hsp.snoc hv, ?_⟩
      · rw [hw', hw, indexed_snoc]
      · rw [List.length_append, List.length_singleton]
        exact hws
  | @mask ws v ok hws =>
    obtain ⟨hu, hw, hsp, -⟩ := h
    obtain ⟨hw', hh'⟩ := words_of_le (x := a.mbAccess r false mbMcuMask v ok) (l := xs) hmask
    have hu' := hu.snoc hh' hx
    split_ifs
    · exact ⟨hu', hr rfl, ws, hw'.trans hw, hsp, hws⟩
    · exact hu'.cut (by decide)
  | @enable ws v ok =>
    obtain ⟨hu, hask⟩ := h
    obtain ⟨hw', hh'⟩ := words_of_le (x := a.mbAccess r true mbMcuMask (v ||| 1) ok) (l := xs) hmask
    have hu' := hu.snoc hh' hx
    split_ifs
    · exact ⟨hu', hask.snoc hw'⟩
    · exact hu'.cut (by decide)
  | noBell =>
    obtain ⟨hu, -⟩ := h
    exact (hu.snoc (words_of_failed rfl).2 hx).cut (by decide)
  | @fetch ws v ok hws =>
    obtain ⟨hask, hh, hw⟩ := h
    cases ok with
    | false => exact hask.cut rfl
    | true =>
      obtain ⟨hw', hh'⟩ := words_of_fetch (a := a) (r := r) (v := v) (l := xs)
        (length_lt_of_respMore hws)
      exact ⟨hask.snoc hw', by rw [hh', hh, indexed_snoc], hw.snoc hws⟩
  | @clear ws ok hws =>
    obtain ⟨hask, hh, hw⟩ := h
    obtain ⟨hw', hh'⟩ := words_of_le (x := a.mbAccess r true mbFlag mbClrResp ok) (l := xs) hflag
    exact Closed.response (hask.snoc hw') (hh'.trans hh) hw hws

/-- The end of the wait. -/
lemma Told.wake {p : Progress} (h : Told r xs .waiting) (hw : Wake a r x p) :
    Told r (xs ++ [x]) (.busy p) := by
  obtain ⟨hask, hh⟩ := h
  have hflag : mbFlag.toNat ≤ mbFlag.toNat := le_rfl
  cases hw with
  | fail => exact hask.cut rfl
  | @resp v hv =>
    obtain ⟨hw', hh'⟩ := words_of_le (x := a.mbAccess r false mbFlag v true) (l := xs) hflag
    exact ⟨hask.snoc hw', hh'.trans hh, by simp [Wanted]⟩
  | @timeout ok =>
    obtain ⟨hw', hh'⟩ := words_of_le (x := a.mbAccess r true mbFlag mbClrReq ok) (l := xs) hflag
    exact Closed.cut (by decide) (Or.inr (hask.snoc hw')) (Or.inl (hh'.trans hh))

/-- **What a `MAILBOX` has written and heard** at every stage of its script. -/
theorem Script.told {rst : Bool} {s : Stage} (h : Script rst r s xs)
    (hk : r.kind = some .mailbox) : Told r xs s := by
  induction h with
  | start => exact ⟨⟨rfl, by simp⟩, rfl⟩
  | touch h ht ih => exact ih.touch hk h.isMailbox ht
  | refused _ hops => simp [Req.ops, hk] at hops
  | set _ ih => exact ⟨ih.1, ih.2, Spells.nil _, Nat.zero_le _⟩
  | @bell a ws xs _ ih =>
    obtain ⟨hu, hask⟩ := ih
    obtain ⟨hw', hh'⟩ := words_of_le (x := a.mbAccess r true mbFlag mbSetReq true) (l := xs) le_rfl
    exact ⟨hask.snoc hw', hh'.trans hu.silent⟩
  | @poll a v xs _ _ ih =>
    obtain ⟨hw', hh'⟩ := words_of_le (x := a.mbAccess r false mbFlag v true) (l := xs) le_rfl
    exact ⟨ih.1.snoc hw', hh'.trans ih.2⟩
  | wake _ hw ih => exact ih.wake hw
  | leave _ ih => exact ⟨_, _, rfl, ih⟩
  | control _ hc => simp [Entry.controls, hk] at hc
  | send _ ha ih =>
    cases ha with
    | done => exact Or.inr ih
    | ops hops => simp [Req.ops, hk] at hops
    | invalid hs => exact Or.inl ⟨ih.1, hs, rfl, rfl⟩
    | claimed hk' => simp [hk] at hk'
    | released hk' => simp [hk] at hk'
    | outOfRange => exact Or.inr ⟨_, _, rfl, ih.1.cut (by decide)⟩
    | text hk' => simp [hk] at hk'
    | noLine hk' => simp [hk] at hk'
    | unknown hk' => simp [hk] at hk'

end

/-! ## Registers -/

/-- An access in the reach of `exec_mailbox` for `r`: `MB_FLAG`, `MB_MCU_MASK`, a write to the
request window or a read of the response window, in its slice. -/
structure InReach (r : Req) (x : Access) : Prop where
  slice : x.slice = r.mb.slice
  mmd : x.mmd = mmdGlobal
  reg : x.reg = mbFlag ∨ x.reg = mbMcuMask ∨
    x.write = true ∧ 0xd800 ≤ x.reg.toNat ∧ x.reg.toNat ≤ 0xd8ff ∨
    x.write = false ∧ 0xd900 ≤ x.reg.toNat ∧ x.reg.toNat ≤ 0xd9ff

/-- Every access of a mailbox call is to a register that it may touch. -/
lemma Touch.inReach {a : Abs} {r : Req} {x : Access} {p p' : Progress} (ht : Touch a r p x p')
    (hk : r.kind = some .mailbox) (hr : p.ofMailbox = true → r.IsMailbox) : InReach r x := by
  cases ht with
  | op hops => simp [Req.ops, hk] at hops
  | probe => exact ⟨rfl, rfl, Or.inl rfl⟩
  | @word ws v ok hws =>
    have hj := hws.trans_le (wordCount_pktLen_le (hr rfl).inRange)
    have hb : mbCmdAddr.toNat = 0xd800 := rfl
    have hw : (mbCmdAddr + UInt16.ofNat ws.length).toNat = 0xd800 + ws.length :=
      toNat_window _ (by omega)
    exact ⟨rfl, rfl, Or.inr (Or.inr (Or.inl ⟨rfl, hw.ge.trans' (by omega), hw.le.trans (by omega)⟩))⟩
  | mask => exact ⟨rfl, rfl, Or.inr (Or.inl rfl)⟩
  | enable => exact ⟨rfl, rfl, Or.inr (Or.inl rfl)⟩
  | noBell => exact ⟨rfl, rfl, Or.inl rfl⟩
  | @fetch ws v ok hws =>
    have hj := length_lt_of_respMore hws
    have hb : mbRespAddr.toNat = 0xd900 := rfl
    have hw : (mbRespAddr + UInt16.ofNat ws.length).toNat = 0xd900 + ws.length :=
      toNat_window _ (by omega)
    exact ⟨rfl, rfl, Or.inr (Or.inr (Or.inr ⟨rfl, hw.ge.trans' (by omega), hw.le.trans (by omega)⟩))⟩
  | clear => exact ⟨rfl, rfl, Or.inl rfl⟩

/-- **A mailbox call stays in its reach.** -/
lemma Script.registers {rst : Bool} {r : Req} {s : Stage} {xs : List Access}
    (h : Script rst r s xs) (hk : r.kind = some .mailbox) : ∀ x ∈ xs, InReach r x := by
  have hsnoc : ∀ {xs : List Access} {x : Access}, (∀ x ∈ xs, InReach r x) → InReach r x →
      ∀ y ∈ xs ++ [x], InReach r y := by
    intro xs x ih hx y hy
    rcases List.mem_append.mp hy with hy | hy
    · exact ih y hy
    · rw [List.mem_singleton.mp hy]
      exact hx
  induction h with
  | start => simp
  | touch h ht ih => exact hsnoc ih (ht.inReach hk h.isMailbox)
  | bell _ ih => exact hsnoc ih ⟨rfl, rfl, Or.inl rfl⟩
  | poll _ _ ih => exact hsnoc ih ⟨rfl, rfl, Or.inl rfl⟩
  | wake _ hw ih => exact hsnoc ih (by cases hw <;> exact ⟨rfl, rfl, Or.inl rfl⟩)
  | refused _ _ _ _ ih => exact ih
  | set _ ih => exact ih
  | leave _ ih => exact ih
  | control _ _ ih => exact ih
  | send _ _ ih => exact ih

/-! ## Calls that return -/

/-- A request leaves execution with its answer. -/
lemma Step.executing_keep {rst : Bool} {a a' : Abs} {e : Event} (h : Step rst a e a') {r : Req}
    (hr : r ∈ a.executing) :
    r ∈ a'.executing ∨ ∃ fd type st seq body, e = .send r.rid r.c fd type st seq body := by
  cases h with
  | send hact _ _ =>
    simp only [Abs.executing, hact, Activity.reqs_exec, List.singleton_append, List.mem_cons] at hr
    rcases hr with rfl | hr
    · exact Or.inr ⟨_, _, _, _, _, rfl⟩
    · exact Or.inl hr
  | note => exact Or.inl hr
  | _ => left; simp_all [Abs.executing]

/-- A request being executed after some events either still is after the others or was answered
among them. -/
lemma Run.executing_or_sent {rst : Bool} {a u : Abs} {es : List Event}
    (h : Steps (Step rst) a es u) {r : Req} (hr : r ∈ a.executing) :
    r ∈ u.executing ∨ ∃ fd type st seq body, Event.send r.rid r.c fd type st seq body ∈ es := by
  induction h with
  | nil => exact Or.inl hr
  | snoc _ hs ih =>
    rcases ih with h' | ⟨fd, type, st, seq, body, hm⟩
    · refine (hs.executing_keep h').imp_right ?_
      rintro ⟨fd, type, st, seq, body, rfl⟩
      exact ⟨fd, type, st, seq, body, List.mem_append_right _ (List.mem_singleton_self _)⟩
    · exact Or.inr ⟨fd, type, st, seq, body, List.mem_append_left _ hm⟩

/-- A request that was picked is being executed or was answered. -/
lemma Run.executing_or_answered {rst : Bool} {es : List Event} {a : Abs} (h : Run rst es a)
    {r : Req} {o : Option Slot} {w q : List Entry}
    (hr : Event.dispatch r.toEntry r.body o w q ∈ es) :
    r ∈ a.executing ∨ ∃ fd type st seq body, Event.send r.rid r.c fd type st seq body ∈ es := by
  obtain ⟨pre, post, rfl⟩ := List.append_of_mem hr
  obtain ⟨t, t', -, hs, hpost⟩ := h.split_cons
  have hr' : r ∈ t'.executing := by
    rw [Abs.executing, hs.dispatch_inv.2.2.1]
    exact List.mem_append_left _ List.mem_cons_self
  refine (Run.executing_or_sent hpost hr').imp_right ?_
  rintro ⟨fd, type, st, seq, body, hm⟩
  exact ⟨fd, type, st, seq, body, List.mem_append_right _ (List.mem_cons_of_mem _ hm)⟩

/-- **A call that has begun to read its response has returned** whenever nothing is at work. -/
theorem Run.answered_of_heard {rst : Bool} {es : List Event} {a : Abs} (h : Run rst es a)
    (hact : a.act = .idle) {r : Req} {o : Option Slot} {w q : List Entry}
    (hr : Event.dispatch r.toEntry r.body o w q ∈ es) (hk : r.kind = some .mailbox)
    (hh : heard (accessesFor r.agent es) ≠ []) :
    ∃ fd type st seq body, Event.send r.rid r.c fd type st seq body ∈ es := by
  refine (Run.executing_or_answered h hr).resolve_left fun hex => hh ?_
  -- it would be waiting, and a call that waits has heard nothing
  rw [Abs.executing, hact, Activity.reqs_idle, List.nil_append] at hex
  exact (((Run.scripts h).waiting r hex).told hk).2

end Spid

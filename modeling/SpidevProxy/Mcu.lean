import SpidevProxy.Facts

set_option relaxedAutoImplicit false
set_option autoImplicit false

/-!
# The other side of the mailbox

The MCU is not part of the repository; this is what `exec_mailbox` relies on. A write of
`MB_SET_REQ` to `MB_FLAG` sets `MB_F_BUSY` and starts the command in the request window. At any
later time the MCU may store the response of a command it has started in the response window, set
`MB_F_RESP` and clear `MB_F_BUSY`. `MB_CLR_REQ` and `MB_CLR_RESP` clear the two flags. A transfer
that fails may have reached the device or not.

How many mailboxes there are is left open: `inst` tells which one the registers of a slice belong
to, so that one shared mailbox and one for each slice are both covered.

## Main definitions

* `Spid.Access.target` — where an access arrives, by the frame that carries it.
* `Spid.Mcu`, `Spid.McuStep` — a mailbox seen from the MCU, and what happens to it.
* `Spid.QuietStep` — the same, with every doorbell finding its mailbox at rest.
* `Spid.respWords` — the words of the response in a response window.
-/

namespace Spid

open Bytes

/-- Where an access arrives: the slice and the register of the `GLOBAL` MMD that its frame
addresses. -/
def Access.target (x : Access) : Option (ℕ × ℕ) :=
  let f := Frame.decode (spiFill x.write (spiAddr x.slice x.mmd x.reg) x.val)
  if f.mmd = mmdGlobal.toNat then some (f.slice, f.reg) else none

/-- The access arrives in the mailbox region. -/
def Access.hitsMailbox (x : Access) : Bool :=
  x.target.any fun t => mbGuardLo.toNat ≤ t.2 && t.2 ≤ mbGuardHi.toNat

/-- A command that the MCU has started: on whose behalf the doorbell was rung, and what the request
window held. -/
structure Command where
  agent : Agent
  window : ℕ → UInt32

/-- A mailbox: its two windows, word by word, `MB_F_BUSY`, `MB_F_RESP`, and the commands started and
not yet responded to. -/
structure Mcu where
  window : ℕ → UInt32
  resp : ℕ → UInt32
  busy : Bool
  ready : Bool
  pending : List Command

namespace Mcu

/-- A register of the mailbox is written. -/
def write (m : Mcu) (agent : Agent) (reg : ℕ) (val : UInt32) : Mcu :=
  if reg = mbFlag.toNat then
    if val = mbSetReq then { m with busy := true, pending := m.pending ++ [⟨agent, m.window⟩] }
    else if val = mbClrReq then { m with busy := false }
    else if val = mbClrResp then { m with ready := false }
    else m
  else if mbCmdAddr.toNat ≤ reg ∧ reg < mbRespAddr.toNat then
    { m with window := Function.update m.window (reg - mbCmdAddr.toNat) val }
  else m

/-- A register of the mailbox may be read as `val`. -/
def shows (m : Mcu) (reg : ℕ) (val : UInt32) : Bool :=
  if reg = mbFlag.toNat then
    decide (val &&& mbFBusy ≠ 0) = m.busy && decide (val &&& mbFResp ≠ 0) = m.ready
  else if mbRespAddr.toNat ≤ reg ∧ reg < mbFlag.toNat then val = m.resp (reg - mbRespAddr.toNat)
  else true

/-- No response is waiting to be read, and none is outstanding. -/
def quiet (m : Mcu) : Bool := !m.ready && m.pending.isEmpty

end Mcu

/-- What happens at the device: an event of the daemon, or the MCU stores the response `w` of a
command. -/
inductive McuEvent (ι : Type)
  | daemon (e : Event)
  | respond (i : ι) (cmd : Command) (w : ℕ → UInt32)

/-- The daemon's part of what happens at the device. -/
def McuEvent.daemon? {ι : Type} : McuEvent ι → Option Event
  | .daemon e => some e
  | .respond _ _ _ => none

section

variable {ι : Type} [DecidableEq ι] (inst : ℕ → ι)

/-- The mailboxes after an access has reached the device. -/
def mcuAfter (s : ι → Mcu) (x : Access) : ι → Mcu :=
  x.target.elim s fun t =>
    if x.write then Function.update s (inst t.1) ((s (inst t.1)).write x.agent t.2 x.val) else s

/-- A read that succeeds returns what the register holds. -/
def mcuShows (s : ι → Mcu) (x : Access) : Bool :=
  x.target.all fun t => x.write || !x.ok || (s (inst t.1)).shows t.2 x.val

/-- **What happens to the mailboxes.** -/
inductive McuStep : (ι → Mcu) → McuEvent ι → (ι → Mcu) → Prop
  | access {s : ι → Mcu} {x : Access} (h : mcuShows inst s x = true) :
      McuStep s (.daemon (.access x)) (mcuAfter inst s x)
  | lost {s : ι → Mcu} {x : Access} (h : x.ok = false) : McuStep s (.daemon (.access x)) s
  | other {s : ι → Mcu} {e : Event} (h : ∀ x, e ≠ .access x) : McuStep s (.daemon e) s
  | respond {s : ι → Mcu} {i : ι} {cmd : Command} {pre post : List Command} {w : ℕ → UInt32}
      (h : (s i).pending = pre ++ cmd :: post) :
      McuStep s (.respond i cmd w)
        (Function.update s i { s i with
          resp := w, ready := true, busy := false, pending := pre ++ post })

/-- If the event is a doorbell, its mailbox is at rest. -/
def quietBell (s : ι → Mcu) : McuEvent ι → Bool
  | .daemon (.access x) => x.target.all fun t =>
      !(x.write && t.2 = mbFlag.toNat && x.val = mbSetReq) || (s (inst t.1)).quiet
  | _ => true

/-- What happens to the mailboxes when every doorbell finds its mailbox at rest. -/
def QuietStep (s : ι → Mcu) (e : McuEvent ι) (s' : ι → Mcu) : Prop :=
  McuStep inst s e s' ∧ quietBell inst s e = true

end

/-! ## A device that loses no transfer -/

section

variable {ι : Type} [DecidableEq ι] (inst : ℕ → ι)

/-- The mailboxes after an event of the daemon, if no transfer is lost. -/
def mcuNext (s : ι → Mcu) : Event → (ι → Mcu)
  | .access x => mcuAfter inst s x
  | _ => s

/-- All reads return what the registers hold and, if `quiet` is set, all doorbells find their
mailboxes at rest. -/
def mcuAgrees (quiet : Bool) (s : ι → Mcu) : List Event → Bool
  | [] => true
  | e :: es =>
    (match e with
      | .access x => mcuShows inst s x
      | _ => true) &&
    (!quiet || quietBell inst s (.daemon e)) && mcuAgrees quiet (mcuNext inst s e) es

/-- Events of the daemon that agree with the mailboxes. -/
lemma steps_of_agrees {quiet : Bool} {s : ι → Mcu} {es : List Event}
    (h : mcuAgrees inst quiet s es = true) :
    History.Steps (fun s e s' => McuStep inst s e s' ∧
      (quiet = true → quietBell inst s e = true)) s (es.map .daemon) (es.foldl (mcuNext inst) s) := by
  induction es generalizing s with
  | nil => exact History.Steps.nil s
  | cons e es ih =>
    simp only [mcuAgrees, Bool.and_eq_true, Bool.or_eq_true, Bool.not_eq_true'] at h
    obtain ⟨⟨hshow, hbell⟩, hrest⟩ := h
    refine History.Steps.cons ⟨?_, fun hq => hbell.resolve_left (by simp [hq])⟩ (ih hrest)
    cases e with
    | access x => exact McuStep.access hshow
    | _ => exact McuStep.other (by simp)

/-- The mailboxes after the response `w` to the only command outstanding at `i`. -/
def mcuRespond (s : ι → Mcu) (i : ι) (w : ℕ → UInt32) : ι → Mcu :=
  Function.update s i { s i with resp := w, ready := true, busy := false, pending := [] }

/-- A history with one response. -/
def responded (pre : List Event) (i : ι) (cmd : Command) (w : ℕ → UInt32) (post : List Event) :
    List (McuEvent ι) :=
  pre.map .daemon ++ .respond i cmd w :: post.map .daemon

/-- Events of the daemon that agree with the mailboxes, with one response in between. -/
lemma steps_of_responded (quiet : Bool) (s : ι → Mcu) (pre post : List Event) (i : ι) (ag : Agent)
    (w : ℕ → UInt32) (hpre : mcuAgrees inst quiet s pre = true)
    (hpend : (pre.foldl (mcuNext inst) s i).pending.map Command.agent = [ag])
    (hpost : mcuAgrees inst quiet (mcuRespond (pre.foldl (mcuNext inst) s) i w) post = true) :
    ∃ cmd s', cmd.agent = ag ∧ History.Steps (fun s e s' => McuStep inst s e s' ∧
      (quiet = true → quietBell inst s e = true)) s (responded pre i cmd w post) s' := by
  obtain ⟨cmd, hcmd, hag⟩ := List.map_eq_singleton_iff.mp hpend
  have hresp : McuStep inst (pre.foldl (mcuNext inst) s) (.respond i cmd w)
      (mcuRespond (pre.foldl (mcuNext inst) s) i w) := by
    have h : (pre.foldl (mcuNext inst) s i).pending = [] ++ cmd :: [] := hcmd
    exact McuStep.respond h
  exact ⟨cmd, _, hag, (steps_of_agrees inst hpre).trans
    (History.Steps.cons ⟨hresp, fun _ => rfl⟩ (steps_of_agrees inst hpost))⟩

end

/-- The daemon's part of a history with one response. -/
lemma daemonPart_responded {ι : Type} (pre post : List Event) (i : ι) (cmd : Command)
    (w : ℕ → UInt32) :
    (responded pre i cmd w post).filterMap McuEvent.daemon? = pre ++ post := by
  have hmap : ∀ es : List Event,
      (es.map fun e => (McuEvent.daemon e : McuEvent ι)).filterMap McuEvent.daemon? = es := by
    intro es
    rw [List.filterMap_map]
    exact List.filterMap_some
  rw [responded, List.filterMap_append, List.filterMap_cons_none rfl, hmap, hmap]

/-- The only response of such a history. -/
lemma respond_mem_responded {ι : Type} {pre post : List Event} {i j : ι} {cmd cmd' : Command}
    {w w' : ℕ → UInt32} (h : McuEvent.respond j cmd' w' ∈ responded pre i cmd w post) :
    cmd' = cmd := by
  rw [responded, List.mem_append, List.mem_cons, List.mem_map, List.mem_map] at h
  rcases h with ⟨e, -, he⟩ | he | ⟨e, -, he⟩
  · exact absurd he (by simp)
  · simp only [McuEvent.respond.injEq] at he
    exact he.2.1
  · exact absurd he (by simp)

/-- A mailbox at rest, with empty windows. -/
def Mcu.fresh : Mcu := ⟨fun _ => 0, fun _ => 0, false, false, []⟩

/-! ## The registers of a mailbox call -/

/-- An access of `exec_mailbox` arrives where it is meant to. -/
lemma target_mbAccess (a : Abs) {r : Req} (write : Bool) (reg : UInt16) (val : UInt32) (ok : Bool)
    (hr : r.inRange = true) :
    (a.mbAccess r write reg val ok).target = some (r.mb.slice.toNat, reg.toNat) := by
  have hs : r.mb.slice.toNat < 4 := by
    simp only [Req.inRange, Bool.and_eq_true, decide_eq_true_eq] at hr
    exact hr.2
  have hd : Frame.decode (spiFill write (spiAddr r.mb.slice mmdGlobal reg) val) = _ :=
    decode_spiFill write val hs (by decide)
  simp only [Access.target, Abs.mbAccess, Abs.access, hd, if_true]

/-- A write outside the mailbox region does nothing to a mailbox. -/
lemma Mcu.write_of_notMem (m : Mcu) (agent : Agent) {reg : ℕ} (val : UInt32)
    (h : ¬(mbGuardLo.toNat ≤ reg ∧ reg ≤ mbGuardHi.toNat)) : m.write agent reg val = m := by
  have h₁ : reg ≠ mbFlag.toNat := by
    rintro rfl
    exact h (by decide)
  have h₂ : ¬(mbCmdAddr.toNat ≤ reg ∧ reg < mbRespAddr.toNat) := by
    rintro ⟨h₃, h₄⟩
    refine h ⟨h₃, h₄.le.trans (by decide)⟩
  rw [Mcu.write, if_neg h₁, if_neg h₂]

/-! ## What an access does -/

section

variable {ι : Type} [DecidableEq ι] {inst : ℕ → ι} {s s' : ι → Mcu} {x : Access} {slice reg : ℕ}

/-- Only accesses do something to a mailbox. -/
lemma McuStep.eq_of_other {e : Event} (h : McuStep inst s (.daemon e) s')
    (he : ∀ x, e ≠ .access x) : s' = s := by
  cases h with
  | access _ => exact absurd rfl (he _)
  | lost _ => rfl
  | other _ => rfl

/-- An access arrives, and a read returns what the register holds; or it fails and does nothing. -/
lemma McuStep.access_inv (h : McuStep inst s (.daemon (.access x)) s') :
    mcuShows inst s x = true ∧ s' = mcuAfter inst s x ∨ x.ok = false ∧ s' = s := by
  cases h with
  | access h => exact Or.inl ⟨h, rfl⟩
  | lost h => exact Or.inr ⟨h, rfl⟩
  | other h => exact absurd rfl (h x)

/-- An access outside the mailbox region does nothing to a mailbox. -/
lemma McuStep.eq_of_notHit (h : McuStep inst s (.daemon (.access x)) s')
    (hx : x.write = false ∨ x.hitsMailbox = false) : s' = s := by
  rcases h.access_inv with ⟨-, rfl⟩ | ⟨-, rfl⟩
  · unfold mcuAfter
    cases ht : x.target with
    | none => rfl
    | some p =>
      obtain ⟨slice, reg⟩ := p
      rcases hx with hx | hx
      · simp [hx]
      · simp only [Access.hitsMailbox, ht, Option.any_some, Bool.and_eq_false_iff,
          decide_eq_false_iff_not] at hx
        have hreg : ¬(mbGuardLo.toNat ≤ reg ∧ reg ≤ mbGuardHi.toNat) := fun h =>
          hx.elim (· h.1) (· h.2)
        simp [Mcu.write_of_notMem _ _ _ hreg]
  · rfl

/-- A read that succeeds returns what the register holds. -/
lemma McuStep.shows (h : McuStep inst s (.daemon (.access x)) s') (hx : x.write = false)
    (hok : x.ok = true) (ht : x.target = some (slice, reg)) :
    (s (inst slice)).shows reg x.val = true := by
  rcases h.access_inv with ⟨hs, -⟩ | ⟨hl, -⟩
  · simpa [mcuShows, ht, hx, hok] using hs
  · simp [hok] at hl

/-- A write arrives, or it fails and does nothing. -/
lemma McuStep.of_write (h : McuStep inst s (.daemon (.access x)) s') (hx : x.write = true)
    (ht : x.target = some (slice, reg)) :
    s' = Function.update s (inst slice) ((s (inst slice)).write x.agent reg x.val) ∨
      x.ok = false ∧ s' = s := by
  rcases h.access_inv with ⟨-, rfl⟩ | h
  · exact Or.inl (by simp [mcuAfter, ht, hx])
  · exact Or.inr h

end

/-- What a read of `MB_FLAG` tells. -/
lemma Mcu.shows_flag {m : Mcu} {v : UInt32} (h : m.shows mbFlag.toNat v = true) :
    decide (v &&& mbFResp ≠ 0) = m.ready := by
  simp only [Mcu.shows, if_true, Bool.and_eq_true, decide_eq_true_eq] at h
  exact h.2

/-- What a read in the response window tells. -/
lemma Mcu.shows_resp {m : Mcu} {v : UInt32} {j : ℕ} (hj : j < 256)
    (h : m.shows (mbRespAddr + UInt16.ofNat j).toNat v = true) : v = m.resp j := by
  have hb : mbRespAddr.toNat = 55552 := rfl
  have hf : mbFlag.toNat = 55808 := rfl
  rw [toNat_window _ (by omega)] at h
  rw [Mcu.shows, if_neg (by omega), if_pos (by omega), Nat.add_sub_cancel_left] at h
  exact of_decide_eq_true h

/-- A write to the request window. -/
lemma Mcu.write_window (m : Mcu) (agent : Agent) (v : UInt32) {j : ℕ} (hj : j < 256) :
    m.write agent (mbCmdAddr + UInt16.ofNat j).toNat v =
      { m with window := Function.update m.window j v } := by
  have hb : mbCmdAddr.toNat = 55296 := rfl
  have hr : mbRespAddr.toNat = 55552 := rfl
  have hf : mbFlag.toNat = 55808 := rfl
  rw [toNat_window _ (by omega), Mcu.write, if_neg (by omega), if_pos (by omega),
    Nat.add_sub_cancel_left]

/-! ## Responses -/

/-- The number of words that `exec_mailbox` reads of the response in a window. -/
def respCount (w : ℕ → UInt32) : ℕ := if respSized [w 0] then wordCount (respLen [w 0]) else 1

/-- The words of the response in a response window. -/
def respWords (w : ℕ → UInt32) : List UInt32 := (List.range (respCount w)).map w

/-- A response has at least one word, -/
lemma respCount_pos (w : ℕ → UInt32) : 0 < respCount w := by
  unfold respCount
  split_ifs with h
  · simp only [respSized, Bool.and_eq_true, decide_eq_true_eq] at h
    have h₁ := h.1
    simp only [mbHdrLen, mbCrcLen] at h₁
    simp only [wordCount]
    omega
  · exact Nat.one_pos

/-- and it fits in the window. -/
lemma respCount_le (w : ℕ → UInt32) : respCount w ≤ 256 := by
  unfold respCount
  split_ifs with h
  · simp only [respSized, Bool.and_eq_true, decide_eq_true_eq] at h
    have h₂ := h.2
    simp only [mbHdrLen, mbCrcLen, mbMax] at h₂
    simp only [wordCount]
    omega
  · decide

/-- The first words of the response, and whether there are more. -/
lemma respMore_take (w : ℕ → UInt32) {n : ℕ} (hn : n ≤ respCount w) :
    respMore ((List.range n).map w) = decide (n < respCount w) := by
  cases n with
  | zero => simp [respMore, respCount_pos]
  | succ n =>
    have hhead : ((List.range (n + 1)).map w).headD 0 = w 0 := by
      rw [List.range_succ_eq_map]
      rfl
    have hlen : respLen ((List.range (n + 1)).map w) = respLen [w 0] := by
      unfold respLen
      rw [hhead]
      rfl
    have hsized : respSized ((List.range (n + 1)).map w) = respSized [w 0] := by
      unfold respSized
      rw [hlen]
    have hne : ((List.range (n + 1)).map w).isEmpty = false := by
      rw [List.range_succ_eq_map]
      rfl
    unfold respMore
    rw [hne, hsized, hlen, List.length_map, List.length_range]
    unfold respCount at hn ⊢
    cases hs : respSized [w 0] with
    | false =>
      rw [hs] at hn
      simp
    | true => simp

/-- What has been read of the response, as long as it is what the window holds. -/
lemma prefix_respWords {ws : List UInt32} {w : ℕ → UInt32} (h : ws <+: respWords w) :
    ws = (List.range ws.length).map w ∧ ws.length ≤ respCount w := by
  have hle : ws.length ≤ respCount w := by
    have := h.length_le
    rwa [respWords, List.length_map, List.length_range] at this
  refine ⟨?_, hle⟩
  have ht := List.prefix_iff_eq_take.mp h
  rwa [respWords, ← List.map_take, List.take_range, min_eq_left hle] at ht

/-- The next word continues the response. -/
lemma prefix_respWords_append {ws : List UInt32} {w : ℕ → UInt32} (h : ws <+: respWords w)
    (hm : respMore ws = true) :
    ws.length < respCount w ∧ ws ++ [w ws.length] <+: respWords w := by
  obtain ⟨he, hle⟩ := prefix_respWords h
  have hmore := respMore_take w hle
  rw [← he, hm] at hmore
  have hlt : ws.length < respCount w := of_decide_eq_true hmore.symm
  refine ⟨hlt, ?_⟩
  have hcat : ws ++ [w ws.length] = (List.range (ws.length + 1)).map w := by
    rw [List.range_succ, List.map_append, ← he]
    rfl
  rw [hcat, respWords, List.prefix_iff_eq_take, ← List.map_take, List.take_range,
    List.length_map, List.length_range, min_eq_left hlt]

/-- When there are no more words, the whole response has been read. -/
lemma eq_respWords {ws : List UInt32} {w : ℕ → UInt32} (h : ws <+: respWords w)
    (hm : respMore ws = false) : ws = respWords w := by
  obtain ⟨he, hle⟩ := prefix_respWords h
  have hmore := respMore_take w hle
  rw [← he, hm] at hmore
  have hge : respCount w ≤ ws.length := not_lt.mp (of_decide_eq_false hmore.symm)
  rw [respWords, ← le_antisymm hle hge]
  exact he

end Spid

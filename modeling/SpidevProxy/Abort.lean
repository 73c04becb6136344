import SpidevProxy.InFlight
import SpidevProxy.MailboxCall

set_option relaxedAutoImplicit false
set_option autoImplicit false

/-!
# How a mailbox call leaves the device behind

After the doorbell `exec_mailbox` has many exits. On a timeout, a response that it does not accept
and a response that it does, it clears the flag it leaves standing before it returns. It does not on
the exits through `io_err`: once a read fails after the doorbell, neither flag is cleared.

## Main definitions

* `Spid.Access.clears` — an attempt to clear a flag of the mailbox.

## Main results

* `Spid.mailbox_abort` — a call that has rung the doorbell clears a flag before it returns if and
  only if none of its reads fails afterwards.
-/

namespace Spid

open History

/-- `MB_CLR_REQ` or `MB_CLR_RESP` is written to `MB_FLAG` of the slice, whether the write succeeds
or not. -/
def Access.clears (slice : UInt8) (x : Access) : Bool :=
  x.write && x.slice = slice && x.mmd = mmdGlobal && x.reg = mbFlag &&
    (x.val = mbClrReq || x.val = mbClrResp)

/-- No read of these accesses fails. -/
def ReadsOk (xs : List Access) : Prop := ∀ x ∈ xs, x.write = false → x.ok = true

/-- What has followed the doorbell `b` at each stage of a mailbox call. -/
def Stage.aftermath (b : Access) (xs : List Access) : Stage → Prop
  | .waiting | .busy (.response _) => (∀ x ∈ xs, x.clears b.slice = false) ∧ ReadsOk xs
  | .busy (.leave _ _ _) | .busy (.answer _ _) | .answered _ _ =>
      (∃ x ∈ xs, x.clears b.slice = true) ↔ ReadsOk xs
  | _ => False

section

variable {rst : Bool} {a : Abs} {r : Req} {b x : Access} {xs : List Access} {p p' : Progress}

/-- One more access. -/
lemma readsOk_snoc : ReadsOk (xs ++ [x]) ↔ ReadsOk xs ∧ (x.write = false → x.ok = true) := by
  simp [ReadsOk, or_imp, forall_and]

/-- A read while the call waits or reads its response. -/
lemma aftermath_read (h : Stage.aftermath b xs .waiting) (hx : x.write = false) (hok : x.ok = true) :
    Stage.aftermath b (xs ++ [x]) .waiting := by
  refine ⟨fun y hy => ?_, readsOk_snoc.mpr ⟨h.2, fun _ => hok⟩⟩
  rcases List.mem_append.mp hy with hy | hy
  · exact h.1 y hy
  · obtain rfl := List.mem_singleton.mp hy
    simp [Access.clears, hx]

/-- A read that fails: nothing is cleared. -/
lemma aftermath_failed (h : Stage.aftermath b xs .waiting) (hx : x.write = false)
    (hok : x.ok = false) :
    (∃ y ∈ xs ++ [x], y.clears b.slice = true) ↔ ReadsOk (xs ++ [x]) := by
  refine iff_of_false ?_ fun hr => ?_
  · rintro ⟨y, hy, hc⟩
    rcases List.mem_append.mp hy with hy | hy
    · simp [h.1 y hy] at hc
    · obtain rfl := List.mem_singleton.mp hy
      simp [Access.clears, hx] at hc
  · simp [(readsOk_snoc.mp hr).2 hx] at hok

/-- The flag is cleared. -/
lemma aftermath_cleared (h : Stage.aftermath b xs .waiting) (hx : x.clears b.slice = true) :
    (∃ y ∈ xs ++ [x], y.clears b.slice = true) ↔ ReadsOk (xs ++ [x]) := by
  have hw : x.write = true := by
    simp only [Access.clears, Bool.and_eq_true] at hx
    exact hx.1.1.1.1
  refine iff_of_true ⟨x, by simp, hx⟩ (readsOk_snoc.mpr ⟨h.2, fun h' => ?_⟩)
  simp [hw] at h'

/-- Before the doorbell there is nothing to say. -/
lemma after_of_noBell (h : ∀ x ∈ xs, x.rings = false) {P : Access → List Access → Prop} :
    After (fun b zs => b.rings = true → P b zs) xs := by
  rintro pre b post rfl hb
  simp [h b (by simp)] at hb

/-- An access other than the doorbell. -/
lemma after_snoc {s s' : Stage} (h : After (fun b zs => b.rings = true → s.aftermath b zs) xs)
    (hx : x.rings = false)
    (hs : ∀ b ∈ xs, ∀ zs, s.aftermath b zs → s'.aftermath b (zs ++ [x])) :
    After (fun b zs => b.rings = true → s'.aftermath b zs) (xs ++ [x]) := by
  refine h.snoc (fun b hb zs hP hr => hs b hb zs (hP hr)) fun hr => ?_
  simp [hx] at hr

/-- **What has followed the doorbell** at every stage of a mailbox call.

**Proof sketch.** Induction on the script. Up to the doorbell nothing rings, so there is nothing to
show; the doorbell starts with an empty aftermath; every access behind it is a read that succeeds,
a read that fails, or the write that clears the flag, and one lemma each says what it adds. -/
lemma Script.aftermath {s : Stage} (h : Script rst r s xs) (hk : r.kind = some .mailbox) :
    After (fun b zs => b.rings = true → s.aftermath b zs) xs := by
  induction h with
  | start => exact After.nil
  | @touch a p p' x xs h ht ih =>
    have hx := ht.rings hk h.isMailbox
    have hsl := h.registers hk
    -- up to the doorbell nothing rings
    have hearly : Unasked xs →
        After (fun b zs => b.rings = true → (Stage.busy p').aftermath b zs) (xs ++ [x]) := fun hu =>
      after_of_noBell fun y hy => (List.mem_append.mp hy).elim (hu.noBell y)
        fun hy => List.mem_singleton.mp hy ▸ hx
    have htold := h.told hk
    cases ht with
    | op hops => simp [Req.ops, hk] at hops
    | probe => exact hearly htold.1
    | word => exact hearly htold.1
    | mask => exact hearly htold.1
    | enable => exact hearly htold.1
    | noBell => exact hearly htold.1
    | @fetch ws v ok hws =>
      refine after_snoc ih hx fun b hb zs hP => ?_
      cases ok with
      | true => exact aftermath_read hP rfl rfl
      | false => exact aftermath_failed hP rfl rfl
    | clear =>
      refine after_snoc ih hx fun b hb zs hP => aftermath_cleared hP ?_
      rw [(hsl b hb).slice]
      simp [Access.clears, Abs.mbAccess, Abs.access]
  | bell h ih =>
    have hno := after_of_noBell (h.told hk).1.noBell (P := fun _ _ => False)
    exact hno.snoc (fun b _ zs hP hr => (hP hr).elim) fun _ => ⟨by simp, by simp [ReadsOk]⟩
  | poll h hv ih =>
    exact after_snoc ih (rings_of_read rfl) fun b hb zs hP => aftermath_read hP rfl rfl
  | wake h hw ih =>
    have hsl := h.registers hk
    cases hw with
    | fail => exact after_snoc ih (rings_of_read rfl) fun b hb zs hP => aftermath_failed hP rfl rfl
    | resp => exact after_snoc ih (rings_of_read rfl) fun b hb zs hP => aftermath_read hP rfl rfl
    | timeout =>
      refine after_snoc ih ?_ fun b hb zs hP => aftermath_cleared hP ?_
      · simp [Access.rings, Abs.mbAccess, Abs.access, mbClrReq, mbSetReq]
      · rw [(hsl b hb).slice]
        simp [Access.clears, Abs.mbAccess, Abs.access]
  | refused _ hops => simp [Req.ops, hk] at hops
  | set h _ => exact after_of_noBell (h.told hk).1.noBell
  | leave _ ih => exact ih
  | control _ hc => simp [Entry.controls, hk] at hc
  | send h ha ih =>
    cases ha with
    | done => exact ih
    | ops hops => simp [Req.ops, hk] at hops
    | invalid => exact after_of_noBell (h.told hk).1.noBell
    | outOfRange => exact after_of_noBell (h.told hk).1.noBell
    | claimed hk' => simp [hk] at hk'
    | released hk' => simp [hk] at hk'
    | text hk' => simp [hk] at hk'
    | noLine hk' => simp [hk] at hk'
    | unknown hk' => simp [hk] at hk'

end

/-- **A mailbox call cleans up behind itself unless a read fails.** A `MAILBOX` that has rung the
doorbell and was answered has tried to clear a flag in between if and only if none of its reads
failed after the doorbell. -/
theorem mailbox_abort {env : Env} {cfg : Config} {g : Daemon} (h : Reachable env cfg g) {r : Req}
    {o : Option Slot} {w q : List Entry} (hd : Event.dispatch r.toEntry r.body o w q ∈ g.evs)
    (hk : r.kind = some .mailbox) {c : Slot} {fd : ℕ} {type : UInt8} {st : Status} {seq : UInt32}
    {body : List UInt8} (hs : Event.send r.rid c fd type st seq body ∈ g.evs)
    {xs zs : List Access} {b : Access} (hb : b.rings = true)
    (hx : accessesFor r.agent g.evs = xs ++ b :: zs) :
    (∃ z ∈ zs, z.clears b.slice = true) ↔ ReadsOk zs :=
  ((Run.answered h.good.run hd hs).aftermath hk) xs b zs hx hb

/-- A `MAILBOX` for slice 0, with command 5 and a timeout of a millisecond. -/
def briefMailbox : List UInt8 := datagram .mailbox 0 1 [0, 5, 0, 0, 1, 0, 0, 0]

/-- The MCU does not respond in time. -/
def timedOut : Daemon :=
  run Env.ticking Config.plain
    (connects [(7, ['a'])] ++ [⟨[.client 0 briefMailbox], 64⟩, .none, .none])

/-- The theorem at a call that times out. -/
theorem mailbox_abort_timedOut :
    Reachable Env.ticking Config.plain timedOut ∧
      Event.send 0 0 0 0x86 .etimedout 1 [0, 5, 0, 0, 1, 0, 0, 0] ∈ timedOut.evs ∧
      ∃ z ∈ (accessesFor (.request 0 0) timedOut.evs).drop 6, z.clears 0 = true := by
  have hreach : Reachable Env.ticking Config.plain timedOut := Reachable.run _ _ _
  have hs : Event.send 0 0 0 0x86 .etimedout 1 [0, 5, 0, 0, 1, 0, 0, 0] ∈ timedOut.evs := by
    decide +kernel
  have hd : Event.dispatch (frameReq 0 0 briefMailbox).toEntry (frameReq 0 0 briefMailbox).body none
      [] [] ∈ timedOut.evs := by decide +kernel
  have hx : accessesFor (frameReq 0 0 briefMailbox).agent timedOut.evs =
      (accessesFor (.request 0 0) timedOut.evs).take 5 ++
        ⟨.request 0 0, true, 0, mmdGlobal, mbFlag, mbSetReq, true, none, true⟩ ::
        (accessesFor (.request 0 0) timedOut.evs).drop 6 := by decide +kernel
  refine ⟨hreach, hs, (mailbox_abort hreach hd (by decide +kernel) hs (by decide) hx).mpr ?_⟩
  unfold ReadsOk
  decide +kernel

/-- The device is cut off after the first `n` transfers. -/
def Env.failing (n : ℕ) : Env :=
  { Env.ticking with ioctl := fun k tx => if k < n then Env.ticking.ioctl k tx else none }

/-- The first poll after the doorbell fails. -/
def cutOff : Daemon :=
  run (Env.failing 10) Config.plain
    (connects [(7, ['a'])] ++ [⟨[.client 0 briefMailbox], 64⟩, .none, .none])

/-- **A failed read leaves the flags standing**: the doorbell was rung, the first poll fails, and
the call returns without a write to `MB_FLAG`. -/
theorem mailbox_abort_leaves_flag :
    Reachable (Env.failing 10) Config.plain cutOff ∧
      Event.dispatch (frameReq 0 0 briefMailbox).toEntry (frameReq 0 0 briefMailbox).body none
        [] [] ∈ cutOff.evs ∧
      (frameReq 0 0 briefMailbox).kind = some .mailbox ∧
      Event.send 0 0 0 0x86 .eio 1 [0, 5, 0, 0, 1, 0, 0, 0] ∈ cutOff.evs ∧
      ∃ xs b zs, accessesFor (frameReq 0 0 briefMailbox).agent cutOff.evs = xs ++ b :: zs ∧
        b.rings = true ∧ ¬∃ z ∈ zs, z.clears b.slice = true := by
  refine ⟨Reachable.run _ _ _, by decide +kernel, by decide +kernel, by decide +kernel,
    (accessesFor (.request 0 0) cutOff.evs).take 5,
    ⟨.request 0 0, true, 0, mmdGlobal, mbFlag, mbSetReq, true, none, true⟩,
    (accessesFor (.request 0 0) cutOff.evs).drop 6, by decide +kernel, by decide, ?_⟩
  decide +kernel

end Spid

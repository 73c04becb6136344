import SpidevProxy.Ledger
import SpidevProxy.Mcu
import SpidevProxy.Refinement

set_option relaxedAutoImplicit false
set_option autoImplicit false

/-!
# Responses of the mailbox are fresh

A mailbox call that returns `SPIPROXY_OK` hands over the response of its own command, provided that
every doorbell finds its mailbox at rest: no response waiting to be read and none outstanding. The
code does not see to that. It looks at `MB_F_BUSY` only, a call that times out leaves its command
outstanding, and one that fails on the way leaves `MB_F_RESP` set.

## Main definitions

* `Spid.Command.For` — the command was started by the call of a request, with its packet.
* `Spid.Delivered` — the MCU has responded to the command of a request, with this id and payload.
* `Spid.Fresh` — what holds of the mailboxes and the calls at work.

## Main results

* `Spid.mailbox_fresh` — a call that returns `SPIPROXY_OK` returns the response of its command.
-/

namespace Spid

open Bytes History

/-! ## Commands and responses -/

/-- The command was started by the call of `r`, and the request window began with its packet. -/
def Command.For (cmd : Command) (r : Req) : Prop :=
  cmd.agent = r.agent ∧
    (wordBytes cmd.window (wordCount r.mb.pktLen)).take r.packet.length = r.packet

section

variable {ι : Type} (inst : ℕ → ι)

/-- The mailbox that a request is about. -/
def Req.port (r : Req) : ι := inst r.mb.slice.toNat

/-- The MCU has responded to the command of `r`, with this id and payload. -/
def Delivered (hist : List (McuEvent ι)) (r : Req) (id : UInt8) (payload : List UInt8) : Prop :=
  ∃ cmd w, McuEvent.respond (r.port inst) cmd w ∈ hist ∧ cmd.For r ∧
    respOutcome r.mb.cmd (respWords w) = (.ok, id, payload)

/-- The command of `r` is the one outstanding at its mailbox, or its response is the one waiting
there. -/
def Awaits (hist : List (McuEvent ι)) (m : Mcu) (r : Req) : Prop :=
  ∃ cmd : Command, cmd.For r ∧ (m.pending = [cmd] ∧ m.ready = false ∨
    m.pending = [] ∧ m.ready = true ∧ McuEvent.respond (r.port inst) cmd m.resp ∈ hist)

/-- The first `n` words of the request window hold the packet of `r`, as far as they go. -/
def Written (m : Mcu) (r : Req) (n : ℕ) : Prop :=
  ∀ j < n, (le32 (m.window j)).take (r.packet.length - 4 * j) = (r.packet.drop (4 * j)).take 4

/-- What the mailbox and the history have to do with how far a call has come. -/
def ProgressOk (hist : List (McuEvent ι)) (m : Mcu) (r : Req) : Progress → Prop
  | .request ws => Written m r ws.length
  | .masked _ _ => Written m r (wordCount r.mb.pktLen)
  | .armed _ => Written m r (wordCount r.mb.pktLen)
  | .response ws => m.ready = true ∧ ws <+: respWords m.resp
  | .leave st id payload => st = .ok → Delivered inst hist r id payload
  | .answer st body => r.kind = some .mailbox → st = .ok →
      ∃ id payload, body = r.mbReply id payload ∧ Delivered inst hist r id payload
  | _ => True

/-- The call of `r` waits for a response or is reading it. -/
def Abs.Listens (a : Abs) (r : Req) : Prop := r ∈ a.waiting ∨ ∃ ws, a.act = .exec r (.response ws)

/-- Every call that waits for a response has its own command at the mailbox, and at most one call
waits for each mailbox. -/
structure Fresh (hist : List (McuEvent ι)) (a : Abs) (s : ι → Mcu) : Prop where
  awaits : ∀ r, a.Listens r → Awaits inst hist (s (r.port inst)) r
  unique : ∀ r r', a.Listens r → a.Listens r' → r.port inst = r'.port inst → r = r'
  progress : ∀ r p, a.act = .exec r p → ProgressOk inst hist (s (r.port inst)) r p

end

/-- A request window that holds the words of a packet holds the packet. -/
lemma Written.command {m : Mcu} {r : Req} (h : Written m r (wordCount r.mb.pktLen))
    (hr : r.inRange = true) : Command.For ⟨r.agent, m.window⟩ r := by
  refine ⟨rfl, ?_⟩
  rw [take_wordBytes h]
  apply List.take_of_length_le
  have hlen : r.packet.length ≤ 6 + r.mb.payloadLen.toNat := by
    simp [Req.packet]
    omega
  rw [wordCount, (Req.toNat_pktLen hr).1]
  omega

/-! ## Keeping the invariant -/

/-- Two states of a mailbox that a waiting call cannot tell apart. -/
def Mcu.Alike (m m' : Mcu) : Prop :=
  m'.pending = m.pending ∧ m'.ready = m.ready ∧ m'.resp = m.resp

/-- A mailbox is like itself. -/
lemma Mcu.Alike.refl (m : Mcu) : m.Alike m := ⟨rfl, rfl, rfl⟩

section

variable {ι : Type} {inst : ℕ → ι} {hist : List (McuEvent ι)} {e : McuEvent ι}
  {a a' : Abs} {s s' : ι → Mcu} {r : Req} {p : Progress} {m m' : Mcu}

/-- What was delivered stays delivered. -/
lemma Delivered.mono {id : UInt8} {payload : List UInt8} (h : Delivered inst hist r id payload)
    (es : List (McuEvent ι)) : Delivered inst (hist ++ es) r id payload := by
  obtain ⟨cmd, w, hm, h⟩ := h
  exact ⟨cmd, w, List.mem_append_left _ hm, h⟩

/-- A call goes on awaiting its response while the mailbox stays alike. -/
lemma Awaits.next (h : Awaits inst hist m r) (hm : m.Alike m') :
    Awaits inst (hist ++ [e]) m' r := by
  obtain ⟨hp, hr, hw⟩ := hm
  obtain ⟨cmd, hcmd, h | ⟨h₁, h₂, h₃⟩⟩ := h
  · exact ⟨cmd, hcmd, Or.inl ⟨hp.trans h.1, hr.trans h.2⟩⟩
  · refine ⟨cmd, hcmd, Or.inr ⟨hp.trans h₁, hr.trans h₂, List.mem_append_left _ ?_⟩⟩
    rwa [hw]

/-- A mailbox that a call waits for is not at rest. -/
lemma Awaits.not_quiet (h : Awaits inst hist m r) : m.quiet = false := by
  obtain ⟨cmd, -, h | h⟩ := h
  · simp [Mcu.quiet, h.1]
  · simp [Mcu.quiet, h.2.1]

/-- What holds for a call goes on holding when the history grows. -/
lemma ProgressOk.mono (h : ProgressOk inst hist m r p) : ProgressOk inst (hist ++ [e]) m r p := by
  cases p with
  | leave st id payload => exact fun hst => (h hst).mono _
  | answer st body =>
    intro hk hst
    obtain ⟨id, payload, hb, hd⟩ := h hk hst
    exact ⟨id, payload, hb, hd.mono _⟩
  | _ => exact h

/-- A call that fails hands nothing over. -/
lemma progressOk_leave {st : Status} (hst : st ≠ .ok) (id : UInt8) (payload : List UInt8) :
    ProgressOk inst hist m r (.leave st id payload) := fun h => absurd h hst

namespace Fresh

/-- The calls that listen listened before, and their mailboxes look the same to them. -/
lemma next (h : Fresh inst hist a s) (hl : ∀ r, a'.Listens r → a.Listens r)
    (hm : ∀ r, a'.Listens r → (s (r.port inst)).Alike (s' (r.port inst)))
    (hp : ∀ r p, a'.act = .exec r p → ProgressOk inst (hist ++ [e]) (s' (r.port inst)) r p) :
    Fresh inst (hist ++ [e]) a' s' where
  awaits r hr := (h.awaits r (hl r hr)).next (hm r hr)
  unique r r' hr hr' := h.unique r r' (hl r hr) (hl r' hr')
  progress := hp

/-- A state in which nothing is being executed. -/
lemma calm (h : Fresh inst hist a s) (hact : ∀ r p, a'.act ≠ .exec r p)
    (hw : a'.waiting = a.waiting) : Fresh inst (hist ++ [e]) a' s := by
  refine h.next (fun r hr => ?_) (fun _ _ => Mcu.Alike.refl _) fun r p h => absurd h (hact r p)
  rcases hr with hr | ⟨ws, hr⟩
  · rw [hw] at hr
    exact Or.inl hr
  · exact absurd hr (hact r _)

/-- A state in which a request is being executed that does not read a response. -/
lemma atWork (h : Fresh inst hist a s) (hact : a'.act = .exec r p)
    (hnr : ∀ ws, p ≠ .response ws) (hw : ∀ r' ∈ a'.waiting, r' ∈ a.waiting)
    (hm : ∀ r' ∈ a'.waiting, (s (r'.port inst)).Alike (s' (r'.port inst)))
    (hp : ProgressOk inst (hist ++ [e]) (s' (r.port inst)) r p) :
    Fresh inst (hist ++ [e]) a' s' := by
  have hwait : ∀ r', a'.Listens r' → r' ∈ a'.waiting := by
    rintro r' (hr | ⟨ws, hr⟩)
    · exact hr
    · rw [hact, Activity.exec.injEq] at hr
      exact absurd hr.2 (hnr ws)
  refine h.next (fun r' hr => Or.inl (hw r' (hwait r' hr))) (fun r' hr => hm r' (hwait r' hr)) ?_
  intro r' p' h'
  rw [hact, Activity.exec.injEq] at h'
  obtain ⟨rfl, rfl⟩ := h'
  exact hp

variable [DecidableEq ι]

/-- The mailboxes after a write at the port of `r`, for a call that waits elsewhere. -/
lemma alike_update (r' : Req) (hne : r'.port inst ≠ r.port inst) :
    (s (r'.port inst)).Alike (Function.update s (r.port inst) m (r'.port inst)) := by
  rw [Function.update_of_ne hne]
  exact Mcu.Alike.refl _

/-- The mailboxes after a write that the waiting calls do not see. -/
lemma alike_update_of_alike (r' : Req) (hm : (s (r.port inst)).Alike m) :
    (s (r'.port inst)).Alike (Function.update s (r.port inst) m (r'.port inst)) := by
  by_cases hne : r'.port inst = r.port inst
  · rw [hne, Function.update_self]
    exact hm
  · exact alike_update r' hne

/-- An access that does not arrive in the mailbox region, or a read. -/
lemma unseen {x : Access} (h : Fresh inst hist a s)
    (hm : McuStep inst s (.daemon (.access x)) s')
    (hx : x.write = false ∨ x.hitsMailbox = false) (hact : a'.act = .exec r p)
    (hnr : ∀ ws, p ≠ .response ws) (hw : ∀ r' ∈ a'.waiting, r' ∈ a.waiting)
    (hp : ProgressOk inst (hist ++ [e]) (s (r.port inst)) r p) :
    Fresh inst (hist ++ [e]) a' s' := by
  rw [hm.eq_of_notHit hx]
  exact h.atWork hact hnr hw (fun _ _ => Mcu.Alike.refl _) hp

end Fresh

/-- A doorbell, whether it succeeds or not, finds nobody waiting at its mailbox. -/
lemma Fresh.bell_alone {ok : Bool} [DecidableEq ι] (h : Fresh inst hist a s)
    (hr : r.inRange = true)
    (hq : quietBell inst s (.daemon (.access (a.mbAccess r true mbFlag mbSetReq ok))) = true) :
    (s (r.port inst)).quiet = true ∧ ∀ r', a.Listens r' → r'.port inst ≠ r.port inst := by
  have hquiet : (s (r.port inst)).quiet = true := by
    have ht := target_mbAccess a true mbFlag mbSetReq ok hr
    simp only [quietBell, ht, Option.all_some] at hq
    simpa [Abs.mbAccess, Abs.access, Req.port] using hq
  refine ⟨hquiet, fun r' hr' he => ?_⟩
  have hn := (h.awaits r' hr').not_quiet
  rw [he, hquiet] at hn
  exact absurd hn (by decide)

/-! ## Accesses of a mailbox call -/

variable [DecidableEq ι]

/-- A word is written to the request window. -/
lemma Written.word {ws : List UInt32} {v : UInt32} (h : Written m r ws.length)
    (hv : (le32 v).take (r.packet.length - 4 * ws.length) = (r.packet.drop (4 * ws.length)).take 4) :
    Written { m with window := Function.update m.window ws.length v } r (ws ++ [v]).length := by
  intro j hj
  rw [List.length_append, List.length_singleton] at hj
  dsimp only
  by_cases hje : j = ws.length
  · rw [hje, Function.update_self]
    exact hv
  · rw [Function.update_of_ne hje]
    exact h j (by omega)

/-- **Every access of a request keeps the invariant.**

**Proof sketch.** Case analysis of the access. An operation of another request and the reads before
the doorbell do not reach the mailbox. A word of the packet is stored in the window when it
succeeds, which is one more word of what is written. A doorbell that fails may still ring, on a
mailbox that no one listens to. A word of the response is the next one of what the MCU has put
there, and when the last has been read, clearing the flag completes the response to the command of
the call. -/
lemma Fresh.touch {x : Access} {p' : Progress} (h : Fresh inst hist a s)
    (hq : QuietStep inst s (.daemon (.access x)) s') (hact : a.act = .exec r p)
    (hr : p.ofMailbox = true → r.inRange = true) (ht : Touch a r p x p') (hnd : r ∉ a.waiting)
    (hown : ∀ ops, r.ops = some ops → x.write = false ∨ x.hitsMailbox = false) :
    Fresh inst (hist ++ [.daemon (.access x)]) { a with act := .exec r p' } s' := by
  obtain ⟨hm, hq⟩ := hq
  have hprog := h.progress r p hact
  cases ht with
  | @op ops out op val ok hops =>
    exact h.unseen hm (hown ops hops) rfl (by simp) (fun _ h => h) trivial
  | @probe v ok =>
    refine h.unseen hm (Or.inl rfl) rfl (fun ws => ?_) (fun _ h => h) ?_
    · split_ifs <;> simp
    · split_ifs
      · exact fun _ h => absurd h (by decide)
      · exact fun _ h => absurd h (by decide)
      · trivial
  | @word ws v ok hws hv =>
    have hrange := hr rfl
    have hj : ws.length < 256 := by
      obtain ⟨hlen, hmax⟩ := Req.toNat_pktLen hrange
      rw [wordCount, hlen] at hws
      omega
    rcases hm.of_write rfl (target_mbAccess _ _ _ _ _ hrange) with rfl | ⟨hok, rfl⟩
    · refine h.atWork rfl (fun ws => by split_ifs <;> simp) (fun _ h => h)
        (fun r' _ => alike_update_of_alike r' ?_) ?_
      · rw [Abs.mbAccess, Mcu.write_window _ _ _ hj]
        exact ⟨rfl, rfl, rfl⟩
      · split_ifs
        · rw [Req.port, Function.update_self, Abs.mbAccess, Mcu.write_window _ _ _ hj]
          exact hprog.word hv
        · exact progressOk_leave (by decide) _ _
    · obtain rfl : ok = false := hok
      exact h.atWork rfl (by simp) (fun _ h => h) (fun _ _ => Mcu.Alike.refl _)
        (progressOk_leave (by decide) _ _)
  | @mask ws v ok hws =>
    refine h.unseen hm (Or.inl rfl) rfl (fun ws => by split_ifs <;> simp) (fun _ h => h) ?_
    split_ifs
    · have hw : Written (s (r.port inst)) r ws.length := hprog
      rwa [hws] at hw
    · exact progressOk_leave (by decide) _ _
  | @enable ws v ok =>
    have hsame : s' = s := by
      rcases hm.of_write rfl (target_mbAccess _ _ _ _ _ (hr rfl)) with rfl | ⟨-, rfl⟩
      · exact Function.update_eq_self _ _
      · rfl
    rw [hsame]
    refine h.atWork rfl (fun ws => by split_ifs <;> simp) (fun _ h => h)
      (fun _ _ => Mcu.Alike.refl _) ?_
    split_ifs
    · exact hprog
    · exact progressOk_leave (by decide) _ _
  | @noBell ws =>
    obtain ⟨-, halone⟩ := h.bell_alone (hr rfl) hq
    refine h.atWork rfl (by simp) (fun _ h => h) (fun r' hr' => ?_)
      (progressOk_leave (by decide) _ _)
    rcases hm.of_write rfl (target_mbAccess _ _ _ _ _ (hr rfl)) with rfl | ⟨-, rfl⟩
    · exact alike_update r' (halone r' (Or.inl hr'))
    · exact Mcu.Alike.refl _
  | @fetch ws v ok hmore =>
    rw [hm.eq_of_notHit (Or.inl rfl)]
    cases ok with
    | false =>
      exact h.atWork rfl (by simp) (fun _ h => h) (fun _ _ => Mcu.Alike.refl _)
        (progressOk_leave (by decide) _ _)
    | true =>
      obtain ⟨hready, hpre⟩ := hprog
      obtain ⟨hlt, hnext⟩ := prefix_respWords_append hpre hmore
      have hv := Mcu.shows_resp (hlt.trans_le (respCount_le _))
        (hm.shows rfl rfl (target_mbAccess _ _ _ _ _ (hr rfl)))
      refine h.next (fun r' hr' => ?_) (fun _ _ => Mcu.Alike.refl _) fun r' p' h' => ?_
      · rcases hr' with hr' | ⟨ws', hr'⟩
        · exact Or.inl hr'
        · simp only [if_true, Activity.exec.injEq] at hr'
          exact Or.inr ⟨ws, hr'.1 ▸ hact⟩
      · simp only [if_true, Activity.exec.injEq] at h'
        obtain ⟨rfl, rfl⟩ := h'
        refine ⟨hready, ?_⟩
        rw [show v = _ from hv]
        exact hnext
  | @clear ws ok hmore =>
    obtain ⟨hready, hpre⟩ := hprog
    refine h.atWork rfl (by simp) (fun _ h => h) (fun r' hr' => ?_) fun hst => ?_
    · -- nobody else waits for this mailbox
      have hne : r'.port inst ≠ r.port inst := fun he =>
        hnd (h.unique r' r (Or.inl hr') (Or.inr ⟨ws, hact⟩) he ▸ hr')
      rcases hm.of_write rfl (target_mbAccess _ _ _ _ _ (hr rfl)) with rfl | ⟨-, rfl⟩
      · exact alike_update r' hne
      · exact Mcu.Alike.refl _
    · obtain ⟨cmd, hcmd, ⟨-, hn⟩ | ⟨-, -, hresp⟩⟩ := h.awaits r (Or.inr ⟨ws, hact⟩)
      · rw [hready] at hn
        exact absurd hn (by decide)
      · refine ⟨cmd, _, List.mem_append_left _ hresp, hcmd, ?_⟩
        rw [← eq_respWords hpre hmore]
        exact Prod.ext hst rfl

/-- The doorbell starts the command of the call that rings it.

**Proof sketch.** The mailbox is at rest, so no other call listens to it, and the command that the
MCU starts is the only one outstanding; its packet is what was written to the window. The calls
that listen to other mailboxes see no change. -/
lemma Fresh.bell {ws : List UInt32} (h : Fresh inst hist a s)
    (hq : QuietStep inst s (.daemon (.access (a.mbAccess r true mbFlag mbSetReq true))) s')
    (hact : a.act = .exec r (.armed ws)) (hr : r.inRange = true) :
    Fresh inst (hist ++ [.daemon (.access (a.mbAccess r true mbFlag mbSetReq true))])
      { a with waiting := r :: a.waiting, act := .idle } s' := by
  obtain ⟨hm, hq⟩ := hq
  obtain ⟨hquiet, halone⟩ := h.bell_alone hr hq
  simp only [Mcu.quiet, Bool.and_eq_true, Bool.not_eq_true', List.isEmpty_iff] at hquiet
  have hs : s' = Function.update s (r.port inst) { s (r.port inst) with
      busy := true
      pending := (s (r.port inst)).pending ++ [⟨r.agent, (s (r.port inst)).window⟩] } := by
    rcases hm.of_write rfl (target_mbAccess _ _ _ _ _ hr) with rfl | ⟨hok, -⟩
    · rfl
    · exact absurd hok (by simp [Abs.mbAccess, Abs.access])
  have hlisten : ∀ r', Abs.Listens { a with waiting := r :: a.waiting, act := .idle } r' →
      r' = r ∨ r' ≠ r ∧ a.Listens r' := by
    rintro r' (hr' | ⟨ws, hr'⟩)
    · rcases List.mem_cons.mp hr' with hr' | hr'
      · exact Or.inl hr'
      · exact or_iff_not_imp_left.mpr fun hne => ⟨hne, Or.inl hr'⟩
    · exact absurd hr' (by simp)
  refine ⟨fun r' hr' => ?_, fun r₁ r₂ h₁ h₂ he => ?_, fun r' p' h' => absurd h' (by simp)⟩
  · rcases hlisten r' hr' with rfl | ⟨-, hr'⟩
    · rw [hs, Function.update_self]
      exact ⟨_, (h.progress r' _ hact).command hr, Or.inl ⟨by rw [hquiet.2]; rfl, hquiet.1⟩⟩
    · rw [hs]
      exact (h.awaits r' hr').next (Fresh.alike_update r' (halone r' hr'))
  · rcases hlisten r₁ h₁ with rfl | ⟨-, l₁⟩ <;> rcases hlisten r₂ h₂ with rfl | ⟨-, l₂⟩
    · rfl
    · exact absurd he.symm (halone r₂ l₂)
    · exact absurd he (halone r₁ l₁)
    · exact h.unique r₁ r₂ l₁ l₂ he

/-- The end of a wait. -/
lemma Fresh.wake {x : Access} {rest : List Req} (h : Fresh inst hist a s)
    (hm : McuStep inst s (.daemon (.access x)) s') (hw : a.waiting = r :: rest)
    (hr : r.inRange = true) (hk : Wake a r x p) :
    Fresh inst (hist ++ [.daemon (.access x)]) { a with waiting := rest, act := .exec r p } s' := by
  have hsub : ∀ r' ∈ rest, r' ∈ a.waiting := fun r' h => by
    rw [hw]
    exact List.mem_cons_of_mem _ h
  cases hk with
  | fail => exact h.unseen hm (Or.inl rfl) rfl (by simp) hsub (progressOk_leave (by decide) _ _)
  | @resp v hv =>
    have hready := Mcu.shows_flag (hm.shows rfl rfl (target_mbAccess _ _ _ _ _ hr))
    rw [hm.eq_of_notHit (Or.inl rfl)]
    refine h.next (fun r' hr' => ?_) (fun _ _ => Mcu.Alike.refl _) fun r' p' h' => ?_
    · left
      rcases hr' with hr' | ⟨ws, hr'⟩
      · exact hsub r' hr'
      · simp only [Activity.exec.injEq] at hr'
        rw [hw, hr'.1]
        exact List.mem_cons_self
    · simp only [Activity.exec.injEq] at h'
      obtain ⟨rfl, rfl⟩ := h'
      exact ⟨hready.symm.trans (decide_eq_true hv), List.nil_prefix⟩
  | @timeout ok =>
    refine h.atWork rfl (by simp) hsub (fun r' _ => ?_) (progressOk_leave (by decide) _ _)
    rcases hm.of_write rfl (target_mbAccess _ _ _ _ _ hr) with rfl | ⟨-, rfl⟩
    · exact Fresh.alike_update_of_alike r' ⟨rfl, rfl, rfl⟩
    · exact Mcu.Alike.refl _

/-- The MCU responds: to the one command outstanding, if a call waits for it.

**Proof sketch.** A call that listens to this mailbox has one command outstanding, which must be
the one responded to: now its response is there. No call is reading a response here, for its
command would not be outstanding any more; all else is the same. -/
lemma Fresh.respond {i : ι} {cmd : Command} {w : ℕ → UInt32} (h : Fresh inst hist a s)
    (hm : McuStep inst s (.respond i cmd w) s') :
    Fresh inst (hist ++ [.respond i cmd w]) a s' := by
  cases hm with
  | @respond _ _ pre post _ hpend =>
    -- a call that waits here waits for this very command
    have hcmd : ∀ r, a.Listens r → r.port inst = i → cmd.For r ∧ pre ++ post = [] := by
      intro r hr hi
      obtain ⟨cmd', hfor, h₁ | h₂⟩ := h.awaits r hr
      · rw [hi, hpend, List.append_eq_singleton_iff] at h₁
        obtain ⟨rfl, hc⟩ | ⟨-, hc⟩ := h₁.1
        · rw [List.cons.injEq] at hc
          exact ⟨hc.1 ▸ hfor, by rw [hc.2, List.append_nil]⟩
        · exact absurd hc (by simp)
      · rw [hi, hpend] at h₂
        exact absurd h₂.1 (by simp)
    refine ⟨fun r hr => ?_, h.unique, fun r p hact => ?_⟩
    · by_cases hi : r.port inst = i
      · obtain ⟨hfor, hnil⟩ := hcmd r hr hi
        rw [hi, Function.update_self]
        exact ⟨cmd, hfor, Or.inr ⟨hnil, rfl, by rw [hi]; simp⟩⟩
      · rw [Function.update_of_ne hi]
        exact (h.awaits r hr).next (Mcu.Alike.refl _)
    · have hp := h.progress r p hact
      by_cases hi : r.port inst = i
      · rw [hi, Function.update_self]
        rw [hi] at hp
        cases p with
        | response ws =>
          -- no response comes while one is being read
          obtain ⟨cmd', -, ⟨-, hn⟩ | ⟨hn, -⟩⟩ := h.awaits r (Or.inr ⟨ws, hact⟩)
          · rw [hi, hp.1] at hn
            exact absurd hn (by decide)
          · rw [hi, hpend] at hn
            exact absurd hn (by simp)
        | request ws => exact hp
        | masked ws v => exact hp
        | armed ws => exact hp
        | leave st id payload => exact ProgressOk.mono (p := .leave st id payload) hp
        | answer st body => exact ProgressOk.mono (p := .answer st body) hp
        | ops out st => trivial
        | checked => trivial
      · rw [Function.update_of_ne hi]
        exact hp.mono

/-- **Every event of the daemon keeps the invariant**, if only mailbox calls write to the mailbox
region.

**Proof sketch.** Case analysis of the step. Events other than accesses do not reach the MCUs,
accesses of cleanup lists and of other requests do not write to the mailbox region by assumption,
and the accesses of the call are `Fresh.touch`, `Fresh.bell` and `Fresh.wake`. -/
lemma Fresh.step {es : List Event} {rst : Bool} {ev : Event} (h : Fresh inst hist a s)
    (hb : Basics a) (hl : Ledger es a) (hs : Step rst a ev a')
    (hq : QuietStep inst s (.daemon ev) s')
    (hown : ∀ x, ev = .access x → x.write = true → x.hitsMailbox = true →
      ∃ r ∈ a.executing, r.kind = some .mailbox ∧ r.agent = x.agent) :
    Fresh inst (hist ++ [.daemon ev]) a' s' := by
  have hother : (∀ x, ev ≠ .access x) → s' = s := fun he => hq.1.eq_of_other he
  have hrange : ∀ r ∈ a.waiting, r.inRange = true := fun r hr => (hb.waiting r hr).inRange
  -- the writes of other requests and of cleanup lists stay outside the region
  have hforeign : ∀ x, ev = .access x → (∀ r ∈ a.executing, r.agent = x.agent →
      r.kind ≠ some .mailbox) → x.write = false ∨ x.hitsMailbox = false := by
    intro x hx hno
    by_contra hne
    rw [not_or, Bool.not_eq_false, Bool.not_eq_false] at hne
    obtain ⟨r, hr, hk, hag⟩ := hown x hx hne.1 hne.2
    exact hno r hr hag hk
  cases hs with
  | note hn =>
    rw [hother (by rintro x rfl; simp [Event.isNote] at hn)]
    exact h.next (fun _ h => h) (fun _ _ => Mcu.Alike.refl _) fun r p hact =>
      (h.progress r p hact).mono
  | connect hact _ _ =>
    rw [hother (by simp)]
    exact h.calm (by simp [hact]) rfl
  | disconnect hact _ _ _ =>
    rw [hother (by simp)]
    exact h.calm (by simp [hact]) rfl
  | recv _ _ _ _ =>
    rw [hother (by simp)]
    exact h.calm (by simp) rfl
  | reject _ _ _ =>
    rw [hother (by simp)]
    exact h.calm (by simp) rfl
  | enqueue _ _ =>
    rw [hother (by simp)]
    exact h.calm (by simp) rfl
  | claimEnd _ _ _ _ =>
    rw [hother (by simp)]
    exact h.calm (Abs.cleaning_notExec _ _ _ _) (Abs.cleaning_waiting _ _ _ _)
  | cleanupAccess hact _ _ =>
    rw [hq.1.eq_of_notHit (hforeign _ rfl fun r _ hag => by simp [Req.agent, Abs.access] at hag)]
    exact h.calm (Abs.cleaning_notExec _ _ _ _) (Abs.cleaning_waiting _ _ _ _)
  | cleanupRefused hact _ =>
    rw [hother (by simp)]
    exact h.calm (Abs.cleaning_notExec _ _ _ _) (Abs.cleaning_waiting _ _ _ _)
  | dispatch hact _ _ _ _ =>
    rw [hother (by simp)]
    exact h.atWork rfl (by simp) (fun _ h => h) (fun _ _ => Mcu.Alike.refl _) trivial
  | @access r p p' x hact ht =>
    refine h.touch hq hact (fun hp => (hb.exec _ _ hact hp).inRange) ht (hl.notMem_waiting hact) ?_
    intro ops hops
    refine hforeign x rfl fun r' hr' hag hk => ?_
    have hrr : r' = r := by
      refine hl.live_inj (List.mem_append_left _ hr')
        (List.mem_append_left _ (Abs.mem_executing.mpr (Or.inr ⟨p, hact⟩))) ?_
      rw [ht.agent.1] at hag
      simp only [Req.agent, Agent.request.injEq] at hag
      exact hag.1
    rw [hrr] at hk
    simp [Req.ops, hk] at hops
  | doorbell hact => exact h.bell hq hact (hb.exec _ _ hact rfl).inRange
  | poll _ _ _ =>
    rw [hq.1.eq_of_notHit (Or.inl rfl)]
    exact h.next (fun _ h => h) (fun _ _ => Mcu.Alike.refl _) fun r p hact =>
      (h.progress r p hact).mono
  | wake _ hw hk =>
    exact h.wake hq.1 hw (hrange _ (by rw [hw]; exact List.mem_cons_self)) hk
  | refused _ _ _ _ _ =>
    rw [hother (by simp)]
    exact h.atWork rfl (by simp) (fun _ h => h) (fun _ _ => Mcu.Alike.refl _) trivial
  | mbSet _ =>
    rw [hother (by simp)]
    exact h.atWork rfl (by simp) (fun _ h => h) (fun _ _ => Mcu.Alike.refl _)
      fun j hj => absurd hj (by simp)
  | @mbClear r st cmd payload hact =>
    rw [hother (by simp)]
    exact h.atWork rfl (by simp) (fun _ h => h) (fun _ _ => Mcu.Alike.refl _)
      fun _ hst => ⟨cmd, payload, rfl, Delivered.mono (h.progress r _ hact hst) _⟩
  | grant _ hk _ _ =>
    rw [hother (by simp)]
    exact h.atWork rfl (by simp) (fun _ h => h) (fun _ _ => Mcu.Alike.refl _)
      fun hk' => by simp [hk] at hk'
  | release _ hk _ =>
    rw [hother (by simp)]
    exact h.atWork rfl (by simp) (fun _ h => h) (fun _ _ => Mcu.Alike.refl _)
      fun hk' => by simp [hk] at hk'
  | reset _ hk _ _ =>
    rw [hother (by simp)]
    exact h.atWork rfl (by simp) (fun _ h => h) (fun _ _ => Mcu.Alike.refl _)
      fun hk' => by simp [hk] at hk'
  | send _ _ _ =>
    rw [hother (by simp)]
    exact h.calm (by simp) rfl

/-! ## Whole runs -/

/-- Only mailbox calls write to the mailbox region. -/
def MailboxOnly (es : List Event) : Prop :=
  ∀ x, Event.access x ∈ es → x.write = true → x.hitsMailbox = true →
    ∃ r o w q, Event.dispatch (Req.toEntry r) r.body o w q ∈ es ∧ r.agent = x.agent ∧
      r.kind = some .mailbox

omit [DecidableEq ι] in
/-- The daemon's part of a history, up to some point. -/
lemma daemonPart_mono {fs : List (McuEvent ι)} (h : fs <+: hist) :
    fs.filterMap McuEvent.daemon? <+: hist.filterMap McuEvent.daemon? := by
  obtain ⟨gs, rfl⟩ := h
  rw [List.filterMap_append]
  exact List.prefix_append _ _

/-- The invariant holds at every point of a run of the daemon next to the device.

**Proof sketch.** Induction on the joint history. A response is `Fresh.respond`, an event of the
daemon `Fresh.step`; the agent of a write to the region is the mailbox call at work, since a
request number is dispatched once. -/
lemma Fresh.run {rst : Bool} {es : List Event} {s₀ : ι → Mcu} (hr : Run rst es a)
    (hf : hist.filterMap McuEvent.daemon? = es) (hown : MailboxOnly es)
    {fs : List (McuEvent ι)} {q : Abs × (ι → Mcu)}
    (h : Steps (Joint (Step rst) (QuietStep inst) McuEvent.daemon?) (Abs.init, s₀) fs q) :
    fs <+: hist → Fresh inst fs q.1 q.2 := by
  refine Steps.invariant (P := fun fs q => fs <+: hist → Fresh inst fs q.1 q.2) (fun _ => ?_)
    (fun fs q e q' hq hi hs hpre => ?_) h
  · constructor <;> simp [Abs.Listens, Abs.init]
  · have hfresh := hi ((List.prefix_append _ _).trans hpre)
    obtain ⟨hmcu, hstep⟩ := hs
    cases e with
    | respond i cmd w =>
      have hsame : q'.1 = q.1 := hstep
      rw [hsame]
      exact hfresh.respond hmcu.1
    | daemon ev =>
      have hrun : Run rst (fs.filterMap McuEvent.daemon?) q.1 := hq.joint_left
      have hstep : Step rst q.1 ev q'.1 := hstep
      have hpre' := daemonPart_mono hpre
      rw [List.filterMap_append, hf] at hpre'
      refine hfresh.step (Run.basics hrun) (Run.ledger hrun) hstep hmcu fun x hx hw hhit => ?_
      -- the call that the region is left to is the one at work
      subst hx
      have hmem : Event.access x ∈ es :=
        hpre'.subset (List.mem_append_right _ (by simp [McuEvent.daemon?]))
      obtain ⟨r, o, w, qs, hd, hag, hk⟩ := hown x hmem hw hhit
      obtain ⟨r', hex, -, hrid, -⟩ := hstep.executing_of_access (Run.basics hrun) hag.symm
      obtain ⟨o', w', qs', hd'⟩ := (Run.ledger hrun).executing r' hex
      obtain rfl := (Run.ledger hr).dispatch_unique hd
        (hpre'.subset (List.mem_append_left _ hd')) hrid.symm
      exact ⟨r, hex, hk, hag⟩

end

/-- **Responses are fresh.** Next to an MCU that behaves as assumed, if every doorbell finds its
mailbox at rest and only mailbox calls write to the mailbox region, a `MAILBOX` answered with
`SPIPROXY_OK` returns the id and the payload of the MCU's response to the command that its own call
started with its own packet.

**Proof sketch.** Take the joint history up to the answer. The request that is answered is the one
dispatched, and its progress is an answer with `SPIPROXY_OK`, about which the invariant
(`Fresh.run`) says that the response was delivered. -/
theorem mailbox_fresh {env : Env} {cfg : Config} {g : Daemon} {ι : Type} [DecidableEq ι]
    (inst : ℕ → ι) {s₀ s : ι → Mcu} {hist : List (McuEvent ι)} (h : Reachable env cfg g)
    (hm : Steps (QuietStep inst) s₀ hist s) (hf : hist.filterMap McuEvent.daemon? = g.evs)
    (hown : MailboxOnly g.evs) {r : Req} {o : Option Slot} {w q : List Entry} {c : Slot} {fd : ℕ}
    {type : UInt8} {seq : UInt32} {body : List UInt8}
    (hd : Event.dispatch r.toEntry r.body o w q ∈ g.evs) (hk : r.kind = some .mailbox)
    (hs : Event.send r.rid c fd type .ok seq body ∈ g.evs) :
    ∃ id payload, body = r.mbReply id payload ∧ Delivered inst hist r id payload := by
  have hrun := h.good.run
  have hjoint := hrun.joint hm hf
  obtain ⟨e, he, hse⟩ := List.mem_filterMap.mp (hf ▸ hs)
  obtain ⟨pre, post, rfl⟩ := List.append_of_mem he
  obtain ⟨p, p', hpre, hstep, -⟩ := hjoint.split_cons
  have hfresh := Fresh.run hrun hf hown hpre (List.prefix_append _ _)
  have hprun : Run cfg.rst (pre.filterMap McuEvent.daemon?) p.1 := hpre.joint_left
  cases e with
  | respond i cmd w => simp [McuEvent.daemon?] at hse
  | daemon ev =>
    simp only [McuEvent.daemon?, Option.some.injEq] at hse
    subst hse
    have hstep : Step cfg.rst p.1 (.send r.rid c fd type .ok seq body) p'.1 := hstep.2
    obtain ⟨-, ⟨msg, -, hst, -⟩ | ⟨r', pr, hact, hrid, -, -, -, hans⟩⟩ := hstep.send_inv
    · split_ifs at hst
    · have hsub : pre.filterMap McuEvent.daemon? ⊆ g.evs := by
        rw [← hf]
        exact (daemonPart_mono (List.prefix_append _ _)).subset
      obtain ⟨o', w', q', hd'⟩ := (Run.ledger hprun).executing r'
        (Abs.mem_executing.mpr (Or.inr ⟨pr, hact⟩))
      obtain rfl := (Run.ledger hrun).dispatch_unique hd (hsub hd') hrid.symm
      have hprog := hfresh.progress r pr hact
      obtain rfl := hans.mailbox_ok hk
      obtain ⟨id, payload, hb, hdel⟩ := hprog hk rfl
      exact ⟨id, payload, hb, hdel.mono _⟩

/-- The data window of a receive buffer that shows `v`. -/
def rxOfWord (v : UInt32) : Rx := fun i =>
  if i = 3 then (v >>> 24).toUInt8 else if i = 4 then (v >>> 16).toUInt8
  else if i = 5 then (v >>> 8).toUInt8 else v.toUInt8

/-- A device whose `k`-th transfer shows the word `v k`, and a clock that moves on by a second at
each reading. -/
def Env.script (v : ℕ → UInt32) : Env where
  ioctl := fun k _ => some (rxOfWord (v k))
  clock := fun k => 1000000 * UInt64.ofNat k
  send := fun _ => true
  pkt := fun _ => Block.zero _

/-- The response packet with id 5 and no payload, word by word. -/
def echo : ℕ → UInt32 := fun j => if j = 0 then 0x0006ff05 else if j = 1 then 0x5d40 else 0

/-- A `MAILBOX` for slice 0, with a timeout of a millisecond. -/
def mailboxMsg (seq : UInt32) (cmd : UInt8) : List UInt8 :=
  datagram .mailbox 0 seq [0, cmd, 0, 0, 1, 0, 0, 0]

/-- A `MAILBOX` with command 5 is sent, and the MCU responds at once. -/
def promptResponse : Daemon :=
  run (Env.script fun k =>
      if k = 11 then 2 else if k = 13 then echo 0 else if k = 15 then echo 1 else 0)
    Config.plain
    (connects [(7, ['a'])] ++ [⟨[.client 0 (mailboxMsg 1 5)], 64⟩, .none, .none])

/-- Whether all register accesses of a history are made for one of the given agents. -/
def onlyFor (ags : List Agent) (es : List Event) : Bool :=
  es.all fun
    | .access x => x.agent ∈ ags
    | _ => true

/-- A history with accesses for mailbox calls only. -/
lemma mailboxOnly_of_onlyFor {es : List Event} (rs : List Req)
    (h : onlyFor (rs.map Req.agent) es = true)
    (hrs : ∀ r ∈ rs, r.kind = some .mailbox ∧
      ∃ o w q, Event.dispatch r.toEntry r.body o w q ∈ es) : MailboxOnly es := by
  intro x hx _ _
  have hag : x.agent ∈ rs.map Req.agent := of_decide_eq_true (List.all_eq_true.mp h _ hx)
  obtain ⟨r, hr, hag⟩ := List.mem_map.mp hag
  obtain ⟨hk, o, w, q, hd⟩ := hrs r hr
  exact ⟨r, o, w, q, hd, hag, hk⟩

/-- The theorem at a run in which the MCU responds at once. -/
theorem mailbox_fresh_promptResponse :
    ∃ hist s, Steps (QuietStep id) (fun _ => Mcu.fresh) hist s ∧
      hist.filterMap McuEvent.daemon? = promptResponse.evs ∧ MailboxOnly promptResponse.evs ∧
      ∃ i payload, [0, 5, 0, 0, 1, 0, 0, 0] = (frameReq 0 0 (mailboxMsg 1 5)).mbReply i payload ∧
        Delivered id hist (frameReq 0 0 (mailboxMsg 1 5)) i payload := by
  obtain ⟨cmd, s, -, hsteps⟩ := steps_of_responded id true (fun _ => Mcu.fresh)
    (promptResponse.evs.take 11) (promptResponse.evs.drop 11) 0 (.request 0 0) echo
    (by decide +kernel) (by decide +kernel) (by decide +kernel)
  have hq := Steps.mono (fun _ _ _ h => (⟨h.1, h.2 rfl⟩ : QuietStep id _ _ _)) hsteps
  have hf := daemonPart_responded (promptResponse.evs.take 11) (promptResponse.evs.drop 11) 0 cmd echo
  rw [List.take_append_drop] at hf
  have hd : Event.dispatch (frameReq 0 0 (mailboxMsg 1 5)).toEntry
      (frameReq 0 0 (mailboxMsg 1 5)).body none [] [] ∈ promptResponse.evs := by decide +kernel
  have hown : MailboxOnly promptResponse.evs := by
    refine mailboxOnly_of_onlyFor [frameReq 0 0 (mailboxMsg 1 5)] (by decide +kernel) ?_
    intro r hr
    obtain rfl := List.mem_singleton.mp hr
    exact ⟨by decide +kernel, none, [], [], hd⟩
  exact ⟨_, s, hq, hf, hown, mailbox_fresh id (Reachable.run _ _ _) hq hf hown hd (by decide +kernel)
    (show Event.send 0 0 0 0x86 .ok 1 [0, 5, 0, 0, 1, 0, 0, 0] ∈ promptResponse.evs by
      decide +kernel)⟩

/-- A `MAILBOX` with command 5 is sent, and one with command 6 when it has timed out. The response to
the first comes after that. -/
def lateResponse : Daemon :=
  run (Env.script fun k => if k = 11 then 1 else if k = 14 then 2 else if k = 22 then 3
      else if k = 24 then echo 0 else if k = 26 then echo 1 else 0)
    Config.plain
    (connects [(7, ['a'])] ++ [⟨[.client 0 (mailboxMsg 1 5)], 64⟩, .none, .none, .none,
      ⟨[.client 0 (mailboxMsg 2 6)], 64⟩, .none, .none])

/-- **A stale response is handed over**: the first call times out and clears `MB_F_BUSY` only, the
MCU responds to it afterwards, and the second call returns that response with `SPIPROXY_OK`,
although the MCU never responds to its own command. -/
theorem mailbox_not_fresh :
    (∃ env, Reachable env Config.plain lateResponse) ∧ ∃ hist s,
      Steps (McuStep id) (fun _ => Mcu.fresh) hist s ∧
      hist.filterMap McuEvent.daemon? = lateResponse.evs ∧ MailboxOnly lateResponse.evs ∧
      (frameReq 1 0 (mailboxMsg 2 6)).kind = some .mailbox ∧
      Event.dispatch (frameReq 1 0 (mailboxMsg 2 6)).toEntry (frameReq 1 0 (mailboxMsg 2 6)).body
        none [] [] ∈ lateResponse.evs ∧
      Event.send 1 0 0 0x86 .ok 2 [0, 5, 0, 0, 1, 0, 0, 0] ∈ lateResponse.evs ∧
      ¬∃ i payload, [0, 5, 0, 0, 1, 0, 0, 0] = (frameReq 1 0 (mailboxMsg 2 6)).mbReply i payload ∧
        Delivered id hist (frameReq 1 0 (mailboxMsg 2 6)) i payload := by
  obtain ⟨cmd, s, hag, hsteps⟩ := steps_of_responded id false (fun _ => Mcu.fresh)
    (lateResponse.evs.take 17) (lateResponse.evs.drop 17) 0 (.request 0 0) echo
    (by decide +kernel) (by decide +kernel) (by decide +kernel)
  have hf := daemonPart_responded (lateResponse.evs.take 17) (lateResponse.evs.drop 17) 0 cmd echo
  rw [List.take_append_drop] at hf
  refine ⟨⟨_, Reachable.run _ _ _⟩, _, s, hsteps.mono fun _ _ _ h => h.1, hf, ?_, by decide +kernel,
    by decide +kernel, by decide +kernel, ?_⟩
  · refine mailboxOnly_of_onlyFor [frameReq 0 0 (mailboxMsg 1 5), frameReq 1 0 (mailboxMsg 2 6)]
      (by decide +kernel) ?_
    intro r hr
    rcases List.mem_cons.mp hr with rfl | hr
    · exact ⟨by decide +kernel, none, [], [], by decide +kernel⟩
    · obtain rfl := List.mem_singleton.mp hr
      exact ⟨by decide +kernel, none, [], [], by decide +kernel⟩
  · rintro ⟨i, payload, -, cmd', w, hmem, hfor, -⟩
    rw [Command.For, respond_mem_responded hmem, hag] at hfor
    exact absurd hfor.1 (by decide)

end Spid

import SpidevProxy.Bus
import SpidevProxy.OpCount

set_option relaxedAutoImplicit false
set_option autoImplicit false

/-!
# The counters tell the history

`STATS` reports how many registers were read and written, how many accesses failed, how many warnings
were given, and for each client how many messages it sent, how many operations it had executed and how
many answers to it were lost. In every state these counters are what one can count in the history of the
run, modulo `2 ^ 64`: no event is forgotten, none is counted twice, and the counters of a slot start again
with each connection.

## Main definitions

* `Spid.Tally` — the counts of a history, without an upper bound.
* `Spid.Counters`, `Spid.Daemon.counters` — the counters of the daemon.

## Main results

* `Spid.RegDeed.accounted`, `Spid.Deed.accounted` — every deed counts what it adds to the history.
* `Spid.counters_tell_history` — the counters are the counts of the history.
-/

namespace Spid

/-! ## Counting a history -/

/-- The counts of a history: reads and writes that succeeded, accesses that failed, warnings, answers,
and for each slot the well-formed datagrams and the lost answers since it was last connected. -/
structure Tally where
  reads : ℕ
  writes : ℕ
  ioErr : ℕ
  warns : ℕ
  sends : ℕ
  msgs : Slot → ℕ
  errs : Slot → ℕ

/-- One more event; `env.send k` tells whether answer number `k` of the run was delivered. -/
def Tally.add (env : Env) (t : Tally) : Event → Tally
  | .access x =>
    if !x.ok then { t with ioErr := t.ioErr + 1 }
    else if x.write then { t with writes := t.writes + 1 }
    else { t with reads := t.reads + 1 }
  | .warn _ => { t with warns := t.warns + 1 }
  | .recv _ c _ msg =>
    if frameOk msg then { t with msgs := Function.update t.msgs c (t.msgs c + 1) } else t
  | .send _ c _ _ _ _ _ =>
    { t with
      sends := t.sends + 1
      errs := if env.send t.sends then t.errs else Function.update t.errs c (t.errs c + 1) }
  | .connect c _ =>
    { t with msgs := Function.update t.msgs c 0, errs := Function.update t.errs c 0 }
  | _ => t

/-- The counts when the main loop begins: `DEVICE_ID` has been read once, or not. -/
def Tally.start (env : Env) (cfg : Config) : Tally :=
  let ok := (spiReadReg (busAt env) cfg.pad cfg.deviceIdReg 0 0 mmdGlobal cfg.deviceIdReg).1.isSome
  ⟨if ok then 1 else 0, 0, if ok then 0 else 1, 0, 0, fun _ => 0, fun _ => 0⟩

/-- The counts of a history. -/
def tally (env : Env) (cfg : Config) (es : List Event) : Tally :=
  es.foldl (Tally.add env) (Tally.start env cfg)

/-! ## The counters of the daemon -/

/-- `g.n_reads`, `g.n_writes`, `g.n_io_err`, `g.n_warns`, and `n_msgs` and `n_err` of the slots. -/
@[ext] structure Counters where
  reads : UInt64
  writes : UInt64
  ioErr : UInt64
  warns : UInt64
  msgs : Slot → UInt64
  errs : Slot → UInt64

/-- The counters of the daemon. -/
def Daemon.counters (g : Daemon) : Counters :=
  ⟨g.io.nReads, g.io.nWrites, g.io.nIoErr, g.io.lint.nWarns, fun c => (g.cl c).nMsgs,
    fun c => (g.cl c).nErr⟩

/-- The counts as they appear in 64 bits. -/
def Tally.counters (t : Tally) : Counters :=
  ⟨UInt64.ofNat t.reads, UInt64.ofNat t.writes, UInt64.ofNat t.ioErr, UInt64.ofNat t.warns,
    fun c => UInt64.ofNat (t.msgs c), fun c => UInt64.ofNat (t.errs c)⟩

/-- What an event does to the counters. -/
def Counters.bump (delivered : Bool) (k : Counters) : Event → Counters
  | .access x =>
    if !x.ok then { k with ioErr := k.ioErr + 1 }
    else if x.write then { k with writes := k.writes + 1 }
    else { k with reads := k.reads + 1 }
  | .warn _ => { k with warns := k.warns + 1 }
  | .recv _ c _ msg =>
    if frameOk msg then { k with msgs := Function.update k.msgs c (k.msgs c + 1) } else k
  | .send _ c _ _ _ _ _ =>
    { k with errs := if delivered then k.errs else Function.update k.errs c (k.errs c + 1) }
  | .connect c _ =>
    { k with msgs := Function.update k.msgs c 0, errs := Function.update k.errs c 0 }
  | _ => k

/-- The number of answers that an event is. -/
def Event.answers : Event → ℕ
  | .send _ _ _ _ _ _ _ => 1
  | _ => 0

section

variable {env : Env} {cfg : Config}

/-- The counts of a history that is continued by one event. -/
lemma tally_snoc (es : List Event) (e : Event) :
    tally env cfg (es ++ [e]) = (tally env cfg es).add env e := by
  rw [tally, List.foldl_append]
  rfl

/-- Changing one count, in 64 bits. -/
lemma ofNat_update (f : Slot → ℕ) (c : Slot) (n : ℕ) :
    (fun d => UInt64.ofNat (Function.update f c n d)) =
      Function.update (fun d => UInt64.ofNat (f d)) c (UInt64.ofNat n) := by
  funext d
  by_cases hd : d = c
  · subst hd
    simp
  · simp [hd]

variable (env) in
/-- The counts of a history, in 64 bits, are counted in 64 bits. -/
lemma Tally.counters_add (t : Tally) (e : Event) :
    (t.add env e).counters = t.counters.bump (env.send t.sends) e ∧
      (t.add env e).sends = t.sends + e.answers := by
  have hsucc : ∀ n, UInt64.ofNat (n + 1) = UInt64.ofNat n + 1 := fun n => UInt64.ofNat_add n 1
  cases e with
  | access x =>
    simp only [add, Counters.bump, Event.answers]
    split_ifs <;> exact ⟨by simp [counters, hsucc], rfl⟩
  | warn w => exact ⟨by simp [add, Counters.bump, counters, hsucc], rfl⟩
  | recv rid c fd msg =>
    simp only [add, Counters.bump, Event.answers]
    split_ifs
    · exact ⟨by simp only [counters, ofNat_update, hsucc], rfl⟩
    · exact ⟨rfl, rfl⟩
  | send rid c fd type st seq body =>
    refine ⟨?_, rfl⟩
    simp only [add, Counters.bump]
    split_ifs
    · rfl
    · simp only [counters, ofNat_update, hsucc]
  | connect c fd =>
    refine ⟨?_, rfl⟩
    simp only [add, Counters.bump, counters, ofNat_update]
    rfl
  | _ => exact ⟨rfl, rfl⟩

/-! ## Deeds -/

/-- `g'` is `g` after the event `e`, which has been counted. -/
structure Counts (env : Env) (g : Daemon) (e : Event) (g' : Daemon) : Prop where
  evs : g'.evs = g.evs ++ [e]
  counters : g'.counters = g.counters.bump (env.send g.io.nSend) e
  sends : g'.io.nSend = g.io.nSend + e.answers

/-- A slot is replaced. -/
lemma counters_setClient (g : Daemon) (c : Slot) (x : Client) : (g.setClient c x).counters =
    { g.counters with
      msgs := Function.update g.counters.msgs c x.nMsgs
      errs := Function.update g.counters.errs c x.nErr } := by
  refine Counters.ext rfl rfl rfl rfl (funext fun d => ?_) (funext fun d => ?_)
  all_goals
    by_cases hd : d = c
    · subst hd
      simp [Daemon.counters, Daemon.setClient]
    · simp [Daemon.counters, Daemon.setClient, hd]

/-- A write is counted. -/
lemma counts_write (g : Daemon) (agent : Agent) (slice mmd : UInt8) (reg : UInt16) (val : UInt32) :
    ∃ e, Counts env g e (regWrite env g agent slice mmd reg val).2 := by
  refine ⟨_, (extends_regWrite env g agent slice mmd reg val).2, ?_, ?_⟩
  all_goals
    unfold regWrite
    simp only [Counters.bump, Event.answers]
    generalize (spiWriteReg (busXfer env) g.io slice mmd reg val).1 = ok
    cases ok <;> rfl

/-- A read is counted. -/
lemma counts_read (g : Daemon) (agent : Agent) (slice mmd : UInt8) (reg : UInt16) (old : UInt32) :
    ∃ e, Counts env g e (regRead env cfg g agent slice mmd reg old).2.2 := by
  refine ⟨_, (extends_regRead env cfg g agent slice mmd reg old).2, ?_, ?_⟩
  all_goals
    obtain ⟨n, hn⟩ := spiReadReg_io env cfg g.io slice mmd reg
    unfold regRead
    simp only [Counters.bump, Event.answers, hn]
    generalize (spiReadReg (busXfer env) cfg.pad cfg.deviceIdReg g.io slice mmd reg).1 = v
    cases v <;> rfl

/-- An answer is counted. -/
lemma counts_send (g : Daemon) (rid : ℕ) (c : Slot) (req : Hdr) (st : Status) (body : List UInt8) :
    ∃ e, Counts env g e (sendResp env g rid c req st body) := by
  refine ⟨_, (sendResp_spec env g rid c req st body).1, ?_, ?_⟩
  · unfold sendResp
    simp only [Counters.bump]
    split_ifs
    · rfl
    · rw [counters_setClient]
      refine Counters.ext rfl rfl rfl rfl ?_ rfl
      exact Function.update_eq_self c _
  · unfold sendResp
    dsimp only
    split_ifs <;> rfl

/-- A well-formed datagram is counted. -/
lemma counts_receive (g : Daemon) (c : Slot) (msg : List UInt8) :
    ∃ e, Counts env g e (receive g c msg) := by
  refine ⟨.recv g.nRecv c (g.cl c).fd msg, ?_, ?_, ?_⟩
  all_goals
    unfold receive
    dsimp only
  · split_ifs <;> rfl
  · simp only [Counters.bump]
    split_ifs
    · rw [counters_setClient]
      refine Counters.ext rfl rfl rfl rfl rfl ?_
      exact Function.update_eq_self c _
    · rfl
  · split_ifs <;> rfl

/-- A new connection has nothing counted, unless every slot is taken. -/
lemma counts_accept (g : Daemon) (pid : ℤ) (line : Text) :
    acceptClient g pid line = g ∨ ∃ e, Counts env g e (acceptClient g pid line) := by
  unfold acceptClient
  split
  · exact Or.inl rfl
  · rename_i c _
    refine Or.inr ⟨.connect c g.nConn, rfl, ?_, rfl⟩
    exact counters_setClient g c _

/-- `g'` is `g` after something that is not counted, or after an event that is. -/
def Accounted (env : Env) (g g' : Daemon) : Prop :=
  (g'.evs = g.evs ∧ g'.counters = g.counters ∧ g'.io.nSend = g.io.nSend) ∨ ∃ e, Counts env g e g'

/-- **Every deed of register work counts what it adds to the history.** -/
lemma RegDeed.accounted {ag : Agent} {g g' : Daemon} (h : RegDeed env cfg ag g g') :
    Accounted env g g' := by
  cases h with
  | write slice mmd reg val => exact Or.inr (counts_write g ag slice mmd reg val)
  | read slice mmd reg old => exact Or.inr (counts_read g ag slice mmd reg old)
  | refuse op st => exact Or.inr ⟨.refused ag op st, rfl, rfl, rfl⟩
  | @line l hc hs => exact Or.inr ⟨.opLine ag l, rfl, rfl, rfl⟩
  | lint h =>
    cases h with
    | warn w => exact Or.inr ⟨.warn w, rfl, rfl, rfl⟩
    | write hl => exact Or.inl ⟨rfl, Counters.ext rfl rfl rfl hl rfl rfl, rfl⟩
  | trace c op => exact Or.inl ⟨rfl, rfl, rfl⟩
  | clock => exact Or.inl ⟨rfl, rfl, rfl⟩
  | packet => exact Or.inl ⟨rfl, rfl, rfl⟩
  | set rid c was => exact Or.inr ⟨.mbSet rid c was, rfl, rfl, rfl⟩
  | leave x => exact Or.inr ⟨.mbClear x.rid x.c, rfl, rfl, rfl⟩
  | body it b => exact Or.inl ⟨rfl, rfl, rfl⟩

/-- A slot that keeps its counts. -/
lemma counters_setClient_of_eq {g : Daemon} {c : Slot} {x : Client} (hm : x.nMsgs = (g.cl c).nMsgs)
    (he : x.nErr = (g.cl c).nErr) : (g.setClient c x).counters = g.counters := by
  rw [counters_setClient, hm, he]
  exact Counters.ext rfl rfl rfl rfl (Function.update_eq_self c _) (Function.update_eq_self c _)

/-- **Every other deed counts what it adds to the history.** -/
lemma Deed.accounted {T : Scope} {g g' : Daemon} (h : Deed env T g g') : Accounted env g g' := by
  cases h with
  | send rid c req st hb => exact Or.inr (counts_send g rid c req st _)
  | receive c msg => exact Or.inr (counts_receive g c msg)
  | accept hp line =>
    exact (counts_accept g _ line).imp_left fun h => by rw [h]; exact ⟨rfl, rfl, rfl⟩
  | close c => exact Or.inl ⟨rfl, counters_setClient_of_eq rfl rfl, rfl⟩
  | clock => exact Or.inl ⟨rfl, rfl, rfl⟩
  | @event e he =>
    refine Or.inr ⟨e, rfl, ?_, ?_⟩
    · cases e <;> first | rfl | simp [Event.plain] at he
    · cases e <;> first | rfl | simp [Event.plain] at he
  | other hio hcl hn =>
    refine Or.inl ⟨by rw [Daemon.evs, hio]; rfl, ?_, by rw [hio]⟩
    rw [Daemon.counters, hio, hcl]
    rfl

/-- The counters are the counts of the history, and so is the number of answers. -/
def Tallied (env : Env) (cfg : Config) (g : Daemon) : Prop :=
  g.counters = (tally env cfg g.evs).counters ∧ g.io.nSend = (tally env cfg g.evs).sends

/-- They remain so. -/
lemma Tallied.accounted {g g' : Daemon} (hg : Tallied env cfg g) (h : Accounted env g g') :
    Tallied env cfg g' := by
  rcases h with ⟨hev, hc, hn⟩ | ⟨e, hev, hc, hn⟩
  · rw [Tallied, hev, hc, hn]
    exact hg
  · obtain ⟨hadd, hsends⟩ := (tally env cfg g.evs).counters_add env e
    rw [Tallied, hev, tally_snoc, hadd, hsends, hc, hn, hg.1, hg.2]
    exact ⟨rfl, rfl⟩

/-- Before the first event only `DEVICE_ID` has been read. -/
lemma counters_boot : (boot env cfg).counters = (Tally.start env cfg).counters ∧
    (boot env cfg).io.nSend = 0 := by
  unfold boot
  dsimp only
  rw [spiReadReg_eq_busAt]
  unfold Tally.start
  dsimp only
  cases (spiReadReg (busAt env) cfg.pad cfg.deviceIdReg 0 0 mmdGlobal cfg.deviceIdReg).1 <;>
    exact ⟨rfl, rfl⟩

end

/-- **The counters tell the history.** In every reachable state the counters that `STATS` reports are
the numbers of reads, writes, failed accesses and warnings of the run so far, and for each slot the
numbers of well-formed datagrams received, of answers lost and of operations attempted since it was last
connected, modulo `2 ^ 64`. -/
theorem counters_tell_history {env : Env} {cfg : Config} {g : Daemon} (h : Reachable env cfg g) :
    g.counters = (tally env cfg g.evs).counters ∧
      ∀ c, (g.cl c).nOps = UInt64.ofNat ((opTally g.evs).ops c) := by
  have hboth : Tallied env cfg g := by
    refine Reachable.invariant_of_deeds ?_ (fun g g' hg hd => hg.accounted hd.accounted)
      (fun ag g g' hg hd => hg.accounted hd.accounted)
      (fun g c n hg => hg.accounted (Or.inl ⟨rfl, counters_setClient_of_eq rfl rfl, rfl⟩)) h
    rw [Tallied, evs_boot]
    exact counters_boot
  exact ⟨hboth.1, h.opsCounted⟩

/-- Client 0 sends a `READ` and a datagram that is too short; the first answer is lost. -/
def lostAnswer : Daemon :=
  run { Env.still 0 with send := fun k => k ≠ 0 } Config.plain
    (connects [(7, ['a'])] ++ [⟨[.client 0 [1, 2]], 64⟩, .none,
      ⟨[.client 0 (datagram .read 0 1 [0, 0, 0x1e, 0, 0, 0, 0, 0, 0, 0, 0, 0])], 64⟩, .none, .none])

/-- The theorem at this run. -/
theorem counters_tell_history_lostAnswer :
    lostAnswer.counters.reads = 2 ∧ lostAnswer.counters.msgs 0 = 1 ∧
      lostAnswer.counters.errs 0 = 1 ∧ (lostAnswer.cl 0).nOps = 1 ∧
      lostAnswer.counters =
        (tally { Env.still 0 with send := fun k => k ≠ 0 } Config.plain lostAnswer.evs).counters ∧
      ∀ c, (lostAnswer.cl c).nOps = UInt64.ofNat ((opTally lostAnswer.evs).ops c) := by
  have hr : Reachable { Env.still 0 with send := fun k => k ≠ 0 } Config.plain lostAnswer :=
    Reachable.run _ _ _
  exact ⟨by decide +kernel, by decide +kernel, by decide +kernel, by decide +kernel,
    counters_tell_history hr⟩

end Spid

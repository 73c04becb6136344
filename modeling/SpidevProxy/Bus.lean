import SpidevProxy.Deeds
import SpidevProxy.Pipeline
import SpidevProxy.Refinement

set_option relaxedAutoImplicit false
set_option autoImplicit false

/-!
# The accesses of a run on the bus

The history of a run lists register accesses; the device sees transfers. The accesses of a run, one
after another, are `spi_read_reg` and `spi_write_reg` calls on the bus from the first transfer after
the start-up check to the last one: no transfer is left out, none is added, and every access returned
what the bus answered to it. So a device that behaves like a LAN80xx on the frames that were really
sent makes the accesses of all clients together a run of one flat register file.

## Main definitions

* `Spid.busAt` — the bus of a run; its state is the number of transfers made.
* `Spid.Access.record` — the call that an access is, with its reply.
* `Spid.accesses` — the accesses of a history.
* `Spid.frames` — the frames that a sequence of calls sends.
* `Spid.Attached` — a device that answers the frames of a run like a LAN80xx.

## Main results

* `Spid.Reachable.performed` — the accesses of a run are the calls made on the bus.
* `Spid.Attached.flat` — next to such a device they are a run of a flat register file.
-/

namespace Spid

open History

/-! ## Accesses as calls -/

/-- One `SPI_IOC_MESSAGE(1)`, after `n` others. -/
def busAt (env : Env) (n : ℕ) (tx : List UInt8) : Option Rx × ℕ := (env.ioctl n tx, n + 1)

/-- The call that an access is, with its reply. -/
def Access.record (x : Access) : Call × Reply :=
  if x.write then (.write x.slice x.mmd x.reg x.val, .done x.ok)
  else (.read x.slice x.mmd x.reg, .value (if x.ok then some x.val else none))

/-- The register access of an event. -/
def Event.accessed : Event → Option Access
  | .access x => some x
  | _ => none

/-- The accesses of a history, in order. -/
def accesses (es : List Event) : List Access := es.filterMap Event.accessed

/-- The accesses of a history that is continued. -/
lemma accesses_append (es es' : List Event) : accesses (es ++ es') = accesses es ++ accesses es' :=
  List.filterMap_append

/-- An event that is not an access. -/
lemma accesses_snoc (es : List Event) {e : Event} (h : e.accessed = none) :
    accesses (es ++ [e]) = accesses es :=
  filterMap_snoc_none h es

section

variable (env : Env) (cfg : Config)

/-- The calls of a sequence of accesses on the bus, from transfer `n` on. -/
abbrev onBus (n : ℕ) (xs : List Access) : List (Call × Reply) × ℕ :=
  performAll (busAt env) cfg.pad cfg.deviceIdReg n (xs.map fun x => x.record.1)

/-- A read with the whole `Io` part as the state of the bus. -/
lemma spiReadReg_eq_busAt (io : Io) (slice mmd : UInt8) (reg : UInt16) :
    spiReadReg (busXfer env) cfg.pad cfg.deviceIdReg io slice mmd reg =
      ((spiReadReg (busAt env) cfg.pad cfg.deviceIdReg io.nIoctl slice mmd reg).1,
        { io with nIoctl := (spiReadReg (busAt env) cfg.pad cfg.deviceIdReg io.nIoctl slice mmd reg).2 }) := by
  unfold spiReadReg busXfer busAt
  dsimp only
  cases env.ioctl io.nIoctl ((spiFill false (spiAddr slice mmd reg) 0).take (spiBytes + cfg.pad)) <;> rfl

variable {env cfg} in
/-- The calls one after another. -/
lemma performAll_append {σ : Type} (xfer : σ → List UInt8 → Option Rx × σ) (pad : ℕ) (dev : UInt16) :
    ∀ (l l' : List Call) (s : σ), performAll xfer pad dev s (l ++ l') =
      ((performAll xfer pad dev s l).1 ++
          (performAll xfer pad dev (performAll xfer pad dev s l).2 l').1,
        (performAll xfer pad dev (performAll xfer pad dev s l).2 l').2) := by
  intro l l'
  induction l with
  | nil => exact fun s => rfl
  | cons call l ih =>
    intro s
    simp only [List.cons_append, performAll, ih]

/-- The accesses of the history, made on the bus from transfer `n` on, return what they returned. -/
def Performed (n : ℕ) (g : Daemon) : Prop :=
  onBus env cfg n (accesses g.evs) = ((accesses g.evs).map Access.record, g.io.nIoctl)

variable {env cfg}

/-- One more access. -/
lemma Performed.access {n : ℕ} {g g' : Daemon} {x : Access} (h : Performed env cfg n g)
    (hev : g'.evs = g.evs ++ [.access x])
    (hx : perform (busAt env) cfg.pad cfg.deviceIdReg g.io.nIoctl x.record.1 =
      (x.record.2, g'.io.nIoctl)) : Performed env cfg n g' := by
  have hacc : accesses g'.evs = accesses g.evs ++ [x] := by rw [hev, accesses_append]; rfl
  rw [Performed, onBus, hacc, List.map_append, performAll_append, ← onBus, h]
  simp only [List.map_cons, List.map_nil, performAll, hx, List.map_append]

/-- Anything else. -/
lemma Performed.other {n : ℕ} {g g' : Daemon} (h : Performed env cfg n g)
    (hev : accesses g'.evs = accesses g.evs) (hn : g'.io.nIoctl = g.io.nIoctl) :
    Performed env cfg n g' := by
  rw [Performed, hev, hn]
  exact h

/-- **Every deed of register work** that is an access is one call on the bus, and no other makes a
transfer. -/
lemma Performed.regDeed {n : ℕ} {ag : Agent} {g g' : Daemon} (h : Performed env cfg n g)
    (hd : RegDeed env cfg ag g g') : Performed env cfg n g' := by
  cases hd with
  | write slice mmd reg val =>
    refine h.access (extends_regWrite env g ag slice mmd reg val).2 ?_
    simp only [Access.record, if_true, perform]
    unfold regWrite spiWriteReg busAt busXfer
    dsimp only [Daemon.emit]
    split_ifs <;> rfl
  | read slice mmd reg old =>
    refine h.access (extends_regRead env cfg g ag slice mmd reg old).2 ?_
    simp only [Access.record, perform, Bool.false_eq_true, if_false]
    unfold regRead
    rw [spiReadReg_eq_busAt]
    dsimp only [Daemon.emit]
    cases (spiReadReg (busAt env) cfg.pad cfg.deviceIdReg g.io.nIoctl slice mmd reg).1 <;> rfl
  | refuse op st => exact h.other (accesses_snoc _ rfl) rfl
  | line hc hs => exact h.other (accesses_snoc _ rfl) rfl
  | lint hd =>
    cases hd with
    | warn w => exact h.other (accesses_snoc _ rfl) rfl
    | write hl => exact h.other rfl rfl
  | trace c op => exact h.other rfl rfl
  | clock => exact h.other rfl rfl
  | packet => exact h.other rfl rfl
  | set rid c was => exact h.other (accesses_snoc _ rfl) rfl
  | leave x => exact h.other (accesses_snoc _ rfl) rfl
  | body it b => exact h.other rfl rfl

/-- **Every other deed** makes no transfer. -/
lemma Performed.deed {n : ℕ} {T : Scope} {g g' : Daemon} (h : Performed env cfg n g)
    (hd : Deed env T g g') : Performed env cfg n g' := by
  cases hd with
  | @send rid c req st body hb =>
    have hev : (sendResp env g rid c req st body).evs =
        g.evs ++ [.send rid c (g.cl c).fd (req.type ||| respBit) st req.seq body] :=
      (sendResp_spec env g rid c req st body).1
    refine h.other (by rw [hev]; exact accesses_snoc _ rfl) ?_
    unfold sendResp
    dsimp only
    split_ifs <;> rfl
  | receive c msg =>
    unfold receive
    dsimp only
    split_ifs
    · exact h.other (accesses_snoc _ rfl) rfl
    · exact h.other (accesses_snoc _ rfl) rfl
  | accept hp line =>
    unfold acceptClient
    split
    · exact h
    · exact h.other (accesses_snoc _ rfl) rfl
  | close c => exact h.other rfl rfl
  | clock => exact h.other rfl rfl
  | @event e he =>
    refine h.other (accesses_snoc _ ?_) rfl
    cases e <;> first | rfl | simp [Event.plain] at he
  | other hio hcl hn => exact h.other (by rw [Daemon.evs, hio]; rfl) (by rw [hio])

/-- **The accesses of a run are the calls made on the bus**, from the first transfer after the
start-up check on. -/
theorem Reachable.performed {g : Daemon} (h : Reachable env cfg g) :
    Performed env cfg (Spid.boot env cfg).io.nIoctl g := by
  refine Reachable.invariant_of_deeds ?_ (fun g g' hg hd => hg.deed hd)
    (fun ag g g' hg hd => hg.regDeed hd) (fun g c n hg => hg.other rfl rfl) h
  rw [Performed, evs_boot]
  rfl

end

/-! ## The device on the bus -/

section

variable (env : Env) (cfg : Config)

/-- The frames that a call sends after `n` transfers: a read whose first frame fails stops there. -/
def callFrames (n : ℕ) : Call → List (List UInt8)
  | .read slice mmd reg =>
    readFrame cfg.pad slice mmd reg ::
      if (env.ioctl n (readFrame cfg.pad slice mmd reg)).isSome then
        [readFrame cfg.pad slice mmdGlobal cfg.deviceIdReg]
      else []
  | .write slice mmd reg val => [(spiFill true (spiAddr slice mmd reg) val).take spiBytes]

/-- The frames that a sequence of calls sends. -/
def frames (n : ℕ) : List Call → List (List UInt8)
  | [] => []
  | call :: calls => callFrames env cfg n call ++ frames (n + (callFrames env cfg n call).length) calls

/-- The frames that a run has sent since the start-up check. -/
def Daemon.frames (g : Daemon) : List (List UInt8) :=
  Spid.frames env cfg (boot env cfg).io.nIoctl ((accesses g.evs).map fun x => x.record.1)

/-- `chips k` is a LAN80xx before transfer `k`, and the bus answers each of the frames `fs` from
transfer `n` on as that device does. -/
def Answers (drift : (ℕ → UInt32) → (ℕ → UInt32) → Prop) (chips : ℕ → Chip) (n : ℕ)
    (fs : List (List UInt8)) : Prop :=
  ∀ k tx, fs[k]? = some tx → (chips (n + k)).Xfer drift tx (env.ioctl (n + k) tx) (chips (n + k + 1))

/-- The device of a run: a LAN80xx on the frames that the run has sent. -/
def Attached (drift : (ℕ → UInt32) → (ℕ → UInt32) → Prop) (chips : ℕ → Chip) (g : Daemon) : Prop :=
  Answers env drift chips (boot env cfg).io.nIoctl (g.frames env cfg)

variable {env cfg} {drift : (ℕ → UInt32) → (ℕ → UInt32) → Prop} {chips : ℕ → Chip} {n : ℕ}

/-- The device answers the first frames, -/
lemma Answers.left {fs fs' : List (List UInt8)} (h : Answers env drift chips n (fs ++ fs')) :
    Answers env drift chips n fs := by
  intro k tx hk
  have hlt := (List.getElem?_eq_some_iff.mp hk).1
  exact h k tx (by rw [List.getElem?_append_left hlt]; exact hk)

/-- and the frames behind them. -/
lemma Answers.right {fs fs' : List (List UInt8)} (h : Answers env drift chips n (fs ++ fs')) :
    Answers env drift chips (n + fs.length) fs' := by
  intro k tx hk
  have h' := h (fs.length + k) tx (by
    rw [List.getElem?_append_right (Nat.le_add_right _ _), Nat.add_sub_cancel_left]
    exact hk)
  rwa [← Nat.add_assoc] at h'

/-- The answer to the first frame. -/
lemma Answers.head {tx : List UInt8} {fs : List (List UInt8)}
    (h : Answers env drift chips n (tx :: fs)) :
    (chips n).Xfer drift tx (env.ioctl n tx) (chips (n + 1)) :=
  h 0 tx rfl

/-- A read whose two frames were answered by the device. -/
lemma perform_read_flat {slice mmd : UInt8} {reg : UInt16}
    (h : Answers env drift chips n (callFrames env cfg n (.read slice mmd reg))) :
    FlatStep drift (chips n).regs
      (.read slice mmd reg, .value (spiReadReg (busAt env) cfg.pad cfg.deviceIdReg n slice mmd reg).1)
      (chips (spiReadReg (busAt env) cfg.pad cfg.deviceIdReg n slice mmd reg).2).regs := by
  obtain ⟨hw, ha⟩ := decode_readFrame cfg.pad slice mmd reg
  obtain ⟨hw', -⟩ := decode_readFrame cfg.pad slice mmdGlobal cfg.deviceIdReg
  rw [callFrames] at h
  have h₁ := h.head
  cases hp : env.ioctl n (readFrame cfg.pad slice mmd reg) with
  | none =>
    rw [@spiReadReg_of_none ℕ (busAt env) cfg.pad cfg.deviceIdReg n slice mmd reg hp]
    exact FlatStep.read (by simp) (.single (h₁.regs_of_read hw))
  | some rx =>
    rw [@spiReadReg_of_some ℕ (busAt env) cfg.pad cfg.deviceIdReg n slice mmd reg rx hp]
    rw [hp, Option.isSome_some, if_pos rfl] at h
    rw [hp] at h₁
    have h₂ := h 1 _ rfl
    refine FlatStep.read (fun v hv => ?_) (.tail (.single (h₁.regs_of_read hw)) (h₂.regs_of_read hw'))
    -- the second frame shows the answer to the first
    obtain ⟨rx', hrx', rfl⟩ := Option.map_eq_some_iff.mp hv
    rw [show env.ioctl (n + 1) _ = some rx' from hrx'] at h₂
    rw [h₂.rxWord_eq, h₁.answer_of_read hw, ha]
    rfl

/-- **One call** on the bus is a step of the flat register file. -/
lemma perform_flat_on {call : Call} (h : Answers env drift chips n (callFrames env cfg n call)) :
    FlatStep drift (chips n).regs (call, (perform (busAt env) cfg.pad cfg.deviceIdReg n call).1)
        (chips (perform (busAt env) cfg.pad cfg.deviceIdReg n call).2).regs ∧
      (perform (busAt env) cfg.pad cfg.deviceIdReg n call).2 =
        n + (callFrames env cfg n call).length := by
  cases call with
  | read slice mmd reg =>
    refine ⟨perform_read_flat h, ?_⟩
    simp only [perform, callFrames]
    cases hp : env.ioctl n (readFrame cfg.pad slice mmd reg) with
    | none => rw [@spiReadReg_of_none ℕ (busAt env) cfg.pad cfg.deviceIdReg n slice mmd reg hp]; rfl
    | some rx => rw [@spiReadReg_of_some ℕ (busAt env) cfg.pad cfg.deviceIdReg n slice mmd reg rx hp]; rfl
  | write slice mmd reg val =>
    have hx := h.head
    have hdec := decode_take (spiFill true (spiAddr slice mmd reg) val) le_rfl
    have hstore := hx.regs_of_write (by rw [hdec, decode_write]) (by rw [hdec, decode_val]; rfl)
    rw [wireAddr_spiFill _ _ _ _ (by decide)] at hstore
    refine ⟨?_, rfl⟩
    simp only [perform, spiWriteReg, busAt]
    rcases hstore with hd | ⟨hr, hd⟩
    · exact FlatStep.write (.single hd)
    · rw [hr]
      exact FlatStep.lost (.single hd)

/-- **A sequence of calls** on the bus is a run of the flat register file. -/
lemma performAll_flat_on : ∀ (calls : List Call) {n : ℕ},
    Answers env drift chips n (frames env cfg n calls) →
    Steps (FlatStep drift) (chips n).regs
      (performAll (busAt env) cfg.pad cfg.deviceIdReg n calls).1
      (chips (performAll (busAt env) cfg.pad cfg.deviceIdReg n calls).2).regs := by
  intro calls
  induction calls with
  | nil => exact fun _ => Steps.nil _
  | cons call calls ih =>
    intro n h
    obtain ⟨hstep, hlen⟩ := perform_flat_on h.left
    refine Steps.cons hstep (ih ?_)
    rw [hlen]
    exact h.right

/-- **The accesses of a run are a run of one flat register file**: those of all clients, of mailbox
calls and of cleanup lists together, in the order of the history. -/
lemma Attached.flat {g : Daemon} (h : Reachable env cfg g) (hc : Attached env cfg drift chips g) :
    Steps (FlatStep drift) (chips (boot env cfg).io.nIoctl).regs
      ((accesses g.evs).map Access.record) (chips g.io.nIoctl).regs := by
  have hp := h.performed
  have hf := performAll_flat_on _ hc
  rw [Performed, onBus] at hp
  rw [hp] at hf
  exact hf

end

end Spid

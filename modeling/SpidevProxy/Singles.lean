import SpidevProxy.Framing
import SpidevProxy.Lint

set_option relaxedAutoImplicit false
set_option autoImplicit false

/-!
# A batch and its single requests

`BATCH` executes its operations in a loop and answers once; `READ` and `WRITE` execute one operation
each. Both go through `exec_op`. So a `BATCH` does to the device, the trace ring, the lint layer and the
counters what its operations do when they are sent one by one, up to the first that fails.

The two executions differ in the requests that the events name, in the lines of the log, and in the number
of answers. Two states that have gone the same way apart from that are twins.

## Main definitions

* `Spid.execSingles` — operations executed one by one, as `READ` and `WRITE`.
* `Spid.Twin` — two states that have gone the same way.
* `Spid.InStep` — a batch and the single requests of its operations have come equally far.

## Main results

* `Spid.Twin.execOp` — `exec_op` keeps states twins, with the same results.
* `Spid.InStep.next`, `Spid.InStep.run` — one operation, and all of them.
* `Spid.batch_eq_singles` — a batch equals its single requests.
-/

namespace Spid

open Bytes

/-! ## Twins -/

/-- The counters, the trace ring and the lint state: what the register operations depend on. -/
def Io.core (io : Io) : Io := { io with evs := [], nSend := 0 }

/-- What an event says about registers, apart from the request that it belongs to. -/
def Event.effect : Event → Option Event
  | .access x => some (.access { x with agent := .request 0 x.agent.client })
  | .refused ag op st => some (.refused (.request 0 ag.client) op st)
  | .warn w => some (.warn w)
  | _ => none

/-- **Two states that have gone the same way** since their events were `L` and `L'`. -/
structure Kin (L L' : List Event) (g g' : Daemon) : Prop where
  io : g'.io.core = g.io.core
  ids : ∀ c, (g'.cl c).id = (g.cl c).id
  comms : ∀ c, (g'.cl c).comm = (g.cl c).comm
  owner : g'.claim.owner = g.claim.owner
  inflight : g'.mbInflight = g.mbInflight
  evs : ∃ es es', g.evs = L ++ es ∧ g'.evs = L' ++ es' ∧
    es'.filterMap Event.effect = es.filterMap Event.effect

/-- The same, both working for the same client. -/
structure Twin (L L' : List Event) (g g' : Daemon) : Prop extends Kin L L' g g' where
  cid : g'.lctx.cid = g.lctx.cid
  comm : g'.lctx.comm = g.lctx.comm

/-- Nothing has happened that twins are compared in. -/
structure Aside (g g' : Daemon) : Prop where
  io : g'.io.core = g.io.core
  ids : ∀ c, (g'.cl c).id = (g.cl c).id
  comms : ∀ c, (g'.cl c).comm = (g.cl c).comm
  owner : g'.claim.owner = g.claim.owner
  inflight : g'.mbInflight = g.mbInflight
  evs : ∃ xs, g'.evs = g.evs ++ xs ∧ xs.filterMap Event.effect = []

section

variable {L L' : List Event} {g g' g₁ g₁' g₂ : Daemon}

namespace Aside

/-- One piece of work after another. -/
lemma trans (h : Aside g g₁) (h' : Aside g₁ g₂) : Aside g g₂ where
  io := h'.io.trans h.io
  ids := fun c => (h'.ids c).trans (h.ids c)
  comms := fun c => (h'.comms c).trans (h.comms c)
  owner := h'.owner.trans h.owner
  inflight := h'.inflight.trans h.inflight
  evs := by
    obtain ⟨xs, hx, hn⟩ := h.evs
    obtain ⟨ys, hy, hm⟩ := h'.evs
    exact ⟨xs ++ ys, by rw [hy, hx, List.append_assoc], by rw [List.filterMap_append, hn, hm]; rfl⟩

/-- Nothing is done. -/
lemma refl : Aside g g :=
  ⟨rfl, fun _ => rfl, fun _ => rfl, rfl, rfl, [], (List.append_nil _).symm, rfl⟩

/-- The items and the log context. -/
lemma of_item (items : Ptr → Item) (ctx : LogCtx) : Aside g { g with item := items, lctx := ctx } :=
  ⟨rfl, fun _ => rfl, fun _ => rfl, rfl, rfl, [], (List.append_nil _).symm, rfl⟩

/-- The counters of a client. -/
lemma of_client (c : Slot) {x : Client} (hid : x.id = (g.cl c).id) (hcomm : x.comm = (g.cl c).comm) :
    Aside g (g.setClient c x) := by
  refine ⟨rfl, fun c' => ?_, fun c' => ?_, rfl, rfl, [], (List.append_nil _).symm, rfl⟩
  · by_cases h : c' = c
    · subst h
      simp [Daemon.setClient, hid]
    · simp [Daemon.setClient, h]
  · by_cases h : c' = c
    · subst h
      simp [Daemon.setClient, hcomm]
    · simp [Daemon.setClient, h]

/-- `send_resp`. -/
lemma of_sendResp (env : Env) (rid : ℕ) (c : Slot) (req : Hdr) (st : Status) (body : List UInt8) :
    Aside g (sendResp env g rid c req st body) := by
  have hs : Aside g ({ g with io := { g.io with nSend := g.io.nSend + 1 } }.emit
      (.send rid c (g.cl c).fd (req.type ||| respBit) st req.seq body)) :=
    ⟨rfl, fun _ => rfl, fun _ => rfl, rfl, rfl, _, rfl, rfl⟩
  unfold sendResp
  dsimp only
  split_ifs
  · exact hs
  · exact hs.trans (of_client c rfl rfl)

end Aside

/-- The answers and the bookkeeping of a request do not matter. -/
lemma Kin.congr (h : Kin L L' g g') (hc : Aside g g₁) (hc' : Aside g' g₁') : Kin L L' g₁ g₁' where
  io := by rw [hc.io, hc'.io, h.io]
  ids := fun c => by rw [hc.ids, hc'.ids, h.ids]
  comms := fun c => by rw [hc.comms, hc'.comms, h.comms]
  owner := by rw [hc.owner, hc'.owner, h.owner]
  inflight := by rw [hc.inflight, hc'.inflight, h.inflight]
  evs := by
    obtain ⟨es, es', h₁, h₂, h₃⟩ := h.evs
    obtain ⟨xs, hx, hn⟩ := hc.evs
    obtain ⟨xs', hx', hn'⟩ := hc'.evs
    refine ⟨es ++ xs, es' ++ xs', ?_, ?_, ?_⟩
    · rw [hx, h₁, List.append_assoc]
    · rw [hx', h₂, List.append_assoc]
    · rw [List.filterMap_append, List.filterMap_append, h₃, hn, hn']

namespace Twin

/-- **The same change of the `Io` part on both sides**, apart from the requests that events name. -/
lemma update (h : Twin L L' g g') (F F' : Io → Io) (xs xs' : List Event)
    (hF : ∀ io, (F io).core = (F io.core).core) (hF' : ∀ io, (F' io).core = (F io).core)
    (he : (F g.io).evs = g.io.evs ++ xs) (he' : (F' g'.io).evs = g'.io.evs ++ xs')
    (heff : xs'.filterMap Event.effect = xs.filterMap Event.effect) :
    Twin L L' { g with io := F g.io } { g' with io := F' g'.io } where
  io := by
    show (F' g'.io).core = (F g.io).core
    rw [hF', hF, hF g.io, h.io]
  ids := h.ids
  comms := h.comms
  owner := h.owner
  inflight := h.inflight
  cid := h.cid
  comm := h.comm
  evs := by
    obtain ⟨es, es', h₁, h₂, h₃⟩ := h.evs
    refine ⟨es ++ xs, es' ++ xs', ?_, ?_, ?_⟩
    · show (F g.io).evs = _
      rw [he, ← List.append_assoc, ← h₁]
      rfl
    · show (F' g'.io).evs = _
      rw [he', ← List.append_assoc, ← h₂]
      rfl
    · rw [List.filterMap_append, List.filterMap_append, h₃, heff]

/-- A change without events. -/
lemma update_quiet (h : Twin L L' g g') {F : Io → Io} (hF : ∀ io, (F io).core = (F io.core).core)
    (he : ∀ io, (F io).evs = io.evs) : Twin L L' { g with io := F g.io } { g' with io := F g'.io } :=
  h.update F F [] [] hF (fun _ => rfl) (by rw [he, List.append_nil])
    (by rw [he, List.append_nil]) rfl

/-- An event, with nothing else changed. -/
lemma emit (h : Twin L L' g g') {e e' : Event} (he : e'.effect = e.effect) :
    Twin L L' (g.emit e) (g'.emit e') :=
  h.update (fun io => { io with evs := io.evs ++ [e] }) (fun io => { io with evs := io.evs ++ [e'] })
    [e] [e'] (fun _ => rfl) (fun _ => rfl) rfl rfl
    (by simp only [List.filterMap_cons, List.filterMap_nil, he])

/-- The twins have made the same transfers, -/
lemma nIoctl (h : Twin L L' g g') : g'.io.nIoctl = g.io.nIoctl := by
  show g'.io.core.nIoctl = g.io.core.nIoctl
  rw [h.io]

/-- have looked at the clock as often, -/
lemma nClock (h : Twin L L' g g') : g'.io.nClock = g.io.nClock := by
  show g'.io.core.nClock = g.io.core.nClock
  rw [h.io]

/-- and have the same lint state. -/
lemma lint (h : Twin L L' g g') : g'.io.lint = g.io.lint := by
  show g'.io.core.lint = g.io.core.lint
  rw [h.io]

/-! ### The lint layer -/

/-- The lint state is set. -/
lemma setLint (h : Twin L L' g g') (l : Lint) : Twin L L' { g with io := { g.io with lint := l } }
    { g' with io := { g'.io with lint := l } } :=
  h.update_quiet (F := fun io => { io with lint := l }) (fun _ => rfl) fun _ => rfl

/-- `warn_line`. -/
lemma warnLine (h : Twin L L' g g') (w : Warning) : Twin L L' (warnLine g w) (warnLine g' w) := by
  have hl := h.setLint { g.io.lint with nWarns := g.io.lint.nWarns + 1 }
  have he := hl.emit (show (Event.warn w).effect = (Event.warn w).effect from rfl)
  unfold Spid.warnLine
  rw [h.lint]
  exact he

/-- A new last reader of a counter. -/
lemma setCorLast (h : Twin L L' g g') (k : Fin 2) (now : UInt64) : Twin L L'
    { g with io := { g.io with lint := { g.io.lint with
      corLast := Function.update g.io.lint.corLast k ⟨g.lctx.cid, g.lctx.comm, now⟩ } } }
    { g' with io := { g'.io with lint := { g'.io.lint with
      corLast := Function.update g'.io.lint.corLast k ⟨g'.lctx.cid, g'.lctx.comm, now⟩ } } } := by
  rw [h.lint, h.cid, h.comm]
  exact h.setLint _

/-- A new entry of the ring of reads. -/
lemma setRdRing (h : Twin L L' g g') (i : Fin 16) (e : RdEnt) : Twin L L'
    { g with io := { g.io with lint := { g.io.lint with
      rdRing := Function.update g.io.lint.rdRing i e } } }
    { g' with io := { g'.io with lint := { g'.io.lint with
      rdRing := Function.update g'.io.lint.rdRing i e } } } := by
  rw [h.lint]
  exact h.setLint _

/-- The page-ride detector. -/
lemma lintPageRide (h : Twin L L' g g') (op : Op) :
    Twin L L' (lintPageRide g op) (lintPageRide g' op) := by
  unfold Spid.lintPageRide
  dsimp only
  rw [h.lint, h.cid, h.comm]
  split
  · exact h
  · split_ifs
    · exact h.setLint _
    · exact h.warnLine _
    · exact h
    · exact h

/-- The cor-poach detector. -/
lemma lintCorPoach (h : Twin L L' g g') (now : UInt64) (op : Op) :
    Twin L L' (lintCorPoach g now op) (lintCorPoach g' now op) := by
  unfold Spid.lintCorPoach
  by_cases hc : op.write = 0 ∧ op.reg = baserStatus2 ∧ (op.mmd = mmdHostPcs ∨ op.mmd = mmdMacLinePcs)
  · rw [if_pos hc, if_pos hc]
    refine Twin.setCorLast ?_ _ now
    rw [h.lint, h.cid]
    generalize (if op.mmd = mmdHostPcs then (0 : Fin 2) else 1) = k
    split_ifs
    · exact h.warnLine _
    · exact h
  · rw [if_neg hc, if_neg hc]
    exact h

/-- The rmw-race detector. -/
lemma lintRmwRace (h : Twin L L' g g') (now : UInt64) (op : Op) :
    Twin L L' (lintRmwRace g now op) (lintRmwRace g' now op) := by
  have hhit : rmwHit g' now op = rmwHit g now op := by
    funext i
    simp only [rmwHit, h.lint, h.cid]
  unfold Spid.lintRmwRace
  rw [hhit]
  split_ifs with hw
  · cases hf : (List.finRange 16).find? (rmwHit g now op) with
    | none => exact h
    | some i =>
      dsimp only
      rw [h.lint, h.cid]
      exact (h.warnLine _).setRdRing i _
  · dsimp only
    rw [h.lint, h.cid, h.comm]
    exact h.setLint _

variable (env : Env) (cfg : Config)

/-- `lint_op`. -/
lemma lintOp (h : Twin L L' g g') (op : Op) : Twin L L' (lintOp env g op) (lintOp env g' op) := by
  have hnow : Twin L L' (nowUs env g).2 (nowUs env g').2 :=
    h.update_quiet (F := fun io => { io with nClock := io.nClock + 1 }) (fun _ => rfl) fun _ => rfl
  have hclock : (nowUs env g').1 = (nowUs env g).1 := by
    show env.clock g'.io.nClock = env.clock g.io.nClock
    rw [h.nClock]
  unfold Spid.lintOp
  dsimp only
  rw [hclock]
  exact ((hnow.lintPageRide op).lintCorPoach _ op).lintRmwRace _ op

/-! ### Operations -/

/-- `trace_add`. -/
lemma traceAdd (h : Twin L L' g g') (c : Slot) (op : Op) :
    Twin L L' (traceAdd env g (some c) op) (traceAdd env g' (some c) op) := by
  have htrace : Twin L L' (Spid.traceAdd env g (some c) op)
      { g' with io := { g'.io with
        ringW := g'.io.ringW + 1, nClock := g'.io.nClock + 1
        ring := Function.update g'.io.ring (Fin.ofNat 1024 (g'.io.ringW.toNat % 1024))
          ⟨env.clock g'.io.nClock, (g.cl c).id, op.slice, op.write, op.mmd, op.reg, op.val⟩ } } :=
    h.update_quiet (F := fun io => { io with
      ringW := io.ringW + 1, nClock := io.nClock + 1
      ring := Function.update io.ring (Fin.ofNat 1024 (io.ringW.toNat % 1024))
        ⟨env.clock io.nClock, (g.cl c).id, op.slice, op.write, op.mmd, op.reg, op.val⟩ })
      (fun _ => rfl) fun _ => rfl
  rw [← h.ids c] at htrace
  exact htrace

/-- The `OP` line. -/
lemma logOp (h : Twin L L' g g') (ag ag' : Agent) (op : Op) (ok : Bool) :
    Twin L L' (logOp cfg g ag op ok) (logOp cfg g' ag' op ok) := by
  unfold Spid.logOp
  split_ifs
  · exact h.emit rfl
  · exact h

/-- The event of an access. -/
lemma emitAccess (h : Twin L L' g g') {ag ag' : Agent} (hag : ag'.client = ag.client) (write : Bool)
    (slice mmd : UInt8) (reg : UInt16) (val : UInt32) (ok : Bool) : Twin L L'
      (g.emit (.access ⟨ag, write, slice, mmd, reg, val, ok, g.claim.owner, g.mbInflight⟩))
      (g'.emit (.access ⟨ag', write, slice, mmd, reg, val, ok, g'.claim.owner, g'.mbInflight⟩)) := by
  apply h.emit
  simp only [Event.effect, hag, h.owner, h.inflight]

/-- `spi_write_reg`. -/
lemma regWrite (h : Twin L L' g g') {ag ag' : Agent} (hag : ag'.client = ag.client) (slice mmd : UInt8)
    (reg : UInt16) (val : UInt32) :
    (regWrite env g' ag' slice mmd reg val).1 = (regWrite env g ag slice mmd reg val).1 ∧
    Twin L L' (regWrite env g ag slice mmd reg val).2 (regWrite env g' ag' slice mmd reg val).2 := by
  unfold Spid.regWrite spiWriteReg busXfer
  dsimp only
  rw [h.nIoctl]
  refine ⟨rfl, Twin.emitAccess ?_ hag _ _ _ _ _ _⟩
  split_ifs
  · exact h.update_quiet (F := fun io => { io with nIoctl := g.io.nIoctl + 1, nWrites := io.nWrites + 1 })
      (fun _ => rfl) fun _ => rfl
  · exact h.update_quiet (F := fun io => { io with nIoctl := g.io.nIoctl + 1, nIoErr := io.nIoErr + 1 })
      (fun _ => rfl) fun _ => rfl

/-- `spi_read_reg`. -/
lemma regRead (h : Twin L L' g g') {ag ag' : Agent} (hag : ag'.client = ag.client) (slice mmd : UInt8)
    (reg : UInt16) (old : UInt32) :
    (regRead env cfg g' ag' slice mmd reg old).1 = (regRead env cfg g ag slice mmd reg old).1 ∧
    (regRead env cfg g' ag' slice mmd reg old).2.1 = (regRead env cfg g ag slice mmd reg old).2.1 ∧
    Twin L L' (regRead env cfg g ag slice mmd reg old).2.2
      (regRead env cfg g' ag' slice mmd reg old).2.2 := by
  unfold Spid.regRead spiReadReg busXfer
  dsimp only
  rw [h.nIoctl]
  generalize env.ioctl g.io.nIoctl _ = prime
  cases prime with
  | none =>
    refine ⟨rfl, rfl, Twin.emitAccess ?_ hag _ _ _ _ _ _⟩
    exact h.update_quiet (F := fun io => { io with nIoctl := g.io.nIoctl + 1, nIoErr := io.nIoErr + 1 })
      (fun _ => rfl) fun _ => rfl
  | some _ =>
    dsimp only
    refine ⟨rfl, rfl, Twin.emitAccess ?_ hag _ _ _ _ _ _⟩
    split_ifs
    · exact h.update_quiet (F := fun io => { io with nIoctl := g.io.nIoctl + 2, nReads := io.nReads + 1 })
        (fun _ => rfl) fun _ => rfl
    · exact h.update_quiet (F := fun io => { io with nIoctl := g.io.nIoctl + 2, nIoErr := io.nIoErr + 1 })
        (fun _ => rfl) fun _ => rfl

/-- The access of an operation. -/
lemma opAccess (h : Twin L L' g g') {ag ag' : Agent} (hag : ag'.client = ag.client) (op : Op) :
    (opAccess env cfg g' ag' op).1 = (opAccess env cfg g ag op).1 ∧
    (opAccess env cfg g' ag' op).2.1 = (opAccess env cfg g ag op).2.1 ∧
    Twin L L' (opAccess env cfg g ag op).2.2 (opAccess env cfg g' ag' op).2.2 := by
  unfold Spid.opAccess
  by_cases hw : op.write ≠ 0
  · rw [if_pos hw, if_pos hw]
    obtain ⟨hok, ht⟩ := h.regWrite env hag op.slice op.mmd op.reg op.val
    exact ⟨hok, rfl, ht⟩
  · rw [if_neg hw, if_neg hw]
    obtain ⟨hok, hval, ht⟩ := h.regRead env cfg hag op.slice op.mmd op.reg op.val
    refine ⟨hok, ?_, ht⟩
    dsimp only
    rw [hval]

/-- **`exec_op`** for the same client: the same status, the same operation, and the states are twins. -/
lemma execOp (h : Twin L L' g g') {ag ag' : Agent} (hag : ag'.client = ag.client) (c : Slot) (op : Op) :
    (execOp env cfg g' ag' (some c) op).1 = (execOp env cfg g ag (some c) op).1 ∧
    (execOp env cfg g' ag' (some c) op).2.1 = (execOp env cfg g ag (some c) op).2.1 ∧
    Twin L L' (execOp env cfg g ag (some c) op).2.2 (execOp env cfg g' ag' (some c) op).2.2 := by
  rw [execOp_eq, execOp_eq, h.inflight]
  cases opRefusal g.mbInflight (some c) op with
  | some st =>
    refine ⟨rfl, rfl, h.emit ?_⟩
    simp only [Event.effect, hag]
  | none =>
    obtain ⟨hok, hop, ha⟩ := h.opAccess env cfg hag op
    dsimp only
    rw [hok, hop]
    refine ⟨rfl, rfl, Twin.logOp cfg ?_ ag ag' _ _⟩
    split_ifs
    · exact (ha.traceAdd env c _).lintOp env _
    · exact ha.traceAdd env c _

end Twin

end

/-! ## Requests -/

/-- What a request has apart from its client, type and body: the item that holds it, its number, and the
flags and the sequence number of its header. -/
structure Label where
  it : Ptr
  rid : ℕ
  flags : UInt16
  seq : UInt32

section

variable (env : Env) (cfg : Config)

/-- The header of a request. -/
def Label.hdr (l : Label) (type : MsgType) (body : List UInt8) : Hdr :=
  ⟨spiproxyVer, type.code, l.flags, l.seq, UInt32.ofNat body.length⟩

/-- Client `c` has sent a request, and `enqueue` has stored it. -/
def load (g : Daemon) (c : Slot) (l : Label) (type : MsgType) (body : List UInt8) : Daemon :=
  g.setItem l.it ⟨c, l.hdr type body, (g.item l.it).body.write 0 body, l.rid⟩

/-- Client `c` has sent a request, and `exec_item` executes it. -/
def request (g : Daemon) (c : Slot) (l : Label) (type : MsgType) (body : List UInt8) : Daemon :=
  (execItem env cfg (load g c l type body) l.it).2

/-- The state in which `exec_item` dispatches the request. -/
def started (g : Daemon) (c : Slot) (l : Label) (type : MsgType) (body : List UInt8) : Daemon :=
  { load g c l type body with lctx := ⟨(g.cl c).id, (g.cl c).comm, l.seq, .none⟩ }

/-- The item of a request that has just started. -/
lemma item_started (g : Daemon) (c : Slot) (l : Label) (type : MsgType) (body : List UInt8) :
    (started g c l type body).item l.it =
      ⟨c, l.hdr type body, (g.item l.it).body.write 0 body, l.rid⟩ :=
  Function.update_self _ _ _

/-- The status and the body of an answer. -/
def Event.answer : Event → Option (Status × List UInt8)
  | .send _ _ _ _ st _ body => some (st, body)
  | _ => none

/-- The answers from one state to a later one. -/
def answers (g g' : Daemon) : List (Status × List UInt8) := (since g g').filterMap Event.answer

/-- The request that executes one operation. -/
def Op.single (op : Op) : MsgType := if op.write = 0 then .read else .write

/-- Client `c` sends the operations one by one, each as a `READ` or a `WRITE` with a label of its own, with
nothing in between. It stops after the first answer that is not OK. -/
def execSingles (c : Slot) : List (Label × Op) → Daemon → Daemon
  | [], g => g
  | (l, op) :: rest, g =>
    let g' := request env cfg g c l op.single op.encode
    if (answers g g').map Prod.fst = [.ok] then execSingles c rest g' else g'

/-! ### Bodies -/

/-- A block that starts with the bytes of operations holds them. -/
lemma Laid.of_read {b : Block msgMax} : ∀ {l : List Op},
    b.read 0 (opSize * l.length) = l.flatMap Op.encode → Laid b l := by
  intro l
  induction l using List.reverseRecOn with
  | nil => exact fun _ i op hi => by simp at hi
  | append_singleton l op ih =>
    intro h
    rw [List.length_append, List.length_singleton, Nat.mul_succ, Block.read_add, Nat.zero_add,
      List.flatMap_append, List.flatMap_singleton] at h
    obtain ⟨hl, hop⟩ := List.append_inj' h (by simp)
    intro i op' hi
    rcases lt_or_ge i l.length with hlt | hge
    · rw [List.getElem?_append_left hlt] at hi
      exact ih hl i op' hi
    · obtain ⟨rfl, rfl⟩ : i = l.length ∧ op = op' := by
        rw [List.getElem?_append_right hge, List.getElem?_singleton] at hi
        split_ifs at hi with h₀
        exact ⟨by omega, Option.some.inj hi⟩
      exact hop

/-- Operations have one size. -/
lemma length_flatMap_encode (ops : List Op) : (ops.flatMap Op.encode).length = opSize * ops.length := by
  simp [List.length_flatMap, Nat.mul_comm]

/-- A request with operations in its item. -/
lemma laid_write (b : Block msgMax) (ops : List Op) (h : opSize * ops.length ≤ msgMax) :
    Laid (b.write 0 (ops.flatMap Op.encode)) ops := by
  apply Laid.of_read
  have hself := b.read_write_self 0 (ops.flatMap Op.encode) (by rw [length_flatMap_encode]; omega)
  rwa [length_flatMap_encode] at hself

/-! ### One operation -/

/-- Its header says which way the operation goes, and `exec_item` stores it in the operation: nothing
changes. -/
lemma setWrite_encode (b : Block msgMax) (op : Op) :
    opAt ((b.write 0 op.encode).write 1 [op.write]) 0 0 = op := by
  have hl : Laid (b.write 0 op.encode) [op] := by
    have h := laid_write b [op] (by simp [opSize, msgMax])
    rwa [List.flatMap_singleton] at h
  exact (hl.setWrite rfl op.write).opAt_eq rfl

variable {L L' : List Event}

/-- The branch `READ`, `WRITE` for an item that holds `op`.

**Proof sketch.** The write flag that the branch stores is the one that the operation has, so
`exec_op` gets the operation itself; what it returns is what the answer reads from the body. Both
happen on states that differ from the given one in their items only. -/
lemma execReadWrite_eq {g : Daemon} {it : Ptr} {c : Slot} {h : Hdr} {b : Block msgMax} {rid : ℕ} {op : Op}
    (hx : g.item it = ⟨c, h, b.write 0 op.encode, rid⟩) (hlen : h.len.toNat = opSize) :
    ∃ items items' : Ptr → Item,
      let r := execOp env cfg { g with item := items } (.request rid c) (some c) op
      execReadWrite env cfg g it op.write =
        sendResp env (addOps { r.2.2 with item := items' } c 1) rid c h r.1 r.2.1.encode := by
  let x : Item := ⟨c, h, (b.write 0 op.encode).write 1 [op.write], rid⟩
  let g₁ : Daemon := g.setItem it x
  have hx₁ : g₁.item it = x := by simp [g₁, Daemon.setItem]
  let r := execOp env cfg g₁ (.request rid c) (some c) op
  have hr : r.2.2 = { g₁ with io := r.2.2.io } := execOp_io env cfg g₁ (.request rid c) (some c) op
  have hxr : r.2.2.item it = x := by rw [hr]; exact hx₁
  let y : Item := ⟨c, h, x.body.write 0 r.2.1.encode, rid⟩
  -- the operation in the body, and the one that is returned
  have hbody : execBodyOp env cfg g₁ it 0 = (r.1, r.2.2.setItem it y) := by
    unfold execBodyOp
    dsimp only
    rw [hx₁, setWrite_encode]
    show (r.1, r.2.2.setBody it ((r.2.2.item it).body.write 0 r.2.1.encode)) = _
    rw [Daemon.setBody, hxr]
  have hread : y.body.read 0 opSize = r.2.1.encode :=
    x.body.read_write_self 0 r.2.1.encode (by simp [opSize, msgMax])
  refine ⟨g₁.item, (r.2.2.setItem it y).item, ?_⟩
  have hset : g.setBody it ((g.item it).body.write 1 [op.write]) = g₁ := by
    rw [Daemon.setBody, hx]
  have hy : (addOps (r.2.2.setItem it y) c 1).item it = y := by
    simp [addOps, Daemon.setClient, Daemon.setItem]
  show execReadWrite env cfg g it op.write =
    sendResp env (addOps (r.2.2.setItem it y) c 1) rid c h r.1 r.2.1.encode
  unfold execReadWrite
  dsimp only
  rw [hset, hx]
  dsimp only
  rw [if_neg (not_not.mpr hlen), hbody]
  unfold reply
  rw [hy, hread]

/-- **A single request is `exec_op`**, one more operation for the client, and the answer. -/
lemma request_single (g : Daemon) (c : Slot) (l : Label) {op : Op} (hw : op.write = 0 ∨ op.write = 1) :
    ∃ items items' : Ptr → Item,
      let g₁ : Daemon := { g with item := items, lctx := ⟨(g.cl c).id, (g.cl c).comm, l.seq, .none⟩ }
      let r := execOp env cfg g₁ (.request l.rid c) (some c) op
      request env cfg g c l op.single op.encode =
        sendResp env (addOps { r.2.2 with item := items' } c 1) l.rid c (l.hdr op.single op.encode) r.1
          r.2.1.encode := by
  have hx := item_started g c l op.single op.encode
  have hcode : MsgType.ofCode (l.hdr op.single op.encode).type = some op.single :=
    MsgType.ofCode_eq_some.mpr rfl
  have hreq : request env cfg g c l op.single op.encode =
      execReadWrite env cfg (started g c l op.single op.encode) l.it op.write := by
    unfold request execItem
    rw [show (load g c l op.single op.encode).item l.it = _ from hx]
    dsimp only
    rcases hw with hw | hw
    · rw [hcode.trans (congrArg some (if_pos hw)), hw]
      rfl
    · rw [hcode.trans (congrArg some (if_neg (by rw [hw]; decide))), hw]
      rfl
  have hlen : (l.hdr op.single op.encode).len.toNat = opSize := by
    show (UInt32.ofNat op.encode.length).toNat = opSize
    rw [Op.length_encode]
    rfl
  obtain ⟨items, items', h⟩ := execReadWrite_eq env cfg hx hlen
  exact ⟨items, items', hreq.trans h⟩

/-- The states in which both execute the operation are twins. -/
lemma Kin.twin {g g' : Daemon} {c : Slot} (h : Kin L L' g g') (hid : g.lctx.cid = (g.cl c).id)
    (hcomm : g.lctx.comm = (g.cl c).comm) (items : Ptr → Item) (seq : UInt32) (tag : Tag) :
    Twin L L' g { g' with item := items, lctx := ⟨(g'.cl c).id, (g'.cl c).comm, seq, tag⟩ } where
  io := h.io
  ids := h.ids
  comms := h.comms
  owner := h.owner
  inflight := h.inflight
  evs := h.evs
  cid := (h.ids c).trans hid.symm
  comm := (h.comms c).trans hcomm.symm

/-- Register accesses answer nothing. -/
lemma Toil.silent {ag : Agent} {g g' : Daemon} (h : Toil ag g g') :
    ∃ es, g'.evs = g.evs ++ es ∧ es.filterMap Event.answer = [] := by
  obtain ⟨es, he, hby⟩ := h.evs
  refine ⟨es, he, List.filterMap_eq_nil_iff.mpr fun e hmem => ?_⟩
  have hb := hby e hmem
  cases e <;> first | rfl | exact hb.elim

/-- The number of operations of the client is not touched by the answer. -/
lemma nOps_sendResp (g : Daemon) (rid : ℕ) (c : Slot) (req : Hdr) (st : Status) (body : List UInt8) :
    ((sendResp env g rid c req st body).cl c).nOps = (g.cl c).nOps := by
  unfold sendResp
  dsimp only
  split_ifs
  · rfl
  · simp [Daemon.setClient, Daemon.emit]

/-- The count of the client goes up by the operations. -/
lemma nOps_addOps (g : Daemon) (c : Slot) (n : ℕ) :
    ((addOps g c n).cl c).nOps = (g.cl c).nOps + UInt64.ofNat n := by
  simp [addOps, Daemon.setClient]

/-- The end of a request with operations: `n` more of them for the client, and the answer. -/
lemma Aside.of_answer {g : Daemon} (items : Ptr → Item) (c : Slot) (n rid : ℕ) (req : Hdr) (st : Status)
    (body : List UInt8) :
    Aside g (sendResp env (addOps { g with item := items } c n) rid c req st body) := by
  have hadd : Aside g (addOps { g with item := items } c n) :=
    (of_item items g.lctx).trans (of_client c rfl rfl)
  exact hadd.trans (of_sendResp env rid c req st body)

/-- Its only answer is that of the request. -/
lemma answers_end {ag : Agent} {g g₁ : Daemon} (h : Toil ag g g₁) (items : Ptr → Item) (c : Slot)
    (n rid : ℕ) (req : Hdr) (st : Status) (body : List UInt8) :
    ∃ es, (sendResp env (addOps { g₁ with item := items } c n) rid c req st body).evs = g.evs ++ es ∧
      es.filterMap Event.answer = [(st, body)] := by
  obtain ⟨es, he, hnil⟩ := h.silent
  have hsend := (sendResp_spec env (addOps { g₁ with item := items } c n) rid c req st body).1
  have hev : (addOps { g₁ with item := items } c n).evs = g.evs ++ es := he
  rw [hev, List.append_assoc] at hsend
  refine ⟨_, hsend, ?_⟩
  rw [List.filterMap_append, hnil]
  rfl

/-- **One operation, in a batch and as a request.** -/
lemma Kin.single {g g' : Daemon} {c : Slot} {ag : Agent} {op : Op} (h : Kin L L' g g')
    (hid : g.lctx.cid = (g.cl c).id) (hcomm : g.lctx.comm = (g.cl c).comm) (hag : c = ag.client)
    (hw : op.write = 0 ∨ op.write = 1) (l : Label) :
    let r := execOp env cfg g ag (some c) op
    let s := request env cfg g' c l op.single op.encode
    Kin L L' r.2.2 s ∧ (∃ es, s.evs = g'.evs ++ es ∧ es.filterMap Event.answer = [(r.1, r.2.1.encode)]) ∧
      (s.cl c).nOps = (g'.cl c).nOps + 1 := by
  obtain ⟨items, items', hs⟩ := request_single env cfg g' c l hw
  have hag' : (Agent.request l.rid c).client = ag.client := hag
  obtain ⟨hst, hop, ht⟩ := (h.twin hid hcomm items l.seq .none).execOp env cfg hag' c op
  dsimp only at hs ⊢
  rw [hs, hst, hop]
  refine ⟨ht.toKin.congr .refl (.of_answer env items' c 1 l.rid _ _ _), ?_, ?_⟩
  · exact answers_end env (execOp_footprint env cfg _ (some c) op) items' c 1 l.rid _ _ _
  · rw [nOps_sendResp, nOps_addOps]
    show ((execOp env cfg _ _ _ op).2.2.cl c).nOps + _ = _
    rw [execOp_io]
    rfl

/-! ### The loop -/

/-- The batch in item `it` has executed its operations up to `rest` and has `out` to return; the single
requests have come as far. -/
structure InStep (L L' : List Event) (it : Ptr) (c : Slot) (out rest : List Op) (g g' : Daemon) :
    Prop extends Kin L L' g g' where
  client : (g.item it).c = c
  cid : g.lctx.cid = (g.cl c).id
  comm : g.lctx.comm = (g.cl c).comm
  laid : Laid (g.item it).body (out ++ rest)
  fits : opSize * (out ++ rest).length ≤ msgMax

variable {it : Ptr} {c : Slot} {out : List Op} {g g' : Daemon}

/-- **The next operation**: the same status on both sides, and the operation that the request returns is
the one that the batch keeps.

**Proof sketch.** Both sides call `exec_op` on the same operation in states that are kin, the batch
directly and the request by `execReadWrite_eq`; the batch stores the result in its body, where the
operations still to come stay as they are. -/
lemma InStep.next {op : Op} {rest : List Op} (h : InStep L L' it c out (op :: rest) g g')
    (hw : op.write = 0 ∨ op.write = 1) (l : Label) :
    let r := execBodyOp env cfg g it out.length
    let s := request env cfg g' c l op.single op.encode
    ∃ op', InStep L L' it c (out ++ [op']) rest r.2 s ∧
      (∃ es, s.evs = g'.evs ++ es ∧ es.filterMap Event.answer = [(r.1, op'.encode)]) ∧
      (s.cl c).nOps = (g'.cl c).nOps + 1 ∧ (r.2.cl c).nOps = (g.cl c).nOps := by
  have hat : opAt (g.item it).body 0 out.length = op := h.laid.opAt_eq (by simp)
  obtain ⟨hkin, hans, hn⟩ := h.toKin.single env cfg h.cid h.comm
    (show c = (Agent.request (g.item it).rid c).client from rfl) hw l
  unfold execBodyOp
  dsimp only at hkin hans ⊢
  rw [h.client, hat]
  have hio := execOp_io env cfg g (.request (g.item it).rid c) (some c) op
  generalize execOp env cfg g (.request (g.item it).rid c) (some c) op = r at *
  obtain ⟨st, op', g₁⟩ := r
  dsimp only at *
  have hitem : g₁.item = g.item := by rw [hio]
  have hctx : g₁.lctx = g.lctx := by rw [hio]
  have hcl : g₁.cl = g.cl := by rw [hio]
  have hset : (out ++ op :: rest).set out.length op' = (out ++ [op']) ++ rest := by simp
  refine ⟨op', ⟨hkin.congr (.of_item _ _) .refl, ?_, ?_, ?_, ?_, ?_⟩, hans, hn, ?_⟩
  · simp [Daemon.setBody, Daemon.setItem, hitem, h.client]
  · show g₁.lctx.cid = (g₁.cl c).id
    rw [hctx, hcl]
    exact h.cid
  · show g₁.lctx.comm = (g₁.cl c).comm
    rw [hctx, hcl]
    exact h.comm
  · have hlaid : Laid ((g.item it).body.write (opSize * out.length) op'.encode)
        ((out ++ op :: rest).set out.length op') := h.laid.write (by simp) h.fits
    rw [← hset, hitem]
    simpa [Daemon.setBody, Daemon.setItem] using hlaid
  · rw [← hset, List.length_set]
    exact h.fits
  · show (g₁.cl c).nOps = (g.cl c).nOps
    rw [hcl]

/-- Neither goes on after a failure, or after the last operation. -/
lemma stop_of_not (it : Ptr) (c : Slot) (i : ℕ) (g s : Daemon) {st : Status} {rest : List (Label × Op)}
    (h : ¬(st = .ok ∧ rest ≠ [])) :
    (if st = .ok then batchLoop env cfg it rest.length (i + 1) g else (st, i + 1, g)) = (st, i + 1, g) ∧
      (if st = .ok then execSingles env cfg c rest s else s) = s ∧ (st = .ok → rest = []) := by
  by_cases hok : st = .ok
  · have hnil : rest = [] := by
      by_contra hne
      exact h ⟨hok, hne⟩
    subst hok hnil
    exact ⟨rfl, rfl, fun _ => rfl⟩
  · rw [if_neg hok, if_neg hok]
    exact ⟨rfl, rfl, fun h => absurd h hok⟩

/-- **The loop of `BATCH` and the single requests** stop at the same operation with the same status, and
the operations that the requests return are those that the batch keeps.

**Proof sketch.** Induction on the requests, by `InStep.next`. If the operation succeeds and there
are more, both sides go on; otherwise both stop (`stop_of_not`). -/
lemma InStep.run : ∀ {singles : List (Label × Op)} {out : List Op} {g g' : Daemon}, singles ≠ [] →
    InStep L L' it c out (singles.map Prod.snd) g g' →
    (∀ x ∈ singles, x.2.write = 0 ∨ x.2.write = 1) →
    let r := batchLoop env cfg it singles.length out.length g
    let s := execSingles env cfg c singles g'
    ∃ init last, r.2.1 = (out ++ init ++ [last]).length ∧ (init ++ [last]).length ≤ singles.length ∧
      (r.1 = .ok → (init ++ [last]).length = singles.length) ∧
      InStep L L' it c (out ++ init ++ [last]) ((singles.map Prod.snd).drop (init ++ [last]).length) r.2.2 s ∧
      (∃ es, s.evs = g'.evs ++ es ∧ es.filterMap Event.answer =
        init.map (fun op => (Status.ok, op.encode)) ++ [(r.1, last.encode)]) ∧
      (s.cl c).nOps = (g'.cl c).nOps + UInt64.ofNat (init ++ [last]).length ∧
      (r.2.2.cl c).nOps = (g.cl c).nOps := by
  intro singles
  induction singles with
  | nil => exact fun h => absurd rfl h
  | cons x rest ih =>
    obtain ⟨l, op⟩ := x
    intro out g g' _ h hw
    obtain ⟨op', h', ⟨es, he, hans⟩, hn, hn'⟩ := h.next env cfg (hw _ List.mem_cons_self) l
    have hst : (answers g' (request env cfg g' c l op.single op.encode)).map Prod.fst =
        [(execBodyOp env cfg g it out.length).1] := by
      rw [answers, since_eq he, hans]
      rfl
    simp only [List.length_cons, batchLoop, execSingles, hst, List.cons.injEq, and_true]
    generalize execBodyOp env cfg g it out.length = r at *
    generalize request env cfg g' c l op.single op.encode = s at *
    obtain ⟨st, g₁⟩ := r
    dsimp only at *
    -- the batch and the requests end here, or go on with the rest
    by_cases hgo : st = .ok ∧ rest ≠ []
    · obtain ⟨rfl, hne⟩ := hgo
      rw [if_pos rfl, if_pos rfl]
      obtain ⟨init, last, hcount, hle, hall, hin, ⟨es', he', hans'⟩, hm, hm'⟩ :=
        ih hne h' fun x hx => hw x (List.mem_cons_of_mem _ hx)
      have hlen : (out ++ [op']).length = out.length + 1 := by simp
      rw [hlen] at hcount hall hin hans' hm'
      refine ⟨op' :: init, last, ?_, Nat.succ_le_succ hle, ?_, ?_, ⟨es ++ es', ?_, ?_⟩, ?_, hm'.trans hn'⟩
      · rw [hcount]
        simp
      · intro hok
        have hl := hall hok
        simp only [List.length_append, List.length_cons] at hl ⊢
        omega
      · have happ : out ++ [op'] ++ init ++ [last] = out ++ op' :: init ++ [last] := by simp
        rw [happ] at hin
        exact hin
      · rw [he', he, List.append_assoc]
      · rw [List.filterMap_append, hans, hans']
        rfl
      · rw [hm, hn, List.cons_append, List.length_cons, UInt64.ofNat_add, UInt64.add_assoc,
          UInt64.add_comm 1]
        rfl
    · obtain ⟨hb, hs, hlast⟩ := stop_of_not env cfg it c out.length g₁ s hgo
      rw [hb, hs]
      refine ⟨[], op', by simp, by simp, fun hok => by simp [hlast hok], ?_, ⟨es, he, hans⟩, hn, hn'⟩
      rw [List.append_nil]
      exact h'

/-- **A batch is its loop**, the operations executed for the client, and the answer.

**Proof sketch.** The request is a `BATCH` of the right length, so the branch is its loop and the
answer; the loop leaves the header, the client and the number in the item alone. -/
lemma request_batch (g : Daemon) (c : Slot) (l : Label) {ops : List Op} (hpos : 1 ≤ ops.length)
    (hmax : ops.length ≤ batchMax) :
    let r := batchLoop env cfg l.it ops.length 0 (started g c l .batch (ops.flatMap Op.encode))
    request env cfg g c l .batch (ops.flatMap Op.encode) =
      sendResp env (addOps r.2.2 c r.2.1) l.rid c (l.hdr .batch (ops.flatMap Op.encode)) r.1
        ((r.2.2.item l.it).body.read 0 (opSize * ops.length)) := by
  intro r
  have hx := item_started g c l .batch (ops.flatMap Op.encode)
  have hlen : (l.hdr .batch (ops.flatMap Op.encode)).len.toNat = opSize * ops.length := by
    show (UInt32.ofNat (ops.flatMap Op.encode).length).toNat = opSize * ops.length
    rw [length_flatMap_encode, UInt32.toNat_ofNat']
    simp only [opSize, batchMax] at hmax ⊢
    omega
  have hreq : request env cfg g c l .batch (ops.flatMap Op.encode) =
      execBatch env cfg (started g c l .batch (ops.flatMap Op.encode)) l.it := by
    unfold request execItem
    rw [show (load g c l .batch (ops.flatMap Op.encode)).item l.it = _ from hx]
    have hcode : MsgType.ofCode (l.hdr .batch (ops.flatMap Op.encode)).type = some .batch :=
      MsgType.ofCode_eq_some.mpr rfl
    dsimp only
    rw [hcode]
    rfl
  have hn : opSize * ops.length / opSize = ops.length := Nat.mul_div_cancel_left _ (by decide)
  have hmod : opSize * ops.length % opSize = 0 := Nat.mul_mod_right _ _
  have hent : (addOps r.2.2 c r.2.1).entry l.it =
      (started g c l .batch (ops.flatMap Op.encode)).entry l.it :=
    (batchLoop_footprint env cfg l.it ops.length 0 _).entry l.it
  rw [Daemon.entry, Daemon.entry, hx, Entry.mk.injEq] at hent
  obtain ⟨hrid, hc, hhdr⟩ := hent
  rw [hreq]
  unfold execBatch reply
  dsimp only
  rw [hx]
  dsimp only
  rw [hlen, hn, if_neg (by omega)]
  show sendResp env (addOps r.2.2 c r.2.1) ((addOps r.2.2 c r.2.1).item l.it).rid
    ((addOps r.2.2 c r.2.1).item l.it).c ((addOps r.2.2 c r.2.1).item l.it).hdr r.1 _ = _
  rw [hrid, hc, hhdr]
  rfl

/-- Before the first operation. -/
lemma inStep_started (g : Daemon) (c : Slot) (l : Label) {ops : List Op}
    (hfit : opSize * ops.length ≤ msgMax) :
    InStep g.evs g.evs l.it c [] ops (started g c l .batch (ops.flatMap Op.encode)) g where
  io := rfl
  ids := fun _ => rfl
  comms := fun _ => rfl
  owner := rfl
  inflight := rfl
  evs := ⟨[], [], (List.append_nil _).symm, (List.append_nil _).symm, rfl⟩
  client := by rw [item_started]
  cid := rfl
  comm := rfl
  laid := by
    rw [item_started]
    exact laid_write _ ops hfit
  fits := hfit

/-- After the last: the batch returns what it has kept, and answering changes nothing that is compared. -/
lemma InStep.answered {rest : List Op} (h : InStep L L' it c out rest g g') (n rid : ℕ) (req : Hdr)
    (st : Status) {len : ℕ} (hlen : len = opSize * (out ++ rest).length) :
    (g.item it).body.read 0 len = (out ++ rest).flatMap Op.encode ∧
      Kin L L' (sendResp env (addOps g c n) rid c req st ((out ++ rest).flatMap Op.encode)) g' := by
  subst hlen
  exact ⟨h.laid.read_eq, h.toKin.congr (.of_answer env g.item c n rid req st _) .refl⟩

/-- **A batch equals its single requests.** Client `c` has 1 to 64 operations with write flags 0 or 1. It
sends them as one `BATCH`, or one by one as `READ` and `WRITE` with nothing in between up to the first answer
that is not OK. From any state, with the same answers of the device and the clock:

* the register accesses, the refusals and the warnings are the same, in the same order;
* the counters, the trace ring and the lint state are the same;
* the client has the same number of operations;
* the last single answer has the status of the answer of the batch, the earlier ones are OK, and the
  operations that they return, the values read included, are the first in the body of the answer of the
  batch, which ends with the operations that were not executed.

**Proof sketch.** Both go through `exec_op`, on states that are twins. The loop of the batch and the single
requests therefore stay in step, and they end at the same operation. -/
theorem batch_eq_singles (g : Daemon) (c : Slot) (l : Label) (singles : List (Label × Op))
    (hpos : 1 ≤ singles.length) (hmax : singles.length ≤ batchMax)
    (hw : ∀ x ∈ singles, x.2.write = 0 ∨ x.2.write = 1) :
    let ops := singles.map Prod.snd
    let b := request env cfg g c l .batch (ops.flatMap Op.encode)
    let s := execSingles env cfg c singles g
    (since g s).filterMap Event.effect = (since g b).filterMap Event.effect ∧
      s.io.core = b.io.core ∧ (s.cl c).nOps = (b.cl c).nOps ∧
      ∃ st init last,
        answers g b = [(st, (init ++ [last] ++ ops.drop (init ++ [last]).length).flatMap Op.encode)] ∧
        answers g s = init.map (fun op => (Status.ok, op.encode)) ++ [(st, last.encode)] ∧
        (init ++ [last]).length ≤ ops.length ∧ (st = .ok → (init ++ [last]).length = ops.length) := by
  intro ops b s
  have hlen : ops.length = singles.length := List.length_map _
  have hfit : opSize * ops.length ≤ msgMax := by
    simp only [opSize, batchMax, msgMax] at hmax ⊢
    omega
  have hne : singles ≠ [] := List.length_pos_iff.mp hpos
  have hb : b = _ := request_batch env cfg g c l (hlen ▸ hpos) (hlen ▸ hmax)
  have htoil := batchLoop_footprint env cfg l.it ops.length 0
    (started g c l .batch (ops.flatMap Op.encode))
  obtain ⟨init, last, hcount, hle, hall, hin, ⟨es, he, hans⟩, hm, hm'⟩ :=
    (inStep_started g c l hfit).run env cfg hne hw
  rw [← hlen, List.length_nil] at hcount hall hin hans hm'
  rw [List.nil_append] at hcount hin
  generalize batchLoop env cfg l.it ops.length 0 (started g c l .batch (ops.flatMap Op.encode)) = r at *
  obtain ⟨st, n, g₁⟩ := r
  dsimp only at *
  have hkept : (init ++ [last] ++ ops.drop (init ++ [last]).length).length = ops.length := by
    rw [List.length_append, List.length_drop]
    omega
  obtain ⟨hbody, hkin⟩ := hin.answered env n l.rid (l.hdr .batch (ops.flatMap Op.encode)) st
    (congrArg (opSize * ·) hkept.symm)
  obtain ⟨xs, hx₁, hx₂⟩ := answers_end env htoil g₁.item c n l.rid
    (l.hdr .batch (ops.flatMap Op.encode)) st
    ((init ++ [last] ++ ops.drop (init ++ [last]).length).flatMap Op.encode)
  rw [hbody] at hb
  rw [← hb] at hkin
  have hbe : b.evs = g.evs ++ xs := by
    rw [hb]
    exact hx₁
  obtain ⟨ys, zs, hy, hz, heff⟩ := hkin.evs
  refine ⟨?_, hkin.io, ?_, st, init, last, ?_, ?_, by omega, hall⟩
  · rw [since_eq hy, since_eq hz, heff]
  · rw [hm, hb, nOps_sendResp, nOps_addOps, hm', hcount]
    rfl
  · rw [answers, since_eq hbe, hx₂]
  · rw [answers, since_eq he, hans]

end

/-- A write, a read of a slice that does not exist, and another read. -/
def refusedSecond : List (Label × Op) :=
  [(⟨0, 1, 0, 1⟩, ⟨0, 1, 0x1e, 0, 0x10, 0, 7⟩), (⟨1, 2, 0, 2⟩, ⟨9, 0, 0x1e, 0, 0x10, 0, 0⟩),
    (⟨2, 3, 0, 3⟩, ⟨0, 0, 0x1e, 0, 0x10, 0, 0⟩)]

/-- Both ways the second operation is refused, and the third is not executed. -/
theorem batch_eq_singles_refusedSecond :
    let s := execSingles (Env.still 0) Config.plain 0 refusedSecond oneClient
    let b := request (Env.still 0) Config.plain oneClient 0 ⟨0, 1, 0, 1⟩ .batch
      ((refusedSecond.map Prod.snd).flatMap Op.encode)
    (answers oneClient s).map Prod.fst = [.ok, .einval] ∧
      (answers oneClient b).map Prod.fst = [.einval] ∧
      (since oneClient s).filterMap Event.effect = (since oneClient b).filterMap Event.effect ∧
      s.io.core = b.io.core ∧ (s.cl 0).nOps = (b.cl 0).nOps := by
  obtain ⟨heff, hio, hops, -⟩ := batch_eq_singles (Env.still 0) Config.plain oneClient 0 ⟨0, 1, 0, 1⟩
    refusedSecond (by decide) (by decide) (by decide)
  exact ⟨by decide +kernel, by decide +kernel, heff, hio, hops⟩

end Spid

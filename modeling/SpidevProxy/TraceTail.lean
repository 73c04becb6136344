import SpidevProxy.Lib.Ring
import SpidevProxy.Lint
import SpidevProxy.Overrun

set_option relaxedAutoImplicit false
set_option autoImplicit false

/-!
# What `TRACE` answers

`trace_add` writes every register operation into a ring of 1024 entries, under a counter of 32 bits.
`TRACE` prints the entries of the last 64 values of the counter, and those below 64 when the counter is
that small. The counter starts again at 0 after 2^32 operations, and for the next 63 of them `TRACE`
takes the log for a short one.

## Main definitions

* `Spid.recorded` — the entries that `trace_add` has made in a run.
* `Spid.traceTail` — the text of the last 64 of them.

## Main results

* `Spid.logged_run` — the ring holds the last 1024 entries of every run.
* `Spid.trace_tail` — what `TRACE` answers, and when it is the tail of the log.
-/

namespace Spid

open Bytes History Intrusive

/-! ## The log -/

section

variable (env : Env) (cfg : Config)

/-- The entry that `trace_add` makes for an operation: the time, the client, or 0 for a cleanup list, and
the operation with the value that was read. -/
def traceEntry (g : Daemon) (ag : Agent) (c : Option Slot) (op : Op) : TraceEnt :=
  let op' := (execOp env cfg g ag c op).2.1
  ⟨env.clock g.io.nClock, (c.map fun s => (g.cl s).id).getD 0, op'.slice, op'.write, op'.mmd, op'.reg,
    op'.val⟩

/-- The entry that `trace_add` makes in a call: one of `exec_op` that is not refused. -/
def RegCall.recorded (k : RegCall) : Option TraceEnt :=
  match k.work with
  | .op c op =>
    match opRefusal k.pre.mbInflight c op with
    | some _ => none
    | none => some (traceEntry env cfg k.pre k.agent c op)
  | _ => none

/-- **The entries that `trace_add` has made in a run**, oldest first. -/
def recorded (is : List Input) : List TraceEnt :=
  (calls env cfg is).filterMap (RegCall.recorded env cfg)

end

/-- The text of some entries, one line each. -/
def traceLines (es : List TraceEnt) : List UInt8 := ((es.map traceLine).flatten).map charByte

/-- **The text of the last 64 entries of a log**, or of all of them. -/
def traceTail (es : List TraceEnt) : List UInt8 := traceLines (es.drop (es.length - 64))

/-! ## The ring -/

section

variable (env : Env) (cfg : Config)

/-- The detectors leave the trace ring alone. -/
lemma ring_of_lintDeeds {g g' : Daemon} (h : Relation.ReflTransGen LintDeed g g') :
    g'.io.ring = g.io.ring ∧ g'.io.ringW = g.io.ringW := by
  induction h with
  | refl => exact ⟨rfl, rfl⟩
  | tail _ hd ih =>
    cases hd with
    | warn w => exact ih
    | write hl => exact ih

/-- So does `lint_op`. -/
lemma ring_lintOp (g : Daemon) (op : Op) :
    (lintOp env g op).io.ring = g.io.ring ∧ (lintOp env g op).io.ringW = g.io.ringW := by
  have h := ring_of_lintDeeds (lintDeeds_lintOp env g op)
  exact h

/-- **`exec_op` and the ring**: an operation that is not refused is written to the cell that the counter
names, and the counter goes on.

**Proof sketch.** The access leaves the ring alone, `trace_add` writes the cell, and neither the
lint layer nor the event log touches it. -/
lemma ring_execOp {g : Daemon} (ag : Agent) {c : Option Slot} {op : Op}
    (h : opRefusal g.mbInflight c op = none) :
    (execOp env cfg g ag c op).2.2.io.ring = Function.update g.io.ring
        (Fin.ofNat 1024 (g.io.ringW.toNat % 1024)) (traceEntry env cfg g ag c op) ∧
      (execOp env cfg g ag c op).2.2.io.ringW = g.io.ringW + 1 := by
  unfold traceEntry
  rw [execOp_eq, h]
  obtain ⟨-, hfr, -, -, hri, hrw, hcl⟩ := opAccess_spec env cfg g ag op
  dsimp only
  generalize opAccess env cfg g ag op = r at *
  obtain ⟨ok, op', g₁⟩ := r
  dsimp only at *
  have hids : g₁.cl = g.cl := by rw [hfr]
  have htr : (traceAdd env g₁ c op').io.ring = Function.update g.io.ring
      (Fin.ofNat 1024 (g.io.ringW.toNat % 1024)) ⟨env.clock g.io.nClock,
        (c.map fun s => (g.cl s).id).getD 0, op'.slice, op'.write, op'.mmd, op'.reg, op'.val⟩ := by
    rw [← hri, ← hrw, ← hcl, ← hids]
    cases c <;> rfl
  have htw : (traceAdd env g₁ c op').io.ringW = g.io.ringW + 1 := by
    rw [← hrw]
    rfl
  have hlint : (if ok = true then lintOp env (traceAdd env g₁ c op') op'
        else traceAdd env g₁ c op').io.ring = (traceAdd env g₁ c op').io.ring ∧
      (if ok = true then lintOp env (traceAdd env g₁ c op') op'
        else traceAdd env g₁ c op').io.ringW = (traceAdd env g₁ c op').io.ringW := by
    split_ifs
    · exact ring_lintOp env _ op'
    · exact ⟨rfl, rfl⟩
  obtain ⟨-, -, hor, how, -⟩ := logOp_spec cfg (if ok = true then lintOp env (traceAdd env g₁ c op') op'
    else traceAdd env g₁ c op') ag op' ok
  exact ⟨hor.trans (hlint.1.trans htr), how.trans (hlint.2.trans htw)⟩

end

/-! ## The log of a run -/

/-- **The ring and its counter for a log.** -/
structure Logged (g : Daemon) (es : List TraceEnt) : Prop where
  holds : Ring.Holds g.io.ring es
  count : g.io.ringW.toNat = es.length % 2 ^ 32

section

variable {env : Env} {cfg : Config} {g g' : Daemon} {es : List TraceEnt}

/-- What is logged depends on the ring and its counter only. -/
lemma Logged.congr (h : Logged g es) (hr : g'.io.ring = g.io.ring) (hw : g'.io.ringW = g.io.ringW) :
    Logged g' es := ⟨by rw [hr]; exact h.holds, by rw [hw]; exact h.count⟩

/-- An entry is added to the log. -/
lemma Logged.push (h : Logged g es) {e : TraceEnt}
    (hr : g'.io.ring = Function.update g.io.ring (Fin.ofNat 1024 (g.io.ringW.toNat % 1024)) e)
    (hw : g'.io.ringW = g.io.ringW + 1) : Logged g' (es ++ [e]) := by
  have hcell : Fin.ofNat 1024 (g.io.ringW.toNat % 1024) = Fin.ofNat 1024 es.length := by
    apply Ring.ofNat_eq_of_mod
    rw [h.count]
    omega
  refine ⟨?_, ?_⟩
  · rw [hr, hcell]
    exact h.holds.push e
  · rw [hw, UInt32.toNat_add, h.count, List.length_append, List.length_singleton]
    simp

variable (env cfg) in
/-- **One call**: the entry that it makes is added.

**Proof sketch.** A call of `exec_op` is refused and records nothing, or is recorded in the next
cell (`ring_execOp`); the calls of `mb_rd` and `mb_wr` leave the ring alone. -/
lemma Logged.post {k : RegCall} (h : Logged k.pre es) :
    Logged (k.post env cfg) (es ++ (k.recorded env cfg).toList) := by
  by_cases hop : k.isOp = true
  · obtain ⟨c, hw⟩ := RegCall.work_of_isOp hop
    have hpost : k.post env cfg = (execOp env cfg k.pre k.agent c k.op).2.2 := by
      unfold RegCall.post
      rw [hw]
    cases hr : opRefusal k.pre.mbInflight c k.op with
    | some st =>
      have hrec : k.recorded env cfg = none := by
        unfold RegCall.recorded
        rw [hw]
        dsimp only
        rw [hr]
      rw [hrec, hpost, execOp_eq, hr, Option.toList_none, List.append_nil]
      exact h.congr rfl rfl
    | none =>
      have hrec : k.recorded env cfg = some (traceEntry env cfg k.pre k.agent c k.op) := by
        unfold RegCall.recorded
        rw [hw]
        dsimp only
        rw [hr]
      obtain ⟨h₁, h₂⟩ := ring_execOp env cfg k.agent hr
      rw [hrec, hpost]
      exact h.push h₁ h₂
  · have hrec : k.recorded env cfg = none := by
      unfold RegCall.recorded
      split
      · rename_i hw
        exact absurd (RegCall.isOp_of_work hw) hop
      · rfl
    have hm : Mailing k.pre (k.post env cfg) := Mailing.post env cfg (by simpa using hop)
    rw [hrec, Option.toList_none, List.append_nil]
    exact h.congr hm.ring hm.ringW

variable (env cfg) in
/-- **The ring holds the last 1024 entries of every run**, and the counter is their number up to 2^32. -/
theorem logged_run (is : List Input) : Logged (run env cfg is) (recorded env cfg is) := by
  have hboot : Logged (boot env cfg) [] := ⟨Ring.Holds.nil _, by rw [(io_boot env cfg).2.1]; rfl⟩
  obtain ⟨m, hs, hb⟩ := trail_run env cfg is
  have hm : Logged m (recorded env cfg is) := by
    refine Steps.invariant (P := fun ks g => Logged g (ks.filterMap (RegCall.recorded env cfg))) hboot ?_ hs
    rintro ks g k g' - h ⟨hbet, rfl⟩
    have hpost := (h.congr hbet.ring hbet.ringW).post env cfg
    rw [List.filterMap_append]
    convert hpost using 2
    cases hk : k.recorded env cfg with
    | none => simp [hk]
    | some e => simp [hk]
  exact hm.congr hb.ring hb.ringW

end

/-! ## The text -/

/-- The loop of `TRACE` prints every entry: 64 lines are far from the limit. -/
lemma traceLoop_eq (io : Io) : ∀ (k w : ℕ) (t : Txt), t.len + 56 * k ≤ 4032 →
    traceLoop io k w t =
      t.prints ((List.range k).map fun j => traceLine (io.ring (Fin.ofNat 1024 (w + j)))) := by
  have hm : msgMax = 4096 := rfl
  intro k
  induction k with
  | zero => exact fun _ _ _ => rfl
  | succ k ih =>
    intro w t ht
    have hline := (length_traceLine (io.ring (Fin.ofNat 1024 (w % 1024)))).1
    have hcell : Fin.ofNat 1024 (w % 1024) = Fin.ofNat 1024 w :=
      Ring.ofNat_eq_of_mod (Nat.mod_mod w 1024)
    rw [traceLoop_succ, if_pos (by omega), ih _ _ (by rw [Txt.len_snprintf]; omega), hcell,
      List.range_succ_eq_map, List.map_cons, List.map_map]
    have hshift : ((fun j => traceLine (io.ring (Fin.ofNat 1024 (w + j)))) ∘ Nat.succ) =
        fun j => traceLine (io.ring (Fin.ofNat 1024 (w + 1 + j))) := by
      funext j
      show traceLine (io.ring (Fin.ofNat 1024 (w + (j + 1)))) = _
      rw [show w + (j + 1) = w + 1 + j by omega]
    rw [hshift]
    rfl

/-- The lines of entries after entries. -/
lemma traceLines_append (es es' : List TraceEnt) :
    traceLines (es ++ es') = traceLines es ++ traceLines es' := by
  unfold traceLines
  rw [List.map_append, List.flatten_append, List.map_append]

/-- The lines are as long as all of them. -/
lemma length_traceLines (es : List TraceEnt) :
    (traceLines es).length = Txt.width (es.map traceLine) := by
  unfold traceLines Txt.width
  rw [List.length_map, List.length_flatten]

/-- An entry takes at most 56 characters. -/
lemma length_traceLines_le (es : List TraceEnt) : (traceLines es).length ≤ es.length * 56 := by
  have h : Txt.width (es.map traceLine) ≤ (es.map traceLine).length * 56 := Txt.width_le fun s hs => by
    obtain ⟨e, -, rfl⟩ := List.mem_map.mp hs
    exact (length_traceLine e).1
  rwa [List.length_map, ← length_traceLines] at h

/-- A longer part of the log has a longer text. -/
lemma traceLines_drop_ne {es : List TraceEnt} {i j : ℕ} (hij : i < j) (hj : j ≤ es.length) :
    traceLines (es.drop j) ≠ traceLines (es.drop i) := by
  intro h
  have hcons : es.drop i = es.get ⟨i, by omega⟩ :: es.drop (i + 1) := by
    rw [List.get_eq_getElem, List.drop_eq_getElem_cons]
  have hsplit : es.drop (i + 1) = (es.drop (i + 1)).take (j - (i + 1)) ++ es.drop j := by
    conv_lhs => rw [← List.take_append_drop (j - (i + 1)) (es.drop (i + 1))]
    rw [List.drop_drop, show i + 1 + (j - (i + 1)) = j by omega]
  have hpos := List.length_pos_iff.mpr (length_traceLine (es.get ⟨i, by omega⟩)).2
  have hlen := congrArg List.length h
  rw [hcons, hsplit, ← List.singleton_append, traceLines_append, traceLines_append, List.length_append,
    List.length_append, length_traceLines [_], List.map_singleton, Txt.width_cons, Txt.width_nil] at hlen
  omega

/-- **The text of `TRACE`** for a log: the last 64 entries, or as many as the counter says. -/
lemma Logged.traceText {g : Daemon} {es : List TraceEnt} (h : Logged g es) :
    (traceText g.io).bytes = traceLines (es.drop (es.length - min 64 (es.length % 2 ^ 32))) := by
  have hm : msgMax = 4096 := rfl
  obtain ⟨start, k, hk, hsum, htext⟩ : ∃ start k, k = min 64 (es.length % 2 ^ 32) ∧
      start + k = es.length % 2 ^ 32 ∧ Spid.traceText g.io = traceLoop g.io k start Txt.empty := by
    refine ⟨_, _, ?_, ?_, rfl⟩
    · rw [h.count]
      split_ifs <;> omega
    · rw [h.count]
      split_ifs <;> omega
  have hle : k ≤ es.length := by omega
  have hwin := h.holds.window (w := start) (k := k) (by omega) hle (by rw [hsum]; omega)
  rw [htext, traceLoop_eq g.io k start Txt.empty (by show 0 + 56 * k ≤ 4032; omega), ← hk, ← hwin]
  have hlines : ((List.range k).map fun j => traceLine (g.io.ring (Fin.ofNat 1024 (start + j)))) =
      (es.drop (es.length - k)).map traceLine := by
    rw [← hwin, List.map_map]
    rfl
  have hwidth := length_traceLines_le (es.drop (es.length - k))
  rw [length_traceLines, List.length_drop] at hwidth
  rw [hlines, hwin]
  exact Txt.bytes_prints (t := Txt.empty) (by show 0 + _ < msgMax; omega)

/-- A `TRACE` that is executed in a run has one answer. -/
lemma sentBodies_trace {env : Env} {cfg : Config} {is : List Input} {it : Ptr} {g' : Daemon} (i : Input)
    (hex : executing (run env cfg is) = some (it, g'))
    (hk : MsgType.ofCode (g'.item it).hdr.type = some .trace) :
    sentBodies env cfg i (run env cfg is) = [traceLines ((recorded env cfg is).drop
      ((recorded env cfg is).length - min 64 ((recorded env cfg is).length % 2 ^ 32)))] := by
  have hlog : Logged g' (recorded env cfg is) := by
    obtain ⟨budget, rest, pool, -, -, -, rfl⟩ := executing_eq_some hex
    exact (logged_run env cfg is).congr rfl rfl
  rw [sentBodies_of_reply i hex (execItem_trace hk), hlog.traceText]

/-- **What `TRACE` answers.** In every run, a `TRACE` that is executed is answered with the text of the last
`min 64 (N % 2^32)` of the `N` entries that `trace_add` has made, oldest first, one line each; that is at
most 4096 bytes long. It is the text of the last `min 64 N` entries just when the counter has not started
again less than 64 entries ago. -/
theorem trace_tail {env : Env} {cfg : Config} {is : List Input} {it : Ptr} {g' : Daemon} (i : Input)
    (hex : executing (run env cfg is) = some (it, g'))
    (hk : MsgType.ofCode (g'.item it).hdr.type = some .trace) :
    ∃ body, sentBodies env cfg i (run env cfg is) = [body] ∧ body.length ≤ 4096 ∧
      body = traceLines ((recorded env cfg is).drop
        ((recorded env cfg is).length - min 64 ((recorded env cfg is).length % 2 ^ 32))) ∧
      (body = traceTail (recorded env cfg is) ↔
        (recorded env cfg is).length < 2 ^ 32 ∨ 64 ≤ (recorded env cfg is).length % 2 ^ 32) := by
  refine ⟨_, sentBodies_trace i hex hk, ?_, rfl, ?_⟩
  · refine (length_traceLines_le _).trans ?_
    rw [List.length_drop]
    omega
  · generalize recorded env cfg is = es
    rw [traceTail]
    constructor
    · intro he
      by_contra hc
      exact traceLines_drop_ne (i := es.length - 64) (j := es.length - min 64 (es.length % 2 ^ 32))
        (by omega) (by omega) he
    · intro hc
      rw [show es.length - min 64 (es.length % 2 ^ 32) = es.length - 64 by omega]

/-- Client 0 sends a `BATCH` of a write and two reads and client 1 a `READ`; then client 1 sends a
`TRACE`. -/
def fourOpsTraced : List Input :=
  connects [(7, ['a']), (8, ['b'])] ++
    [⟨[.client 0 (datagram .batch 0 1 ([0, 1, 0x1e, 0, 1, 0, 0, 0, 9, 0, 0, 0] ++
        [1, 0, 0x0b, 0, 0x21, 0, 0, 0, 0, 0, 0, 0] ++ [0, 0, 0x1e, 0, 1, 0, 0, 0, 0, 0, 0, 0])),
      .client 1 (datagram .read 0 1 [3, 0, 0x1e, 0, 2, 0, 0, 0, 0, 0, 0, 0])], 64⟩, .none, .none, .none,
    ⟨[.client 1 (datagram .trace 0 2 [])], 64⟩]

/-- The theorem at a run in which four operations of two clients have been recorded. -/
theorem trace_tail_fourOps :
    (recorded (Env.still 0) Config.plain fourOpsTraced).length = 4 ∧
      sentBodies (Env.still 0) Config.plain .none (run (Env.still 0) Config.plain fourOpsTraced) =
        [traceTail (recorded (Env.still 0) Config.plain fourOpsTraced)] := by
  have hall : (recorded (Env.still 0) Config.plain fourOpsTraced).length = 4 := by decide +kernel
  have h : (executing (run (Env.still 0) Config.plain fourOpsTraced)).map (fun p =>
      MsgType.ofCode (p.2.item p.1).hdr.type) = some (some .trace) := by decide +kernel
  obtain ⟨⟨it, g'⟩, hex, hk⟩ := Option.map_eq_some_iff.mp h
  obtain ⟨body, hsent, -, -, htail⟩ := trace_tail .none hex hk
  have hbody := htail.mpr (Or.inl (by rw [hall]; omega))
  rw [hsent, hbody]
  exact ⟨hall, rfl⟩

/-! ## A counter that has started again -/

section

variable {env : Env} {cfg : Config}

/-- A pool with nothing queued, and item 0 in front of the free list. -/
structure EmptyPool (P : Pool 256 3) : Prop where
  free : P.freel = some 0
  heads : ∀ q, P.qh q = none
  tails : ∀ q, P.qt q = none

/-- The only item that is queued is taken. -/
lemma take_single {P : Pool 256 3} (hh : P.qh 0 = some 0) (ht : P.qt 0 = some 0) (hn : P.next 0 = none)
    {p : Ptr → Bool} (hp : p 0 = true) :
    P.take p = some (0, { P with
      qh := Function.update P.qh 0 none, qt := Function.update P.qt 0 none, count := P.count - 1 }) := by
  have hfind : P.findLink p (256 + 1) (.head 0) = some (.head 0, 0) := by
    have hd : P.deref (.head 0) = some 0 := hh
    rw [Pool.findLink, hd]
    exact if_pos hp
  have hstore : P.store (.head 0) none = { P with qh := Function.update P.qh 0 none } := rfl
  have hfrom : P.takeFrom p 0 = some (0, { P with
      qh := Function.update P.qh 0 none, qt := Function.update P.qt 0 none }) := by
    rw [Pool.takeFrom, hfind]
    dsimp only
    rw [hn, hstore, if_pos ht]
    dsimp only
    rw [Function.update_self]
    rfl
  rw [Pool.take, show List.finRange 3 = [0, 1, 2] from rfl, List.findSome?_cons, hfrom]
  rfl

/-- **Put and taken again**: the item in front of the free list is queued, unlinked and released. -/
lemma EmptyPool.cycle {P : Pool 256 3} (h : EmptyPool P) :
    ∃ P₁, P.put 0 = some (0, P₁) ∧ ∀ p : Ptr → Bool, p 0 = true →
      ∃ P₂, P₁.take p = some (0, P₂) ∧ EmptyPool (P₂.release 0) := by
  refine ⟨{ next := Function.update P.next 0 none, freel := P.next 0
            qh := Function.update P.qh 0 (some 0), qt := Function.update P.qt 0 (some 0)
            count := P.count + 1 }, by simp only [Pool.put, h.free, h.tails], fun p hp => ⟨_, take_single
    (by simp) (by simp) (by simp) hp, rfl, fun q => ?_, fun q => ?_⟩⟩
  · show Function.update (Function.update P.qh 0 (some 0)) 0 none q = none
    rw [Function.update_idem]
    by_cases hq : q = 0
    · subst hq
      exact Function.update_self _ _ _
    · rw [Function.update_of_ne hq, h.heads]
  · show Function.update (Function.update P.qt 0 (some 0)) 0 none q = none
    rw [Function.update_idem]
    by_cases hq : q = 0
    · subst hq
      exact Function.update_self _ _ _
    · rw [Function.update_of_ne hq, h.tails]

/-- Nothing is taken from such a pool. -/
lemma EmptyPool.take_eq_none {P : Pool 256 3} (h : EmptyPool P) (p : Ptr → Bool) :
    P.take p = none := by
  have hq : ∀ q, P.takeFrom p q = none := by
    intro q
    simp [Pool.takeFrom, Pool.findLink, Pool.deref, h.heads q]
  rw [Pool.take, List.findSome?_eq_none_iff.mpr fun q _ => hq q]
  rfl

/-- The daemon between two rounds of `main`, with a client and nothing to do. -/
structure Idle (g : Daemon) : Prop where
  stack : g.stack = []
  pool : EmptyPool g.pool
  owner : g.claim.owner = none
  inflight : g.mbInflight = false
  used : (g.cl 0).used = true

/-- A round of `main` with one datagram from the client. -/
def oneMsg (msg : List UInt8) : Input := ⟨[.client 0 msg], 64⟩

/-- `epoll_wait` reports it. -/
lemma epollWait_oneMsg {g : Daemon} (h : (g.cl 0).used = true) (msg : List UInt8) :
    epollWait g (oneMsg msg).evs = [.client 0 msg] := by
  have hopen : (oneMsg msg).evs.filter (EpollEvent.registered g) = [.client 0 msg] := by
    simp [oneMsg, EpollEvent.registered, h]
  rw [epollWait, hopen]
  rfl

/-- The state in which `exec_item` gets the request in a datagram. -/
structure Gets (msg : List UInt8) (g : Daemon) : Prop where
  stack : g.stack = [.drain 63]
  pool : EmptyPool (g.pool.release 0)
  owner : g.claim.owner = none
  inflight : g.mbInflight = false
  used : (g.cl 0).used = true
  hdr : (g.item 0).hdr = Hdr.decode msg
  body : (g.item 0).body.read 0 (Hdr.decode msg).len.toNat = msg.drop hdrSize

variable (env cfg) in
/-- **A request is received and picked at once.**

**Proof sketch.** Follow the step: the datagram is received, framed and enqueued in an empty pool,
and the main loop enters `drain_queues`, whose first round picks it. -/
lemma Idle.gets {g : Daemon} (h : Idle g) {msg : List UInt8} (hok : frameOk msg = true)
    (hp : (Hdr.decode msg).prio = 0) :
    stepCalls env cfg (oneMsg msg) g = [] ∧
      ∃ g', executing (step env cfg (oneMsg msg) g) = some (0, g') ∧ Gets msg g' := by
  obtain ⟨hlen, hmax, hsize⟩ := frameOk_len hok
  have hh : hdrSize = 12 := rfl
  have htake : msg.take (hdrSize + msgMax) = msg := by
    apply List.take_of_length_le
    rw [hlen, List.length_drop] at hmax
    omega
  have hne : msg ≠ [] := by
    rintro rfl
    simp at hsize
    omega
  obtain ⟨P₁, hput, htk⟩ := h.pool.cycle
  -- the datagram is received and enqueued
  obtain ⟨hpool, hclaim, hmb, hused, hhdr, hbody⟩ :
      (handleEvent env cfg g (.client 0 msg)).pool = P₁ ∧
      (handleEvent env cfg g (.client 0 msg)).claim = g.claim ∧
      (handleEvent env cfg g (.client 0 msg)).mbInflight = g.mbInflight ∧
      ((handleEvent env cfg g (.client 0 msg)).cl 0).used = true ∧
      ((handleEvent env cfg g (.client 0 msg)).item 0).hdr = Hdr.decode msg ∧
      ((handleEvent env cfg g (.client 0 msg)).item 0).body.read 0 (Hdr.decode msg).len.toNat =
        msg.drop hdrSize := by
    simp only [handleEvent, h.used, if_true, clientMsg, htake, if_neg hne, clientFrame, hok, enqueue, hp]
    have hput' : (({ g with nRecv := g.nRecv + 1 }.emit (.recv g.nRecv 0 (g.cl 0).fd msg)).setClient 0
        { ({ g with nRecv := g.nRecv + 1 }.emit (.recv g.nRecv 0 (g.cl 0).fd msg)).cl 0 with
          nMsgs := (({ g with nRecv := g.nRecv + 1 }.emit
            (.recv g.nRecv 0 (g.cl 0).fd msg)).cl 0).nMsgs + 1 }).pool.put 0 = some (0, P₁) := hput
    rw [hput']
    refine ⟨rfl, rfl, rfl, ?_, ?_, ?_⟩
    · simp [Daemon.setItem, Daemon.emit, Daemon.setClient, h.used]
    · simp [Daemon.setItem, Daemon.emit]
    · simp only [Daemon.setItem, Daemon.emit, Function.update_self]
      rw [List.take_of_length_le (le_of_eq hlen.symm), hlen]
      exact Block.read_write_self _ _ _ (by omega)
  generalize hg₁ : handleEvent env cfg g (.client 0 msg) = g₁ at *
  subst hpool
  have ho₁ : g₁.claim.owner = none := by rw [hclaim, h.owner]
  have hexp : checkExpiry env cfg g₁ = g₁ := by simp [checkExpiry, ho₁]
  have hstep : step env cfg (oneMsg msg) g = { g₁ with stack := [.drain 64] } := by
    unfold step
    rw [h.stack]
    simp only [mainStep, epollWait_oneMsg h.used, List.foldl_cons, List.foldl_nil, hg₁, hexp]
    rfl
  have hel : itemEligible { g₁ with stack := [.drain 64] } 0 = true := by simp [itemEligible, ho₁]
  obtain ⟨P₂, htake₂, hrel⟩ := htk _ hel
  refine ⟨?_, picked { g₁ with stack := [.drain 64] } 64 0 P₂, ?_, ?_⟩
  · unfold stepCalls
    rw [h.stack]
    simp only [epollWait_oneMsg h.used, eventsCalls, eventCalls, List.foldl_cons, List.foldl_nil, htake, hg₁,
      expiryCalls, ho₁]
    simp [hne]
  · rw [hstep]
    unfold executing
    dsimp only
    rw [if_neg (by decide), htake₂]
    rfl
  · exact ⟨rfl, hrel, ho₁, hmb.trans h.inflight, hused, hhdr, hbody⟩

variable (env cfg) in
/-- The operations of a `BATCH` leave the claim and `g.mb_inflight` alone. -/
lemma claim_batchLoop (it : Ptr) : ∀ (k i : ℕ) (g : Daemon),
    (batchLoop env cfg it k i g).2.2.claim = g.claim ∧
      (batchLoop env cfg it k i g).2.2.mbInflight = g.mbInflight := by
  have hop : ∀ (g : Daemon) (i : ℕ), (execBodyOp env cfg g it i).2.claim = g.claim ∧
      (execBodyOp env cfg g it i).2.mbInflight = g.mbInflight := by
    intro g i
    simp only [execBodyOp]
    rw [execOp_io]
    exact ⟨rfl, rfl⟩
  intro k
  induction k with
  | zero => exact fun _ _ => ⟨rfl, rfl⟩
  | succ k ih =>
    intro i g
    simp only [batchLoop]
    split_ifs
    · rw [(ih _ _).1, (ih _ _).2]
      exact hop g i
    · exact hop g i

variable (env cfg) in
/-- So does the whole branch. -/
lemma claim_execBatch (g : Daemon) (it : Ptr) : (execBatch env cfg g it).claim = g.claim ∧
    (execBatch env cfg g it).mbInflight = g.mbInflight := by
  have hsend : ∀ (g : Daemon) (st : Status) (body : List UInt8),
      (reply env g it st body).claim = g.claim ∧ (reply env g it st body).mbInflight = g.mbInflight := by
    intro g st body
    unfold reply sendResp
    dsimp only
    split_ifs <;> exact ⟨rfl, rfl⟩
  unfold execBatch
  dsimp only
  split_ifs
  · exact hsend g _ _
  · rw [(hsend _ _ _).1, (hsend _ _ _).2]
    exact claim_batchLoop env cfg it _ 0 g

/-- A `BATCH` of one read. -/
def opMsg : List UInt8 := datagram .batch 1 0 (List.replicate 12 0)

variable (env cfg) in
/-- **The read is executed**: it is recorded, and nothing else happens.

**Proof sketch.** The request is a `BATCH` with one operation, which is not refused; the branch
leaves everything else alone (`execItem_executes`, `claim_execBatch`). -/
lemma Gets.exec {g : Daemon} (h : Gets opMsg g) :
    ((itemCalls env cfg g 0).filterMap (RegCall.recorded env cfg)).length = 1 ∧
      (execItem env cfg g 0).1 = none ∧ (execItem env cfg g 0).2.stack = [.drain 63] ∧
      (execItem env cfg g 0).2.pool = g.pool ∧ (execItem env cfg g 0).2.claim.owner = none ∧
      (execItem env cfg g 0).2.mbInflight = false ∧ ((execItem env cfg g 0).2.cl 0).used = true := by
  have hk : MsgType.ofCode (g.item 0).hdr.type = some .batch := by
    rw [h.hdr]
    decide
  have hl : (g.item 0).hdr.len.toNat = 12 := by
    rw [h.hdr]
    decide
  have hx : execItem env cfg g 0 = (none, execBatch env cfg { g with lctx := g.logFor 0 } 0) := by
    unfold execItem
    dsimp only
    rw [hk]
    rfl
  have hop : opAt (g.item 0).body 0 0 = Op.decode (opMsg.drop hdrSize) := by
    rw [← h.body, show (Hdr.decode opMsg).len.toNat = opSize by decide]
    rfl
  have hcalls : itemCalls env cfg g 0 = [bodyCall { g with lctx := g.logFor 0 } 0 0] := by
    simp only [itemCalls, requestCalls, hk, hl]
    rw [if_neg (by decide), show 12 / opSize = 0 + 1 from rfl, batchCalls]
    simp [batchCalls]
  have href : opRefusal g.mbInflight (some (g.item 0).c) (opAt (g.item 0).body 0 0) = none := by
    rw [h.inflight, hop, opRefusal, if_neg (by decide)]
    simp
  have hf := execItem_executes env cfg g 0
  refine ⟨?_, by rw [hx], hf.stack.trans h.stack, hf.pool, ?_, ?_, ?_⟩
  · rw [hcalls, List.filterMap_cons_some (b := traceEntry env cfg { g with lctx := g.logFor 0 }
      (g.agent 0) (some (g.item 0).c) (opAt (g.item 0).body 0 0))]
    · rfl
    · unfold RegCall.recorded bodyCall
      dsimp only
      rw [href]
      rfl
  · rw [hx, (claim_execBatch env cfg _ 0).1]
    exact h.owner
  · rw [hx, (claim_execBatch env cfg _ 0).2]
    exact h.inflight
  · have hid := congrArg (fun p => p.2.1) (hf.ident 0)
    exact hid.trans h.used

/-- One round: a read is sent and executed, and `drain_queues` returns. -/
def opRound : List Input := [oneMsg opMsg, .none, .none]

variable (env cfg) in
/-- **A round records one operation.**

**Proof sketch.** The datagram is received and picked (`Idle.gets`), executed (`Gets.exec`), and
the loop ends with the queues empty again. -/
lemma Idle.round {g : Daemon} (h : Idle g) :
    Idle (opRound.foldl (fun g i => step env cfg i g) g) ∧
      ((callsFrom env cfg opRound g).filterMap (RegCall.recorded env cfg)).length = 1 := by
  have hok : frameOk opMsg = true := by decide
  obtain ⟨hcalls₁, g', hex, hgets⟩ := h.gets env cfg hok (by decide)
  obtain ⟨hrec, hnone, hstack, hpool, howner, hmb, hused⟩ := hgets.exec env cfg
  have hstep₂ : step env cfg .none (step env cfg (oneMsg opMsg) g) = freeItem (execItem env cfg g' 0).2 0 := by
    rw [step_of_executing env cfg .none hex, settle, hnone]
  have hpool₂ : EmptyPool (freeItem (execItem env cfg g' 0).2 0).pool := by
    show EmptyPool ((execItem env cfg g' 0).2.pool.release 0)
    rw [hpool]
    exact hgets.pool
  have hstack₂ : (freeItem (execItem env cfg g' 0).2 0).stack = [.drain 63] := hstack
  have hcalls₂ := stepCalls_of_executing env cfg .none hex
  have hstep₃ : step env cfg .none (freeItem (execItem env cfg g' 0).2 0) =
      popStack (freeItem (execItem env cfg g' 0).2 0) := by
    unfold step
    rw [hstack₂]
    show drainStep env cfg (freeItem (execItem env cfg g' 0).2 0) 63 = _
    unfold drainStep
    rw [if_neg (by decide), hpool₂.take_eq_none]
  have hcalls₃ : stepCalls env cfg .none (freeItem (execItem env cfg g' 0).2 0) = [] := by
    unfold stepCalls
    rw [hstack₂]
    show drainCalls env cfg (freeItem (execItem env cfg g' 0).2 0) 63 = []
    unfold drainCalls
    rw [if_neg (by decide), hpool₂.take_eq_none]
  constructor
  · simp only [opRound, List.foldl_cons, List.foldl_nil, hstep₂, hstep₃]
    exact ⟨by rw [popStack, hstack₂]; rfl, hpool₂, howner, hmb, hused⟩
  · simp only [opRound, callsFrom, hcalls₁, hcalls₂, hstep₂, hcalls₃, List.nil_append, List.append_nil]
    exact hrec

variable (env cfg) in
/-- The calls of inputs after inputs. -/
lemma callsFrom_append : ∀ (is js : List Input) (g : Daemon), callsFrom env cfg (is ++ js) g =
    callsFrom env cfg is g ++ callsFrom env cfg js (is.foldl (fun g i => step env cfg i g) g) := by
  intro is js
  induction is with
  | nil => exact fun _ => rfl
  | cons i is ih =>
    intro g
    rw [List.cons_append, callsFrom, callsFrom, ih, List.append_assoc, List.foldl_cons]

variable (env cfg) in
/-- The log of a longer run. -/
lemma recorded_append (is js : List Input) : recorded env cfg (is ++ js) =
    recorded env cfg is ++
      (callsFrom env cfg js (run env cfg is)).filterMap (RegCall.recorded env cfg) := by
  unfold recorded calls
  rw [callsFrom_append, List.filterMap_append]
  rfl

/-- A client connects, and `drain_queues` returns. -/
def connected : List Input := connects [(7, ['a'])]

/-- A daemon with one client that has sent nothing is idle. -/
lemma idle_connected : Idle (run (Env.still 0) Config.plain connected) where
  stack := rfl
  pool := ⟨rfl, by decide +kernel, by decide +kernel⟩
  owner := rfl
  inflight := rfl
  used := rfl

/-- **Any number of operations can be recorded.** -/
lemma exists_recorded (n : ℕ) : ∃ is, Idle (run (Env.still 0) Config.plain is) ∧
    (recorded (Env.still 0) Config.plain is).length = n := by
  induction n with
  | zero => exact ⟨connected, idle_connected, by decide +kernel⟩
  | succ n ih =>
    obtain ⟨is, hidle, hlen⟩ := ih
    obtain ⟨hidle', hone⟩ := hidle.round (Env.still 0) Config.plain
    refine ⟨is ++ opRound, ?_, ?_⟩
    · rw [run, List.foldl_append]
      exact hidle'
    · rw [recorded_append, List.length_append, hlen, hone]

end

/-- A `TRACE` of high priority. -/
def traceMsg : List UInt8 := datagram .trace 1 0 []

/-- **When 2^32 operations have been recorded, `TRACE` answers with an empty text**, though the log is not
empty.

**Proof sketch.** Record `2 ^ 32` operations, by as many rounds, and ask for the trace: the counter
is 0 again, so no entry is printed, although there are entries. -/
theorem trace_empty : ∃ is it g', executing (run (Env.still 0) Config.plain is) = some (it, g') ∧
    MsgType.ofCode (g'.item it).hdr.type = some .trace ∧
    (recorded (Env.still 0) Config.plain is).length = 2 ^ 32 ∧
    sentBodies (Env.still 0) Config.plain .none (run (Env.still 0) Config.plain is) = [[]] ∧
    traceTail (recorded (Env.still 0) Config.plain is) ≠ [] := by
  obtain ⟨is, hidle, hlen⟩ := exists_recorded (2 ^ 32)
  have hok : frameOk traceMsg = true := by decide
  obtain ⟨hcalls, g', hex, hgets⟩ := hidle.gets (Env.still 0) Config.plain hok (by decide)
  have hrun : run (Env.still 0) Config.plain (is ++ [oneMsg traceMsg]) =
      step (Env.still 0) Config.plain (oneMsg traceMsg) (run (Env.still 0) Config.plain is) := by
    rw [run, List.foldl_append]
    rfl
  have hrec : recorded (Env.still 0) Config.plain (is ++ [oneMsg traceMsg]) =
      recorded (Env.still 0) Config.plain is := by
    rw [recorded_append, callsFrom, hcalls, callsFrom]
    exact List.append_nil _
  have hk : MsgType.ofCode (g'.item 0).hdr.type = some .trace := by
    rw [hgets.hdr]
    decide
  refine ⟨is ++ [oneMsg traceMsg], 0, g', by rw [hrun]; exact hex, hk, by rw [hrec, hlen], ?_, ?_⟩
  · rw [← hrun] at hex
    rw [sentBodies_trace .none hex hk, hrec, hlen, Nat.mod_self, Nat.min_zero, Nat.sub_zero,
      List.drop_of_length_le hlen.le]
    rfl
  · rw [hrec]
    generalize recorded (Env.still 0) Config.plain is = es at hlen
    intro h
    refine traceLines_drop_ne (i := es.length - 64) (j := es.length) (by omega) le_rfl ?_
    rw [List.drop_length]
    exact h.symm

end Spid

import SpidevProxy.InFlight

set_option relaxedAutoImplicit false
set_option autoImplicit false

/-!
# Batches are atomic

From the moment a `READ`, `WRITE` or `BATCH` is picked until it is answered nothing else happens: its
operations are executed in order up to the first that fails, and then the answer is sent. This holds
wherever the request is picked, at the main loop or inside the wait of a mailbox call.

## Main definitions

* `Spid.Tried` — an operation with the event, the status and the returned operation of `exec_op`.
* `Spid.OpsRun` — the same for the operations of a request, up to the first that fails.

## Main results

* `Spid.ops_segment` — the events between the dispatch of a request with operations and its answer.
* `Spid.batch_atomic` — a batch is executed in one piece, and its answer returns its operations.
-/

namespace Spid

open History

/-! ## One operation after the other -/

/-- `exec_op` on an operation of request `r`: what happens, the status, and the operation as it is
returned. Only a successful read changes it, and only its value. -/
inductive Tried (r : Req) (op : Op) : Event → Status → Op → Prop
  | read {x : Access} (hx : x.agent = r.agent) (hop : x.Performs op) (hw : op.write = 0)
      (hok : x.ok = true) : Tried r op (.access x) .ok { op with val := x.val }
  | write {x : Access} (hx : x.agent = r.agent) (hop : x.Performs op) (hw : op.write ≠ 0)
      (hok : x.ok = true) : Tried r op (.access x) .ok op
  | failed {x : Access} (hx : x.agent = r.agent) (hop : x.Performs op) (hok : x.ok = false) :
      Tried r op (.access x) .eio op
  | refused {inflight : Bool} {st : Status} (hst : opRefusal inflight (some r.c) op = some st) :
      Tried r op (.refused r.agent op st) st op

/-- The operations of request `r` executed in order, up to the first that fails: the events, the
status of the last one, and the operations as they are returned. -/
inductive OpsRun (r : Req) : List Op → List Event → Status → List Op → Prop
  | nil : OpsRun r [] [] .ok []
  | cons {op op' : Op} {e : Event} {ops outs : List Op} {es : List Event} {st : Status}
      (h : Tried r op e .ok op') (hs : OpsRun r ops es st outs) :
      OpsRun r (op :: ops) (e :: es) st (op' :: outs)
  | stop {op op' : Op} {e : Event} {ops : List Op} {st : Status} (h : Tried r op e st op')
      (hst : st ≠ .ok) : OpsRun r (op :: ops) [e] st (op' :: ops)

/-- As many operations are returned as were sent. -/
lemma OpsRun.length_eq {r : Req} {ops outs : List Op} {es : List Event} {st : Status}
    (h : OpsRun r ops es st outs) : outs.length = ops.length := by
  induction h with
  | nil => rfl
  | cons _ _ ih => simp [ih]
  | stop _ _ => simp

/-- An attempt is not a note. -/
lemma Tried.notNote {r : Req} {op op' : Op} {e : Event} {st : Status} (h : Tried r op e st op') :
    e.isNote = false := by
  cases h <;> rfl

/-- An access of `exec_op`. -/
lemma Tried.of_access (a : Abs) (r : Req) {op : Op} {val : UInt32} {ok : Bool}
    (hval : op.write ≠ 0 ∨ ok = false → val = op.val) :
    Tried r op (.access (a.access r.agent (op.write ≠ 0) op.slice op.mmd op.reg val ok))
      (if ok then .ok else .eio) (op.after val) := by
  have hop : (a.access r.agent (op.write ≠ 0) op.slice op.mmd op.reg val ok).Performs op :=
    ⟨rfl, rfl, rfl, rfl, fun hw => hval (Or.inl hw)⟩
  cases ok with
  | false =>
    have hafter : op.after val = op := by
      rw [hval (Or.inr rfl), Op.after]
      split_ifs <;> rfl
    rw [hafter]
    exact .failed rfl hop rfl
  | true =>
    by_cases hw : op.write = 0
    · have hafter : op.after val = { op with val := val } := by simp [Op.after, hw]
      rw [hafter]
      exact .read rfl hop hw rfl
    · have hafter : op.after val = op := by simp [Op.after, hw]
      rw [hafter]
      exact .write rfl hop hw rfl

/-- What may happen next during the execution of the operations of a request.

**Proof sketch.** Case analysis of the step. The request has operations, so it is of no other kind
and has the right size: of all transitions only a log line, an access or a refusal of the next
operation, and the answer are left. -/
lemma Step.ops_inv {rst : Bool} {a a' : Abs} {e : Event} {r : Req} {ops out : List Op} {st : Status}
    (h : Step rst a e a') (hact : a.act = .exec r (.ops out st)) (hops : r.ops = some ops)
    (hsized : r.sized = true) :
    (e.isNote = true ∧ a' = a) ∨
      (∃ op st' op', st = .ok ∧ ops[out.length]? = some op ∧ Tried r op e st' op' ∧
        a'.act = .exec r (.ops (out ++ [op']) st')) ∨
      ∃ fd, (st = .ok → out.length = ops.length) ∧
        e = .send r.rid r.c fd (r.hdr.type ||| respBit) st r.hdr.seq
          ((out ++ ops.drop out.length).flatMap Op.encode) := by
  have hmb : r.kind ≠ some .mailbox := fun hk => by simp [Req.ops, hk] at hops
  cases h with
  | note hn => exact Or.inl ⟨hn, rfl⟩
  | access hact₂ ht =>
    obtain ⟨rfl, rfl⟩ := Activity.exec.inj (hact.symm.trans hact₂)
    refine Or.inr (Or.inl ?_)
    generalize hp : Progress.ops out st = p at ht
    cases ht with
    | @op ops' out' op val ok hops' _ hop _ hval =>
      obtain ⟨rfl, rfl⟩ := Progress.ops.inj hp
      obtain rfl := Option.some.inj (hops.symm.trans hops')
      exact ⟨op, _, _, rfl, hop, .of_access a r hval, rfl⟩
    | probe hk => exact absurd hk hmb
    | _ => simp at hp
  | refused hact₂ hops' _ hop hst =>
    obtain ⟨rfl, hp⟩ := Activity.exec.inj (hact.symm.trans hact₂)
    obtain ⟨rfl, rfl⟩ := Progress.ops.inj hp
    obtain rfl := Option.some.inj (hops.symm.trans hops')
    exact Or.inr (Or.inl ⟨_, _, _, rfl, hop, .refused hst, rfl⟩)
  | grant hact₂ hk _ _ =>
    obtain ⟨rfl, -⟩ := Activity.exec.inj (hact.symm.trans hact₂)
    simp [Req.ops, hk] at hops
  | release hact₂ hk _ =>
    obtain ⟨rfl, -⟩ := Activity.exec.inj (hact.symm.trans hact₂)
    simp [Req.ops, hk] at hops
  | reset hact₂ hk _ _ =>
    obtain ⟨rfl, -⟩ := Activity.exec.inj (hact.symm.trans hact₂)
    simp [Req.ops, hk] at hops
  | send hact₂ _ ha =>
    obtain ⟨rfl, rfl⟩ := Activity.exec.inj (hact.symm.trans hact₂)
    refine Or.inr (Or.inr ?_)
    generalize hp : Progress.ops out st = p at ha
    cases ha with
    | ops hops' _ _ _ hst =>
      obtain ⟨rfl, rfl⟩ := Progress.ops.inj hp
      obtain rfl := Option.some.inj (hops.symm.trans hops')
      exact ⟨_, hst, rfl⟩
    | done => simp at hp
    | invalid h => simp [hsized] at h
    | claimed hk => simp [Req.ops, hk] at hops
    | released hk => simp [Req.ops, hk] at hops
    | outOfRange hk => simp [Req.ops, hk] at hops
    | text hk => rcases hk with hk | hk <;> simp [Req.ops, hk] at hops
    | noLine hk => simp [Req.ops, hk] at hops
    | unknown hk => rcases hk with hk | hk | hk | hk <;> simp [Req.ops, hk] at hops
  | _ => simp_all

/-- **The execution of operations is not interrupted.** From a state in which the operations of a
request are being executed, what happens is the rest of the execution, then the answer.

**Proof sketch.** Induction on the history. An event is a log line, the next operation, or the
answer; the answer comes after a failure or after the last operation. -/
lemma ops_segment {rst : Bool} {r : Req} {ops : List Op} (hops : r.ops = some ops)
    (hsized : r.sized = true) {u : Abs} (hu : u.act = .idle) :
    ∀ {es : List Event} {a : Abs} {out : List Op} {st : Status},
      Steps (Step rst) a es u → a.act = .exec r (.ops out st) →
      ∃ seg fd st' outs rest,
        es = seg ++ .send r.rid r.c fd (r.hdr.type ||| respBit) st' r.hdr.seq
          ((out ++ outs).flatMap Op.encode) :: rest ∧
        if st = .ok then OpsRun r (ops.drop out.length) (seg.filter fun e => !e.isNote) st' outs
        else (seg.filter fun e => !e.isNote) = [] ∧ st' = st ∧ outs = ops.drop out.length := by
  intro es
  induction es with
  | nil =>
    intro a out st h hact
    rw [h.nil_inv, hact] at hu
    exact absurd hu (by simp)
  | cons e es ih =>
    intro a out st h hact
    obtain ⟨t, hs, h'⟩ := h.cons_inv
    rcases hs.ops_inv hact hops hsized with ⟨hn, rfl⟩ | ⟨op, st₁, op', rfl, hop, ht, hact'⟩ |
      ⟨fd, hst, rfl⟩
    · obtain ⟨seg, fd, st', outs, rest, rfl, hrun⟩ := ih h' hact
      refine ⟨e :: seg, fd, st', outs, rest, rfl, ?_⟩
      rwa [List.filter_cons_of_neg (by simp [hn])]
    · obtain ⟨seg, fd, st', outs, rest, rfl, hrun⟩ := ih h' hact'
      refine ⟨e :: seg, fd, st', op' :: outs, rest, by simp, ?_⟩
      -- the operation just tried heads what was left of the list
      have hdrop : ops.drop out.length = op :: ops.drop (out ++ [op']).length := by
        obtain ⟨hlt, rfl⟩ := List.getElem?_eq_some_iff.mp hop
        rw [List.length_append, List.length_singleton]
        exact List.drop_eq_getElem_cons hlt
      rw [if_pos rfl, hdrop, List.filter_cons_of_pos (by simp [ht.notNote])]
      split_ifs at hrun with hok
      · subst hok
        exact .cons ht hrun
      · obtain ⟨hseg, rfl, rfl⟩ := hrun
        rw [hseg]
        exact .stop ht hok
    · refine ⟨[], fd, st, ops.drop out.length, es, rfl, ?_⟩
      split_ifs with hok
      · rw [hst hok, List.drop_length, hok]
        exact .nil
      · exact ⟨rfl, rfl, rfl⟩

/-! ## Requests of the wrong size -/

/-- A request of the wrong size is answered at once.

**Proof sketch.** Case analysis of the step. Every transition of a request at work other than a log
line and the answer `EINVAL` needs the right size, or a kind that has no wrong size. -/
lemma Step.invalid_inv {rst : Bool} {a a' : Abs} {e : Event} {r : Req} (h : Step rst a e a')
    (hact : a.act = .exec r (.ops [] .ok)) (hsized : r.sized = false) :
    (e.isNote = true ∧ a' = a) ∨
      ∃ fd, e = .send r.rid r.c fd (r.hdr.type ||| respBit) .einval r.hdr.seq [] := by
  have hall : ∀ {k}, r.kind = some k → k = .release ∨ k = .stats ∨ k = .trace → False := by
    rintro k hk (rfl | rfl | rfl) <;> simp [Req.sized, hk] at hsized
  cases h with
  | note hn => exact Or.inl ⟨hn, rfl⟩
  | access hact₂ ht =>
    obtain ⟨rfl, rfl⟩ := Activity.exec.inj (hact.symm.trans hact₂)
    cases ht with
    | op _ hs => simp [hsized] at hs
    | probe _ hs => simp [hsized] at hs
  | refused hact₂ _ hs _ _ =>
    obtain ⟨rfl, -⟩ := Activity.exec.inj (hact.symm.trans hact₂)
    simp [hsized] at hs
  | grant hact₂ _ hs _ =>
    obtain ⟨rfl, -⟩ := Activity.exec.inj (hact.symm.trans hact₂)
    simp [hsized] at hs
  | release hact₂ hk _ =>
    obtain ⟨rfl, -⟩ := Activity.exec.inj (hact.symm.trans hact₂)
    exact (hall hk (by simp)).elim
  | reset hact₂ _ hs _ =>
    obtain ⟨rfl, -⟩ := Activity.exec.inj (hact.symm.trans hact₂)
    simp [hsized] at hs
  | send hact₂ _ ha =>
    obtain ⟨rfl, rfl⟩ := Activity.exec.inj (hact.symm.trans hact₂)
    refine Or.inr ?_
    cases ha with
    | invalid => exact ⟨_, rfl⟩
    | ops _ hs => simp [hsized] at hs
    | claimed _ hs => simp [hsized] at hs
    | released hk => exact (hall hk (by simp)).elim
    | outOfRange _ hs => simp [hsized] at hs
    | text hk => rcases hk with hk | hk <;> exact (hall hk (by simp)).elim
    | noLine _ hs => simp [hsized] at hs
    | unknown hk => rcases hk with hk | hk | hk | hk <;> simp [Req.sized, hk] at hsized
  | _ => simp_all

/-- A `BATCH` with a wrong length is answered with `SPIPROXY_EINVAL`, and nothing is tried before. -/
lemma invalid_segment {rst : Bool} {r : Req} (hsized : r.sized = false) {u : Abs}
    (hu : u.act = .idle) {es : List Event} {a : Abs} (h : Steps (Step rst) a es u)
    (hact : a.act = .exec r (.ops [] .ok)) :
    ∃ seg fd rest, es = seg ++ .send r.rid r.c fd (r.hdr.type ||| respBit) .einval r.hdr.seq [] :: rest ∧
      ∀ e ∈ seg, e.isNote = true := by
  induction es with
  | nil =>
    rw [h.nil_inv, hact] at hu
    exact absurd hu (by simp)
  | cons e es ih =>
    obtain ⟨t, hs, h'⟩ := h.cons_inv
    rcases hs.invalid_inv hact hsized with ⟨hn, rfl⟩ | ⟨fd, rfl⟩
    · obtain ⟨seg, fd, rest, rfl, hseg⟩ := ih h'
      exact ⟨e :: seg, fd, rest, rfl, by simpa [hn] using hseg⟩
    · exact ⟨[], fd, es, rfl, by simp⟩

/-! ## Batches -/

/-- The first `n` pieces of `k` bytes. -/
lemma flatMap_pieces (l : List UInt8) (k n : ℕ) :
    ((List.range n).flatMap fun i => (l.drop (k * i)).take k) = l.take (k * n) := by
  induction n with
  | zero => simp
  | succ n ih => rw [List.range_succ, List.flatMap_append, ih, Nat.mul_succ, List.take_add]; simp

/-- The operations in a body are the bytes of the body. -/
lemma Req.flatMap_opsFrom {r : Req} {n : ℕ} (h : r.body.length = opSize * n) :
    (r.opsFrom 0 n).flatMap Op.encode = r.body := by
  have hpieces := flatMap_pieces r.body opSize n
  rw [← h, List.take_length] at hpieces
  rw [Req.opsFrom, List.flatMap_map, ← hpieces]
  refine List.flatMap_congr fun i hi => ?_
  rw [List.mem_range] at hi
  have hle : opSize * (i + 1) ≤ opSize * n := Nat.mul_le_mul_left _ hi
  rw [hpieces, Nat.zero_add, Op.encode_decode, List.take_take, min_self]
  rw [List.length_take, List.length_drop]
  rw [Nat.mul_succ] at hle
  omega

/-- **Batches are atomic.** A `BATCH` of the right size is executed in one piece: between its
dispatch and its answer there are, log lines aside, the operations of its body in order up to the
first that fails, and no register is accessed for it at any other time. The answer has the status of
the last operation executed and returns the operations as they were sent, but for the values read.
A `BATCH` of the wrong size is answered without any access.

**Proof sketch.** Split the run at the dispatch. The operations are those of the body because the
length is a multiple of the size of one; `ops_segment` (or `invalid_segment`) gives what follows up
to the answer, and the accesses for a request all lie between its dispatch and its answer. -/
theorem batch_atomic {env : Env} {cfg : Config} {g : Daemon} (h : Reachable env cfg g)
    {pre post : List Event} {en : Entry} {body : List UInt8} {o : Option Slot} {w q : List Entry}
    (he : g.evs = pre ++ .dispatch en body o w q :: post) (hk : en.kind = some .batch) :
    (Req.sized ⟨en, body⟩ = true → ∃ ops seg fd st outs rest,
      body = ops.flatMap Op.encode ∧
      post = seg ++ .send en.rid en.c fd (en.hdr.type ||| respBit) st en.hdr.seq
        (outs.flatMap Op.encode) :: rest ∧
      OpsRun ⟨en, body⟩ ops (seg.filter fun e => !e.isNote) st outs ∧
      outs.length = ops.length ∧
      ∀ x c, Event.access x ∈ pre ++ rest → x.agent ≠ .request en.rid c) ∧
    (Req.sized ⟨en, body⟩ = false → ∃ seg fd rest,
      post = seg ++ .send en.rid en.c fd (en.hdr.type ||| respBit) .einval en.hdr.seq [] :: rest ∧
      (∀ e ∈ seg, e.isNote = true) ∧
      ∀ x c, Event.access x ∈ pre ++ rest → x.agent ≠ .request en.rid c) := by
  have hrun := h.good.run
  rw [he] at hrun
  obtain ⟨t, t', h₀, hs, h₁⟩ := hrun.split_cons
  obtain ⟨-, hq, hact, -⟩ := hs.dispatch_inv
  have hknown : Known pre ⟨en, body⟩ := (Run.ledger h₀).known (List.mem_append_right _ hq)
  -- the accesses for a request lie between its dispatch and its answer
  have houtside : ∀ {seg rest fd st b}, post = seg ++ .send en.rid en.c fd (en.hdr.type ||| respBit)
      st en.hdr.seq b :: rest → ∀ x c, Event.access x ∈ pre ++ rest →
      x.agent ≠ .request en.rid c := by
    rintro seg rest fd st b rfl x c hx
    rcases List.mem_append.mp hx with hx | hx
    · exact hrun.no_access_before hx
    · rw [List.append_cons, ← List.append_assoc] at hrun
      exact hrun.no_access_after hx
  refine ⟨fun hsized => ?_, fun hsized => ?_⟩
  · have hops : Req.ops ⟨en, body⟩ = some (Req.opsFrom ⟨en, body⟩ 0 (en.hdr.len.toNat / opSize)) := by
      simp only [Req.ops, hk]
      rfl
    obtain ⟨seg, fd, st, outs, rest, hpost, hseg⟩ := ops_segment hops hsized rfl h₁ hact
    rw [if_pos rfl, List.length_nil, List.drop_zero] at hseg
    have hmod : en.hdr.len.toNat % opSize = 0 := by
      simp only [Req.sized, hk, Bool.and_eq_true, decide_eq_true_eq] at hsized
      exact hsized.2
    have hlen : body.length = opSize * (en.hdr.len.toNat / opSize) := by
      rw [Nat.mul_div_cancel' (Nat.dvd_of_mod_eq_zero hmod)]
      exact hknown.length_body
    have hbody : (Req.opsFrom ⟨en, body⟩ 0 (en.hdr.len.toNat / opSize)).flatMap Op.encode = body :=
      Req.flatMap_opsFrom hlen
    exact ⟨_, seg, fd, st, outs, rest, hbody.symm, hpost, hseg, hseg.length_eq, houtside hpost⟩
  · obtain ⟨seg, fd, rest, hpost, hseg⟩ := invalid_segment hsized rfl h₁ hact
    exact ⟨seg, fd, rest, hpost, hseg, houtside hpost⟩

/-- Client 0 sends a `MAILBOX` with a long timeout, and client 1 a `BATCH` of a read, an operation on
a slice that does not exist and another read. -/
def batchDuringMailbox : Daemon :=
  run Env.ticking Config.plain
    (connects [(7, ['a']), (8, ['b'])] ++
      [⟨[.client 0 (datagram .mailbox 0 1 [0, 5, 0, 0, 0xff, 0xff, 0xff, 0xff]),
        .client 1 (datagram .batch 0 1 ([0, 0, 0x1e, 0, 1, 0, 0, 0, 9, 0, 0, 0] ++
          [4, 0, 0x1e, 0, 1, 0, 0, 0, 9, 0, 0, 0] ++ [0, 0, 0x1e, 0, 1, 0, 0, 0, 9, 0, 0, 0]))], 64⟩,
      .none, .none, .none])

/-- The picks of `BATCH` requests inside the wait of a mailbox call. -/
def isNestedBatch : Event → Bool
  | .dispatch en body _ w _ => en.kind = some .batch && Req.sized ⟨en, body⟩ && !w.isEmpty
  | _ => false

/-- The theorem at a run in which a batch is executed inside the wait of a mailbox call. -/
theorem batch_atomic_duringMailbox :
    ∃ pre en body o w q post, batchDuringMailbox.evs = pre ++ .dispatch en body o w q :: post ∧
      w ≠ [] ∧ ∃ ops seg fd st outs rest, body = ops.flatMap Op.encode ∧
        post = seg ++ .send en.rid en.c fd (en.hdr.type ||| respBit) st en.hdr.seq
          (outs.flatMap Op.encode) :: rest ∧
        OpsRun ⟨en, body⟩ ops (seg.filter fun e => !e.isNote) st outs := by
  have hex : ∃ e ∈ batchDuringMailbox.evs, isNestedBatch e = true := by decide +kernel
  obtain ⟨e, hm, hn⟩ := hex
  obtain ⟨pre, post, he⟩ := List.append_of_mem hm
  cases e with
  | dispatch en body o w q =>
    simp only [isNestedBatch, Bool.and_eq_true, decide_eq_true_eq, Bool.not_eq_true',
      List.isEmpty_eq_false_iff] at hn
    obtain ⟨⟨hk, hsized⟩, hw⟩ := hn
    have hr : Reachable Env.ticking Config.plain batchDuringMailbox := Reachable.run _ _ _
    obtain ⟨ops, seg, fd, st, outs, rest, hb, hp, hrun, -⟩ := (batch_atomic hr he hk).1 hsized
    exact ⟨pre, en, body, o, w, q, post, he, hw, ops, seg, fd, st, outs, rest, hb, hp, hrun⟩
  | _ => simp [isNestedBatch] at hn

end Spid

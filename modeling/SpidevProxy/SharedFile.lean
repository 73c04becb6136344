import SpidevProxy.Lib.Linear
import SpidevProxy.Batch
import SpidevProxy.Bus

set_option relaxedAutoImplicit false
set_option autoImplicit false

/-!
# The daemon is a linearizable register file

To its clients the daemon is a register file that they share: a `READ`, a `WRITE` or a `BATCH` takes
effect at one point between its arrival and its answer, as a whole, and the answer returns what the
registers held at that point. The order of these points is one sequential run of the register file
for all clients, and it agrees with real time. The accesses of mailbox calls and of cleanup lists are
steps of that run by themselves: a mailbox call is not one transaction, since requests are executed
while it waits.

## Main definitions

* `Spid.OpStep`, `Spid.BatchStep` — an operation, and a list of operations, on a register file.
* `Spid.Txn`, `Spid.TxnStep` — the transactions: a request, or a single access.
* `Spid.Cut` — a history cut into transactions.

## Main results

* `Spid.cut_of_steps` — every history can be cut.
* `Spid.register_file_linearizable` — the requests of all clients, in the order of their dispatch, are
  a sequential run of the register file that agrees with real time.
-/

namespace Spid

open History Linear

/-! ## The sequential register file -/

/-- The register that an operation addresses, as it goes over the wire. -/
def Op.addr (op : Op) : ℕ := (spiAddr op.slice op.mmd op.reg).toNat % 2 ^ 23

section

variable (drift : (ℕ → UInt32) → (ℕ → UInt32) → Prop)

/-- An operation of client `c` on the register file: the status, the operation as it is returned, and
the registers after it. A write whose transfer fails may have been stored. -/
inductive OpStep (c : Slot) (regs : ℕ → UInt32) (op : Op) : Status → Op → (ℕ → UInt32) → Prop
  | read {regs' : ℕ → UInt32} (hw : op.write = 0) (hd : Relation.ReflTransGen drift regs regs') :
      OpStep c regs op .ok { op with val := regs op.addr } regs'
  | write {regs' : ℕ → UInt32} (hw : op.write ≠ 0)
      (hd : Relation.ReflTransGen drift (Function.update regs op.addr op.val) regs') :
      OpStep c regs op .ok op regs'
  | failed {regs' : ℕ → UInt32} (hd : Relation.ReflTransGen drift regs regs') :
      OpStep c regs op .eio op regs'
  | failedWrite {regs' : ℕ → UInt32} (hw : op.write ≠ 0)
      (hd : Relation.ReflTransGen drift (Function.update regs op.addr op.val) regs') :
      OpStep c regs op .eio op regs'
  | refused {inflight : Bool} {st : Status} (hst : opRefusal inflight (some c) op = some st) :
      OpStep c regs op st op regs

/-- The operations of a request on the register file, up to the first that fails. -/
inductive BatchStep (c : Slot) :
    (ℕ → UInt32) → List Op → Status → List Op → (ℕ → UInt32) → Prop
  | nil {regs : ℕ → UInt32} : BatchStep c regs [] .ok [] regs
  | cons {regs regs₁ regs₂ : ℕ → UInt32} {op op' : Op} {ops outs : List Op} {st : Status}
      (h : OpStep drift c regs op .ok op' regs₁) (hs : BatchStep c regs₁ ops st outs regs₂) :
      BatchStep c regs (op :: ops) st (op' :: outs) regs₂
  | stop {regs regs₁ : ℕ → UInt32} {op op' : Op} {ops : List Op} {st : Status}
      (h : OpStep drift c regs op st op' regs₁) (hst : st ≠ .ok) :
      BatchStep c regs (op :: ops) st (op' :: ops) regs₁

/-- A transaction: a request with operations and its answer, or an access that belongs to none. -/
inductive Txn
  | request (r : Req) (st : Status) (outs : List Op)
  | access (x : Access)

/-- The number of the request. -/
def Txn.rid : Txn → Option ℕ
  | .request r _ _ => some r.rid
  | .access _ => none

/-- A transaction on the register file. -/
inductive TxnStep : (ℕ → UInt32) → Txn → (ℕ → UInt32) → Prop
  | request {regs regs' : ℕ → UInt32} {r : Req} {ops outs : List Op} {st : Status}
      (hops : r.ops = some ops) (h : BatchStep drift r.c regs ops st outs regs') :
      TxnStep regs (.request r st outs) regs'
  | access {regs regs' : ℕ → UInt32} {x : Access} (h : FlatStep drift regs x.record regs') :
      TxnStep regs (.access x) regs'

end

section

variable {drift : (ℕ → UInt32) → (ℕ → UInt32) → Prop} {regs regs' : ℕ → UInt32} {r : Req}

/-- An access that performs an operation is a step of the flat register file on its register. -/
lemma FlatStep.performs {x : Access} {op : Op} (h : FlatStep drift regs x.record regs')
    (hop : x.Performs op) :
    (op.write = 0 ∧ (x.ok = true → x.val = regs op.addr) ∧ Relation.ReflTransGen drift regs regs') ∨
      (op.write ≠ 0 ∧ (Relation.ReflTransGen drift (Function.update regs op.addr op.val) regs' ∨
        x.ok = false ∧ Relation.ReflTransGen drift regs regs')) := by
  unfold Access.record at h
  by_cases hw : op.write = 0
  · rw [if_neg (by simp [hop.write, hw]), hop.slice, hop.mmd, hop.reg] at h
    refine Or.inl ⟨hw, ?_⟩
    generalize hv : (if x.ok then some x.val else none) = v at h
    cases h with
    | read hread hd =>
      refine ⟨fun hok => hread _ ?_, hd⟩
      rw [← hv, if_pos hok]
  · rw [if_pos (by simp [hop.write, hw]), hop.slice, hop.mmd, hop.reg, hop.val hw] at h
    refine Or.inr ⟨hw, ?_⟩
    generalize hok : x.ok = ok at h
    cases h with
    | write hd => exact Or.inl hd
    | lost hd => exact Or.inr ⟨hok ▸ rfl, hd⟩

/-- An event that is no access, -/
lemma accesses_cons {e : Event} {es : List Event} (h : e.accessed = none) :
    accesses (e :: es) = accesses es :=
  List.filterMap_cons_none h

/-- and one that is. -/
lemma accesses_access (x : Access) (es : List Event) :
    accesses (.access x :: es) = x :: accesses es := rfl

/-- `exec_op` on an operation is the operation on the register file. -/
lemma Tried.opStep {op op' : Op} {e : Event} {st : Status} (h : Tried r op e st op')
    (hf : Steps (FlatStep drift) regs ((accesses [e]).map Access.record) regs') :
    OpStep drift r.c regs op st op' regs' := by
  cases h with
  | read hx hop hw hok =>
    rcases hf.single_inv.performs hop with ⟨-, hval, hd⟩ | ⟨hw', -⟩
    · rw [hval hok]
      exact .read hw hd
    · exact absurd hw hw'
  | write hx hop hw hok =>
    rcases hf.single_inv.performs hop with ⟨hw', -⟩ | ⟨-, hd | ⟨hok', -⟩⟩
    · exact absurd hw' hw
    · exact .write hw hd
    · simp [hok] at hok'
  | failed hx hop hok =>
    rcases hf.single_inv.performs hop with ⟨-, -, hd⟩ | ⟨hw, hd | ⟨-, hd⟩⟩
    · exact .failed hd
    · exact .failedWrite hw hd
    · exact .failed hd
  | refused hst =>
    rw [hf.nil_inv]
    exact .refused hst

/-- The accesses of two histories, one after the other. -/
lemma flat_append {es es' : List Event}
    (h : Steps (FlatStep drift) regs ((accesses (es ++ es')).map Access.record) regs') :
    ∃ regs₁, Steps (FlatStep drift) regs ((accesses es).map Access.record) regs₁ ∧
      Steps (FlatStep drift) regs₁ ((accesses es').map Access.record) regs' := by
  rw [accesses_append, List.map_append] at h
  exact h.split

/-- **The operations of a request** as they were executed are its operations on the register file. -/
lemma OpsRun.batchStep {ops outs : List Op} {es : List Event} {st : Status}
    (h : OpsRun r ops es st outs) {regs : ℕ → UInt32}
    (hf : Steps (FlatStep drift) regs ((accesses es).map Access.record) regs') :
    BatchStep drift r.c regs ops st outs regs' := by
  induction h generalizing regs with
  | nil =>
    rw [hf.nil_inv]
    exact .nil
  | @cons op op' e ops outs es st ht hs ih =>
    obtain ⟨regs₁, h₁, h₂⟩ := @flat_append drift regs regs' [e] es hf
    exact .cons (ht.opStep h₁) (ih h₂)
  | stop ht hst => exact .stop (ht.opStep hf) hst

end

/-! ## A history in transactions -/

/-- The requests that are one transaction: a `READ`, `WRITE` or `BATCH` of the right size. -/
def Req.isTxn (r : Req) : Bool := r.ops.isSome && r.sized

/-- The transactions are the requests with operations and of the right size. -/
lemma Req.isTxn_iff {r : Req} : r.isTxn = true ↔ (∃ ops, r.ops = some ops) ∧ r.sized = true := by
  rw [Req.isTxn, Bool.and_eq_true, Option.isSome_iff_exists]

/-- The point at which a request takes effect: its dispatch. -/
def Event.takesEffect : Event → Option ℕ
  | .dispatch en body _ _ _ => if Req.isTxn ⟨en, body⟩ then some en.rid else none
  | _ => none

/-- The invocation of a request: the arrival of its datagram. -/
def Event.invokes : Event → Option ℕ
  | .recv rid _ _ _ => some rid
  | _ => none

/-- The datagram `rid` is a request that is one transaction. -/
def Event.asksTxn (rid : ℕ) : Event → Bool
  | .recv rid' c _ msg => rid' = rid && frameOk msg && (frameReq rid' c msg).isTxn
  | _ => false

/-- The answer to such a request. One with an empty body turns a datagram down that was not queued. -/
def Event.returns (es : List Event) : Event → Option ℕ
  | .send rid _ _ _ _ _ body => if es.any (Event.asksTxn rid) && !body.isEmpty then some rid else none
  | _ => none

/-- An access that belongs to no such request: it is made for a cleanup list or a `MAILBOX`. -/
def Access.Apart (es : List Event) (x : Access) : Prop :=
  (∃ rid c, x.agent = .cleanup rid c) ∨
    ∃ r, Known es r ∧ r.kind = some .mailbox ∧ x.agent = r.agent

/-- **A history cut into transactions**: the requests with their dispatch, what was done for them and
their answer, the accesses that belong to no request, and the other events. -/
inductive Cut (P : Access → Prop) : List Event → List Txn → Prop
  | nil : Cut P [] []
  | skip {e : Event} {es : List Event} {ts : List Txn} (ha : e.accessed = none)
      (hp : e.takesEffect = none) (h : Cut P es ts) : Cut P (e :: es) ts
  | access {x : Access} {es : List Event} {ts : List Txn} (hx : P x) (h : Cut P es ts) :
      Cut P (.access x :: es) (.access x :: ts)
  | request {r : Req} {o : Option Slot} {w q : List Entry} {seg es : List Event} {ops outs : List Op}
      {st : Status} {fd : ℕ} {ts : List Txn} (hr : r.isTxn = true) (hops : r.ops = some ops)
      (hrun : OpsRun r ops (seg.filter fun e => !e.isNote) st outs) (h : Cut P es ts) :
      Cut P (.dispatch r.toEntry r.body o w q :: (seg ++
          .send r.rid r.c fd (r.hdr.type ||| respBit) st r.hdr.seq (outs.flatMap Op.encode) :: es))
        (.request r st outs :: ts)

/-- No transaction is under way. -/
def Activity.Apart (act : Activity) : Prop :=
  ∀ r out st, act = .exec r (.ops out st) → r.isTxn = false

/-- Whoever is not inside a transaction is apart. -/
lemma Activity.Apart.of_ne {act : Activity} (h : ∀ r out st, act ≠ .exec r (.ops out st)) :
    act.Apart :=
  fun r out st hact => absurd hact (h r out st)

/-- An access outside every transaction starts none. -/
lemma Touch.apart {a : Abs} {r : Req} {p p' : Progress} {x : Access} (h : Touch a r p x p')
    (ha : (Activity.exec r p).Apart) : (Activity.exec r p').Apart := by
  cases h with
  | op hops hsized => exact absurd (Req.isTxn_iff.mpr ⟨⟨_, hops⟩, hsized⟩) (by simp [ha _ _ _ rfl])
  | probe => split_ifs <;> exact .of_ne (by simp)
  | word => split_ifs <;> exact .of_ne (by simp)
  | mask => split_ifs <;> exact .of_ne (by simp)
  | enable => split_ifs <;> exact .of_ne (by simp)
  | noBell => exact .of_ne (by simp)
  | fetch => split_ifs <;> exact .of_ne (by simp)
  | clear => exact .of_ne (by simp)

/-- So is the cleanup. -/
lemma Abs.cleaning_apart (a : Abs) (rid : ℕ) (c : Slot) (todo : List Op) :
    (a.cleaning rid c todo).act.Apart :=
  .of_ne fun _ _ _ => a.cleaning_notExec rid c todo _ _

/-- **Only a dispatch starts a transaction.** -/
lemma Step.apart {rst : Bool} {a a' : Abs} {e : Event} (h : Step rst a e a') (ha : a.act.Apart)
    (he : e.takesEffect = none) : a'.act.Apart := by
  cases h with
  | note => exact ha
  | connect => exact ha
  | disconnect => exact ha
  | claimEnd => exact a.cleaning_apart _ _ _
  | cleanupAccess => exact a.cleaning_apart _ _ _
  | cleanupRefused => exact a.cleaning_apart _ _ _
  | @dispatch _ _ _ r =>
    intro r' out st hact
    obtain ⟨rfl, -⟩ := Activity.exec.inj hact
    simpa [Event.takesEffect] using he
  | access hact ht => exact ht.apart (hact ▸ ha)
  | poll => exact ha
  | wake _ _ hk => cases hk <;> exact .of_ne (by simp)
  | refused hact hops hsized =>
    exact absurd (Req.isTxn_iff.mpr ⟨⟨_, hops⟩, hsized⟩) (by simp [ha _ _ _ hact])
  | _ => exact .of_ne (by simp)

/-- Only a mailbox call accesses a register outside every transaction, or a cleanup list. -/
lemma Touch.mailbox {a : Abs} {r : Req} {p p' : Progress} {x : Access} (h : Touch a r p x p')
    (ha : (Activity.exec r p).Apart) (hp : p.ofMailbox = true → r.IsMailbox) :
    r.kind = some .mailbox := by
  cases h with
  | op hops hsized => exact absurd (Req.isTxn_iff.mpr ⟨⟨_, hops⟩, hsized⟩) (by simp [ha _ _ _ rfl])
  | probe hk => exact hk
  | _ => exact (hp rfl).kind

/-- Outside of transactions only cleanups and mailbox calls access the bus. -/
lemma Step.access_apart {rst : Bool} {a a' : Abs} {x : Access} (h : Step rst a (.access x) a')
    (hb : Basics a) (ha : a.act.Apart) :
    (∃ rid c, x.agent = .cleanup rid c) ∨
      ∃ r ∈ a.executing, r.kind = some .mailbox ∧ x.agent = r.agent := by
  have hact_mem : ∀ {r p}, a.act = .exec r p → r ∈ a.executing := fun hact =>
    Abs.mem_executing.mpr (Or.inr ⟨_, hact⟩)
  have hwait_mem : ∀ {r rest}, a.waiting = r :: rest → r ∈ a.executing ∧ r.kind = some .mailbox := by
    intro r rest hw
    have hr : r ∈ a.waiting := hw ▸ List.mem_cons_self
    exact ⟨Abs.mem_executing.mpr (Or.inl hr), (hb.waiting r hr).kind⟩
  cases h with
  | note hn => simp [Event.isNote] at hn
  | cleanupAccess => exact Or.inl ⟨_, _, rfl⟩
  | access hact ht =>
    exact Or.inr ⟨_, hact_mem hact, ht.mailbox (hact ▸ ha) (hb.exec _ _ hact), ht.agent.1⟩
  | doorbell hact => exact Or.inr ⟨_, hact_mem hact, (hb.exec _ _ hact rfl).kind, rfl⟩
  | poll _ hw _ => exact Or.inr ⟨_, (hwait_mem hw).1, (hwait_mem hw).2, rfl⟩
  | wake _ hw hk => exact Or.inr ⟨_, (hwait_mem hw).1, (hwait_mem hw).2, hk.agent.1⟩

/-- After the answer to a request nothing is going on. -/
lemma Step.send_idle {rst : Bool} {a a' : Abs} {rid : ℕ} {c : Slot} {fd : ℕ} {type : UInt8}
    {st : Status} {seq : UInt32} {body : List UInt8}
    (h : Step rst a (.send rid c fd type st seq body) a') : a'.act = .idle := by
  cases h with
  | note hn => simp [Event.isNote] at hn
  | reject => rfl
  | send => rfl

/-- **Every history can be cut into transactions.**

**Proof sketch.** Strong induction on the history. At the dispatch of a transaction the events up to
its answer are cut out, since its execution is not interrupted; any other event is an access of a
mailbox call or of a cleanup list, or no access. -/
lemma cut_of_steps {rst : Bool} {all : List Event} {u : Abs} (hu : u.act = .idle) (n : ℕ) :
    ∀ {pre es : List Event} {a : Abs}, es.length ≤ n → all = pre ++ es → Run rst pre a →
      Steps (Step rst) a es u → a.act.Apart → ∃ ts, Cut (Access.Apart all) es ts := by
  induction n with
  | zero =>
    intro pre es a hn _ _ _ _
    obtain rfl := List.length_eq_zero_iff.mp (Nat.le_zero.mp hn)
    exact ⟨[], .nil⟩
  | succ n ih =>
    intro pre es a hn hall hpre h ha
    cases es with
    | nil => exact ⟨[], .nil⟩
    | cons e es =>
      obtain ⟨t, hs, h'⟩ := h.cons_inv
      have hn' : es.length ≤ n := Nat.le_of_succ_le_succ hn
      cases hp : e.takesEffect with
      | none =>
        obtain ⟨ts, hts⟩ := ih hn' (by rw [hall]; simp) (hpre.snoc hs) h' (hs.apart ha hp)
        cases hx : e.accessed with
        | none => exact ⟨ts, .skip hx hp hts⟩
        | some x =>
          obtain rfl : e = .access x := by
            cases e <;> simp only [Event.accessed, Option.some.injEq, reduceCtorEq] at hx
            rw [hx]
          refine ⟨.access x :: ts, .access ?_ hts⟩
          refine (hs.access_apart (Run.basics hpre) ha).imp_right ?_
          rintro ⟨r, hr, hk, hagent⟩
          have hknown := (Run.ledger hpre).known (List.mem_append_left _ hr)
          exact ⟨r, hall ▸ hknown.mono, hk, hagent⟩
      | some rid =>
        cases e with
        | dispatch en body o w q =>
          simp only [Event.takesEffect, Option.ite_none_right_eq_some] at hp
          obtain ⟨⟨ops, hops⟩, hsized⟩ := Req.isTxn_iff.mp hp.1
          obtain ⟨-, -, hact, -⟩ := hs.dispatch_inv
          obtain ⟨seg, fd, st, outs, rest, rfl, hseg⟩ := ops_segment hops hsized hu h' hact
          rw [if_pos rfl, List.length_nil, List.drop_zero] at hseg
          obtain ⟨t₁, t₂, h₁, hsend, h₂⟩ := h'.split_cons
          have hrest : rest.length ≤ n := by
            simp only [List.length_append, List.length_cons] at hn'
            omega
          obtain ⟨ts, hts⟩ := ih hrest (by rw [hall]; simp)
            (((hpre.snoc hs).trans h₁).snoc hsend) h₂
            (.of_ne (by rw [hsend.send_idle]; simp))
          exact ⟨_, .request hp.1 hops hseg hts⟩
        | _ => simp [Event.takesEffect] at hp

/-! ## What a cut tells -/

section

variable {P : Access → Prop} {es : List Event} {ts : List Txn}

/-- The events for the operations of a request are accesses or refusals. -/
lemma OpsRun.takesEffect {r : Req} {ops outs : List Op} {st : Status} (h : OpsRun r ops es st outs) :
    es.filterMap Event.takesEffect = [] := by
  have htried : ∀ {op op' e st}, Tried r op e st op' → e.takesEffect = none := by
    intro op op' e st ht
    cases ht <;> rfl
  induction h with
  | nil => rfl
  | cons ht _ ih => rw [List.filterMap_cons_none (htried ht), ih]
  | stop ht _ => rw [List.filterMap_cons_none (htried ht), List.filterMap_nil]

/-- Log lines and warnings aside, a history shows the same. -/
lemma filterMap_notes {α : Type} {f : Event → Option α} (hf : ∀ e, e.isNote = true → f e = none)
    (es : List Event) : (es.filter fun e => !e.isNote).filterMap f = es.filterMap f := by
  induction es with
  | nil => rfl
  | cons e es ih =>
    by_cases hn : e.isNote = true
    · rw [List.filter_cons_of_neg (by simp [hn]), ih, List.filterMap_cons_none (hf e hn)]
    · rw [List.filter_cons_of_pos (by simp [hn]), List.filterMap_cons, List.filterMap_cons, ih]

/-- The accesses of a request, from its dispatch `e` to its answer `e'`. -/
lemma accesses_segment {e e' : Event} (he : e.accessed = none) (he' : e'.accessed = none)
    (seg es : List Event) :
    accesses (e :: (seg ++ e' :: es)) = accesses ((seg.filter fun e => !e.isNote) ++ es) := by
  have hseg : accesses (seg.filter fun e => !e.isNote) = accesses seg :=
    filterMap_notes (fun e he => by cases e <;> simp_all [Event.isNote, Event.accessed]) seg
  rw [accesses_cons he, accesses_append, accesses_cons he', accesses_append, hseg]

/-- The requests are cut in the order of their dispatch. -/
lemma Cut.rids (h : Cut P es ts) : ts.filterMap Txn.rid = es.filterMap Event.takesEffect := by
  induction h with
  | nil => rfl
  | skip _ hp _ ih => rw [List.filterMap_cons_none hp, ih]
  | access _ _ ih => exact ih
  | @request r o w q seg es ops outs st fd ts hr _ hrun _ ih =>
    have hseg : seg.filterMap Event.takesEffect = [] := by
      rw [← filterMap_notes (fun e he => by cases e <;> simp_all [Event.isNote, Event.takesEffect]) seg]
      exact hrun.takesEffect
    rw [List.filterMap_cons_some (show Txn.rid (.request r st outs) = some r.rid from rfl),
      List.filterMap_cons_some (show Event.takesEffect (.dispatch r.toEntry r.body o w q) = some r.rid by
        simp [Event.takesEffect, hr]), List.filterMap_append, hseg, List.nil_append,
      List.filterMap_cons_none rfl, ih]

/-- **The transactions are a run of the register file** if the accesses are. -/
lemma Cut.steps (h : Cut P es ts) {drift : (ℕ → UInt32) → (ℕ → UInt32) → Prop}
    {regs regs' : ℕ → UInt32}
    (hf : Steps (FlatStep drift) regs ((accesses es).map Access.record) regs') :
    Steps (TxnStep drift) regs ts regs' := by
  induction h generalizing regs with
  | nil =>
    rw [hf.nil_inv]
    exact Steps.nil _
  | @skip e es ts ha _ _ ih =>
    rw [accesses_cons ha] at hf
    exact ih hf
  | @access x es ts _ _ ih =>
    rw [accesses_access, List.map_cons] at hf
    obtain ⟨regs₁, hs, hf'⟩ := hf.cons_inv
    exact Steps.cons (.access hs) (ih hf')
  | @request r o w q seg es ops outs st fd ts _ hops hrun _ ih =>
    rw [accesses_segment rfl rfl] at hf
    obtain ⟨regs₁, h₁, h₂⟩ := flat_append hf
    exact Steps.cons (.request hops (hrun.batchStep h₁)) (ih h₂)

/-- What the history tells about a transaction: a request was received, picked, and answered with the
status and the operations of the transaction; an access belongs to no request. -/
def Txn.Told (es : List Event) : Txn → Prop
  | .request r st outs => r.isTxn = true ∧ Known es r ∧
      ∃ fd, Event.send r.rid r.c fd (r.hdr.type ||| respBit) st r.hdr.seq
        (outs.flatMap Op.encode) ∈ es
  | .access x => Event.access x ∈ es ∧ x.Apart es

/-- Every turn of a cut is told by the history. -/
lemma Cut.told {all : List Event} (h : Cut (Access.Apart all) es ts) (hsub : es ⊆ all)
    (hk : ∀ r o w q, Event.dispatch (Req.toEntry r) r.body o w q ∈ all → Known all r) :
    ∀ t ∈ ts, t.Told all := by
  induction h with
  | nil => simp
  | skip _ _ _ ih => exact ih fun e he => hsub (List.mem_cons_of_mem _ he)
  | access hx _ ih =>
    refine List.forall_mem_cons.mpr ⟨⟨hsub List.mem_cons_self, hx⟩, ?_⟩
    exact ih fun e he => hsub (List.mem_cons_of_mem _ he)
  | @request r o w q seg es ops outs st fd ts hr _ _ _ ih =>
    refine List.forall_mem_cons.mpr ⟨⟨hr, hk _ _ _ _ (hsub List.mem_cons_self), fd, hsub ?_⟩, ?_⟩
    · exact List.mem_cons_of_mem _ (List.mem_append_right _ List.mem_cons_self)
    · exact ih fun e he => hsub (List.mem_cons_of_mem _ (List.mem_append_right _
        (List.mem_cons_of_mem _ he)))

end

/-! ## Real time -/

section

variable {rst : Bool} {es : List Event} {a : Abs}

/-- No datagram that arrives later has a number given before. -/
lemma recv_later {post : List Event} {t : Abs} {n : ℕ} (h : Steps (Step rst) a post t)
    (hn : n < a.nRecv) : n < t.nRecv ∧ ∀ c fd msg, Event.recv n c fd msg ∉ post := by
  refine Steps.invariant (P := fun es t => n < t.nRecv ∧ ∀ c fd msg, Event.recv n c fd msg ∉ es)
    ⟨hn, by simp⟩ (fun es t e t' _ ⟨hlt, hno⟩ hs => ⟨hlt.trans_le hs.nRecv_le, ?_⟩) h
  intro c fd msg hm
  rcases List.mem_append.mp hm with hm | hm
  · exact hno c fd msg hm
  · obtain rfl := List.mem_singleton.mp hm
    exact hlt.ne hs.recv_inv.1

/-- No request is picked twice. -/
lemma Run.takesEffect_nodup (h : Run rst es a) : (es.filterMap Event.takesEffect).Nodup := by
  refine Steps.invariant (P := fun es _ => (es.filterMap Event.takesEffect).Nodup) List.nodup_nil
    (fun es t e t' hrun ih hs => ?_) h
  cases hp : e.takesEffect with
  | none => rwa [filterMap_snoc_none hp]
  | some rid =>
    rw [filterMap_snoc_some hp]
    refine List.nodup_append.mpr ⟨ih, List.nodup_singleton _, ?_⟩
    rintro i hi j hj rfl
    obtain rfl := List.mem_singleton.mp hj
    -- it is still queued when it is picked, so that it was not picked before
    cases e with
    | dispatch en body o w q =>
      simp only [Event.takesEffect, Option.ite_none_right_eq_some, Option.some.injEq] at hp
      obtain ⟨e', he', hp'⟩ := List.mem_filterMap.mp hi
      cases e' with
      | dispatch en' body' o' w' q' =>
        simp only [Event.takesEffect, Option.ite_none_right_eq_some, Option.some.injEq] at hp'
        obtain ⟨-, hq, -⟩ := hs.dispatch_inv
        exact ((Run.ledger hrun).dispatched he').2 _ hq (hp.2.trans hp'.2.symm)
      | _ => simp [Event.takesEffect] at hp'
    | _ => simp [Event.takesEffect] at hp

/-- A request takes effect after its datagram has arrived, and before any other could have its
number. -/
lemma Run.invoked_before {pre post : List Event} {e : Event} {rid : ℕ}
    (h : Run rst (pre ++ e :: post) a) (hp : e.takesEffect = some rid) :
    (∃ f ∈ pre, f.invokes = some rid) ∧ ∀ f ∈ post, f.invokes ≠ some rid := by
  obtain ⟨t, t', h₀, hs, h₁⟩ := h.split_cons
  cases e with
  | dispatch en body o w q =>
    simp only [Event.takesEffect, Option.ite_none_right_eq_some, Option.some.injEq] at hp
    obtain ⟨-, rfl⟩ := hp
    obtain ⟨-, hq, -⟩ := hs.dispatch_inv
    have hL := Run.ledger h₀
    have hknown := hL.known (List.mem_append_right _ hq)
    obtain ⟨fd, msg, hrecv, -⟩ := id hknown
    refine ⟨⟨_, hrecv, rfl⟩, ?_⟩
    have hlater := (recv_later h₁ ((hL.known_lt hknown).trans_le hs.nRecv_le)).2
    intro f hf hinv
    cases f with
    | recv rid' c fd' msg' =>
      obtain rfl := Option.some.inj hinv
      exact hlater _ _ _ hf
    | _ => simp [Event.invokes] at hinv
  | _ => simp [Event.takesEffect] at hp

/-- A request is answered after it has taken effect. -/
lemma Run.effect_before {pre post : List Event} {e : Event} {rid : ℕ}
    (h : Run rst (pre ++ e :: post) a) (hr : e.returns (pre ++ e :: post) = some rid) :
    ∃ f ∈ pre, f.takesEffect = some rid := by
  have hL := Run.ledger h
  obtain ⟨t, t', h₀, hs, h₁⟩ := h.split_cons
  cases e with
  | send rid' c fd type st seq body =>
    simp only [Event.returns, Option.ite_none_right_eq_some, Option.some.injEq, Bool.and_eq_true,
      List.any_eq_true] at hr
    obtain ⟨⟨⟨f, hf, hask⟩, hbody⟩, rfl⟩ := hr
    rcases hs.send_inv.2 with ⟨msg, -, -, -, -, rfl⟩ | ⟨r, p, hact, rfl, -⟩
    · simp at hbody
    · have hexec : r ∈ t.executing := Abs.mem_executing.mpr (Or.inr ⟨p, hact⟩)
      obtain ⟨o, w, q, hd⟩ := (Run.ledger h₀).executing r hexec
      refine ⟨_, hd, ?_⟩
      -- the request at work is the one that arrived under its number
      cases f with
      | recv rid c' fd' msg =>
        simp only [Event.asksTxn, Bool.and_eq_true, decide_eq_true_eq] at hask
        obtain ⟨⟨rfl, hok⟩, htxn⟩ := hask
        have hknown := (Run.ledger h₀).known (List.mem_append_left _ hexec)
        have hr : r = frameReq r.rid c' msg :=
          hL.known_unique hknown.mono ⟨fd', msg, hf, hok, rfl⟩ rfl
        rw [← hr] at htxn
        exact if_pos htxn
      | _ => simp [Event.asksTxn] at hask
  | _ => simp [Event.returns] at hr

/-- **The order of dispatch agrees with real time.** -/
lemma Run.linearizes (h : Run rst es a) :
    Linearizes Event.invokes (Event.returns es) es (es.filterMap Event.takesEffect) := by
  refine Linearizes.of_points (Run.takesEffect_nodup h) ?_ ?_
  · rintro pre e post rid rfl hp
    exact Run.invoked_before h hp
  · intro pre e post rid hes hr
    subst hes
    exact Run.effect_before h hr

end

/-- **The daemon is a linearizable register file.** Next to a device that answers the frames of the
run like a LAN80xx, the history of any run is a sequential run of one register file, from the
registers after the start-up check to those at the end: its transactions are the `READ`, `WRITE` and
`BATCH` requests of all clients, each as a whole, and single accesses of mailbox calls and cleanup
lists. Every such request that was answered with operations is one of them, it was answered with what
its transaction returns, and one that was answered before another arrived comes before it. -/
theorem register_file_linearizable {env : Env} {cfg : Config}
    {drift : (ℕ → UInt32) → (ℕ → UInt32) → Prop} {chips : ℕ → Chip} {g : Daemon}
    (h : Reachable env cfg g) (hc : Attached env cfg drift chips g) :
    ∃ ts : List Txn,
      Steps (TxnStep drift) (chips (boot env cfg).io.nIoctl).regs ts (chips g.io.nIoctl).regs ∧
      Linearizes Event.invokes (Event.returns g.evs) g.evs (ts.filterMap Txn.rid) ∧
      ∀ t ∈ ts, t.Told g.evs := by
  have hrun := h.good.run
  have hstart : Abs.init.act.Apart := .of_ne (by simp [Abs.init])
  obtain ⟨ts, hcut⟩ := cut_of_steps rfl g.evs.length le_rfl rfl (Steps.nil _) hrun hstart
  refine ⟨ts, hcut.steps (hc.flat h), ?_, hcut.told (List.Subset.refl _) ?_⟩
  · rw [hcut.rids]
    exact Run.linearizes hrun
  · intro r o w q hd
    obtain ⟨o', he⟩ := ((Run.ledger hrun).dispatched hd).1
    exact (Run.ledger hrun).enqueued he

/-! ## A device at work -/

/-- The device after the first `n` of the frames `fs`. -/
def chipAfter (fs : List (List UInt8)) (n : ℕ) : Chip := (fs.take n).foldl Chip.take countingChip

/-- The bus next to that device: each transfer shows the answer to the frame before. -/
def Env.serving (fs : List (List UInt8)) : Env :=
  { Env.ticking with ioctl := fun n _ => some (showing (chipAfter fs n).answer.2) }

/-- It is a LAN80xx for a run that sends these frames. -/
lemma attached_serving {fs : List (List UInt8)} {cfg : Config} {g : Daemon}
    (h : g.frames (Env.serving fs) cfg = fs.drop (boot (Env.serving fs) cfg).io.nIoctl) :
    Attached (Env.serving fs) cfg Eq (chipAfter fs) g := by
  intro k tx hk
  rw [h, List.getElem?_drop] at hk
  obtain ⟨hlt, rfl⟩ := List.getElem?_eq_some_iff.mp hk
  generalize (boot (Env.serving fs) cfg).io.nIoctl + k = n at hlt ⊢
  have hnext : chipAfter fs (n + 1) = (chipAfter fs n).take fs[n] := by
    rw [chipAfter, List.take_succ_eq_append_getElem hlt, List.foldl_append]
    rfl
  rw [hnext]
  exact flakyBus_xfer [] (n, chipAfter fs n) fs[n]

/-- The frames of a run in which one client writes 42 to a register and another one reads it. -/
def sharedFrames : List (List UInt8) :=
  let probe := readFrame Config.plain.pad 0 mmdGlobal Config.plain.deviceIdReg
  [probe, probe, (spiFill true (spiAddr 0 0x1e 5) 42).take spiBytes,
    readFrame Config.plain.pad 0 0x1e 5, probe]

/-- The run. -/
def sharedRun : Daemon :=
  run (Env.serving sharedFrames) Config.plain
    (connects [(7, ['a']), (8, ['b'])] ++
      [⟨[.client 0 (datagram .write 0 1 [0, 1, 0x1e, 0, 5, 0, 0, 0, 42, 0, 0, 0]),
        .client 1 (datagram .read 0 1 [0, 0, 0x1e, 0, 5, 0, 0, 0, 0, 0, 0, 0])], 64⟩, .none, .none])

/-- The theorem at this run: the second client gets the value of the first. -/
theorem register_file_linearizable_shared :
    Event.send 1 1 1 (MsgType.read.code ||| respBit) .ok 1 [0, 0, 0x1e, 0, 5, 0, 0, 0, 42, 0, 0, 0] ∈
        sharedRun.evs ∧
      ∃ ts : List Txn,
        Steps (TxnStep Eq) (chipAfter sharedFrames 2).regs ts (chipAfter sharedFrames 5).regs ∧
        Linearizes Event.invokes (Event.returns sharedRun.evs) sharedRun.evs (ts.filterMap Txn.rid) ∧
        ∀ t ∈ ts, t.Told sharedRun.evs := by
  have hframes : sharedRun.frames (Env.serving sharedFrames) Config.plain = sharedFrames.drop 2 ∧
      sharedRun.io.nIoctl = 5 := by decide +kernel
  have hr : Reachable (Env.serving sharedFrames) Config.plain sharedRun := Reachable.run _ _ _
  refine ⟨by decide +kernel, ?_⟩
  have hlin := register_file_linearizable hr (attached_serving hframes.1)
  rw [hframes.2] at hlin
  exact hlin

end Spid

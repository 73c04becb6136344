import SpidevProxy.Footprint

set_option relaxedAutoImplicit false
set_option autoImplicit false

/-!
# What the work on a request is made of

`exec_item` turns a request down at once, or serves it and answers, or leaves it waiting in a mailbox
call. To serve it means to execute the operations in its body, or to call the mailbox protocol and to do
some chores: the body is written, the clock is read, the claim is granted or released, the reset line is
pulsed. All of it is done for that request. Each branch of `exec_item` is gone through once, together with
the list of the calls that it makes.

## Main definitions

* `Spid.requestCalls` — the calls of `exec_item`.
* `Spid.Operates` — operations of one request, one after another.
* `Spid.Chore`, `Spid.Serves` — the chores; chores and calls of the mailbox protocol for one request.
* `Spid.Answered` — the ways in which a request is answered.
* `Spid.Event.Of`, `Spid.Executes` — the events of the execution of one request.

## Main results

* `Spid.execItem_handled` — a request is turned down at once, or served and answered, or its mailbox
  call waits.
* `Spid.execItem_executes`, `Spid.mem_itemCalls` — in each case all is done for that request.
* `Spid.waitStep_cases` — a call that waits is answered, or goes on waiting.
-/

namespace Spid

open Bytes

/-! ## The calls of a request -/

/-- The log context that `exec_item` sets for the request in item `it`. -/
def Daemon.logFor (g : Daemon) (it : Ptr) : LogCtx :=
  ⟨(g.cl (g.item it).c).id, (g.cl (g.item it).c).comm, (g.item it).hdr.seq, .none⟩

/-- The call for operation `i` of the body of an item. -/
def bodyCall (g : Daemon) (it : Ptr) (i : ℕ) : RegCall :=
  ⟨g, g.agent it, .op (some (g.item it).c) (opAt (g.item it).body 0 i)⟩

/-- The call of `exec_mailbox` up to its wait loop. -/
def startCall (g : Daemon) (it : Ptr) : RegCall := ⟨g, g.agent it, .request it⟩

/-- The call for one round of the wait loop. -/
def pollCall (g : Daemon) (f : MbFrame) : RegCall := ⟨g, g.agent f.it, .poll f⟩

section

variable (env : Env) (cfg : Config)

/-- The calls of the loop of `BATCH`. -/
def batchCalls (it : Ptr) : ℕ → ℕ → Daemon → List RegCall
  | 0, _, _ => []
  | k + 1, i, g =>
    let r := execBodyOp env cfg g it i
    bodyCall g it i :: if r.1 = .ok then batchCalls it k (i + 1) r.2 else []

/-- The calls of `READ` and `WRITE`. -/
def readWriteCalls (g : Daemon) (it : Ptr) (write : UInt8) : List RegCall :=
  let x := g.item it
  if x.hdr.len.toNat ≠ opSize then [] else [bodyCall (g.setBody it (x.body.write 1 [write])) it 0]

/-- The calls of `exec_item`, once the log context is set. -/
def requestCalls (g : Daemon) (it : Ptr) : List RegCall :=
  let x := g.item it
  let n := x.hdr.len.toNat / opSize
  match MsgType.ofCode x.hdr.type with
  | some .read => readWriteCalls g it 0
  | some .write => readWriteCalls g it 1
  | some .batch =>
    if n < 1 ∨ batchMax < n ∨ x.hdr.len.toNat % opSize ≠ 0 then [] else batchCalls env cfg it n 0 g
  | some .mailbox => if !mailboxValid x.hdr x.body then [] else [startCall g it]
  | _ => []

/-- The calls of `exec_item`. -/
def itemCalls (g : Daemon) (it : Ptr) : List RegCall :=
  requestCalls env cfg { g with lctx := g.logFor it } it

/-! ## Operations, chores and answers -/

/-- **Operations of the request in item `it`**, one after another, each executed in place. -/
inductive Operates (it : Ptr) (g : Daemon) : List RegCall → Daemon → Prop
  | refl : Operates it g [] g
  | body {ks : List RegCall} {g₁ : Daemon} (h : Operates it g ks g₁) (b : Block msgMax) :
      Operates it g ks (g₁.setBody it b)
  | call {ks : List RegCall} {k : RegCall} (h : Operates it g ks k.pre) (hag : k.agent = g.agent it)
      (hop : k.isOp = true) : Operates it g (ks ++ [k]) (k.post env cfg)

/-- **What the work on the request in item `it` does besides calls and the answer.** -/
inductive Chore (it : Ptr) (g : Daemon) : Daemon → Prop
  | body (b : Block msgMax) : Chore it g (g.setBody it b)
  | clock : Chore it g (nowUs env g).2
  | grant (claim : Claim) (deadline : UInt64) (ops : List Op) :
      Chore it g ({ g with claim := claim }.emit (.grant (g.entry it) deadline ops))
  | release (c : Slot) (claim : Claim) :
      Chore it g { g.emit (.claimEnd g.claim.rid c .release) with claim := claim }
  | pulse (o : Option Slot) (w : List Entry) (a d : UInt32) :
      Chore it g ({ g with mbInflight := false }.emit (.reset (g.entry it) o w a d))

/-- **Chores and calls of the mailbox protocol for the request in item `it`**, one after another. -/
inductive Serves (it : Ptr) (g : Daemon) : List RegCall → Daemon → Prop
  | refl : Serves it g [] g
  | chore {ks : List RegCall} {g₁ g₂ : Daemon} (h : Serves it g ks g₁) (hc : Chore env it g₁ g₂) :
      Serves it g ks g₂
  | call {ks : List RegCall} {k : RegCall} (h : Serves it g ks k.pre) (hag : k.agent = g.agent it)
      (hno : k.isOp = false) (hk : k.Proper) : Serves it g (ks ++ [k]) (k.post env cfg)

variable (B : List UInt8 → Prop)

/-- **The ways in which the request in item `it` is answered.** It is turned down at once, with an empty
body; or operations are executed, they are counted, and as much of the body as was received is sent back;
or it is served in another way, and an answer that is not `SPIPROXY_OK` has a body. The body fits in a
message, or it is a text in `B`. -/
inductive Answered (it : Ptr) (g : Daemon) : List RegCall → Daemon → Prop
  | rejected {st : Status} (h : st ≠ .ok) : Answered it g [] (reply env g it st [])
  | operated {ks : List RegCall} {g₁ : Daemon} (hw : Operates env cfg it g ks g₁) (st : Status) {n : ℕ}
      (hn : n ≠ 0) (hle : n ≤ msgMax) :
      Answered it g ks (reply env (addOps g₁ (g.item it).c ks.length) it st
        (((addOps g₁ (g.item it).c ks.length).item it).body.read 0 n))
  | served {ks : List RegCall} {g₁ : Daemon} {st : Status} {body : List UInt8}
      (hw : Serves env cfg it g ks g₁) (hb : body.length ≤ msgMax ∨ B body) (h : st = .ok ∨ body ≠ []) :
      Answered it g ks (reply env g₁ it st body)

/-- What `exec_item` comes to: the request is answered, or its mailbox call waits. -/
def Handled (it : Ptr) (g : Daemon) (ks : List RegCall) (res : Option MbFrame × Daemon) : Prop :=
  match res.1 with
  | none => Answered env cfg B it g ks res.2
  | some _ => Serves env cfg it g ks res.2

/-- The text that `exec_item` prints for `STATS` or `TRACE`. -/
def Prints (g : Daemon) (it : Ptr) (text : List UInt8) : Prop :=
  (MsgType.ofCode (g.item it).hdr.type = some .stats ∧ text = (statsText cfg g).bytes) ∨
    (MsgType.ofCode (g.item it).hdr.type = some .trace ∧ text = (traceText g.io).bytes)

end

/-! ## What they leave behind -/

/-- The events of the execution of one request before its answer: those of its register accesses, the
grant of the claim, the pulse of the reset line, and the end of the claim by `RELEASE`. -/
def Event.Of (x : Entry) (ctx : LogCtx) : Event → Prop
  | .grant en _ _ => en = x
  | .reset en _ _ _ _ => en = x
  | .claimEnd _ _ how => how = .release
  | e => e.By (.request x.rid x.c) ctx

/-- Register accesses for the request are part of its execution. -/
lemma Event.By.of {x : Entry} {ctx : LogCtx} {e : Event} (h : e.By (.request x.rid x.c) ctx) :
    e.Of x ctx := by
  cases e <;> first | exact h | exact h.elim

/-- The answer to a request. -/
def Event.Answers (x : Entry) : Event → Prop
  | .send rid c _ _ _ _ _ => rid = x.rid ∧ c = x.c
  | _ => False

/-- Work on the request in item `it`, or its answer, leads from `g` to `g'`. -/
abbrev Executes (it : Ptr) (g g' : Daemon) : Prop :=
  Footprint (fun e => e.Of (g.entry it) g.lctx ∨ e.Answers (g.entry it)) g g'

section

variable {env : Env} {cfg : Config} {B : List UInt8 → Prop} {it : Ptr} {g g₁ g₂ : Daemon}
  {ks : List RegCall}

/-- A chore is done for its request. -/
lemma Chore.footprint (h : Chore env it g g₁) : Footprint (Event.Of (g.entry it) g.lctx) g g₁ := by
  cases h with
  | body b => exact Footprint.setBody it b
  | clock => exact nowUs_footprint env g
  | grant =>
    exact ⟨⟨_, rfl, by simp [Event.Of]⟩, rfl, fun _ => rfl, ⟨rfl, rfl⟩, fun _ => rfl, rfl, rfl, le_rfl⟩
  | release =>
    exact ⟨⟨_, rfl, by simp [Event.Of]⟩, rfl, fun _ => rfl, ⟨rfl, rfl⟩, fun _ => rfl, rfl, rfl, le_rfl⟩
  | pulse =>
    exact ⟨⟨_, rfl, by simp [Event.Of]⟩, rfl, fun _ => rfl, ⟨rfl, rfl⟩, fun _ => rfl, rfl, rfl, le_rfl⟩

/-- A call of `exec_op` may be made for any agent. -/
lemma RegCall.proper_of_isOp {k : RegCall} (h : k.isOp = true) : k.Proper := by
  unfold RegCall.isOp at h
  unfold RegCall.Proper
  split
  · trivial
  · rename_i hw
    simp [hw] at h
  · rename_i hw
    simp [hw] at h

namespace Operates

/-- **The operations of a request** are register work for it. -/
lemma regDeeds (h : Operates env cfg it g ks g₁) : RegDeeds env cfg (g.agent it) g g₁ := by
  induction h with
  | refl => exact .refl
  | body _ b ih => exact ih.tail (.body it b)
  | call _ hag hop ih =>
    have hk := RegCall.regDeeds env cfg (RegCall.proper_of_isOp hop)
    rw [hag] at hk
    exact ih.trans hk

/-- Each operation is executed for the request, and what was done before it as well. -/
lemma mem {k : RegCall} (h : Operates env cfg it g ks g₁) (hk : k ∈ ks) :
    k.agent = g.agent it ∧ k.isOp = true ∧ Toil (g.agent it) g k.pre := by
  induction h with
  | refl => simp at hk
  | body _ b ih => exact ih hk
  | call h hag hop ih =>
    rcases List.mem_append.mp hk with hk | hk
    · exact ih hk
    · rw [List.mem_singleton.mp hk]
      exact ⟨hag, hop, h.regDeeds.toil⟩

/-- One operation of the body. -/
lemma bodyOp (h : Operates env cfg it g ks g₁) (i : ℕ) :
    Operates env cfg it g (ks ++ [bodyCall g₁ it i]) (execBodyOp env cfg g₁ it i).2 :=
  (Operates.call (k := bodyCall g₁ it i) h (h.regDeeds.toil.agent it) rfl).body _

/-- The loop of `BATCH`, and the number of operations that it returns. -/
lemma batchLoop : ∀ (k i : ℕ) {g₁ : Daemon} {ks : List RegCall}, Operates env cfg it g ks g₁ →
    Operates env cfg it g (ks ++ batchCalls env cfg it k i g₁) (batchLoop env cfg it k i g₁).2.2 ∧
      (Spid.batchLoop env cfg it k i g₁).2.1 = i + (batchCalls env cfg it k i g₁).length := by
  intro k
  induction k with
  | zero => exact fun i g₁ ks h => ⟨by rw [batchCalls, List.append_nil]; exact h, rfl⟩
  | succ k ih =>
    intro i g₁ ks h
    have hop := h.bodyOp i
    simp only [batchCalls, Spid.batchLoop]
    split_ifs
    · obtain ⟨hs, hn⟩ := ih (i + 1) hop
      refine ⟨by simpa using hs, ?_⟩
      rw [hn, List.length_cons]
      omega
    · exact ⟨hop, rfl⟩

end Operates

namespace Serves

/-- **Chores and calls for a request** are done for it. -/
lemma footprint (h : Serves env cfg it g ks g₁) : Footprint (Event.Of (g.entry it) g.lctx) g g₁ := by
  induction h with
  | refl => exact Footprint.refl
  | chore _ hc ih =>
    have hf := hc.footprint
    rw [ih.entry it, ih.lctx] at hf
    exact ih.trans hf
  | call _ hag _ hk ih =>
    have hf := (RegCall.regDeeds env cfg hk).toil
    rw [hag] at hf
    unfold Toil at hf
    rw [ih.lctx] at hf
    exact ih.trans (hf.mono fun _ he => Event.By.of (x := g.entry it) he)

/-- Each call is made for the request, and what was done before it as well. -/
lemma mem {k : RegCall} (h : Serves env cfg it g ks g₁) (hk : k ∈ ks) :
    k.agent = g.agent it ∧ Footprint (Event.Of (g.entry it) g.lctx) g k.pre := by
  induction h with
  | refl => simp at hk
  | chore _ hc ih => exact ih hk
  | call h hag _ _ ih =>
    rcases List.mem_append.mp hk with hk | hk
    · exact ih hk
    · rw [List.mem_singleton.mp hk]
      exact ⟨hag, h.footprint⟩

end Serves

/-- Either nothing is done for the request and it is turned down, or what was done was done for the
request, and the answer is `SPIPROXY_OK` or has a body. -/
lemma Answered.cases (h : Answered env cfg B it g ks g₂) :
    (∃ st, ks = [] ∧ g₂ = reply env g it st []) ∨
      ∃ g₁ st body, Footprint (Event.Of (g.entry it) g.lctx) g g₁ ∧ (st = .ok ∨ body ≠ []) ∧
        g₂ = reply env g₁ it st body := by
  cases h with
  | rejected h => exact Or.inl ⟨_, rfl, rfl⟩
  | @operated ks g₁ hw st n hn hle =>
    have hadd : Toil (g.agent it) g₁ (addOps g₁ (g.item it).c ks.length) := Footprint.setClient rfl
    refine Or.inr ⟨_, _, _, ?_, Or.inr ?_, rfl⟩
    · exact (Toil.trans hw.regDeeds.toil hadd).mono fun _ he => Event.By.of (x := g.entry it) he
    · simpa [Block.read] using hn
  | served hw hb h => exact Or.inr ⟨_, _, _, hw.footprint, h, rfl⟩

/-- **The work on a request and its answer** are all for that request. -/
lemma Answered.executes (h : Answered env cfg B it g ks g₂) : Executes it g g₂ := by
  have hanswer : ∀ {g₁ : Daemon} (st : Status) (body : List UInt8), g₁.entry it = g.entry it →
      Footprint (fun e => e.Of (g.entry it) g.lctx ∨ e.Answers (g.entry it)) g₁
        (reply env g₁ it st body) := by
    intro g₁ st body he
    refine sendResp_footprint env _ _ _ _ _ _ (Or.inr ⟨?_, ?_⟩)
    · exact congrArg Entry.rid he
    · exact congrArg Entry.c he
  rcases h.cases with ⟨st, -, rfl⟩ | ⟨g₁, st, body, hf, -, rfl⟩
  · exact hanswer _ _ rfl
  · exact (hf.mono fun _ => Or.inl).trans (hanswer _ _ (hf.entry it))

/-- Each call is made for the request, and what was done before it as well. -/
lemma Handled.mem {res : Option MbFrame × Daemon} {k : RegCall} (h : Handled env cfg B it g ks res)
    (hk : k ∈ ks) : k.agent = g.agent it ∧ Footprint (Event.Of (g.entry it) g.lctx) g k.pre := by
  obtain ⟨_ | f, g₁⟩ := res
  · have ha : Answered env cfg B it g ks g₁ := h
    cases ha with
    | rejected => simp at hk
    | operated hw =>
      obtain ⟨hag, -, hf⟩ := hw.mem hk
      exact ⟨hag, hf.mono fun _ he => Event.By.of (x := g.entry it) he⟩
    | served hw => exact hw.mem hk
  · have hw : Serves env cfg it g ks g₁ := h
    exact hw.mem hk

/-! ## The branches of `exec_item` -/

variable (env cfg B)

/-- `READ` and `WRITE`. -/
lemma execReadWrite_answered (g : Daemon) (it : Ptr) (write : UInt8) :
    Answered env cfg B it g (readWriteCalls g it write) (execReadWrite env cfg g it write) := by
  unfold execReadWrite readWriteCalls
  dsimp only
  split_ifs
  · exact .rejected (by decide)
  · have hset : Operates env cfg it g [] (g.setBody it ((g.item it).body.write 1 [write])) :=
      Operates.refl.body _
    exact .operated (hset.bodyOp 0) _ (by decide) (by decide)

/-- `BATCH`. -/
lemma execBatch_answered (g : Daemon) (it : Ptr) :
    Answered env cfg B it g
      (if (g.item it).hdr.len.toNat / opSize < 1 ∨ batchMax < (g.item it).hdr.len.toNat / opSize ∨
          (g.item it).hdr.len.toNat % opSize ≠ 0 then []
        else batchCalls env cfg it ((g.item it).hdr.len.toNat / opSize) 0 g)
      (execBatch env cfg g it) := by
  have h₁ : opSize = 12 := rfl
  have h₂ : batchMax = 64 := rfl
  have h₃ : msgMax = 4096 := rfl
  unfold execBatch
  dsimp only
  split_ifs with hn
  · exact .rejected (by decide)
  · have hstart : Operates env cfg it g [] g := .refl
    obtain ⟨hs, hcount⟩ := hstart.batchLoop ((g.item it).hdr.len.toNat / opSize) 0
    rw [hcount, Nat.zero_add]
    refine .operated hs _ ?_ ?_
    · rw [h₁] at hn
      omega
    · rw [h₁, h₂] at hn
      omega

/-- `CLAIM`. -/
lemma execClaim_answered (g : Daemon) (it : Ptr) : Answered env cfg B it g [] (execClaim env g it) := by
  unfold execClaim
  dsimp only
  split_ifs
  · exact .rejected (by decide)
  · exact .rejected (by decide)
  · refine .served ?_ (Or.inl (by simp)) (Or.inl rfl)
    exact (Serves.refl.chore .clock).chore (.grant _ _ _)

/-- `RELEASE`. -/
lemma execRelease_answered (g : Daemon) (it : Ptr) :
    Answered env cfg B it g [] (execRelease env cfg g it) := by
  refine .served ?_ (Or.inl (by simp)) (Or.inl rfl)
  split_ifs with ho
  · simp only [claimEnd, ho, ClaimEnd.abnormal, Bool.false_and, Bool.false_eq_true, if_false]
    exact Serves.refl.chore (.release _ _)
  · exact .refl

/-- `RESET`. -/
lemma execReset_answered (g : Daemon) (it : Ptr) :
    Answered env cfg B it g [] (execReset env cfg g it) := by
  unfold execReset
  dsimp only
  split_ifs
  · exact .rejected (by decide)
  · exact .rejected (by decide)
  all_goals
    refine .served ?_ (Or.inl (by simp)) (Or.inl rfl)
    exact Serves.refl.chore (.pulse _ _ _ _)

variable {env cfg} in
/-- The end of the branch `MAILBOX`. -/
lemma Serves.mailboxReply (h : Serves env cfg it g ks g₁) (st : Status) {payload : List UInt8}
    (hp : payload.length ≤ mbMax) :
    Answered env cfg B it g ks (mailboxReply env g₁ it st payload) := by
  have h₁ : mbSize = 8 := rfl
  have h₂ : mbMax = 1018 := rfl
  have h₃ : msgMax = 4096 := rfl
  refine .served (h.chore (.body _)) (Or.inl ?_) (Or.inr ?_)
  · rw [List.length_append, Block.length_read]
    split_ifs
    · omega
    · rw [List.length_nil]
      omega
  · refine List.append_ne_nil_of_left_ne_nil ?_ _
    simp [Block.read, h₁]

/-- `MAILBOX`. -/
lemma execMailbox_handled (g : Daemon) (it : Ptr) :
    Handled env cfg B it g
      (if !mailboxValid (g.item it).hdr (g.item it).body then [] else [startCall g it])
      (execMailbox env cfg g it) := by
  have hs : Serves env cfg it g [startCall g it] (execMailboxStart env cfg g it).2 :=
    Serves.call (k := startCall g it) .refl rfl rfl rfl
  unfold execMailbox
  dsimp only
  split_ifs
  · exact Answered.rejected (by decide)
  · generalize execMailboxStart env cfg g it = r at *
    obtain ⟨st | f, g₁⟩ := r
    · exact hs.mailboxReply B st (by simp)
    · exact hs

/-- **`exec_item`**: once the log context is set, the request is turned down or served, or its
mailbox call waits.

**Proof sketch.** Setting the log context leaves the item and the `Io` part alone. Then by the type
of the request: each has its lemma above, and the types that the daemon does not know are turned
down. -/
lemma execItem_handled {g : Daemon} {it : Ptr} (hB : ∀ text, Prints cfg g it text → B text) :
    Handled env cfg B it { g with lctx := g.logFor it } (itemCalls env cfg g it)
      (execItem env cfg g it) := by
  unfold itemCalls requestCalls execItem
  dsimp only
  rw [show (⟨(g.cl (g.item it).c).id, (g.cl (g.item it).c).comm, (g.item it).hdr.seq, .none⟩ :
    LogCtx) = g.logFor it from rfl]
  generalize hg₀ : ({ g with lctx := g.logFor it } : Daemon) = g₀
  have hitem : g.item it = g₀.item it := by rw [← hg₀]
  have hio : g.io = g₀.io := by rw [← hg₀]
  have hprint : ∀ text, Prints cfg g₀ it text → B text := by
    rw [← hg₀]
    exact hB
  rw [hitem]
  cases hk : MsgType.ofCode (g₀.item it).hdr.type with
  | none => exact Answered.rejected (by decide)
  | some ty =>
    cases ty with
    | read => exact execReadWrite_answered env cfg B g₀ it 0
    | write => exact execReadWrite_answered env cfg B g₀ it 1
    | batch => exact execBatch_answered env cfg B g₀ it
    | claim => exact execClaim_answered env cfg B g₀ it
    | release => exact execRelease_answered env cfg B g₀ it
    | mailbox => exact execMailbox_handled env cfg B g₀ it
    | reset => exact execReset_answered env cfg B g₀ it
    | stats =>
      exact Answered.served .refl (Or.inr (hprint _ (Or.inl ⟨hk, rfl⟩))) (Or.inl rfl)
    | trace =>
      rw [hio]
      exact Answered.served .refl (Or.inr (hprint _ (Or.inr ⟨hk, rfl⟩))) (Or.inl rfl)
    | tsfifoSub => exact Answered.rejected (by decide)
    | berWindow => exact Answered.rejected (by decide)
    | dfu => exact Answered.rejected (by decide)

/-- Each call of `exec_item` is made for the request, and what was done before it as well. -/
lemma mem_itemCalls {g : Daemon} {it : Ptr} {k : RegCall} (hk : k ∈ itemCalls env cfg g it) :
    k.agent = g.agent it ∧
      Footprint (Event.Of (g.entry it) (g.logFor it)) { g with lctx := g.logFor it } k.pre :=
  (execItem_handled env cfg (fun _ => True) fun _ _ => trivial).mem hk

/-- All that `exec_item` does is done for the request. -/
lemma execItem_executes (g : Daemon) (it : Ptr) :
    Executes it { g with lctx := g.logFor it } (execItem env cfg g it).2 := by
  have h : Handled env cfg (fun _ => True) it { g with lctx := g.logFor it } (itemCalls env cfg g it)
      (execItem env cfg g it) := execItem_handled env cfg _ fun _ _ => trivial
  generalize execItem env cfg g it = r at *
  obtain ⟨_ | f, g₁⟩ := r
  · exact Answered.executes h
  · exact Serves.footprint h |>.mono fun _ => Or.inl

/-! ## The wait loop -/

variable {env cfg}

/-- The payload of a response. -/
lemma length_mbDecode (pkt : Block pktSize) (len : UInt16) :
    (mbDecode pkt len).2.length ≤ len.toNat - mbHdrLen - mbCrcLen := by
  unfold mbDecode
  dsimp only
  split_ifs
  · exact Nat.zero_le _
  · rw [Block.length_read]

/-- The payload that the end of a mailbox call returns is not longer than the window. -/
lemma length_payload_finish (g : Daemon) (f : MbFrame) (v : UInt32) :
    (execMailboxFinish env cfg g f v).1.2.length ≤ mbMax := by
  have h₁ : mbHdrLen = 4 := rfl
  have h₂ : mbCrcLen = 2 := rfl
  have h₃ : mbMax = 1018 := rfl
  simp only [execMailboxFinish]
  split_ifs with hr hl
  · exact Nat.zero_le _
  · exact Nat.zero_le _
  · split
    · exact Nat.zero_le _
    · rename_i pkt _
      have hd := length_mbDecode pkt ((mbRd env cfg g (.request (g.item f.it).rid (g.item f.it).c)
        (Mb.decode ((g.item f.it).body.read 0 mbSize)).slice mbRespAddr v).2.1 >>> 16).toUInt16
      split_ifs
      all_goals
        dsimp only
        omega

/-- What a poll returns: a payload that is not longer than the window, or the frame of a call that goes on
waiting; then the clock was read, and had not passed the deadline. -/
lemma execMailboxPoll_cases (env : Env) (cfg : Config) (g : Daemon) (f : MbFrame) :
    (∃ d g₁, execMailboxPoll env cfg g f = (.inl d, g₁) ∧ d.2.length ≤ mbMax) ∨
      ∃ v m g₁, execMailboxPoll env cfg g f = (.inr { f with v := v }, g₁) ∧ g.io.nClock ≤ m ∧
        m < g₁.io.nClock ∧ env.clock m ≤ f.tEnd := by
  have hrd : MbDeed env cfg (g.agent f.it) g _ :=
    .rd (Mb.decode ((g.item f.it).body.read 0 mbSize)).slice mbFlag f.v
  have hm := hrd.regDeeds.toil
  unfold execMailboxPoll
  dsimp only
  split_ifs with h₁ h₂ h₃
  · exact Or.inl ⟨_, _, rfl, Nat.zero_le _⟩
  · exact Or.inl ⟨_, _, rfl, length_payload_finish _ _ _⟩
  · exact Or.inl ⟨_, _, rfl, Nat.zero_le _⟩
  · exact Or.inr ⟨_, _, _, rfl, hm.clock, Nat.lt_succ_self _, UInt64.not_lt.mp h₃⟩

variable (env cfg)

/-- **A round of the wait loop** returns, with the answer, or goes on waiting: then the clock was
read, and had not passed the deadline. -/
lemma waitStep_handled (g : Daemon) (f : MbFrame) :
    (∃ g₁, Answered env cfg B f.it g [pollCall g f] g₁ ∧
      waitStep env cfg g f = freeItem (popStack g₁) f.it) ∨
    ∃ v m g₁, Serves env cfg f.it g [pollCall g f] g₁ ∧
      waitStep env cfg g f = { g₁ with stack := .drain 4 :: .wait { f with v := v } :: g₁.stack.tail } ∧
      g.io.nClock ≤ m ∧ m < g₁.io.nClock ∧ env.clock m ≤ f.tEnd := by
  have hs : Serves env cfg f.it g [pollCall g f] (execMailboxPoll env cfg g f).2 :=
    Serves.call (k := pollCall g f) .refl rfl rfl rfl
  unfold waitStep
  rcases execMailboxPoll_cases env cfg g f with ⟨d, g₁, hr, hlen⟩ | ⟨v, m, g₁, hr, hm⟩
  · rw [hr] at hs ⊢
    exact Or.inl ⟨_, hs.mailboxReply B d.1 hlen, rfl⟩
  · rw [hr] at hs ⊢
    exact Or.inr ⟨v, m, g₁, hs, rfl, hm⟩

/-- In either case all is done for the request that waits. -/
lemma waitStep_cases (g : Daemon) (f : MbFrame) :
    ∃ g₁, Executes f.it g g₁ ∧ (waitStep env cfg g f = freeItem (popStack g₁) f.it ∨
      ∃ v m, waitStep env cfg g f =
          { g₁ with stack := .drain 4 :: .wait { f with v := v } :: g₁.stack.tail } ∧
        g.io.nClock ≤ m ∧ m < g₁.io.nClock ∧ env.clock m ≤ f.tEnd) := by
  rcases waitStep_handled env cfg (fun _ => True) g f with ⟨g₁, ha, hw⟩ | ⟨v, m, g₁, hs, hw, hm⟩
  · exact ⟨g₁, ha.executes, Or.inl hw⟩
  · exact ⟨g₁, hs.footprint.mono fun _ => Or.inl, Or.inr ⟨v, m, hw, hm⟩⟩

/-! ## Register operations in place -/

/-- An operation of the body works for its request. -/
lemma execBodyOp_footprint (g : Daemon) (it : Ptr) (i : ℕ) :
    Toil (g.agent it) g (execBodyOp env cfg g it i).2 :=
  (Operates.refl.bodyOp i).regDeeds.toil

/-- So does the loop of `BATCH`. -/
lemma batchLoop_footprint (it : Ptr) (k i : ℕ) (g : Daemon) :
    Toil (g.agent it) g (batchLoop env cfg it k i g).2.2 :=
  (Operates.refl.batchLoop k i).1.regDeeds.toil

end

/-! ## What is picked and queued -/

/-- The request in a dispatch. -/
def Event.picks : Event → Option Entry
  | .dispatch en _ _ _ _ => some en
  | _ => none

/-- The work on a request and its answer pick nothing. -/
lemma Event.Of.picks {x : Entry} {ctx : LogCtx} {e : Event} (h : e.Of x ctx ∨ e.Answers x) :
    e.picks = none := by
  cases e with
  | dispatch => exact h.elim False.elim False.elim
  | _ => rfl

/-- A request enters the queues, or a connection ends. -/
def Event.moves : Event → Bool
  | .enqueue _ _ _ => true
  | .disconnect _ _ => true
  | _ => false

/-- The work on a request and its answer leave the queues alone. -/
lemma Event.Of.moves {x : Entry} {ctx : LogCtx} {e : Event} (h : e.Of x ctx ∨ e.Answers x) :
    e.moves = false := by
  cases e with
  | enqueue => exact h.elim False.elim False.elim
  | disconnect => exact h.elim False.elim False.elim
  | _ => rfl

end Spid

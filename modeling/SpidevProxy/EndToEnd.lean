import SpidevProxy.Freshness
import SpidevProxy.Session

set_option relaxedAutoImplicit false
set_option autoImplicit false

/-!
# Commands from end to end

What the exit status 0 of a command of the tool says about the device: the tool, the socket, the daemon
with all its other clients, and the device behind it are put together. The `read` command is in
`SpidevProxy.Session`; here are `write`, whose effect is one access to a register, and `mailbox`, whose
effect is a command of the MCU.

## Main definitions

* `Spid.commandPacket` — the packet of a command.
* `Spid.Cli.mailboxText` — what the `mailbox` command prints for a response.

## Main results

* `Spid.Cli.write_reaches_register` — `write` has written its register once when it exits with 0.
* `Spid.Cli.mailbox_prints_response` — `mailbox` prints the response of the MCU to its own command.
-/

namespace Spid

open Bytes History Duplex Hoare

/-! ## The `write` command -/

namespace Cli

/-- **What the `write` command has done when it exits with 0.** -/
structure WriteDone (slice mmd reg val : CString) (op : Op) (x : Exchange) (t t' : Tool) : Prop where
  args : writeOp slice mmd reg val = .ok op
  type : x.type = .write
  msg : x.msg = datagram .write 0 (t.seq + 1) op.encode
  ret : x.ret = some 0
  log : t'.log = t.log ++ [x]
  out : t'.out = t.out ++ statusLine (some 0)

/-- The `write` command. -/
lemma writeCmd_spec (w : World) (t : Tool) (slice mmd reg val : CString) :
    Triple (· = t) (writeCmd w slice mmd reg val)
      (fun code t' => code = 0 → ∃ op x, WriteDone slice mmd reg val op x t t')
      (fun how _ => how ≠ .exited 0) := by
  refine Triple.bind ((orDie_spec t (writeOp slice mmd reg val)).mono (fun _ h => h) (fun _ _ h => h)
    fun _ _ h => h.ne_zero) fun op => Triple.of_states fun t₀ ⟨hop, e⟩ => ?_
  subst e
  refine Triple.bind ((opXfer_spec w t₀ .write 0 op).mono (fun _ h => h) (fun _ _ h => h) nofun) fun r =>
    Triple.of_states fun t₁ hx => Triple.step (Triple.pure ?_)
  rintro _ rfl hcode
  have hst : r.1 = some 0 := by
    by_contra hne
    simp [exitCode, hne] at hcode
  rcases hx with ⟨hnone, -⟩ | ⟨x, resp', hret, -, hx⟩
  · simp [hnone] at hst
  · refine ⟨op, x, hop, hx.request.1, hx.msg, hret.symm.trans hst, hx.log, ?_⟩
    show t₁.out ++ statusLine r.1 = _
    rw [hx.out, hst]

/-- The request of the `write` command asks for its one operation, as a write. -/
lemma ops_write (rid : ℕ) (c : Slot) (flags : UInt16) (seq : UInt32) (op : Op) :
    (frameReq rid c (datagram .write flags seq op.encode)).ops = some [{ op with write := 1 }] := by
  have hfrom : Req.opsFrom (frameReq rid c (datagram .write flags seq op.encode)) 0 1 = [op] := by
    rw [frameReq_datagram]
    exact congrArg (fun o => [o]) (Op.decode_encode op [])
  simp only [Req.ops, kind_datagram, hfrom, List.map_cons, List.map_nil]

end Cli

/-- A write by itself that succeeds is one access. -/
lemma OpsRun.write_inv {r : Req} {op : Op} {es : List Event} {outs : List Op} (hw : op.write ≠ 0)
    (h : OpsRun r [op] es .ok outs) :
    ∃ x, es = [.access x] ∧ x.agent = r.agent ∧ x.Performs op ∧ x.ok = true := by
  cases h with
  | cons h hs =>
    cases hs
    cases h with
    | read _ _ hw' => exact absurd hw' hw
    | write hx hop _ hok => exact ⟨_, rfl, hx, hop, hok⟩
    | refused hst =>
      unfold opRefusal at hst
      split_ifs at hst <;> cases hst
  | stop _ hst => exact absurd rfl hst

/-- **The write of a `WRITE`**: between its arrival and its answer one access is made for it, and none
at any other time. -/
lemma Run.write_point {rst : Bool} {es : List Event} {u : Abs} (h : Run rst es u)
    (hu : u.act = .idle) {r : Req} {fd fd' : ℕ} {msg : List UInt8} {op : Op} {type : UInt8}
    {seq : UInt32} {body : List UInt8} (hr : Event.recv r.rid r.c fd msg ∈ es)
    (hok : frameOk msg = true) (hreq : r = frameReq r.rid r.c msg) (hops : r.ops = some [op])
    (hw : op.write ≠ 0) (hsized : r.sized = true)
    (hs : Event.send r.rid r.c fd' type .ok seq body ∈ es) :
    ∃ pre x post, es = pre ++ .access x :: post ∧ Event.recv r.rid r.c fd msg ∈ pre ∧
      Event.send r.rid r.c fd' type .ok seq body ∈ post ∧ x.agent = r.agent ∧ x.Performs op ∧
      x.ok = true ∧ ∀ y c, Event.access y ∈ pre ++ post → y.agent ≠ .request r.rid c := by
  obtain ⟨pre, o, w, q, seg, outs, post, rfl, hrecv, hseg, -, hrest⟩ :=
    h.ops_executed hu hr hok hreq hops hsized hs
  obtain ⟨x, hx, hag, hop, hxok⟩ := hseg.write_inv hw
  obtain ⟨s₁, s₂, rfl, h₁, -, h₂⟩ := List.filter_eq_cons_iff.mp hx
  rw [List.filter_eq_nil_iff] at h₂
  refine ⟨pre ++ .dispatch r.toEntry r.body o w q :: s₁, x,
    s₂ ++ .send r.rid r.c fd' type .ok seq body :: post, ?_, List.mem_append_left _ hrecv,
    List.mem_append_right s₂ List.mem_cons_self, hag, hop, hxok, fun y c hy => ?_⟩
  · simp
  -- the rest of the segment are notes
  · simp only [List.mem_append, List.mem_cons, reduceCtorEq, false_or] at hy
    rcases hy with (hy | hy) | hy | hy
    · exact hrest y c (List.mem_append_left _ hy)
    · exact absurd rfl (h₁ _ hy)
    · exact absurd rfl (h₂ _ hy)
    · exact hrest y c (List.mem_append_right _ hy)

namespace Cli

/-- The word `write`. -/
def writeWord : CString := ⟨"write".toList, by decide⟩

/-- **`write` reaches its register.** If the tool and the daemon talk over a socket and `write` exits
with 0, then the daemon has made exactly one register access for it, between the arrival of its request
and its answer: a write of the value in its arguments to the register in its arguments, which succeeded.
The numbers are those on the command line, but for those that wrap.

**Proof sketch.** An exit with 0 means that the one exchange succeeded (`main_command`,
`writeCmd_spec`), so its request was received on the socket and its answer was `SPIPROXY_OK`
(`exchange_succeeded`). The request is well formed, and a `WRITE` answered so has made exactly one
access, a write of its value (`Run.write_point`). -/
theorem write_reaches_register {env : Env} {cfg : Config} {g : Daemon} (h : Reachable env cfg g)
    (w : World) (deviceIdReg : UInt16) (fuel : ℕ) (opts : List Opt) (slice mmd reg val : CString)
    {fd : ℕ} {s : List (Act (List UInt8) (List UInt8))}
    (hs : Conversation fd g.evs
      (ends (main w deviceIdReg fuel opts [writeWord, slice, mmd, reg, val]) Tool.start).2 s)
    (hexit : (ends (main w deviceIdReg fuel opts [writeWord, slice, mmd, reg, val])
      Tool.start).1 = .exited 0) :
    ∃ op rid c body pre x post, writeOp slice mmd reg val = .ok op ∧ Literal slice mmd reg val op ∧
      g.evs = pre ++ .access x :: post ∧
      Event.recv rid c fd (datagram .write 0 1 op.encode) ∈ pre ∧
      Event.send rid c fd (MsgType.write.code ||| respBit) .ok 1 body ∈ post ∧
      x.agent = .request rid c ∧ x.Performs { op with write := 1 } ∧ x.ok = true ∧
      (∀ y c', Event.access y ∈ pre ++ post → y.agent ≠ .request rid c') ∧
      (ends (main w deviceIdReg fuel opts [writeWord, slice, mmd, reg, val]) Tool.start).2.out =
        statusLine (some 0) := by
  obtain ⟨t₀, hu, op, x, hd⟩ := main_command w deviceIdReg fuel opts writeWord
    [slice, mmd, reg, val] Tool.start (fun _ t₀ => writeCmd_spec w t₀ slice mmd reg val) hexit
  have hx : (ends (main w deviceIdReg fuel opts [writeWord, slice, mmd, reg, val])
      Tool.start).2.log[0]? = some x := by
    rw [hd.log, hu.log]
    rfl
  obtain ⟨r, hrecv, hsend, -, -, -, -⟩ :=
    exchange_succeeded w deviceIdReg fuel opts _ h.good.run hs hx hd.ret
  have hmsg := hd.msg
  rw [hu.seq] at hmsg
  rw [hmsg] at hrecv
  rw [hd.type] at hsend
  have hfits := fits_op (Or.inr rfl : MsgType.write = .read ∨ MsgType.write = .write) op
  obtain ⟨pre, x, post, hes, hpre, hpost, hag, hop, hok, hrest⟩ := h.good.run.write_point rfl
    (r := frameReq r.rid r.c (datagram .write 0 1 op.encode)) hrecv
    (frameOk_datagram _ _ _ hfits.length) rfl (ops_write _ _ _ _ _) (by simp)
    (hfits.sized _ _ _ _) hsend
  refine ⟨op, r.rid, r.c, r.body, pre, x, post, hd.args, op_fields hd.args, hes, hpre, hpost, hag, hop,
    hok, hrest, ?_⟩
  rw [hd.out, hu.out]
  rfl

/-- The arguments of `write 1 0x1f 0x100 0x2a`. -/
def writeArgs : CString × CString × CString × CString :=
  (⟨"1".toList, by decide⟩, ⟨"0x1f".toList, by decide⟩, ⟨"0x100".toList, by decide⟩,
    ⟨"0x2a".toList, by decide⟩)

/-- A daemon whose only client sends the request of that command. -/
def writeRun : Daemon :=
  run (Env.still 0) Config.plain
    (connects [(7, ['a'])] ++
      [⟨[.client 0 (datagram .write 0 1 [1, 0, 0x1f, 0, 0, 1, 0, 0, 42, 0, 0, 0])], 64⟩, .none])

/-- A world in which that daemon answers. -/
def writeWorld : World :=
  { sharedWorld with recv := fun _ => .ok (Outgoing.msg ⟨0, 0, MsgType.write.code ||| respBit, .ok, 1,
      [1, 1, 0x1f, 0, 0, 1, 0, 0, 42, 0, 0, 0]⟩) }

/-- The request and the answer. -/
def writeExchange : Exchange where
  type := .write
  flags := 0
  body := [1, 0, 0x1f, 0, 0, 1, 0, 0, 42, 0, 0, 0]
  msg := datagram .write 0 1 [1, 0, 0x1f, 0, 0, 1, 0, 0, 42, 0, 0, 0]
  reply := some (Outgoing.msg ⟨0, 0, MsgType.write.code ||| respBit, .ok, 1,
    [1, 1, 0x1f, 0, 0, 1, 0, 0, 42, 0, 0, 0]⟩)
  ret := some 0

/-- The theorem at this run. -/
theorem write_reaches_register_writeRun :
    writeOp writeArgs.1 writeArgs.2.1 writeArgs.2.2.1 writeArgs.2.2.2 =
        .ok ⟨1, 0, 0x1f, 0, 0x100, 0, 42⟩ ∧
      ∃ rid c body pre x post, writeRun.evs = pre ++ .access x :: post ∧
        Event.recv rid c 0 writeExchange.msg ∈ pre ∧
        Event.send rid c 0 (MsgType.write.code ||| respBit) .ok 1 body ∈ post ∧
        x.agent = .request rid c ∧ x.Performs ⟨1, 1, 0x1f, 0, 0x100, 0, 42⟩ ∧ x.ok = true := by
  have hlog : (ends (main writeWorld 0 0 [] [writeWord, writeArgs.1, writeArgs.2.1, writeArgs.2.2.1,
      writeArgs.2.2.2]) Tool.start).2.log = [writeExchange] := by decide +kernel
  have hwire : writeRun.evs.filterMap (onWire 0) =
      [.inl writeExchange.msg, .inr (writeExchange.reply.getD [])] := by decide +kernel
  have hop : writeOp writeArgs.1 writeArgs.2.1 writeArgs.2.2.1 writeArgs.2.2.2 =
      .ok ⟨1, 0, 0x1f, 0, 0x100, 0, 42⟩ := by decide +kernel
  have hr : Reachable (Env.still 0) Config.plain writeRun := Reachable.run _ _ _
  obtain ⟨op, rid, c, body, pre, x, post, hargs, -, hes, hrecv, hsend, hag, hperf, hok, -⟩ :=
    write_reaches_register hr writeWorld 0 0 [] writeArgs.1 writeArgs.2.1 writeArgs.2.2.1
      writeArgs.2.2.2 (conversation_of_exchange hlog hwire rfl) (by decide +kernel)
  obtain rfl := Except.ok.inj (hop.symm.trans hargs)
  exact ⟨hop, rid, c, body, pre, x, post, hes, hrecv, hsend, hag, hperf, hok⟩

end Cli

/-! ## The `mailbox` command -/

/-- The packet of the command `cmd` with a payload. -/
def commandPacket (cmd : UInt8) (payload : List UInt8) : List UInt8 :=
  let p := [cmd, 0xff] ++ le16 (4 + UInt16.ofNat payload.length + 2) ++ payload
  p ++ le16 (crc16Ccitt p)

section

variable {ι : Type} [DecidableEq ι] (inst : ℕ → ι) {s₀ s : ι → Mcu} {hist : List (McuEvent ι)}

/-- A `MAILBOX` that was answered with `SPIPROXY_OK` returns the response of the MCU to its own command.

**Proof sketch.** The answer is sent when the call has come to its end, and what the invariant says about
that point is the claim. -/
lemma Run.delivered {rst : Bool} {es : List Event} {a : Abs} (hrun : Run rst es a)
    (hm : Steps (QuietStep inst) s₀ hist s) (hf : hist.filterMap McuEvent.daemon? = es)
    (hown : MailboxOnly es) {rid : ℕ} {c : Slot} {fd fd' : ℕ} {msg : List UInt8} {type : UInt8}
    {seq : UInt32} {body : List UInt8} (hr : Event.recv rid c fd msg ∈ es) (hok : frameOk msg = true)
    (hk : (frameReq rid c msg).kind = some .mailbox)
    (hs : Event.send rid c fd' type .ok seq body ∈ es) :
    ∃ id payload, body = (frameReq rid c msg).mbReply id payload ∧
      Delivered inst hist (frameReq rid c msg) id payload := by
  obtain ⟨e, he, hse⟩ := List.mem_filterMap.mp (hf ▸ hs)
  obtain ⟨pre, post, rfl⟩ := List.append_of_mem he
  obtain ⟨p, p', hpre, hstep, -⟩ := (hrun.joint hm hf).split_cons
  have hfresh := Fresh.run hrun hf hown hpre (List.prefix_append _ _)
  have hprun : Run rst (pre.filterMap McuEvent.daemon?) p.1 := hpre.joint_left
  have hsub : pre.filterMap McuEvent.daemon? ⊆ es := by
    rw [← hf]
    exact (daemonPart_mono (List.prefix_append _ _)).subset
  cases e with
  | respond i cmd w => simp [McuEvent.daemon?] at hse
  | daemon ev =>
    simp only [McuEvent.daemon?, Option.some.injEq] at hse
    subst hse
    have hstep : Step rst p.1 (.send rid c fd' type .ok seq body) p'.1 := hstep.2
    obtain ⟨-, ⟨msg', -, hst, -⟩ | ⟨r, pr, hact, hrid, -, -, -, hans⟩⟩ := hstep.send_inv
    · split_ifs at hst
    · -- the request at work is the one in the datagram
      have hexec : r ∈ p.1.executing := Abs.mem_executing.mpr (Or.inr ⟨pr, hact⟩)
      obtain ⟨fd₁, msg₁, hm₁, hok₁, hreq₁⟩ := (Run.ledger hprun).known (List.mem_append_left _ hexec)
      obtain rfl : r = frameReq rid c msg := (Run.ledger hrun).known_unique
        ⟨fd₁, msg₁, hsub hm₁, hok₁, hreq₁⟩ ⟨fd, msg, hr, hok, rfl⟩ hrid
      obtain rfl := hans.mailbox_ok hk
      obtain ⟨id, payload, hb, hdel⟩ := hfresh.progress _ _ hact hk rfl
      exact ⟨id, payload, hb, hdel.mono _⟩

end

/-- A response that is accepted has no more payload than fits. -/
lemma length_le_of_respOutcome {cmd id : UInt8} {ws : List UInt32} {payload : List UInt8}
    (h : respOutcome cmd ws = (.ok, id, payload)) : payload.length ≤ mbMax := by
  unfold respOutcome at h
  dsimp only at h
  split_ifs at h with h₁ h₂
  · cases (Prod.mk.inj h).1
  · cases (Prod.mk.inj h).1
  · obtain ⟨-, rfl⟩ := Prod.mk.inj (Prod.mk.inj h).2
    simp only [Bool.not_eq_true', Bool.not_eq_false, respSized, Bool.and_eq_true,
      decide_eq_true_eq] at h₁
    rw [List.length_take]
    omega

namespace Cli

/-- What the `mailbox` command prints for a response. -/
def mailboxText (id : UInt8) (payload : List UInt8) : Text :=
  "mailbox: status=".toList ++ statusText (.ok 0) ++ " resp_id=0x".toList ++ hex 2 id.toNat ++
    " payload_len=".toList ++ dec payload.length ++ "\n".toList ++
    (payload.mapIdx dumpByte).flatten ++ if payload = [] then [] else ['\n']

/-- The body of the request of the `mailbox` command. -/
def mailboxBody (cmd : UInt8) (timeoutMs : UInt32) (p : List UInt8) : List UInt8 :=
  Mb.encode ⟨0, cmd, UInt16.ofNat p.length, timeoutMs⟩ ++ p

/-- **What the `mailbox` command has done when it exits with 0.** -/
structure MailboxDone (cmd : CString) (args : List CString) (timeoutMs : UInt64) (v : UInt64)
    (p : List UInt8) (x : Exchange) (resp' : Option RespBuf) (t t₁ t' : Tool) : Prop where
  cmd : arg cmd 0 0 0xff = .ok v
  args : args.mapM byteArg = .ok p
  length : p.length ≤ mbMax
  exchanged : Exchanged t .mailbox 0 (mailboxBody v.toUInt8 timeoutMs.toUInt32 p)
    (some ⟨fun _ => none, mbRespMax⟩) x resp' t₁
  ret : x.ret = some 0
  log : t'.log = t₁.log
  out : ∃ s, (resp'.bind fun b => mailboxPrint (.ok 0) b.mem) = some (s, 0) ∧ t'.out = t.out ++ s

/-- The exit status 0 is that of `SPIPROXY_OK`. -/
lemma mailboxPrint_zero {ret : Option UInt16} {mem : ℕ → Option UInt8} {s : Text}
    (h : mailboxPrint (retExcept ret) mem = some (s, 0)) : ret = some 0 := by
  by_contra hne
  have hst : ∀ st, retExcept ret = .ok st → st ≠ 0 := by
    rintro st hret rfl
    cases ret with
    | none => cases hret
    | some st => exact hne (congrArg some (Except.ok.inj hret))
  simp only [mailboxPrint, Option.bind_eq_bind, Option.bind_eq_some_iff] at h
  obtain ⟨cmd, -, len, -, h⟩ := h
  split at h
  · rename_i hret
    exact hst 0 hret rfl
  · cases h

/-- The `mailbox` command. -/
lemma mailboxCmd_spec (w : World) (t : Tool) (timeoutMs : UInt64) (cmd : CString)
    (args : List CString) : Triple (· = t) (mailboxCmd w timeoutMs cmd args)
      (fun code t' => code = 0 → ∃ v p x resp' t₁, MailboxDone cmd args timeoutMs v p x resp' t t₁ t')
      (fun how _ => how ≠ .exited 0) := by
  refine Triple.bind ((orDie_spec t (arg cmd 0 0 0xff)).mono (fun _ h => h) (fun _ _ h => h)
    fun _ _ h => h.ne_zero) fun v => Triple.of_states fun t₀ ⟨hv, e⟩ => ?_
  subst e
  refine Triple.bind ((payloadArgs_spec t₀ args [] (Nat.zero_le _)).mono (fun _ h => h)
    (fun _ _ h => h) fun _ _ h => h.ne_zero) fun p => Triple.of_states fun t₁ ⟨⟨hp, hle⟩, e⟩ => ?_
  subst e
  obtain ⟨p, hp, rfl⟩ := hp
  refine Triple.bind ((xfer_spec w .mailbox 0 (mailboxBody v.toUInt8 timeoutMs.toUInt32 p)
    (some ⟨fun _ => none, mbRespMax⟩) t₁).mono (fun _ h => h) (fun _ _ h => h) nofun) fun r =>
      Triple.of_states fun t₂ hx => ?_
  split
  · exact Triple.throw fun _ _ => by simp
  · rename_i s code hprint
    refine Triple.step (Triple.pure ?_)
    rintro _ rfl rfl
    obtain ⟨b, hb, hmp⟩ := Option.bind_eq_some_iff.mp hprint
    have hret := mailboxPrint_zero hmp
    rcases hx with ⟨rfl, -⟩ | ⟨x, hxret, hx⟩
    · cases hret
    · refine ⟨v, p, x, r.2, t₂, hv, hp, hle, hx, hxret.symm.trans hret, rfl, s, ?_, ?_⟩
      · rw [hret] at hprint
        exact hprint
      · show t₂.out ++ s = _
        rw [hx.out]

/-- The buffer of the `mailbox` command after an answer whose body fits in it. -/
lemma mem_answer {r : Outgoing} {res : Except RespError UInt16} {resp' : Option RespBuf}
    (ht : r.type = MsgType.mailbox.code ||| respBit) (hl : r.body.length ≤ 1026)
    (hp : parseResp (r.msg.take (hdrSize + msgMax)) r.seq MsgType.mailbox.code
      (some ⟨fun _ => none, mbRespMax⟩) = some (res, resp')) :
    ∃ b, resp' = some b ∧ ∀ i, b.mem i = r.body[i]? := by
  have hH : hdrSize = 12 := rfl
  have hM : msgMax = 4096 := rfl
  have hd : Hdr.decode r.msg =
      ⟨spiproxyVer, r.type, r.st.code, r.seq, UInt32.ofNat r.body.length⟩ := Hdr.decode_encode _ _
  have hlen : r.msg.length = hdrSize + r.body.length := by
    rw [Outgoing.msg, List.length_append, Hdr.length_encode]
  have hdrop : r.msg.drop hdrSize = r.body := List.drop_left' rfl
  obtain ⟨b, hb, hmem⟩ := parseResp_mailbox (d := r.msg) (by omega) (by rw [hd]) (by rw [hd, ht])
  obtain ⟨-, rfl⟩ := Prod.mk.inj (Option.some.inj (hb.symm.trans hp))
  have hcopied : copied r.msg = r.body.length := by
    rw [copied, hd, hlen, UInt32.toNat_ofNat']
    omega
  refine ⟨b, rfl, fun i => ?_⟩
  have hget : r.body[i]? = r.msg[hdrSize + i]? := by rw [← List.getElem?_drop, hdrop]
  rw [hmem, hcopied, hget, List.getD_eq_getElem?_getD]
  split_ifs with hi
  · rw [List.getElem?_eq_getElem (by omega)]
    rfl
  · rw [List.getElem?_eq_none (by omega)]

/-- **What the `mailbox` command prints** for an answer with a response. -/
lemma mailboxPrint_answer {mem : ℕ → Option UInt8} {mb : Mb} {payload : List UInt8}
    (hn : mb.payloadLen.toNat = payload.length) (hmem : ∀ i, mem i = (mb.encode ++ payload)[i]?) :
    mailboxPrint (.ok 0) mem = some (mailboxText mb.cmd payload, 0) := by
  obtain ⟨slice, cmd, n, timeoutMs⟩ := mb
  change n.toNat = payload.length at hn
  have hcmd : mem 1 = some cmd := hmem 1
  have hlen : loadBytes mem 2 2 = some (le16 n) := by
    refine loadBytes_of_stored (l := le16 n) fun j hj => ?_
    rw [hmem]
    match j, hj with
    | 0, _ => rfl
    | 1, _ => rfl
  have hload : loadBytes mem n.toNat mbSize = some payload := by
    rw [hn]
    refine loadBytes_of_stored fun j hj => ?_
    rw [hmem, List.getElem?_append_right (by rw [Mb.length_encode]; omega), Mb.length_encode,
      Nat.add_sub_cancel_left]
  have hof : ofLe16 (le16 n) = n := ofLe16_le16 n []
  have hend : (if n ≠ 0 then ['\n'] else []) = if payload = [] then [] else ['\n'] := by
    have hnil : n = 0 ↔ payload = [] := by
      rw [← List.length_eq_zero_iff, ← hn]
      exact UInt16.toNat_inj.symm
    by_cases h : payload = []
    · rw [if_pos h, if_neg (not_not.mpr (hnil.mpr h))]
    · rw [if_neg h, if_pos (mt hnil.mp h)]
  show _ = some (_ ++ if payload = [] then [] else ['\n'], 0)
  rw [← hend, ← hn]
  simp only [mailboxPrint, hcmd, hlen, Option.bind_eq_bind, Option.bind_some, hof, hload]

/-- The packet in the request of the `mailbox` command. -/
lemma packet_mailboxBody (rid : ℕ) (c : Slot) (flags : UInt16) (seq : UInt32) (cmd : UInt8)
    (timeoutMs : UInt32) {p : List UInt8} (hp : p.length ≤ mbMax) :
    (frameReq rid c (datagram .mailbox flags seq (mailboxBody cmd timeoutMs p))).packet =
      commandPacket cmd p := by
  have hm : mbMax = 1018 := rfl
  have hmb : Mb.decode ((mailboxBody cmd timeoutMs p).take mbSize) =
      ⟨0, cmd, UInt16.ofNat p.length, timeoutMs⟩ := by
    rw [mailboxBody, List.take_left' (Mb.length_encode _)]
    exact Mb.decode_encode _ []
  have hn : (UInt16.ofNat p.length).toNat = p.length := by
    rw [UInt16.toNat_ofNat']
    omega
  have hbody : ((mailboxBody cmd timeoutMs p).drop mbSize).take p.length = p := by
    rw [mailboxBody, List.drop_left' (Mb.length_encode _), List.take_length]
  rw [frameReq_datagram]
  simp only [Req.packet, Req.mb, hmb, hn, hbody, commandPacket, Mb.pktLen]

/-- **`mailbox` prints the response to its own command.** Next to an MCU that behaves as assumed, whose
mailbox is at rest whenever a doorbell is rung, and with no one else writing to the mailbox region: if
the tool and the daemon talk over a socket and `mailbox` exits with 0, then the MCU has responded to a
command started for it, whose packet has the command and the payload in its arguments, and the id and
the payload it prints are those of that response.

**Proof sketch.** As for `write`, the one exchange succeeded, so its request was received and
answered with `SPIPROXY_OK`. By freshness (`Run.delivered`) the body of the answer is the response
of the MCU to the command of that request, and it fits in the buffer of the tool, which prints the
stored bytes (`mem_answer`, `mailboxPrint_answer`). -/
theorem mailbox_prints_response {env : Env} {cfg : Config} {g : Daemon} {ι : Type} [DecidableEq ι]
    (inst : ℕ → ι) {s₀ s : ι → Mcu} {hist : List (McuEvent ι)} (h : Reachable env cfg g)
    (hm : Steps (QuietStep inst) s₀ hist s) (hf : hist.filterMap McuEvent.daemon? = g.evs)
    (hown : MailboxOnly g.evs) (w : World) (deviceIdReg : UInt16) (fuel : ℕ) (opts : List Opt)
    (cmd : CString) (args : List CString) {fd : ℕ} {acts : List (Act (List UInt8) (List UInt8))}
    (hs : Conversation fd g.evs
      (ends (main w deviceIdReg fuel opts (mailboxWord :: cmd :: args)) Tool.start).2 acts)
    (hexit : (ends (main w deviceIdReg fuel opts (mailboxWord :: cmd :: args)) Tool.start).1 =
      .exited 0) :
    ∃ v p msg r id payload, arg cmd 0 0 0xff = .ok v ∧ args.mapM byteArg = .ok p ∧
      Event.recv r.rid r.c fd msg ∈ g.evs ∧ r = frameReq r.rid r.c msg ∧
      r.packet = commandPacket v.toUInt8 p ∧ Delivered inst hist r id payload ∧
      (ends (main w deviceIdReg fuel opts (mailboxWord :: cmd :: args)) Tool.start).2.out =
        mailboxText id payload := by
  obtain ⟨t₀, hu, timeoutMs, v, p, x, resp', t₁, hd⟩ := main_command w deviceIdReg fuel opts
    mailboxWord (cmd :: args) Tool.start
    (Q := fun t₀ t' => ∃ timeoutMs v p x resp' t₁,
      MailboxDone cmd args timeoutMs v p x resp' t₀ t₁ t')
    (fun timeoutMs t₀ => (mailboxCmd_spec w t₀ timeoutMs cmd args).mono (fun _ h => h)
      (fun _ _ hq hcode => ⟨timeoutMs, hq hcode⟩) (fun _ _ h => h)) hexit
  have hx : (ends (main w deviceIdReg fuel opts (mailboxWord :: cmd :: args))
      Tool.start).2.log[0]? = some x := by
    rw [hd.log, hd.exchanged.log, hu.log]
    rfl
  obtain ⟨r, hrecv, hsend, htype, hseq, -, hreply⟩ :=
    exchange_succeeded w deviceIdReg fuel opts _ h.good.run hs hx hd.ret
  have hseq' : t₀.seq + 1 = r.seq := by
    rw [hu.seq, hseq]
    rfl
  rw [hd.exchanged.request.1] at htype
  have hmsg := hd.exchanged.msg
  rw [hseq', hseq] at hmsg
  rw [hmsg] at hrecv
  have hfits := fits_mailbox v.toUInt8 timeoutMs.toUInt32 hd.length
  have hok : frameOk (datagram .mailbox 0 (UInt32.ofNat (0 + 1))
      (mailboxBody v.toUInt8 timeoutMs.toUInt32 p)) = true := frameOk_datagram _ _ _ hfits.length
  obtain ⟨id, payload, hbody, hdel⟩ := h.good.run.delivered inst hm hf hown hrecv hok
    (kind_datagram _ _ _ _ _ _) hsend
  obtain ⟨res, hparse, -⟩ := hd.exchanged.parsed r.msg hreply
  rw [hseq'] at hparse
  have hpl : payload.length ≤ mbMax := by
    obtain ⟨_, _, -, -, hres⟩ := hdel
    exact length_le_of_respOutcome hres
  have hM : mbMax = 1018 := rfl
  have hS : mbSize = 8 := rfl
  have hlen : r.body.length ≤ 1026 := by
    rw [hbody, Req.mbReply, List.length_append, Mb.length_encode]
    omega
  obtain ⟨b, rfl, hmem⟩ := mem_answer htype hlen hparse
  rw [hbody] at hmem
  obtain ⟨s, hs, hout⟩ := hd.out
  refine ⟨v, p, _, _, id, payload, hd.cmd, hd.args, hrecv, rfl,
    packet_mailboxBody _ _ _ _ _ _ hd.length, hdel, ?_⟩
  have hn : (UInt16.ofNat payload.length).toNat = payload.length := by
    rw [UInt16.toNat_ofNat']
    omega
  rw [Option.bind_some, mailboxPrint_answer hn hmem] at hs
  rw [hout, hu.out, ← (Prod.mk.inj (Option.some.inj hs)).1]
  rfl

/-- The response packet with id 5 and the payload `c3 d4`, word by word. -/
def echoTwo : ℕ → UInt32 := fun j => if j = 0 then 0x0008ff05 else if j = 1 then 0x5a83d4c3 else 0

/-- The body of a `MAILBOX` with command 5 and two bytes of payload. -/
def twoBytes (a b : UInt8) : List UInt8 := [0, 5, 2, 0, 1, 0, 0, 0, a, b]

/-- A `MAILBOX` with command 5 and the payload `a1 b2` is sent, and the MCU responds at once. -/
def twoByteResponse : Daemon :=
  run (Env.script fun k =>
      if k = 11 then 2 else if k = 13 then echoTwo 0 else if k = 15 then echoTwo 1 else 0)
    Config.plain
    (connects [(7, ['a'])] ++ [⟨[.client 0 (datagram .mailbox 0 1 (twoBytes 0xa1 0xb2))], 64⟩, .none, .none])

/-- The answer of the daemon. -/
def twoByteAnswer : Outgoing :=
  ⟨0, 0, MsgType.mailbox.code ||| respBit, .ok, 1, twoBytes 0xc3 0xd4⟩

/-- A world in which it arrives. -/
def twoByteWorld : World := { sharedWorld with recv := fun _ => .ok twoByteAnswer.msg }

/-- The option `-t 01`, the command `0x5` and the payload. -/
def twoByteArgs : CString × CString × List CString :=
  (⟨"01".toList, by decide⟩, ⟨"0x5".toList, by decide⟩,
    [⟨"a1".toList, by decide⟩, ⟨"b2".toList, by decide⟩])

/-- The request and the answer. -/
def twoByteExchange : Exchange where
  type := .mailbox
  flags := 0
  body := twoBytes 0xa1 0xb2
  msg := datagram .mailbox 0 1 (twoBytes 0xa1 0xb2)
  reply := some twoByteAnswer.msg
  ret := some 0

/-- How the tool ends in that world. -/
def twoByteEnd : How × Tool :=
  ends (main twoByteWorld 0 0 [.t twoByteArgs.1] (mailboxWord :: twoByteArgs.2.1 :: twoByteArgs.2.2))
    Tool.start

/-- The theorem at a run in which the MCU responds at once to a command with a payload. -/
theorem mailbox_prints_response_prompt :
    twoByteEnd.2.out = "mailbox: status=0 resp_id=0x05 payload_len=2\nc3 d4 \n".toList ∧
      ∃ hist s, Steps (QuietStep id) (fun _ => Mcu.fresh) hist s ∧
        hist.filterMap McuEvent.daemon? = twoByteResponse.evs ∧ MailboxOnly twoByteResponse.evs ∧
        ∃ v p msg r i payload, arg twoByteArgs.2.1 0 0 0xff = .ok v ∧
          twoByteArgs.2.2.mapM byteArg = .ok p ∧
          Event.recv r.rid r.c 0 msg ∈ twoByteResponse.evs ∧ r = frameReq r.rid r.c msg ∧
          r.packet = commandPacket v.toUInt8 p ∧ Delivered id hist r i payload ∧
          twoByteEnd.2.out = mailboxText i payload := by
  obtain ⟨cmd, s, -, hsteps⟩ := steps_of_responded id true (fun _ => Mcu.fresh)
    (twoByteResponse.evs.take 11) (twoByteResponse.evs.drop 11) 0 (.request 0 0) echoTwo
    (by decide +kernel) (by decide +kernel) (by decide +kernel)
  have hq := Steps.mono (fun _ _ _ h => (⟨h.1, h.2 rfl⟩ : QuietStep id _ _ _)) hsteps
  have hf := daemonPart_responded (twoByteResponse.evs.take 11) (twoByteResponse.evs.drop 11) 0 cmd
    echoTwo
  rw [List.take_append_drop] at hf
  have hown : MailboxOnly twoByteResponse.evs := by
    refine mailboxOnly_of_onlyFor [frameReq 0 0 twoByteExchange.msg] (by decide +kernel) ?_
    intro r hr
    obtain rfl := List.mem_singleton.mp hr
    exact ⟨by decide +kernel, none, [], [], by decide +kernel⟩
  have hlog : twoByteEnd.2.log = [twoByteExchange] := by decide +kernel
  have hwire : twoByteResponse.evs.filterMap (onWire 0) =
      [.inl twoByteExchange.msg, .inr (twoByteExchange.reply.getD [])] := by decide +kernel
  exact ⟨by decide +kernel, _, s, hq, hf, hown, mailbox_prints_response id (Reachable.run _ _ _) hq hf
    hown twoByteWorld 0 0 [.t twoByteArgs.1] twoByteArgs.2.1 twoByteArgs.2.2
    (conversation_of_exchange hlog hwire rfl) (by decide +kernel)⟩

end Cli

end Spid

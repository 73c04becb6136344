import SpidevProxy.Lib.Duplex
import SpidevProxy.Responses
import SpidevProxy.SharedFile
import SpidevProxy.ToolRequests

set_option relaxedAutoImplicit false
set_option autoImplicit false

/-!
# A session of the tool with the daemon

The tool and the daemon on the two ends of a connection. The socket keeps the order of the datagrams in
both directions, and nothing else is assumed about when the two sides run. `xfer` sends one request and
waits for one datagram, and the daemon may answer requests in any order; the question is whether the
datagram that `xfer` takes for its answer is one.

## Main definitions

* `Spid.recvOn`, `Spid.sendOn`, `Spid.onWire` — what a history shows on a connection.
* `Spid.WaitsOn` — a client waits for each answer before its next request.
* `Spid.Conversation` — the tool and the daemon talk over a socket.

## Main results

* `Spid.Run.answers_in_order` — such a client gets its answers in the order of its requests.
* `Spid.Cli.session_answers` — every exchange of the tool returns the status of the daemon's answer to its
  own request.
* `Spid.Cli.read_prints_register` — what the `read` command prints was in the register.
-/

namespace Spid

open History Duplex Hoare

/-! ## A connection -/

/-- An answer of the daemon. -/
structure Outgoing where
  rid : ℕ
  c : Slot
  type : UInt8
  st : Status
  seq : UInt32
  body : List UInt8

/-- The datagram that `send_resp` builds for it. -/
def Outgoing.msg (r : Outgoing) : List UInt8 :=
  Hdr.encode ⟨spiproxyVer, r.type, r.st.code, r.seq, UInt32.ofNat r.body.length⟩ ++ r.body

/-- A datagram received on connection `fd`, with its number and its slot. -/
def recvOn (fd : ℕ) : Event → Option (ℕ × Slot × List UInt8)
  | .recv rid c fd' msg => if fd' = fd then some (rid, c, msg) else none
  | _ => none

/-- An answer sent on connection `fd`. -/
def sendOn (fd : ℕ) : Event → Option Outgoing
  | .send rid c fd' type st seq body => if fd' = fd then some ⟨rid, c, type, st, seq, body⟩ else none
  | _ => none

/-- What the daemon does on connection `fd`. -/
def onWire (fd : ℕ) (e : Event) : Option (List UInt8 ⊕ List UInt8) :=
  ((recvOn fd e).map fun m => .inl m.2.2).or ((sendOn fd e).map fun r => .inr r.msg)

/-- What a socket receives, -/
lemma recvOn_eq_some {fd : ℕ} {e : Event} {m : ℕ × Slot × List UInt8} (h : recvOn fd e = some m) :
    e = .recv m.1 m.2.1 fd m.2.2 := by
  cases e with
  | recv rid c fd' msg =>
    simp only [recvOn, Option.ite_none_right_eq_some, Option.some.injEq] at h
    obtain ⟨rfl, rfl⟩ := h
    rfl
  | _ => simp [recvOn] at h

/-- and what is sent on it. -/
lemma sendOn_eq_some {fd : ℕ} {e : Event} {r : Outgoing} (h : sendOn fd e = some r) :
    e = .send r.rid r.c fd r.type r.st r.seq r.body := by
  cases e with
  | send rid c fd' type st seq body =>
    simp only [sendOn, Option.ite_none_right_eq_some, Option.some.injEq] at h
    obtain ⟨rfl, rfl⟩ := h
    rfl
  | _ => simp [sendOn] at h

section

variable (fd : ℕ) (es : List Event)

/-- The keys of what it receives, -/
lemma filterMap_recvKey :
    es.filterMap (recvKey fd) = (es.filterMap (recvOn fd)).map fun m => msgKey m.1 m.2.2 := by
  rw [List.map_filterMap]
  refine List.filterMap_congr fun e _ => ?_
  cases e with
  | recv rid c fd' msg => by_cases h : fd' = fd <;> simp [recvKey, recvOn, h]
  | _ => rfl

/-- and of what is sent on it. -/
lemma filterMap_sendKey :
    es.filterMap (sendKey fd) = (es.filterMap (sendOn fd)).map fun r => (r.rid, r.seq, r.type) := by
  rw [List.map_filterMap]
  refine List.filterMap_congr fun e _ => ?_
  cases e with
  | send rid c fd' type st seq body => by_cases h : fd' = fd <;> simp [sendKey, sendOn, h]
  | _ => rfl

/-- The messages to the daemon, -/
lemma onWire_left : (es.filterMap (onWire fd)).filterMap Sum.getLeft? =
    (es.filterMap (recvOn fd)).map fun m => m.2.2 := by
  rw [List.map_filterMap, List.filterMap_filterMap]
  refine List.filterMap_congr fun e _ => ?_
  cases e with
  | recv rid c fd' msg => by_cases h : fd' = fd <;> simp [onWire, recvOn, sendOn, h]
  | send rid c fd' type st seq body => by_cases h : fd' = fd <;> simp [onWire, recvOn, sendOn, h]
  | _ => rfl

/-- and those back. -/
lemma onWire_right : (es.filterMap (onWire fd)).filterMap Sum.getRight? =
    (es.filterMap (sendOn fd)).map Outgoing.msg := by
  rw [List.map_filterMap, List.filterMap_filterMap]
  refine List.filterMap_congr fun e _ => ?_
  cases e with
  | recv rid c fd' msg => by_cases h : fd' = fd <;> simp [onWire, recvOn, sendOn, h]
  | send rid c fd' type st seq body => by_cases h : fd' = fd <;> simp [onWire, recvOn, sendOn, h]
  | _ => rfl

end

/-! ## Clients that wait -/

/-- **The client on connection `fd` waits for each answer before its next request.** -/
def WaitsOn (fd : ℕ) (es : List Event) : Prop :=
  Before (fun pre e => (recvOn fd e).isSome = true →
    (pre.filterMap (recvOn fd)).length ≤ (pre.filterMap (sendOn fd)).length) es

/-- **Such a client gets its answers in the order of its requests**: those so far are the answers to its
first requests, and at most one request is open.

**Proof sketch.** A request finds all requests before it answered. An answer is owed for one of the
requests that are open, and there is only one. -/
lemma Run.answers_in_order {rst : Bool} {es : List Event} {a : Abs} (h : Run rst es a) {fd : ℕ}
    (hl : WaitsOn fd es) : ∃ tail : List Key, tail.length ≤ 1 ∧
      es.filterMap (recvKey fd) = es.filterMap (sendKey fd) ++ tail := by
  revert hl
  refine Steps.invariant (P := fun es _ => WaitsOn fd es → ∃ tail : List Key, tail.length ≤ 1 ∧
    es.filterMap (recvKey fd) = es.filterMap (sendKey fd) ++ tail)
    (fun _ => ⟨[], Nat.zero_le _, rfl⟩) (fun es t e t' hrun ih hs hl => ?_) h
  obtain ⟨tail, hlen, htail⟩ := ih fun pre x post hx => hl pre x (post ++ [e]) (by rw [hx]; simp)
  cases hr : recvKey fd e with
  | some k =>
    obtain ⟨rid, c, msg, rfl, -⟩ := recvKey_eq_some hr
    have hle := hl es _ [] rfl (by simp [recvOn])
    have h₁ := congrArg List.length htail
    rw [filterMap_recvKey, filterMap_sendKey, List.length_append, List.length_map,
      List.length_map] at h₁
    obtain rfl : tail = [] := List.length_eq_zero_iff.mp (by omega)
    refine ⟨[k], le_rfl, ?_⟩
    rw [filterMap_snoc_some hr, filterMap_snoc_none rfl, htail, List.append_nil]
  | none =>
    rw [filterMap_snoc_none hr]
    cases hsd : sendKey fd e with
    | none =>
      rw [filterMap_snoc_none hsd]
      exact ⟨tail, hlen, htail⟩
    | some k =>
      have hsub := (Run.accounts (hrun.snoc hs)).sub fd
      rw [filterMap_snoc_none hr, filterMap_snoc_some hsd, htail,
        List.subperm_append_left] at hsub
      rw [filterMap_snoc_some hsd, htail]
      match tail, hlen, hsub with
      | [], _, hsub => simpa using hsub.length_le
      | [k'], _, hsub =>
        obtain rfl : k = k' := by simpa using hsub.subset
        exact ⟨[], Nat.zero_le _, (List.append_nil _).symm⟩

/-! ## The tool and the daemon -/

/-- **A conversation**: the calls of the tool and what the daemon does on connection `fd` happen in some
order, on a socket that keeps the order of the datagrams, and no call of the tool fails. -/
structure Conversation (fd : ℕ) (es : List Event) (t : Cli.Tool)
    (s : List (Act (List UInt8) (List UInt8))) : Prop where
  order : Ordered s
  tool : s.filter Act.ofClient = dialogue (t.log.map fun x => (x.msg, x.reply.getD []))
  daemon : s.filterMap Act.ofServer = es.filterMap (onWire fd)
  received : ∀ x ∈ t.log, x.reply.isSome = true

namespace Conversation

variable {fd : ℕ} {es : List Event} {t : Cli.Tool} {s : List (Act (List UInt8) (List UInt8))}

/-- The tool waits for its answers. -/
lemma waitsOn (h : Conversation fd es t s) : WaitsOn fd es := by
  rintro pre e post rfl he
  obtain ⟨m, hm⟩ := Option.isSome_iff_exists.mp he
  have hwire : onWire fd e = some (.inl m.2.2) := by
    rw [onWire, hm]
    rfl
  have hs := h.daemon
  rw [List.filterMap_append, List.filterMap_cons_some hwire] at hs
  have hle := h.order.lockstep h.tool hs
  rwa [onWire_left, onWire_right, List.length_map, List.length_map] at hle

/-- **The requests of the tool and the answers of the daemon, one by one.** -/
lemma paired (h : Conversation fd es t s) {rst : Bool} {a : Abs} (hrun : Run rst es a) :
    (es.filterMap (recvOn fd)).map (fun m => m.2.2) = t.log.map (fun x => x.msg) ∧
    (es.filterMap (sendOn fd)).map Outgoing.msg = t.log.map (fun x => x.reply.getD []) ∧
    (es.filterMap (recvOn fd)).map (fun m => msgKey m.1 m.2.2) =
      (es.filterMap (sendOn fd)).map fun r => (r.rid, r.seq, r.type) := by
  obtain ⟨htakes, hgots⟩ := h.order.complete h.tool
  rw [← filterMap_getLeft, h.daemon, onWire_left, List.map_map] at htakes
  rw [← filterMap_getRight, h.daemon, onWire_right, List.map_map] at hgots
  obtain ⟨tail, -, htail⟩ := hrun.answers_in_order h.waitsOn
  rw [filterMap_recvKey, filterMap_sendKey] at htail
  -- no more requests than calls, no fewer answers than calls, and no more answers than requests
  have h₁ := htakes.length_le
  have h₂ := hgots.length_le
  have h₃ := congrArg List.length htail
  simp only [List.length_map, List.length_append] at h₁ h₂ h₃
  obtain rfl : tail = [] := List.length_eq_zero_iff.mp (by omega)
  rw [List.append_nil] at htail
  refine ⟨htakes.eq_of_length ?_, (hgots.eq_of_length ?_).symm, htail⟩
  · simp only [List.length_map]
    omega
  · simp only [List.length_map]
    omega

/-- Exchange `k` of the tool, as the daemon has seen it. -/
lemma exchange (h : Conversation fd es t s) {rst : Bool} {a : Abs} (hrun : Run rst es a) {k : ℕ}
    {x : Cli.Exchange} (hx : t.log[k]? = some x) : ∃ r : Outgoing,
      Event.recv r.rid r.c fd x.msg ∈ es ∧
      Event.send r.rid r.c fd r.type r.st r.seq r.body ∈ es ∧
      r.seq = (frameHdr x.msg).seq ∧ r.type = (frameHdr x.msg).type ||| respBit ∧
      x.reply = some r.msg := by
  obtain ⟨hmsgs, hreplies, hkeys⟩ := h.paired hrun
  have h₁ := congrArg (·[k]?) hmsgs
  have h₂ := congrArg (·[k]?) hreplies
  have h₃ := congrArg (·[k]?) hkeys
  simp only [List.getElem?_map, hx, Option.map_some, Option.map_eq_some_iff] at h₁ h₂ h₃
  obtain ⟨m, hm, hmsg⟩ := h₁
  obtain ⟨r, hr, hreply⟩ := h₂
  rw [hm, hr, Option.map_some, Option.map_some, Option.some.injEq, hmsg, msgKey, Prod.mk.injEq,
    Prod.mk.injEq] at h₃
  obtain ⟨e₁, he₁, hrecv⟩ := List.mem_filterMap.mp (List.mem_of_getElem? hm)
  obtain ⟨e₂, he₂, hsend⟩ := List.mem_filterMap.mp (List.mem_of_getElem? hr)
  rw [recvOn_eq_some hrecv, hmsg, h₃.1] at he₁
  rw [sendOn_eq_some hsend] at he₂
  -- the answer goes to the slot of the request
  obtain ⟨fd', msg, hrecv'⟩ := hrun.recv_of_send he₂
  obtain ⟨hc, -, -⟩ := (Run.ledger hrun).recv_unique he₁ hrecv'
  rw [hc] at he₁
  refine ⟨r, he₁, he₂, h₃.2.1.symm, h₃.2.2.symm, ?_⟩
  obtain ⟨d, hd⟩ := Option.isSome_iff_exists.mp (h.received x (List.mem_of_getElem? hx))
  rw [hreply, hd]
  rfl

end Conversation

/-- Only `SPIPROXY_OK` is zero. -/
lemma Status.code_eq_zero {st : Status} : st.code = 0 ↔ st = .ok := by
  cases st <;> decide

namespace Cli

/-- The status in an answer to the request. -/
lemma statusOf_msg (r : Outgoing) (type : MsgType) (h : r.type = type.code ||| respBit) :
    statusOf r.seq type r.msg = some r.st.code := by
  have hd : Hdr.decode r.msg =
      ⟨spiproxyVer, r.type, r.st.code, r.seq, UInt32.ofNat r.body.length⟩ := Hdr.decode_encode _ _
  have hl : hdrSize ≤ r.msg.length := by
    rw [Outgoing.msg, List.length_append, Hdr.length_encode]
    omega
  rw [statusOf, hd, if_pos ⟨hl, rfl, h⟩]

section

variable (w : World) (deviceIdReg : UInt16) (fuel : ℕ) (opts : List Opt) (argv : List CString)

/-- Exchange `k` of the tool: the daemon's answer to its request is what was received, and its status is
what `xfer` returned. -/
lemma exchange_answered {rst : Bool} {es : List Event} {a : Abs} (hrun : Run rst es a) {fd : ℕ}
    {s : List (Act (List UInt8) (List UInt8))}
    (hs : Conversation fd es (ends (main w deviceIdReg fuel opts argv) Tool.start).2 s) {k : ℕ}
    {x : Exchange} (hx : (ends (main w deviceIdReg fuel opts argv) Tool.start).2.log[k]? = some x) :
    ∃ r : Outgoing, Event.recv r.rid r.c fd x.msg ∈ es ∧
      Event.send r.rid r.c fd r.type r.st r.seq r.body ∈ es ∧
      r.type = x.type.code ||| respBit ∧ r.seq = UInt32.ofNat (k + 1) ∧
      x.reply = some r.msg ∧ x.ret = some r.st.code := by
  have hsound := (fine_main w deviceIdReg fuel opts argv).sound k x hx
  obtain ⟨r, hrecv, hsend, hseq, htype, hreply⟩ := hs.exchange hrun hx
  have hhdr : frameHdr x.msg = Hdr.decode x.msg := by
    refine frameHdr_of_ok ?_
    rw [hsound.msg]
    exact frameOk_datagram _ _ _ hsound.fits.length
  rw [hhdr, hsound.msg, decode_datagram] at hseq htype
  refine ⟨r, hrecv, hsend, htype, hseq, hreply, ?_⟩
  rw [hsound.ret, hreply, Option.bind_some, show UInt32.ofNat (k + 1) = r.seq from hseq.symm]
  exact statusOf_msg r x.type htype

/-- Exchange `k` of the tool if it returned `SPIPROXY_OK`. -/
lemma exchange_succeeded {rst : Bool} {es : List Event} {a : Abs} (hrun : Run rst es a) {fd : ℕ}
    {s : List (Act (List UInt8) (List UInt8))}
    (hs : Conversation fd es (ends (main w deviceIdReg fuel opts argv) Tool.start).2 s) {k : ℕ}
    {x : Exchange} (hx : (ends (main w deviceIdReg fuel opts argv) Tool.start).2.log[k]? = some x)
    (hret : x.ret = some 0) : ∃ r : Outgoing, Event.recv r.rid r.c fd x.msg ∈ es ∧
      Event.send r.rid r.c fd (x.type.code ||| respBit) .ok (UInt32.ofNat (k + 1)) r.body ∈ es ∧
      r.type = x.type.code ||| respBit ∧ r.seq = UInt32.ofNat (k + 1) ∧ r.st = .ok ∧
      x.reply = some r.msg := by
  obtain ⟨r, hrecv, hsend, htype, hseq, hreply, hst⟩ :=
    exchange_answered w deviceIdReg fuel opts argv hrun hs hx
  have hok : r.st = .ok := by
    rw [hret, Option.some.injEq] at hst
    exact Status.code_eq_zero.mp hst.symm
  rw [htype, hseq, hok] at hsend
  exact ⟨r, hrecv, hsend, htype, hseq, hok, hreply⟩

/-- **The tool gets the answers to its own requests.** Whatever the command, the tool and the daemon may
run in any order and other clients may do what they like: if the socket keeps the order of the datagrams
and no call fails, every `xfer` returns the status with which the daemon has answered the request of that
`xfer`, so that none ends in `bad response` or `short response`. -/
theorem session_answers {env : Env} {cfg : Config} {g : Daemon} (h : Reachable env cfg g) {fd : ℕ}
    {s : List (Act (List UInt8) (List UInt8))}
    (hs : Conversation fd g.evs (ends (main w deviceIdReg fuel opts argv) Tool.start).2 s) {k : ℕ}
    {x : Exchange} (hx : (ends (main w deviceIdReg fuel opts argv) Tool.start).2.log[k]? = some x) :
    ∃ rid c st body, Event.recv rid c fd x.msg ∈ g.evs ∧
      Event.send rid c fd (x.type.code ||| respBit) st (UInt32.ofNat (k + 1)) body ∈ g.evs ∧
      x.ret = some st.code := by
  obtain ⟨r, hrecv, hsend, htype, hseq, -, hret⟩ :=
    exchange_answered w deviceIdReg fuel opts argv h.good.run hs hx
  rw [htype, hseq] at hsend
  exact ⟨r.rid, r.c, r.st, r.body, hrecv, hsend, hret⟩

end

/-- An exchange, step by step. -/
lemma ordered_exchange (m d : List UInt8) :
    Ordered [Act.call m, .take m, .reply d, .got d] := by
  intro p q h
  match p, h with
  | [], _ => exact ⟨List.prefix_rfl, List.prefix_rfl⟩
  | [_], rfl => exact ⟨List.nil_prefix, List.prefix_rfl⟩
  | [_, _], rfl => exact ⟨List.prefix_rfl, List.prefix_rfl⟩
  | [_, _, _], rfl => exact ⟨List.prefix_rfl, List.nil_prefix⟩
  | [_, _, _, _], rfl => exact ⟨List.prefix_rfl, List.prefix_rfl⟩

/-- A conversation of one exchange. -/
lemma conversation_of_exchange {fd : ℕ} {es : List Event} {t : Tool} {x : Exchange}
    (hlog : t.log = [x]) (hwire : es.filterMap (onWire fd) = [.inl x.msg, .inr (x.reply.getD [])])
    (hreply : x.reply.isSome = true) : Conversation fd es t
      [.call x.msg, .take x.msg, .reply (x.reply.getD []), .got (x.reply.getD [])] where
  order := ordered_exchange _ _
  tool := by
    rw [hlog]
    rfl
  daemon := by
    rw [hwire]
    rfl
  received := by
    rw [hlog]
    exact List.forall_mem_singleton.mpr hreply

/-- A world in which the daemon of `sharedRun` answers the second client. -/
def sharedWorld : World where
  connect := fun _ => none
  send := fun _ => none
  recv := fun _ => .ok (Outgoing.msg ⟨1, 1, MsgType.read.code ||| respBit, .ok, 1,
    [0, 0, 0x1e, 0, 5, 0, 0, 0, 42, 0, 0, 0]⟩)
  clock := fun _ => 0
  calloc := none
  qsort := id

/-- The word `read`. -/
def readWord : CString := ⟨"read".toList, by decide⟩

/-- The command `read 0 0x1e 5`. -/
def sharedArgs : List CString :=
  [readWord, ⟨"0".toList, by decide⟩, ⟨"0x1e".toList, by decide⟩, ⟨"5".toList, by decide⟩]

/-- Its request and the answer. -/
def sharedExchange : Exchange where
  type := .read
  flags := 0
  body := [0, 0, 0x1e, 0, 5, 0, 0, 0, 0, 0, 0, 0]
  msg := datagram .read 0 1 [0, 0, 0x1e, 0, 5, 0, 0, 0, 0, 0, 0, 0]
  reply := some (Outgoing.msg ⟨1, 1, MsgType.read.code ||| respBit, .ok, 1,
    [0, 0, 0x1e, 0, 5, 0, 0, 0, 42, 0, 0, 0]⟩)
  ret := some 0

/-- The tool makes one exchange. -/
lemma log_shared :
    (ends (main sharedWorld 0 0 [] sharedArgs) Tool.start).2.log = [sharedExchange] := by
  decide +kernel

/-- The two sides talk to each other. -/
lemma conversation_shared : Conversation 1 sharedRun.evs
    (ends (main sharedWorld 0 0 [] sharedArgs) Tool.start).2
    [.call sharedExchange.msg, .take sharedExchange.msg, .reply (sharedExchange.reply.getD []),
      .got (sharedExchange.reply.getD [])] :=
  conversation_of_exchange log_shared (by decide +kernel) rfl

/-- The theorem for the second client of `sharedRun`. -/
theorem session_answers_shared : sharedExchange.ret = some 0 ∧ ∃ rid c st body,
    Event.recv rid c 1 sharedExchange.msg ∈ sharedRun.evs ∧
    Event.send rid c 1 (MsgType.read.code ||| respBit) st 1 body ∈ sharedRun.evs ∧
    sharedExchange.ret = some st.code := by
  have hr : Reachable (Env.serving sharedFrames) Config.plain sharedRun := Reachable.run _ _ _
  exact ⟨rfl, session_answers sharedWorld 0 0 [] sharedArgs hr conversation_shared
    (k := 0) (x := sharedExchange) (by rw [log_shared]; rfl)⟩

end Cli

/-! ## Where a request takes effect -/

/-- **A request with operations, from its dispatch to its answer**: in between there are, log lines
aside, its operations, and no register is accessed for it at any other time.

**Proof sketch.** When the request is answered it is being executed, so it was dispatched before,
and its datagram had arrived by then. From the dispatch on, `ops_segment` gives the operations up
to an answer, which is the only one there is. -/
lemma Run.ops_executed {rst : Bool} {es : List Event} {u : Abs} (h : Run rst es u)
    (hu : u.act = .idle) {r : Req} {fd fd' : ℕ} {msg : List UInt8} {ops : List Op} {type : UInt8}
    {seq : UInt32} {body : List UInt8} (hr : Event.recv r.rid r.c fd msg ∈ es)
    (hok : frameOk msg = true) (hreq : r = frameReq r.rid r.c msg) (hops : r.ops = some ops)
    (hsized : r.sized = true) (hs : Event.send r.rid r.c fd' type .ok seq body ∈ es) :
    ∃ pre o w q seg outs post, es = pre ++ .dispatch r.toEntry r.body o w q ::
        (seg ++ .send r.rid r.c fd' type .ok seq body :: post) ∧
      Event.recv r.rid r.c fd msg ∈ pre ∧ OpsRun r ops (seg.filter fun e => !e.isNote) .ok outs ∧
      body = outs.flatMap Op.encode ∧
      ∀ x c, Event.access x ∈ pre ++ post → x.agent ≠ .request r.rid c := by
  have hL := Run.ledger h
  have huniq := (Run.accounts h).answer_unique hL hs (by simp [isAnswer] : isAnswer r.rid _ = true)
  -- the request was being executed when it was answered, so it was dispatched before
  obtain ⟨p, q, rfl⟩ := List.append_of_mem hs
  obtain ⟨a, a', hp, hsend, hq⟩ := h.split_cons
  obtain ⟨-, ⟨msg', -, hst, -⟩ | ⟨r', pr, hact, hrid, -⟩⟩ := hsend.send_inv
  · split_ifs at hst
  have hexec : r' ∈ a.executing := Abs.mem_executing.mpr (Or.inr ⟨pr, hact⟩)
  have hknown := (Run.ledger hp).known (List.mem_append_left _ hexec)
  obtain rfl : r' = r := hL.known_unique hknown.mono ⟨fd, msg, hr, hok, hreq⟩ hrid
  obtain ⟨o, wt, qs, hd⟩ := (Run.ledger hp).executing r' hexec
  obtain ⟨p₁, p₂, rfl⟩ := List.append_of_mem hd
  obtain ⟨b, b', hp₁, hdisp, hp₂⟩ := hp.split_cons
  obtain ⟨-, hqueued, hactb, -⟩ := hdisp.dispatch_inv
  -- its datagram had arrived by then, and its segment ends with the one answer there is
  have hrecv : Event.recv r'.rid r'.c fd msg ∈ p₁ := by
    obtain ⟨fd₁, msg₁, hm₁, -⟩ := (Run.ledger hp₁).known (List.mem_append_right _ hqueued)
    obtain ⟨-, rfl, rfl⟩ := hL.recv_unique (List.mem_append_left _ (List.mem_append_left _ hm₁)) hr
    exact hm₁
  obtain ⟨seg, fd₂, st₂, outs, rest, heq, hseg⟩ :=
    ops_segment hops hsized hu (hp₂.trans (Steps.cons hsend hq)) hactb
  rw [if_pos rfl, List.length_nil, List.drop_zero] at hseg
  have hes : p₁ ++ .dispatch r'.toEntry r'.body o wt qs :: p₂ ++
      .send r'.rid r'.c fd' type .ok seq body :: q = p₁ ++ .dispatch r'.toEntry r'.body o wt qs ::
        (p₂ ++ .send r'.rid r'.c fd' type .ok seq body :: q) := by simp
  have hsame : Event.send r'.rid r'.c fd₂ (r'.hdr.type ||| respBit) st₂ r'.hdr.seq
      (outs.flatMap Op.encode) = .send r'.rid r'.c fd' type .ok seq body := by
    refine List.mem_singleton.mp (huniq ▸ List.mem_filter.mpr ⟨?_, by simp [isAnswer]⟩)
    rw [hes, heq]
    simp
  rw [List.nil_append, hsame] at heq
  obtain ⟨-, -, -, -, rfl, -, hbody⟩ := Event.send.inj hsame
  rw [heq] at hes
  refine ⟨p₁, o, wt, qs, seg, outs, rest, hes, hrecv, hseg, hbody.symm, fun x c hx => ?_⟩
  rw [hes] at h
  rcases List.mem_append.mp hx with hx | hx
  · exact h.no_access_before hx
  · rw [List.append_cons, ← List.append_assoc] at h
    exact h.no_access_after hx

/-- **The point at which a request with operations takes effect**: between its arrival and its answer
there is a point at which its operations are executed on the registers as they are then. -/
lemma Run.effect_point {rst : Bool} {es : List Event} {u : Abs} (h : Run rst es u)
    (hu : u.act = .idle) {drift : (ℕ → UInt32) → (ℕ → UInt32) → Prop} {regs₀ regs₁ : ℕ → UInt32}
    (hf : Steps (FlatStep drift) regs₀ ((accesses es).map Access.record) regs₁) {r : Req} {fd fd' : ℕ}
    {msg : List UInt8} {ops : List Op} {type : UInt8} {seq : UInt32} {body : List UInt8}
    (hr : Event.recv r.rid r.c fd msg ∈ es) (hok : frameOk msg = true)
    (hreq : r = frameReq r.rid r.c msg) (hops : r.ops = some ops) (hsized : r.sized = true)
    (hs : Event.send r.rid r.c fd' type .ok seq body ∈ es) :
    ∃ pre post regs regs' outs, es = pre ++ post ∧ Event.recv r.rid r.c fd msg ∈ pre ∧
      Event.send r.rid r.c fd' type .ok seq body ∈ post ∧
      Steps (FlatStep drift) regs₀ ((accesses pre).map Access.record) regs ∧
      BatchStep drift r.c regs ops .ok outs regs' ∧ body = outs.flatMap Op.encode := by
  obtain ⟨pre, o, w, q, seg, outs, post, rfl, hrecv, hseg, hbody, -⟩ :=
    h.ops_executed hu hr hok hreq hops hsized hs
  obtain ⟨regs, hpre, hpost⟩ := flat_append hf
  rw [accesses_segment rfl rfl] at hpost
  obtain ⟨regs', hpost₁, -⟩ := flat_append hpost
  exact ⟨pre, _, regs, regs', outs, rfl, hrecv, by simp, hpre, hseg.batchStep hpost₁, hbody⟩

/-! ## The `read` command -/

namespace Cli

/-- The bytes of a list that is stored in memory. -/
lemma loadBytes_of_stored {mem : ℕ → Option UInt8} : ∀ {l : List UInt8} {i : ℕ},
    (∀ j < l.length, mem (i + j) = l[j]?) → loadBytes mem l.length i = some l := by
  intro l
  induction l with
  | nil => exact fun _ => rfl
  | cons b l ih =>
    intro i h
    have h₀ : mem i = some b := h 0 (Nat.zero_lt_succ _)
    have hrest : loadBytes mem l.length (i + 1) = some l := by
      refine ih fun j hj => ?_
      have := h (j + 1) (Nat.succ_lt_succ hj)
      rwa [Nat.add_right_comm, Nat.add_assoc]
    simp [loadBytes, h₀, hrest]

/-- The operation in an answer with one operation. -/
lemma opOf_answer {r : Outgoing} {type : MsgType} {op op' : Op} {res : Except RespError UInt16}
    {resp' : Option RespBuf} (ht : r.type = type.code ||| respBit) (hb : r.body = op'.encode)
    (hp : parseResp (r.msg.take (hdrSize + msgMax)) r.seq type.code (some (opBuf op)) =
      some (res, resp')) : resp'.bind opOf = some op' := by
  have hd : Hdr.decode r.msg = ⟨spiproxyVer, r.type, r.st.code, r.seq, 12⟩ := by
    rw [Outgoing.msg, hb]
    exact Hdr.decode_encode _ _
  have hl : r.msg.length = 24 := by
    rw [Outgoing.msg, List.length_append, hb]
    rfl
  have hdrop : r.msg.drop hdrSize = op'.encode := by
    rw [Outgoing.msg, hb]
    exact List.drop_left' rfl
  rw [List.take_of_length_le (by rw [hl]; decide),
    parseResp_ok (by rw [hl]; decide) (by rw [hd]) (by rw [hd, ht]), hd, hl, hdrop] at hp
  obtain ⟨-, rfl⟩ := Prod.mk.inj (Option.some.inj hp)
  have hload : loadBytes ((opBuf op).store op'.encode 12).mem op'.encode.length 0 = some op'.encode := by
    refine loadBytes_of_stored fun j hj => ?_
    rw [Nat.zero_add]
    show (if j < op'.encode.length then _ else _) = _
    rw [if_pos hj, List.getD_eq_getElem?_getD, List.getElem?_eq_getElem hj]
    rfl
  show (loadBytes ((opBuf op).store op'.encode 12).mem opSize 0).map Op.decode = _
  rw [← Op.length_encode op', hload]
  exact congrArg some (by simpa using Op.decode_encode op' [])

section

variable (w : World) (t : Tool)

/-- **What the `read` command has done when it exits with 0**: one exchange, and it prints the
operation in the answer. -/
structure ReadDone (slice mmd reg : CString) (op op' : Op) (x : Exchange) (resp' : Option RespBuf)
    (t t₁ t' : Tool) : Prop where
  args : readOp slice mmd reg = .ok op
  exchanged : Exchanged t .read 0 op.encode (some (opBuf op)) x resp' t₁
  ret : x.ret = some 0
  stored : resp'.bind opOf = some op'
  log : t'.log = t₁.log
  out : t'.out = t.out ++ readLine (some 0) op'

/-- The `read` command. -/
lemma readCmd_spec (slice mmd reg : CString) : Triple (· = t) (readCmd w slice mmd reg)
    (fun code t' => code = 0 → ∃ op op' x resp' t₁, ReadDone slice mmd reg op op' x resp' t t₁ t')
    (fun how _ => how ≠ .exited 0) := by
  refine Triple.bind ((orDie_spec t (readOp slice mmd reg)).mono (fun _ h => h) (fun _ _ h => h)
    fun _ _ h => h.ne_zero) fun op => Triple.of_states fun t₀ ⟨hop, e⟩ => ?_
  subst e
  refine Triple.bind ((opXfer_spec w t₀ .read 0 op).mono (fun _ h => h) (fun _ _ h => h) nofun) fun r =>
    Triple.of_states fun t₁ hx => Triple.step (Triple.pure ?_)
  rintro _ rfl hcode
  have hst : r.1 = some 0 := by
    by_contra hne
    simp [exitCode, hne] at hcode
  rcases hx with ⟨hnone, -⟩ | ⟨x, resp', hret, hstored, hx⟩
  · simp [hnone] at hst
  · refine ⟨op, r.2, x, resp', t₁, hop, hx, hret.symm.trans hst, hstored, rfl, ?_⟩
    show t₁.out ++ readLine r.1 r.2 = _
    rw [hx.out, hst]

end

/-- A command that has exited with 0, whatever the options. -/
lemma main_command (w : World) (deviceIdReg : UInt16) (fuel : ℕ) (opts : List Opt) (cmd : CString)
    (args : List CString) (t : Tool) {Q : Tool → Tool → Prop}
    (hc : ∀ v t₀, Triple (· = t₀) (command w deviceIdReg fuel v cmd args)
      (fun code t' => code = 0 → Q t₀ t') (fun how _ => how ≠ .exited 0))
    (h : (ends (main w deviceIdReg fuel opts (cmd :: args)) t).1 = .exited 0) :
    ∃ t₀, Unchanged t t₀ ∧ Q t₀ (ends (main w deviceIdReg fuel opts (cmd :: args)) t).2 := by
  refine ends_of_triple (P := (· = t)) (E := fun how t' => how = .exited 0 →
    ∃ t₀, Unchanged t t₀ ∧ Q t₀ t') ?_ rfl h
  refine Triple.bind ((options_spec opts 0 t).mono (fun _ h => h) (fun _ _ h => h) ?_) fun v =>
    Triple.of_states fun t₀ hu => ?_
  · rintro how _ rfl
    simp
  refine (hc v t₀).mono (fun _ h => h) ?_ (fun _ _ hne he => absurd he hne)
  exact fun code t' hdone hcode => ⟨t₀, hu, hdone (How.exited.inj hcode)⟩

/-- The operation of the `read` command is a read. -/
lemma write_readOp {slice mmd reg : CString} {op : Op} (h : readOp slice mmd reg = .ok op) :
    op.write = 0 := by
  simp only [readOp, bind_eq_ok] at h
  obtain ⟨v₁, -, v₂, -, v₃, -, ⟨⟩⟩ := h
  rfl

/-- The request of the `read` command asks for its one operation. -/
lemma ops_read (rid : ℕ) (c : Slot) (flags : UInt16) (seq : UInt32) {op : Op} (hw : op.write = 0) :
    (frameReq rid c (datagram .read flags seq op.encode)).ops = some [op] := by
  have hfrom : Req.opsFrom (frameReq rid c (datagram .read flags seq op.encode)) 0 1 = [op] := by
    rw [frameReq_datagram]
    exact congrArg (fun o => [o]) (Op.decode_encode op [])
  simp only [Req.ops, kind_datagram, hfrom, List.map_cons, List.map_nil]
  rw [← hw]

/-- A read by itself, on the register file. -/
lemma batchStep_read {drift : (ℕ → UInt32) → (ℕ → UInt32) → Prop} {c : Slot}
    {regs regs' : ℕ → UInt32} {op : Op} {outs : List Op} (hw : op.write = 0)
    (h : BatchStep drift c regs [op] .ok outs regs') : outs = [{ op with val := regs op.addr }] := by
  cases h with
  | cons h hs =>
    cases hs
    cases h with
    | read => rfl
    | write hw' => exact absurd hw hw'
    | refused hst =>
      unfold opRefusal at hst
      split_ifs at hst <;> cases hst
  | stop _ hst => exact absurd rfl hst

/-- **What the `read` command prints was in the register.** Next to a device that answers the frames of
the daemon like a LAN80xx, if the tool and the daemon talk over a socket and `read` exits with 0, then
there is a point between the arrival of its request at the daemon and the daemon's answer such that the
command prints the value that its register has at that point, after all accesses of all clients before.

**Proof sketch.** An exit with 0 means that the one exchange succeeded, so its request was received
and answered with `SPIPROXY_OK` (`exchange_succeeded`). A `READ` takes effect at one point between
the two (`Run.effect_point`), where it reads what all accesses before have left in the register;
the tool prints what the answer carries. -/
theorem read_prints_register {env : Env} {cfg : Config}
    {drift : (ℕ → UInt32) → (ℕ → UInt32) → Prop} {chips : ℕ → Chip} {g : Daemon}
    (h : Reachable env cfg g) (hc : Attached env cfg drift chips g) (w : World) (deviceIdReg : UInt16)
    (fuel : ℕ) (opts : List Opt) (slice mmd reg : CString) {fd : ℕ}
    {s : List (Act (List UInt8) (List UInt8))}
    (hs : Conversation fd g.evs
      (ends (main w deviceIdReg fuel opts [readWord, slice, mmd, reg]) Tool.start).2 s)
    (hexit : (ends (main w deviceIdReg fuel opts [readWord, slice, mmd, reg]) Tool.start).1 =
      .exited 0) :
    ∃ op, readOp slice mmd reg = .ok op ∧ ∃ rid c body pre post regs, g.evs = pre ++ post ∧
      Event.recv rid c fd (datagram .read 0 1 op.encode) ∈ pre ∧
      Event.send rid c fd (MsgType.read.code ||| respBit) .ok 1 body ∈ post ∧
      Steps (FlatStep drift) (chips (boot env cfg).io.nIoctl).regs
        ((accesses pre).map Access.record) regs ∧
      (ends (main w deviceIdReg fuel opts [readWord, slice, mmd, reg]) Tool.start).2.out =
        readLine (some 0) { op with val := regs op.addr } := by
  obtain ⟨t₀, hu, op, op', x, resp', t₁, hd⟩ := main_command w deviceIdReg fuel opts readWord
    [slice, mmd, reg] Tool.start (fun _ t₀ => readCmd_spec w t₀ slice mmd reg) hexit
  have hseq' : t₀.seq + 1 = 1 := by rw [hu.seq]; rfl
  have hx : (ends (main w deviceIdReg fuel opts [readWord, slice, mmd, reg])
      Tool.start).2.log[0]? = some x := by
    rw [hd.log, hd.exchanged.log, hu.log]
    rfl
  obtain ⟨r, hrecv, hsend, htype, hrseq, -, hreply⟩ :=
    exchange_succeeded w deviceIdReg fuel opts _ h.good.run hs hx hd.ret
  have hrseq' : r.seq = 1 := hrseq
  have hw : op.write = 0 := write_readOp hd.args
  have hmsg := hd.exchanged.msg
  rw [hseq'] at hmsg
  rw [hmsg] at hrecv
  rw [hd.exchanged.request.1] at hsend
  have hfits := fits_op (Or.inl rfl : MsgType.read = .read ∨ MsgType.read = .write) op
  obtain ⟨pre, post, regs, regs', outs, hes, hpre, hpost, hsteps, hbatch, hbody⟩ :=
    h.good.run.effect_point rfl (hc.flat h) (r := frameReq r.rid r.c (datagram .read 0 1 op.encode))
      hrecv (frameOk_datagram _ _ _ hfits.length) rfl (ops_read _ _ _ _ hw)
      (hfits.sized _ _ _ _) hsend
  rw [batchStep_read hw hbatch, List.flatMap_singleton] at hbody
  obtain ⟨res, hparse, -⟩ := hd.exchanged.parsed r.msg hreply
  rw [hseq', ← hrseq'] at hparse
  have hstored := opOf_answer (htype.trans (by rw [hd.exchanged.request.1])) hbody hparse
  refine ⟨op, hd.args, r.rid, r.c, r.body, pre, post, regs, hes, hpre, hpost, hsteps, ?_⟩
  rw [hd.out, hu.out, Option.some.inj (hd.stored.symm.trans hstored)]
  rfl

/-- The theorem for the second client of `sharedRun`: it prints what the first has written. -/
theorem read_prints_register_shared :
    (ends (main sharedWorld 0 0 [] sharedArgs) Tool.start).2.out =
        "status=0 slice=0 mmd=0x1e reg=0x0005 val=0x0000002a\n".toList ∧
      ∃ op rid c body pre post regs, sharedRun.evs = pre ++ post ∧
        Event.recv rid c 1 (datagram .read 0 1 (Op.encode op)) ∈ pre ∧
        Event.send rid c 1 (MsgType.read.code ||| respBit) .ok 1 body ∈ post ∧
        Steps (FlatStep Eq) (chipAfter sharedFrames 2).regs ((accesses pre).map Access.record) regs ∧
        (ends (main sharedWorld 0 0 [] sharedArgs) Tool.start).2.out =
          readLine (some 0) { op with val := regs op.addr } := by
  have hframes : sharedRun.frames (Env.serving sharedFrames) Config.plain = sharedFrames.drop 2 := by
    decide +kernel
  have hr : Reachable (Env.serving sharedFrames) Config.plain sharedRun := Reachable.run _ _ _
  obtain ⟨op, -, h⟩ := read_prints_register hr (attached_serving hframes) sharedWorld 0 0 []
    ⟨"0".toList, by decide⟩ ⟨"0x1e".toList, by decide⟩ ⟨"5".toList, by decide⟩ conversation_shared
    (by decide +kernel)
  exact ⟨by decide +kernel, op, h⟩

end Cli

end Spid

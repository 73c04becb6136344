import SpidevProxy.Tool
import SpidevProxy.Lib.Hoare

set_option relaxedAutoImplicit false
set_option autoImplicit false

/-!
# What the functions of the tool do

One triple for each function that the commands of the tool share. A numeric argument is taken as
`parse_uint` stores it, or the process dies. `xfer` makes one exchange, unless the socket cannot be
connected, and puts into the buffer of its caller what `parse_resp` makes of the datagram received.

## Main definitions

* `Spid.Cli.Died` — the process has died of an argument.
* `Spid.Cli.Literal` — the fields of an operation are the numbers on the command line.
* `Spid.Cli.Exchanged` — what a call of `xfer` on a connected socket leaves behind.

## Main results

* `Spid.Cli.op_fields` — the operation that `write` sends is the one in its arguments.
* `Spid.Cli.payloadArgs_spec` — the payload of `mailbox` is the one in its arguments.
* `Spid.Cli.xfer_spec`, `Spid.Cli.opXfer_spec` — what `xfer` does.
-/

namespace Spid.Cli

open Bytes Hoare

/-- What a triple says about how a program ends. -/
lemma ends_of_triple {P : Tool → Prop} {p : Prog ℕ} {E : How → Tool → Prop}
    (hp : Triple P p (fun code => E (.exited code)) E) {t : Tool} (ht : P t) :
    E (ends p t).1 (ends p t).2 := by
  have h := hp t ht
  unfold ends
  cases hpt : p t with
  | ok code t' =>
    rw [hpt] at h
    exact h
  | error how t' =>
    rw [hpt] at h
    exact h

/-- The exchanges, the output and the clock are as before. -/
structure Unchanged (t t' : Tool) : Prop where
  log : t'.log = t.log
  seq : t'.seq = t.seq
  out : t'.out = t.out
  clock : t'.nClock = t.nClock

/-! ## Arguments -/

/-- A computation that succeeds has succeeded at each of its steps. -/
lemma bind_eq_ok {ε α β : Type} {x : Except ε α} {f : α → Except ε β} {b : β} :
    (x >>= f) = .ok b ↔ ∃ a, x = .ok a ∧ f a = .ok b := by
  cases x <;> simp [bind, Except.bind]

/-- An argument that is taken is what `parse_uint` stores. -/
lemma arg_eq_ok {s : CString} {base : Base} {lo hi v : UInt64} : arg s base lo hi = .ok v ↔
    (parseUint s base lo hi 0).ok = true ∧ (parseUint s base lo hi 0).out = v := by
  unfold arg
  dsimp only
  split_ifs with hok
  · simp [hok]
  · simp [hok]

/-- It is in range. -/
lemma arg_le {s : CString} {base : Base} {lo hi v : UInt64} (h : arg s base lo hi = .ok v) :
    lo.toNat ≤ v.toNat ∧ v.toNat ≤ hi.toNat := by
  obtain ⟨w, -, -, hlo, hhi, hw⟩ := parseUint_ok_iff.mp (arg_eq_ok.mp h)
  rw [hw, UInt64.le_iff_toNat_le] at hhi
  rw [hw, UInt64.le_iff_toNat_le] at hlo
  exact ⟨hlo, hhi⟩

/-- If it does not wrap, it is the number that was written. -/
lemma unsigned_arg {s : CString} {hi v : UInt64} (h : arg s 0 0 hi = .ok v) (hw : ¬Wraps s 0 0 hi) :
    Unsigned 0 s.chars v.toNat := by
  obtain ⟨hok, rfl⟩ := arg_eq_ok.mp h
  obtain ⟨w, hu, -, -, hout⟩ := (wraps_or_unsigned_of_ok hok).resolve_left hw
  rwa [hout]

/-- The fields of an operation are the numbers on the command line, but for those that wrap. -/
structure Literal (slice mmd reg val : CString) (op : Op) : Prop where
  slice : ¬Wraps slice 0 0 0xff → Unsigned 0 slice.chars op.slice.toNat
  mmd : ¬Wraps mmd 0 0 0xff → Unsigned 0 mmd.chars op.mmd.toNat
  reg : ¬Wraps reg 0 0 0xffff → Unsigned 0 reg.chars op.reg.toNat
  val : ¬Wraps val 0 0 0xffffffff → Unsigned 0 val.chars op.val.toNat

/-- **The operation that `write` sends** is the one in its arguments: no cast loses a digit, and an
argument that does not wrap arrives as the number that was written. -/
lemma op_fields {slice mmd reg val : CString} {op : Op} (h : writeOp slice mmd reg val = .ok op) :
    Literal slice mmd reg val op := by
  simp only [writeOp, readOp, bind_eq_ok] at h
  obtain ⟨_, ⟨v₁, h₁, v₂, h₂, v₃, h₃, ⟨⟩⟩, v₄, h₄, ⟨⟩⟩ := h
  have hcast : ∀ {n m : ℕ}, n ≤ m - 1 → 0 < m → n % m = n := fun hn hm => Nat.mod_eq_of_lt (by omega)
  refine ⟨fun hw => ?_, fun hw => ?_, fun hw => ?_, fun hw => ?_⟩
  · rw [UInt64.toNat_toUInt8, hcast (arg_le h₁).2 (by decide)]
    exact unsigned_arg h₁ hw
  · rw [UInt64.toNat_toUInt8, hcast (arg_le h₂).2 (by decide)]
    exact unsigned_arg h₂ hw
  · rw [UInt64.toNat_toUInt16, hcast (arg_le h₃).2 (by decide)]
    exact unsigned_arg h₃ hw
  · rw [UInt64.toNat_toUInt32, hcast (arg_le h₄).2 (by decide)]
    exact unsigned_arg h₄ hw

/-- A slice that wraps: the tool writes to slice 1. -/
example : writeOp ⟨"-18446744073709551615".toList, by decide⟩ ⟨"1".toList, by decide⟩
    ⟨"0x10".toList, by decide⟩ ⟨"010".toList, by decide⟩ = .ok ⟨1, 0, 1, 0, 16, 0, 8⟩ := by
  decide +kernel

/-- The process has died of an argument: it has made no exchange. -/
structure Died (t : Tool) (how : How) (t' : Tool) : Prop where
  how : how = .exited 1
  log : t'.log = t.log
  seq : t'.seq = t.seq

/-- That is a failure. -/
lemma Died.ne_zero {t t' : Tool} {how : How} (h : Died t how t') : how ≠ .exited 0 := by
  rw [h.how]
  simp

/-- The process goes on with its arguments as they are, or dies. -/
lemma orDie_spec {α : Type} (t : Tool) (r : Except Text α) :
    Triple (· = t) (orDie r) (fun v t' => r = .ok v ∧ t' = t) (Died t) := by
  cases r with
  | ok v => exact Triple.pure fun _ h => ⟨rfl, h⟩
  | error e =>
    refine Triple.step (Triple.throw ?_)
    rintro _ rfl
    exact ⟨rfl, rfl, rfl⟩

/-- **The payload of `mailbox`** is the one in its arguments, and it is not too long. -/
lemma payloadArgs_spec (t : Tool) : ∀ (args : List CString) (p : List UInt8), p.length ≤ mbMax →
    Triple (· = t) (payloadArgs args p)
      (fun p' t' => ((∃ q, args.mapM byteArg = .ok q ∧ p' = p ++ q) ∧ p'.length ≤ mbMax) ∧ t' = t)
      (Died t) := by
  intro args
  induction args with
  | nil => exact fun p hp => Triple.pure fun _ h => ⟨⟨⟨[], rfl, (List.append_nil p).symm⟩, hp⟩, h⟩
  | cons s args ih =>
    intro p hp
    unfold payloadArgs
    split
    · refine Triple.step (Triple.throw ?_)
      rintro _ rfl
      exact ⟨rfl, rfl, rfl⟩
    · rename_i hlt
      refine Triple.bind (orDie_spec t (byteArg s)) fun b => Triple.of_states fun t' ⟨hs, e⟩ => ?_
      subst e
      refine (ih (p ++ [b]) ?_).mono (fun _ h => h) ?_ (fun _ _ h => h)
      · rw [List.length_append, List.length_singleton]
        omega
      rintro p' t' ⟨⟨⟨q, hq, rfl⟩, hle⟩, rfl⟩
      refine ⟨⟨⟨b :: q, ?_, by simp⟩, hle⟩, rfl⟩
      rw [List.mapM_cons, hs, hq]
      rfl

/-- The options change neither the output nor the exchanges. -/
lemma options_spec : ∀ (opts : List Opt) (v : UInt64) (t : Tool), Triple (· = t) (options opts v)
    (fun _ t' => Unchanged t t') (fun how _ => how = .exited 1) := by
  intro opts
  induction opts with
  | nil =>
    intro v t
    refine Triple.pure ?_
    rintro _ rfl
    exact ⟨rfl, rfl, rfl, rfl⟩
  | cons o opts ih =>
    intro v t
    cases o with
    | s path =>
      exact Triple.step ((ih v _).mono (fun _ h => h) (fun _ _ h => ⟨h.log, h.seq, h.out, h.clock⟩)
        (fun _ _ h => h))
    | t ms =>
      refine Triple.bind ((orDie_spec t _).mono (fun _ h => h) (fun _ _ h => h) fun _ _ h => h.how)
        fun v' => Triple.of_states fun t' h => ?_
      obtain ⟨-, rfl⟩ := h
      exact ih v' t'
    | other => exact Triple.step (Triple.throw fun _ _ => rfl)

/-! ## What `xfer` does -/

/-- The status in a datagram if it answers the request. -/
def statusOf (seq : UInt32) (type : MsgType) (d : List UInt8) : Option UInt16 :=
  if hdrSize ≤ d.length ∧ (Hdr.decode d).seq = seq ∧ (Hdr.decode d).type = type.code ||| respBit then
    some (Hdr.decode d).flags
  else none

/-- `parse_resp` accepts a datagram by its header. -/
lemma parseResp_status (d : List UInt8) (seq : UInt32) (type : MsgType) (resp : Option RespBuf) :
    ∃ res resp', parseResp (d.take (hdrSize + msgMax)) seq type.code resp = some (res, resp') ∧
      res.toOption = statusOf seq type d := by
  have hd : Hdr.decode (d.take (hdrSize + msgMax)) = Hdr.decode d := Hdr.decode_take d (by omega)
  have hl : (d.take (hdrSize + msgMax)).length = min (hdrSize + msgMax) d.length := List.length_take
  unfold statusOf
  by_cases hn : d.length < hdrSize
  · exact ⟨_, resp, parseResp_short (by omega), by rw [if_neg (by omega)]; rfl⟩
  · by_cases hb : (Hdr.decode d).seq ≠ seq ∨ (Hdr.decode d).type ≠ type.code ||| respBit
    · refine ⟨_, resp, parseResp_bad (by omega) (by rwa [hd]), ?_⟩
      rw [if_neg fun h => hb.elim (absurd h.2.1) (absurd h.2.2)]
      rfl
    · rw [not_or, not_not, not_not] at hb
      rw [if_pos ⟨by omega, hb⟩, ← hd]
      cases resp with
      | none => exact ⟨_, none, parseResp_none (by omega) (hd ▸ hb.1) (hd ▸ hb.2), rfl⟩
      | some b => exact ⟨_, _, parseResp_ok (by omega) (hd ▸ hb.1) (hd ▸ hb.2) b, rfl⟩

/-- What a call of `xfer` on a connected socket leaves behind: the exchange `x`, and in the buffer of
its caller what `parse_resp` has made of the datagram received. -/
structure Exchanged (t : Tool) (type : MsgType) (flags : UInt16) (body : List UInt8)
    (resp : Option RespBuf) (x : Exchange) (resp' : Option RespBuf) (t' : Tool) : Prop where
  request : x.type = type ∧ x.flags = flags ∧ x.body = body
  msg : x.msg = datagram type flags (t.seq + 1) body
  log : t'.log = t.log ++ [x]
  seq : t'.seq = t.seq + 1
  out : t'.out = t.out
  clock : t'.nClock = t.nClock
  failed : x.reply = none → x.ret = none ∧ resp' = resp
  parsed : ∀ d, x.reply = some d → ∃ res,
    parseResp (d.take (hdrSize + msgMax)) (t.seq + 1) type.code resp = some (res, resp') ∧
      x.ret = res.toOption

section

variable (w : World) (type : MsgType) (flags : UInt16) (body : List UInt8) (resp : Option RespBuf)

/-- **What an exchange does.**

**Proof sketch.** Follow the calls: `send` fails, `recv` fails, or a datagram is received, and then
`parse_resp` accepts it or not. In each case the record of the exchange is the one that is logged. -/
lemma exchange_spec (t : Tool) : Triple (· = t) (exchange w type flags body resp)
    (fun r t' => ∃ x, r.1 = x.ret ∧ Exchanged t type flags body resp x r.2 t') (fun _ _ => False) := by
  refine Triple.step (Triple.step ?_)
  dsimp only
  cases w.send t.nSend with
  | some e =>
    refine Triple.step (Triple.step (Triple.pure ?_))
    rintro _ rfl
    exact ⟨⟨_, _, _, _, none, none⟩, rfl, ⟨rfl, rfl, rfl⟩, rfl, rfl, rfl, rfl, rfl,
        fun _ => ⟨rfl, rfl⟩, nofun⟩
  | none =>
    refine Triple.step ?_
    dsimp only
    cases w.recv t.nRecv with
    | error e =>
      refine Triple.step (Triple.step (Triple.pure ?_))
      rintro _ rfl
      exact ⟨⟨_, _, _, _, none, none⟩, rfl, ⟨rfl, rfl, rfl⟩, rfl, rfl, rfl, rfl, rfl,
        fun _ => ⟨rfl, rfl⟩, nofun⟩
    | ok d =>
      obtain ⟨res, resp', hp, -⟩ := parseResp_status d (t.seq + 1) type resp
      unfold accept
      dsimp only
      rw [hp]
      cases res with
      | error e =>
        refine Triple.step (Triple.step (Triple.pure ?_))
        rintro _ rfl
        refine ⟨⟨_, _, _, _, some d, none⟩, rfl, ⟨rfl, rfl, rfl⟩, rfl, rfl, rfl, rfl, rfl, nofun, ?_⟩
        rintro _ ⟨⟩
        exact ⟨_, hp, rfl⟩
      | ok st =>
        refine Triple.step (Triple.pure ?_)
        rintro _ rfl
        refine ⟨⟨_, _, _, _, some d, some st⟩, rfl, ⟨rfl, rfl, rfl⟩, rfl, rfl, rfl, rfl, rfl, nofun, ?_⟩
        rintro _ ⟨⟩
        exact ⟨_, hp, rfl⟩

/-- An exchange does not depend on how the socket came to be connected. -/
lemma Exchanged.congr {t t₀ t' : Tool} {x : Exchange} {resp' : Option RespBuf}
    (h : Exchanged t type flags body resp x resp' t') (hu : Unchanged t₀ t) :
    Exchanged t₀ type flags body resp x resp' t' where
  request := h.request
  msg := hu.seq ▸ h.msg
  log := hu.log ▸ h.log
  seq := hu.seq ▸ h.seq
  out := hu.out ▸ h.out
  clock := hu.clock ▸ h.clock
  failed := h.failed
  parsed := hu.seq ▸ h.parsed

/-- Connecting the socket. -/
lemma dial_spec (t : Tool) :
    Triple (· = t) (dial w) (fun _ t' => Unchanged t t') (fun _ _ => False) := by
  refine Triple.look ?_
  split
  · refine Triple.pure ?_
    rintro _ rfl
    exact ⟨rfl, rfl, rfl, rfl⟩
  · refine Triple.step ?_
    dsimp only
    cases w.connect t.nConnect with
    | some e =>
      refine Triple.step (Triple.pure ?_)
      rintro _ rfl
      exact ⟨rfl, rfl, rfl, rfl⟩
    | none =>
      refine Triple.pure ?_
      rintro _ rfl
      exact ⟨rfl, rfl, rfl, rfl⟩

/-- **What `xfer` does**: nothing when the socket cannot be connected, and an exchange otherwise. It
prints nothing to `stdout`, and it never leaves early. -/
lemma xfer_spec (t : Tool) : Triple (· = t) (xfer w type flags body resp)
    (fun r t' => (r = (none, resp) ∧ Unchanged t t') ∨
      ∃ x, r.1 = x.ret ∧ Exchanged t type flags body resp x r.2 t') (fun _ _ => False) := by
  refine Triple.bind (dial_spec w t) fun up => Triple.of_states fun t₁ hu => ?_
  cases up with
  | false =>
    refine Triple.pure ?_
    rintro _ rfl
    exact Or.inl ⟨rfl, hu⟩
  | true =>
    refine (exchange_spec w type flags body resp t₁).mono (fun _ h => h) ?_ (fun _ _ h => h)
    rintro r t' ⟨x, hr, hx⟩
    exact Or.inr ⟨x, hr, hx.congr type flags body resp hu⟩

end

/-- A buffer that has all bytes of an operation. -/
lemma isSome_opOf_iff {b : RespBuf} :
    (opOf b).isSome = true ↔ ∀ j < opSize, (b.mem j).isSome = true := by
  rw [opOf, Option.isSome_map, isSome_loadBytes]
  simp only [Nat.zero_add]

/-- The buffer of a call has them from the start. -/
lemma isSome_mem_opBuf (op : Op) {j : ℕ} (hj : j < opSize) : ((opBuf op).mem j).isSome = true := by
  show (op.encode[j]?).isSome = true
  rw [List.getElem?_eq_getElem (by rw [Op.length_encode]; exact hj)]
  rfl

/-- The operation is always there to be read. -/
lemma isSome_opOf {d : List UInt8} {seq : UInt32} {type : UInt8} {op : Op}
    {res : Except RespError UInt16} {resp' : Option RespBuf}
    (h : parseResp d seq type (some (opBuf op)) = some (res, resp')) :
    (resp'.bind opOf).isSome = true := by
  obtain ⟨res', b, hp, hb⟩ := parseResp_bounded d seq type (opBuf op)
  obtain ⟨-, rfl⟩ := Prod.mk.inj (Option.some.inj (h.symm.trans hp))
  obtain ⟨k, hk, hin, hout⟩ := hb.stored
  refine isSome_opOf_iff.mpr fun j hj => ?_
  by_cases hjk : j < k
  · rw [hin j hjk, List.getElem?_eq_getElem (by omega)]
    rfl
  · rw [hout j (by omega)]
    exact isSome_mem_opBuf op hj

section

variable (w : World) (t : Tool)

/-- **What an exchange of an operation does**; it never leaves early either.

**Proof sketch.** The buffer is filled with the operation before the exchange, so whatever is
stored over it, an operation can be read from it. -/
lemma opXfer_spec (type : MsgType) (flags : UInt16) (op : Op) :
    Triple (· = t) (opXfer w type flags op) (fun r t' => (r.1 = none ∧ Unchanged t t') ∨
      ∃ x resp', r.1 = x.ret ∧ resp'.bind opOf = some r.2 ∧
        Exchanged t type flags op.encode (some (opBuf op)) x resp' t') (fun _ _ => False) := by
  refine Triple.bind (xfer_spec w type flags op.encode (some (opBuf op)) t) fun r =>
    Triple.of_states fun t' hx => ?_
  have hsome : (r.2.bind opOf).isSome = true := by
    have hbuf : (opOf (opBuf op)).isSome = true := isSome_opOf_iff.mpr fun _ => isSome_mem_opBuf op
    rcases hx with ⟨rfl, -⟩ | ⟨x, -, hx⟩
    · exact hbuf
    · cases hr : x.reply with
      | none =>
        rw [(hx.failed hr).2]
        exact hbuf
      | some d =>
        obtain ⟨res, hp, -⟩ := hx.parsed d hr
        exact isSome_opOf hp
  obtain ⟨op', hop⟩ := Option.isSome_iff_exists.mp hsome
  rw [hop]
  refine Triple.pure ?_
  rintro _ rfl
  rcases hx with ⟨rfl, hu⟩ | ⟨x, hr, hx⟩
  · exact Or.inl ⟨rfl, hu⟩
  · exact Or.inr ⟨x, r.2, hr, hop, hx⟩

end

end Spid.Cli

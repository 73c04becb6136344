import SpidevProxy.Items

set_option relaxedAutoImplicit false
set_option autoImplicit false

/-!
# The command line tool

`parse_resp` of `spiproxy_cli.c`, the part of `xfer` that calls it, and what the `mailbox` command of
`main` makes of the answer. A byte of the datagram that was not received cannot be read, and a byte
of the caller's buffer that nothing was stored in cannot be used: both are checked, and a failed
check is `none`.

## Main definitions

* `Spid.respMsg` — the datagram that `send_resp` builds.
* `Spid.Cli.parseResp` — `parse_resp`.
* `Spid.Cli.mailbox` — the `mailbox` command once an answer has come in.
* `Spid.Cli.Complete` — an answer all of whose parts that the `mailbox` command uses were received.

## Main results

* `Spid.Cli.parse_resp_decodes` — the tool decodes what the daemon encodes, and stays within the
  bytes received and the capacity of the buffer whatever it receives.
* `Spid.Cli.mailbox_uses_received` — for which answers the `mailbox` command uses received bytes only.
-/

namespace Spid

open Bytes

/-- The datagram that `send_resp` builds for a request with header `req`. -/
def respMsg (req : Hdr) (status : UInt16) (body : List UInt8) : List UInt8 :=
  Hdr.encode ⟨spiproxyVer, req.type ||| respBit, status, req.seq, UInt32.ofNat body.length⟩ ++ body

namespace Cli

/-! ## `parse_resp` -/

/-- What `parse_resp` reports when it returns `-1`. -/
inductive RespError
  | short (n : ℕ)
  | bad (seq : UInt32) (type : UInt8)
  deriving DecidableEq

/-- `%#x`. -/
def altHex (n : ℕ) : Text := if n = 0 then ['0'] else "0x".toList ++ Nat.toDigits 16 n

/-- The line that `parse_resp` prints to `stderr`. -/
def RespError.text : RespError → Text
  | .short n => "short response (".toList ++ dec n ++ " bytes)\n".toList
  | .bad seq type => "bad response (seq ".toList ++ dec seq.toNat ++ " type ".toList ++
      altHex type.toNat ++ ")\n".toList

/-- The buffer of a caller of `parse_resp` and its variable `*rlen`. A byte that nothing has been
stored in is `none`. -/
structure RespBuf where
  mem : ℕ → Option UInt8
  rlen : UInt32

/-- `memcpy` of all of `src` to the beginning of the buffer. -/
def RespBuf.store (b : RespBuf) (src : List UInt8) (rlen : UInt32) : RespBuf where
  mem := fun i => if i < src.length then some (src.getD i 0) else b.mem i
  rlen := rlen

/-- The `len` bytes from offset `off` on, if they were all received. -/
def bytesAt (msg : List UInt8) (off len : ℕ) : Option (List UInt8) :=
  if off + len ≤ msg.length then some ((msg.drop off).take len) else none

/-- The number of bytes that `parse_resp` copies: `*rlen` is lowered to the length field, and then to
the bytes received. -/
def clamp (len cap avail : UInt32) : UInt32 :=
  let rlen := if len < cap then len else cap
  if avail < rlen then avail else rlen

/-- `parse_resp` on the received bytes `msg`. The caller passes a buffer and its size, or `NULL`. -/
def parseResp (msg : List UInt8) (wantSeq : UInt32) (wantType : UInt8) (out : Option RespBuf) :
    Option (Except RespError UInt16 × Option RespBuf) := do
  if msg.length < hdrSize then some (.error (.short msg.length), out)
  else
    let h := Hdr.decode (← bytesAt msg 0 hdrSize)
    if h.seq ≠ wantSeq ∨ h.type ≠ wantType ||| respBit then some (.error (.bad h.seq h.type), out)
    else match out with
      | none => some (.ok h.flags, none)
      | some b =>
        let rlen := clamp h.len b.rlen (UInt32.ofNat (msg.length - hdrSize))
        let src ← bytesAt msg hdrSize rlen.toNat
        some (.ok h.flags, some (b.store src rlen))

/-- Bytes that are inside the datagram. -/
lemma bytesAt_eq {msg : List UInt8} {off len : ℕ} (h : off + len ≤ msg.length) :
    bytesAt msg off len = some ((msg.drop off).take len) := if_pos h

/-- The three lengths against each other. -/
lemma toNat_clamp (len cap avail : UInt32) :
    (clamp len cap avail).toNat = min (min len.toNat cap.toNat) avail.toNat := by
  unfold clamp
  dsimp only
  split_ifs with h₁ h₂ h₂ <;> simp only [UInt32.lt_iff_toNat_lt] at h₁ h₂ <;> omega

/-- What is copied was received. -/
lemma clamp_le (len cap : UInt32) (n : ℕ) : (clamp len cap (UInt32.ofNat n)).toNat ≤ n := by
  rw [toNat_clamp, UInt32.toNat_ofNat']
  have h := Nat.mod_le n (2 ^ 32)
  omega

section

variable {msg : List UInt8} {seq : UInt32} {type : UInt8} {out : Option RespBuf}

/-- A datagram without a full header. -/
lemma parseResp_short (h : msg.length < hdrSize) :
    parseResp msg seq type out = some (.error (.short msg.length), out) := by
  unfold parseResp
  rw [if_pos h]

/-- An answer to something else. -/
lemma parseResp_bad (h : hdrSize ≤ msg.length)
    (hb : (Hdr.decode msg).seq ≠ seq ∨ (Hdr.decode msg).type ≠ type ||| respBit) :
    parseResp msg seq type out =
      some (.error (.bad (Hdr.decode msg).seq (Hdr.decode msg).type), out) := by
  unfold parseResp
  rw [if_neg (by omega), bytesAt_eq (by omega)]
  show (if _ then _ else _) = _
  rw [List.drop_zero, Hdr.decode_take msg le_rfl, if_pos hb]

/-- An answer to the request, received into a buffer. -/
lemma parseResp_ok (h : hdrSize ≤ msg.length) (hs : (Hdr.decode msg).seq = seq)
    (ht : (Hdr.decode msg).type = type ||| respBit) (b : RespBuf) :
    parseResp msg seq type (some b) =
      some (.ok (Hdr.decode msg).flags, some (b.store
        ((msg.drop hdrSize).take
          (clamp (Hdr.decode msg).len b.rlen (UInt32.ofNat (msg.length - hdrSize))).toNat)
        (clamp (Hdr.decode msg).len b.rlen (UInt32.ofNat (msg.length - hdrSize))))) := by
  have hle := clamp_le (Hdr.decode msg).len b.rlen (msg.length - hdrSize)
  unfold parseResp
  rw [if_neg (by omega), bytesAt_eq (by omega)]
  show (if _ then _ else _) = _
  rw [List.drop_zero, Hdr.decode_take msg le_rfl, if_neg (by simp [hs, ht])]
  show (bytesAt msg hdrSize _).bind _ = _
  rw [bytesAt_eq (by omega)]
  rfl

/-- An answer to the request, when the caller has no buffer. -/
lemma parseResp_none (h : hdrSize ≤ msg.length) (hs : (Hdr.decode msg).seq = seq)
    (ht : (Hdr.decode msg).type = type ||| respBit) :
    parseResp msg seq type none = some (.ok (Hdr.decode msg).flags, none) := by
  unfold parseResp
  rw [if_neg (by omega), bytesAt_eq (by omega)]
  show (if _ then _ else _) = _
  rw [List.drop_zero, Hdr.decode_take msg le_rfl, if_neg (by simp [hs, ht])]

end

/-- The datagram of an answer, read back. -/
lemma decode_respMsg (req : Hdr) (status : UInt16) (body : List UInt8) :
    Hdr.decode (respMsg req status body) =
      ⟨spiproxyVer, req.type ||| respBit, status, req.seq, UInt32.ofNat body.length⟩ :=
  Hdr.decode_encode _ _

/-- The length of an answer. -/
lemma length_respMsg (req : Hdr) (status : UInt16) (body : List UInt8) :
    (respMsg req status body).length = hdrSize + body.length := by
  simp [respMsg]

/-- Its body. -/
lemma drop_respMsg (req : Hdr) (status : UInt16) (body : List UInt8) :
    (respMsg req status body).drop hdrSize = body := by
  rw [respMsg]
  exact List.drop_left' rfl

/-- What a caller finds after a call of `parse_resp` on the bytes `msg`: some bytes behind the header,
at most as many as it has room for and as were received, have been stored at the beginning of its
buffer, and none at all when the call failed. -/
structure Bounded (msg : List UInt8) (b : RespBuf) (res : Except RespError UInt16) (b' : RespBuf) :
    Prop where
  stored : ∃ k ≤ min b.rlen.toNat (msg.length - hdrSize),
    (∀ i, i < k → b'.mem i = msg[hdrSize + i]?) ∧ ∀ i, k ≤ i → b'.mem i = b.mem i
  rlen : b'.rlen.toNat ≤ b.rlen.toNat
  failed : ∀ e, res = .error e → b' = b

/-- A buffer that is left alone. -/
lemma Bounded.refl (msg : List UInt8) (b : RespBuf) (res : Except RespError UInt16) :
    Bounded msg b res b :=
  ⟨⟨0, by omega, fun _ h => by omega, fun _ _ => rfl⟩, le_rfl, fun _ _ => rfl⟩

/-- The buffer after `memcpy` of bytes from behind the header. -/
lemma mem_store {msg : List UInt8} {k : ℕ} (hk : hdrSize + k ≤ msg.length) (b : RespBuf)
    (rlen : UInt32) (i : ℕ) : (b.store ((msg.drop hdrSize).take k) rlen).mem i =
      if i < k then msg[hdrSize + i]? else b.mem i := by
  have hlen : ((msg.drop hdrSize).take k).length = k := by
    rw [List.length_take, List.length_drop]
    omega
  show (if i < ((msg.drop hdrSize).take k).length then _ else _) = _
  rw [hlen]
  split_ifs with hi
  · rw [List.getD_eq_getElem?_getD, List.getElem?_take, if_pos hi, List.getElem?_drop,
      List.getElem?_eq_getElem (by omega)]
    rfl
  · rfl

/-- **`parse_resp` stays within bounds**: it reads received bytes only, and what it does to the
buffer of its caller is bounded. -/
lemma parseResp_bounded (msg : List UInt8) (seq : UInt32) (type : UInt8) (b : RespBuf) :
    ∃ res b', parseResp msg seq type (some b) = some (res, some b') ∧ Bounded msg b res b' := by
  by_cases hn : msg.length < hdrSize
  · exact ⟨_, b, parseResp_short hn, Bounded.refl _ _ _⟩
  · have hn' : hdrSize ≤ msg.length := by omega
    by_cases hb : (Hdr.decode msg).seq ≠ seq ∨ (Hdr.decode msg).type ≠ type ||| respBit
    · exact ⟨_, b, parseResp_bad hn' hb, Bounded.refl _ _ _⟩
    · rw [not_or, not_not, not_not] at hb
      refine ⟨_, _, parseResp_ok hn' hb.1 hb.2 b, ?_⟩
      have hle := clamp_le (Hdr.decode msg).len b.rlen (msg.length - hdrSize)
      have hmin := toNat_clamp (Hdr.decode msg).len b.rlen (UInt32.ofNat (msg.length - hdrSize))
      generalize clamp (Hdr.decode msg).len b.rlen (UInt32.ofNat (msg.length - hdrSize)) = k at *
      have hmem := mem_store (k := k.toNat) (by omega : hdrSize + k.toNat ≤ msg.length) b k
      refine ⟨⟨k.toNat, by omega, fun i hi => ?_, fun i hi => ?_⟩, ?_, fun e he => by simp at he⟩
      · rw [hmem, if_pos hi]
      · rw [hmem, if_neg (by omega)]
      · show k.toNat ≤ _
        omega

/-- **The tool decodes what the daemon encodes.** From the datagram of an answer `parse_resp` returns
the status, the length of the body or the capacity of the buffer, whichever is less, and that many
bytes of the body. Whatever the datagram, it reads received bytes only, stores at most
`min(cap, n - 12)` bytes, and leaves the buffer and `*rlen` alone when it fails.

**Proof sketch.** The header of an answer decodes to what was encoded, so its sequence number and
type are accepted, and `clamp` yields the least of the three lengths; what is stored is the body
from the header on. For an arbitrary datagram go through the checks: too short, not the answer,
accepted. -/
theorem parse_resp_decodes :
    (∀ (req : Hdr) (status : UInt16) (body : List UInt8) (b : RespBuf), body.length ≤ msgMax →
      ∃ b', parseResp (respMsg req status body) req.seq req.type (some b) =
          some (.ok status, some b') ∧
        b'.rlen.toNat = min body.length b.rlen.toNat ∧
        (∀ i, i < min body.length b.rlen.toNat → b'.mem i = body[i]?) ∧
        ∀ i, min body.length b.rlen.toNat ≤ i → b'.mem i = b.mem i) ∧
    (∀ (msg : List UInt8) (seq : UInt32) (type : UInt8),
      (∃ res, parseResp msg seq type none = some (res, none)) ∧
      ∀ b : RespBuf, ∃ res b', parseResp msg seq type (some b) = some (res, some b') ∧
        Bounded msg b res b') := by
  constructor
  · intro req status body b hlen
    have hmax : msgMax = 4096 := rfl
    have hd := decode_respMsg req status body
    have hl := length_respMsg req status body
    have hsub : (respMsg req status body).length - hdrSize = body.length := by omega
    have hnat : (UInt32.ofNat body.length).toNat = body.length := by
      rw [UInt32.toNat_ofNat']
      omega
    have hseq : (Hdr.decode (respMsg req status body)).seq = req.seq := by rw [hd]
    have htype : (Hdr.decode (respMsg req status body)).type = req.type ||| respBit := by rw [hd]
    have hok := parseResp_ok (by omega : hdrSize ≤ (respMsg req status body).length) hseq htype b
    have hk := toNat_clamp (UInt32.ofNat body.length) b.rlen (UInt32.ofNat body.length)
    rw [hd, hsub] at hok
    dsimp only at hok
    generalize clamp (UInt32.ofNat body.length) b.rlen (UInt32.ofNat body.length) = k at hok hk
    have hmem := mem_store (by omega : hdrSize + k.toNat ≤ (respMsg req status body).length) b k
    refine ⟨_, hok, ?_, fun i hi => ?_, fun i hi => ?_⟩
    · show k.toNat = _
      omega
    · rw [hmem, if_pos (by omega), ← List.getElem?_drop, drop_respMsg]
    · rw [hmem, if_neg (by omega)]
  · intro msg seq type
    refine ⟨?_, parseResp_bounded msg seq type⟩
    by_cases hn : msg.length < hdrSize
    · exact ⟨_, parseResp_short hn⟩
    · by_cases hb : (Hdr.decode msg).seq ≠ seq ∨ (Hdr.decode msg).type ≠ type ||| respBit
      · exact ⟨_, parseResp_bad (by omega) hb⟩
      · rw [not_or, not_not, not_not] at hb
        exact ⟨_, parseResp_none (by omega) hb.1 hb.2⟩

/-- The theorem at an answer to a `READ` received into a buffer of eight bytes. -/
theorem parse_resp_decodes_shortBuffer :
    ∃ b', parseResp (respMsg ⟨1, 1, 0, 7, 12⟩ 0 [0, 0, 0x1e, 0, 0, 0, 0, 0, 0x21, 0x80, 0, 0]) 7 1
        (some ⟨fun _ => none, 8⟩) = some (.ok 0, some b') ∧ b'.rlen.toNat = 8 ∧
      b'.mem 2 = some 0x1e ∧ b'.mem 8 = none := by
  obtain ⟨b', h, hr, hin, hout⟩ := parse_resp_decodes.1 ⟨1, 1, 0, 7, 12⟩ 0
    [0, 0, 0x1e, 0, 0, 0, 0, 0, 0x21, 0x80, 0, 0] ⟨fun _ => none, 8⟩ (by decide)
  exact ⟨b', h, hr, hin 2 (by decide), hout 8 (by decide)⟩

/-! ## The `mailbox` command -/

/-- The size of the buffer `resp` of the `mailbox` command. -/
def mbRespMax : UInt32 := 1026

/-- `k` bytes of a buffer from byte `i` on, if they all have been stored. -/
def loadBytes (mem : ℕ → Option UInt8) : ℕ → ℕ → Option (List UInt8)
  | 0, _ => some []
  | k + 1, i => do
    let b ← mem i
    let bs ← loadBytes mem k (i + 1)
    some (b :: bs)

/-- The return value of `xfer` as it is printed. -/
def statusText : Except RespError UInt16 → Text
  | .ok st => dec st.toNat
  | .error _ => "-1".toList

/-- Byte `i` of the dump of a payload: sixteen bytes a line. -/
def dumpByte (i : ℕ) (b : UInt8) : Text := hex 2 b.toNat ++ [if i % 16 = 15 then '\n' else ' ']

/-- What the `mailbox` command prints once `xfer` has returned `st` and filled `resp`, and its exit
status: the fields `cmd` and `payload_len` whatever the status, the payload for `SPIPROXY_OK`. -/
def mailboxPrint (st : Except RespError UInt16) (resp : ℕ → Option UInt8) : Option (Text × ℕ) := do
  let cmd ← resp 1
  let len := ofLe16 (← loadBytes resp 2 2)
  let head := "mailbox: status=".toList ++ statusText st ++ " resp_id=0x".toList ++
    hex 2 cmd.toNat ++ " payload_len=".toList ++ dec len.toNat ++ "\n".toList
  match st with
  | .ok 0 =>
    let payload ← loadBytes resp len.toNat mbSize
    some (head ++ (payload.mapIdx dumpByte).flatten ++ (if len ≠ 0 then ['\n'] else []), 0)
  | _ => some (head, 1)

/-- The `mailbox` command from the moment the answer to its request with number `seq` comes in: `recv`
returns at most `hdrSize + msgMax` bytes of the datagram, and nothing has been stored in `resp`. -/
def mailbox (seq : UInt32) (datagram : List UInt8) : Option (Text × ℕ) := do
  let r ← parseResp (datagram.take (hdrSize + msgMax)) seq MsgType.mailbox.code
    (some ⟨fun _ => none, mbRespMax⟩)
  let b ← r.2
  mailboxPrint r.1 b.mem

/-- The number of body bytes of an answer that `parse_resp` copies for the `mailbox` command. -/
def copied (d : List UInt8) : ℕ :=
  min (min (Hdr.decode d).len.toNat 1026) (min d.length (hdrSize + msgMax) - hdrSize)

/-- The field `payload_len` of the answer. -/
def payloadLen (d : List UInt8) : ℕ := (ofLe16 (d.drop (hdrSize + 2))).toNat

/-- **All that the `mailbox` command uses was received**: the datagram answers the request, the fields
`cmd` and `payload_len` are among the bytes copied, and, for `SPIPROXY_OK`, so is the payload that
`payload_len` announces. -/
structure Complete (seq : UInt32) (d : List UInt8) : Prop where
  header : hdrSize ≤ d.length
  seq : (Hdr.decode d).seq = seq
  type : (Hdr.decode d).type = MsgType.mailbox.code ||| respBit
  fields : 4 ≤ copied d
  payload : (Hdr.decode d).flags = 0 → payloadLen d = 0 ∨ mbSize + payloadLen d ≤ copied d

/-- Bytes can be loaded if and only if all of them have been stored. -/
lemma isSome_loadBytes (mem : ℕ → Option UInt8) : ∀ k i,
    (loadBytes mem k i).isSome = true ↔ ∀ j < k, (mem (i + j)).isSome = true := by
  intro k
  induction k with
  | zero => simp [loadBytes]
  | succ k ih =>
    intro i
    have hcons : (loadBytes mem (k + 1) i).isSome = ((mem i).isSome && (loadBytes mem k (i + 1)).isSome) := by
      simp only [loadBytes, Option.bind_eq_bind]
      cases mem i with
      | none => rfl
      | some b => cases loadBytes mem k (i + 1) <;> rfl
    rw [hcons, Bool.and_eq_true, ih]
    constructor
    · rintro ⟨h₀, h⟩ j hj
      cases j with
      | zero => exact h₀
      | succ j =>
        have := h j (by omega)
        rwa [show i + 1 + j = i + (j + 1) by omega] at this
    · intro h
      refine ⟨h 0 (by omega), fun j hj => ?_⟩
      have := h (j + 1) (by omega)
      rwa [show i + (j + 1) = i + 1 + j by omega] at this

/-- What the `mailbox` command needs of a buffer of whose bytes exactly the first `k` have been
stored.

**Proof sketch.** With fewer than four bytes the length field is missing. Otherwise the command and
the length can be read, and the payload can when it is empty or ends within the stored bytes; it is
read only on success. -/
lemma isSome_mailboxPrint {st : Except RespError UInt16} {mem : ℕ → Option UInt8} {k : ℕ}
    (lo hi : UInt8) (hmem : ∀ i, (mem i).isSome = true ↔ i < k)
    (hlen : 4 ≤ k → mem 2 = some lo ∧ mem 3 = some hi) :
    (mailboxPrint st mem).isSome = true ↔ 4 ≤ k ∧
      (st = .ok 0 → (ofLe16 [lo, hi]).toNat = 0 ∨ mbSize + (ofLe16 [lo, hi]).toNat ≤ k) := by
  by_cases hk : 4 ≤ k
  · obtain ⟨cmd, h₁⟩ := Option.isSome_iff_exists.mp ((hmem 1).mpr (by omega))
    obtain ⟨h₂, h₃⟩ := hlen hk
    have hload : loadBytes mem 2 2 = some [lo, hi] := by simp [loadBytes, h₂, h₃]
    have hpay : (loadBytes mem (ofLe16 [lo, hi]).toNat mbSize).isSome = true ↔
        (ofLe16 [lo, hi]).toNat = 0 ∨ mbSize + (ofLe16 [lo, hi]).toNat ≤ k := by
      rw [isSome_loadBytes]
      simp only [hmem]
      constructor
      · intro h
        by_cases h0 : (ofLe16 [lo, hi]).toNat = 0
        · exact Or.inl h0
        · have := h ((ofLe16 [lo, hi]).toNat - 1) (by omega)
          omega
      · intro h j hj
        omega
    simp only [mailboxPrint, h₁, hload, Option.bind_eq_bind, Option.bind_some]
    generalize loadBytes mem (ofLe16 [lo, hi]).toNat mbSize = payload at *
    split
    · rw [← hpay]
      cases payload <;> simp [hk]
    · rename_i hst
      simp only [Option.isSome_some, hk, true_and, true_iff]
      intro h
      exact absurd h (by simpa using hst)
  · -- one of the three bytes of `cmd` and `payload_len` is missing
    have hnone : mailboxPrint st mem = none := by
      have h₃ : mem 3 = none := by
        have := mt (hmem 3).mp (by omega)
        simpa using this
      have hload : loadBytes mem 2 2 = none := by simp [loadBytes, h₃]
      simp only [mailboxPrint, hload, Option.bind_eq_bind, Option.bind_none]
      cases mem 1 <;> rfl
    simp [hnone, hk]

/-- The buffer of the `mailbox` command when `parse_resp` has failed. -/
lemma mailbox_of_error {seq : UInt32} {d : List UInt8} {e : RespError}
    (h : parseResp (d.take (hdrSize + msgMax)) seq MsgType.mailbox.code
      (some ⟨fun _ => none, mbRespMax⟩) = some (.error e, some ⟨fun _ => none, mbRespMax⟩)) :
    mailbox seq d = none := by
  rw [mailbox, h]
  rfl

/-- The buffer when `parse_resp` has accepted the answer: exactly the first `copied d` bytes of the body
have been stored.

**Proof sketch.** The datagram cut to the size of the receive buffer has the same header, and
`clamp` is `copied` at the capacity of the response buffer. -/
lemma parseResp_mailbox {seq : UInt32} {d : List UInt8} (hn : hdrSize ≤ d.length)
    (hseq : (Hdr.decode d).seq = seq)
    (htype : (Hdr.decode d).type = MsgType.mailbox.code ||| respBit) :
    ∃ b, parseResp (d.take (hdrSize + msgMax)) seq MsgType.mailbox.code
        (some ⟨fun _ => none, mbRespMax⟩) = some (.ok (Hdr.decode d).flags, some b) ∧
      ∀ i, b.mem i = if i < copied d then some (d.getD (hdrSize + i) 0) else none := by
  have hH : hdrSize = 12 := rfl
  have hM : msgMax = 4096 := rfl
  have hd : Hdr.decode (d.take (hdrSize + msgMax)) = Hdr.decode d := Hdr.decode_take d (by omega)
  have hl : (d.take (hdrSize + msgMax)).length = min (hdrSize + msgMax) d.length := List.length_take
  have hok := parseResp_ok (by omega : hdrSize ≤ (d.take (hdrSize + msgMax)).length)
    (hd ▸ hseq) (hd ▸ htype) ⟨fun _ => none, mbRespMax⟩
  have hk := toNat_clamp (Hdr.decode d).len mbRespMax
    (UInt32.ofNat ((d.take (hdrSize + msgMax)).length - hdrSize))
  rw [UInt32.toNat_ofNat', show mbRespMax.toNat = 1026 from rfl] at hk
  rw [hd] at hok
  dsimp only at hok
  generalize clamp (Hdr.decode d).len mbRespMax
    (UInt32.ofNat ((d.take (hdrSize + msgMax)).length - hdrSize)) = k at hok hk
  have hkc : k.toNat = copied d := by
    rw [hk, copied]
    omega
  refine ⟨_, hok, fun i => ?_⟩
  rw [mem_store (by rw [hkc, copied]; omega), hkc]
  split_ifs with hi
  · rw [copied] at hi
    rw [List.getElem?_take, if_pos (by omega), List.getD_eq_getElem?_getD,
      List.getElem?_eq_getElem (by omega)]
    rfl
  · rfl

/-- **The `mailbox` command uses received bytes only** if and only if the datagram answers its request
and holds the two fields it prints and, for `SPIPROXY_OK`, the payload that `payload_len` announces.

**Proof sketch.** When `parse_resp` fails, nothing has been stored in `resp`, and the first field is
missing. When it succeeds, exactly the first `copied d` bytes have been stored. -/
theorem mailbox_uses_received (seq : UInt32) (d : List UInt8) :
    (mailbox seq d).isSome = true ↔ Complete seq d := by
  have hH : hdrSize = 12 := rfl
  have hM : msgMax = 4096 := rfl
  have hd : Hdr.decode (d.take (hdrSize + msgMax)) = Hdr.decode d := Hdr.decode_take d (by omega)
  have hl : (d.take (hdrSize + msgMax)).length = min (hdrSize + msgMax) d.length := List.length_take
  by_cases hn : d.length < hdrSize
  · rw [mailbox_of_error (parseResp_short (by omega))]
    exact ⟨fun h => by simp at h, fun h => absurd h.header (by omega)⟩
  by_cases hb : (Hdr.decode d).seq ≠ seq ∨ (Hdr.decode d).type ≠ MsgType.mailbox.code ||| respBit
  · rw [mailbox_of_error (parseResp_bad (by omega) (by rwa [hd]))]
    refine ⟨fun h => by simp at h, fun h => ?_⟩
    exact hb.elim (absurd h.seq) (absurd h.type)
  rw [not_or, not_not, not_not] at hb
  obtain ⟨b, hok, hmem⟩ := parseResp_mailbox (by omega) hb.1 hb.2
  rw [mailbox, hok]
  show (mailboxPrint _ b.mem).isSome = true ↔ _
  rw [isSome_mailboxPrint (k := copied d) (d.getD (hdrSize + 2) 0) (d.getD (hdrSize + 3) 0)]
  · have hpl : ofLe16 [d.getD (hdrSize + 2) 0, d.getD (hdrSize + 3) 0] =
        ofLe16 (d.drop (hdrSize + 2)) := by
      simp only [ofLe16, List.getD_eq_getElem?_getD, List.getElem?_drop, List.getElem?_cons_zero,
        List.getElem?_cons_succ, Option.getD_some]
    rw [hpl]
    constructor
    · rintro ⟨h₁, h₂⟩
      exact ⟨by omega, hb.1, hb.2, h₁, fun hf => h₂ (by rw [hf])⟩
    · intro h
      exact ⟨h.fields, fun hf => h.payload (by simpa using hf)⟩
  · intro i
    rw [hmem]
    split_ifs with hi
    · simp [hi]
    · simp [hi]
  · intro h4
    rw [hmem, hmem, if_pos (by omega), if_pos (by omega)]
    exact ⟨rfl, rfl⟩

/-- The answer that the daemon gives once `exec_mailbox` has returned is complete: the structure with
the length of the payload in it, and the payload when the status is `SPIPROXY_OK`.

**Proof sketch.** The body is the structure and, on success, the payload, so it fits in the
response buffer; the length field is at its place in the encoded structure. -/
lemma Complete.of_reply {req : Hdr} (ht : req.type = MsgType.mailbox.code) (st : Status) {mb : Mb}
    {payload : List UInt8} (hp : payload.length ≤ mbMax)
    (hl : mb.payloadLen = UInt16.ofNat payload.length) :
    Complete req.seq (respMsg req st.code (mb.encode ++ if st = .ok then payload else [])) := by
  have hH : hdrSize = 12 := rfl
  have hM : msgMax = 4096 := rfl
  have hm : mbMax = 1018 := rfl
  have hS : mbSize = 8 := rfl
  generalize hbody : (mb.encode ++ if st = .ok then payload else []) = body
  have hlen : body.length = mbSize + if st = .ok then payload.length else 0 := by
    rw [← hbody, List.length_append, Mb.length_encode]
    split_ifs <;> rfl
  have hle : body.length ≤ 1026 := by
    rw [hlen]
    split_ifs <;> omega
  have hd := decode_respMsg req st.code body
  have hn := length_respMsg req st.code body
  have hcop : copied (respMsg req st.code body) = body.length := by
    rw [copied, hd, hn]
    dsimp only
    rw [UInt32.toNat_ofNat']
    omega
  have hpl : payloadLen (respMsg req st.code body) = payload.length := by
    have hdrop : (respMsg req st.code body).drop (hdrSize + 2) = le16 mb.payloadLen ++
        (le32 mb.timeoutMs ++ if st = .ok then payload else []) := by
      rw [← List.drop_drop, drop_respMsg, ← hbody]
      rfl
    rw [payloadLen, hdrop, ofLe16_le16, hl, UInt16.toNat_ofNat']
    omega
  refine ⟨by omega, by rw [hd], by rw [hd, ht], by rw [hcop, hlen]; omega, fun hf => Or.inr ?_⟩
  have hst : st = .ok := by
    rw [hd] at hf
    have hc : st.code = 0 := hf
    cases st with
    | ok => rfl
    | _ => exact absurd hc (by decide)
  rw [hcop, hpl, hlen, if_pos hst]

/-- An answer with status `SPIPROXY_OK` whose `payload_len` announces 65535 bytes, though nothing
follows the structure. -/
def overlongAnswer : List UInt8 := respMsg ⟨1, 6, 0, 1, 8⟩ 0 [0, 5, 0xff, 0xff, 0, 0, 0, 0]

/-- **The `mailbox` command prints what it has not received**: of the overlong answer eight bytes are
copied, and the first byte printed as payload is the ninth. -/
theorem mailbox_overlong : copied overlongAnswer = 8 ∧ payloadLen overlongAnswer = 65535 ∧
    mailbox 1 overlongAnswer = none := by
  decide +kernel

end Cli

end Spid

import SpidevProxy.Simulation.Items

set_option relaxedAutoImplicit false
set_option autoImplicit false

/-!
# Which datagrams are accepted

`client_msg` receives at most `hdrSize + msgMax` bytes of a datagram and checks the length field
against the bytes received, not against the bytes sent. What lies behind the end of its buffer is
lost without a trace, so a datagram that is too long passes for a complete message when its length
field says the longest body there is.

## Main definitions

* `Spid.WellFormed` — a datagram that is a header and the body the header announces.
* `Spid.Framed` — exactly the well-formed datagrams are counted and enqueued, as they were sent, and
  all others are answered with `EINVAL`.
* `Spid.Oversized` — a datagram that is too long and announces the longest body.

## Main results

* `Spid.framing_exact` — a datagram is treated as it should be if and only if it is not oversized.
-/

namespace Spid

open Bytes

/-! ## What should happen to a datagram -/

/-- The datagram is one message: a header of this version, and as many bytes as the header says. -/
def WellFormed (d : List UInt8) : Prop :=
  hdrSize ≤ d.length ∧ (Hdr.decode d).ver = spiproxyVer ∧
    (Hdr.decode d).len.toNat = d.length - hdrSize ∧ (Hdr.decode d).len.toNat ≤ msgMax

/-- The state once `recv` has returned. -/
def received (g : Daemon) (c : Slot) (d : List UInt8) : Daemon :=
  { g with nRecv := g.nRecv + 1 }.emit
    (.recv g.nRecv c (g.cl c).fd (d.take (hdrSize + msgMax)))

/-- The state once the message has been counted. -/
def counted (g : Daemon) (c : Slot) : Daemon :=
  g.setClient c { g.cl c with nMsgs := (g.cl c).nMsgs + 1 }

section

variable (env : Env) (cfg : Config)

/-- `client_msg` counts the datagram and hands it to `enqueue`. -/
def Handed (g : Daemon) (c : Slot) (d : List UInt8) : Prop :=
  clientMsg env cfg g c d = enqueue env (counted (received g c d) c) g.nRecv c (Hdr.decode d)
    ((d.take (hdrSize + msgMax)).drop hdrSize)

/-- `client_msg` answers the datagram with `EINVAL`, without counting or enqueueing it. -/
structure Refused (g : Daemon) (c : Slot) (d : List UInt8) : Prop where
  answer : (clientMsg env cfg g c d).evs = (received g c d).evs ++
    [.send g.nRecv c (g.cl c).fd ((frameHdr d).type ||| respBit) .einval (frameHdr d).seq []]
  pool : (clientMsg env cfg g c d).pool = g.pool
  item : (clientMsg env cfg g c d).item = g.item
  count : ((clientMsg env cfg g c d).cl c).nMsgs = (g.cl c).nMsgs

/-- **The datagram is treated as it should be**: it is handed to `enqueue` if and only if it is
well-formed, the body being the bytes that the client sent behind the header, and answered with
`EINVAL` otherwise. -/
structure Framed (g : Daemon) (c : Slot) (d : List UInt8) : Prop where
  handed : Handed env cfg g c d ↔ WellFormed d
  refused : ¬WellFormed d → Refused env cfg g c d
  body : Handed env cfg g c d →
    (d.take (hdrSize + msgMax)).drop hdrSize = d.drop hdrSize ∧
      (d.drop hdrSize).length = (Hdr.decode d).len.toNat

end

/-- The datagram is too long for the receive buffer, and its length field says that the body just
fills it. -/
def Oversized (d : List UInt8) : Prop :=
  hdrSize + msgMax < d.length ∧ (Hdr.decode d).ver = spiproxyVer ∧
    (Hdr.decode d).len.toNat = msgMax

/-! ## What happens -/

/-- The framing check of `client_frame` on what `recv` returns of a datagram. -/
lemma frameOk_take (d : List UInt8) : frameOk (d.take (hdrSize + msgMax)) = true ↔
    hdrSize ≤ d.length ∧ (Hdr.decode d).ver = spiproxyVer ∧
      (Hdr.decode d).len.toNat = min (hdrSize + msgMax) d.length - hdrSize ∧
      (Hdr.decode d).len.toNat ≤ msgMax := by
  have hH : hdrSize = 12 := rfl
  have hM : msgMax = 4096 := rfl
  have hd : Hdr.decode (d.take (hdrSize + msgMax)) = Hdr.decode d := Hdr.decode_take d (by omega)
  simp only [frameOk, hd, List.length_take, Bool.and_eq_true, decide_eq_true_eq]
  constructor
  · rintro ⟨⟨⟨h₁, h₂⟩, h₃⟩, h₄⟩
    exact ⟨by omega, h₂, h₃, h₄⟩
  · rintro ⟨h₁, h₂, h₃, h₄⟩
    exact ⟨⟨⟨by omega, h₂⟩, h₃⟩, h₄⟩

/-- What passes the framing check is well-formed or oversized. -/
lemma frameOk_iff (d : List UInt8) :
    frameOk (d.take (hdrSize + msgMax)) = true ↔ WellFormed d ∨ Oversized d := by
  have hH : hdrSize = 12 := rfl
  have hM : msgMax = 4096 := rfl
  rw [frameOk_take]
  constructor
  · rintro ⟨h₁, h₂, h₃, h₄⟩
    by_cases hl : hdrSize + msgMax < d.length
    · exact Or.inr ⟨hl, h₂, by omega⟩
    · exact Or.inl ⟨h₁, h₂, by omega, h₄⟩
  · rintro (⟨h₁, h₂, h₃, h₄⟩ | ⟨h₁, h₂, h₃⟩)
    · exact ⟨h₁, h₂, by omega, h₄⟩
    · exact ⟨by omega, h₂, by omega, by omega⟩

section

variable (env : Env) (cfg : Config) (g : Daemon) (c : Slot) {d : List UInt8}

/-- A datagram that is not empty is framed. -/
lemma clientMsg_eq (hd : d ≠ []) : clientMsg env cfg g c d =
    clientFrame env (received g c d) g.nRecv c (d.take (hdrSize + msgMax)) := by
  have hne : d.take (hdrSize + msgMax) ≠ [] := by
    cases d with
    | nil => exact absurd rfl hd
    | cons b d => simp [hdrSize]
  unfold clientMsg
  dsimp only
  rw [if_neg hne]
  rfl

/-- A datagram that passes the framing check is handed to `enqueue`. -/
lemma handed_of_frameOk (hd : d ≠ []) (h : frameOk (d.take (hdrSize + msgMax)) = true) :
    Handed env cfg g c d := by
  have hH : hdrSize = 12 := rfl
  unfold Handed
  rw [clientMsg_eq env cfg g c hd, clientFrame, if_pos h,
    Hdr.decode_take d (by omega : hdrSize ≤ hdrSize + msgMax)]
  rfl

/-- A datagram that does not pass it is refused. -/
lemma refused_of_not_frameOk (hd : d ≠ []) (h : ¬frameOk (d.take (hdrSize + msgMax)) = true) :
    Refused env cfg g c d := by
  have hH : hdrSize = 12 := rfl
  have hh : (if hdrSize ≤ (d.take (hdrSize + msgMax)).length then
      Hdr.decode (d.take (hdrSize + msgMax)) else badHdr) = frameHdr d := by
    rw [Hdr.decode_take d (by omega), frameHdr, List.length_take]
    exact if_congr (by omega) rfl rfl
  have heq : clientMsg env cfg g c d =
      sendResp env (received g c d) g.nRecv c (frameHdr d) .einval [] := by
    rw [clientMsg_eq env cfg g c hd, clientFrame, if_neg h, hh]
  obtain ⟨hev, hl, hi, -⟩ := sendResp_spec env (received g c d) g.nRecv c (frameHdr d) .einval []
  refine ⟨?_, ?_, ?_, ?_⟩
  · rw [heq]
    exact hev
  · rw [heq, (hl 0).pool]
    rfl
  · rw [heq, hi]
    rfl
  · rw [heq]
    unfold sendResp
    dsimp only
    split_ifs
    · rfl
    · simp [Daemon.setClient, Daemon.emit, received]

/-- What is handed to `enqueue` has been counted. -/
lemma nMsgs_of_handed (h : Handed env cfg g c d) :
    ((clientMsg env cfg g c d).cl c).nMsgs = (g.cl c).nMsgs + 1 := by
  have hc : ((counted (received g c d) c).cl c).nMsgs = (g.cl c).nMsgs + 1 := by
    simp [counted, received, Daemon.setClient, Daemon.emit]
  rw [h, ← hc]
  unfold enqueue
  split
  · unfold sendResp
    dsimp only
    split_ifs
    · rfl
    · simp [Daemon.setClient, Daemon.emit]
  · rfl

/-- No datagram is both handed to `enqueue` and refused: it is counted, or not. -/
lemma not_handed_of_refused (h : Refused env cfg g c d) : ¬Handed env cfg g c d := by
  intro hh
  have h₁ := nMsgs_of_handed env cfg g c hh
  rw [h.count] at h₁
  have h₂ := congrArg UInt64.toNat h₁
  have hlt := (g.cl c).nMsgs.toNat_lt
  rw [UInt64.toNat_add] at h₂
  simp only [UInt64.toNat_one] at h₂
  omega

end

/-- **Exactly the datagrams that are not oversized are treated as they should be.** An oversized one
is not well-formed, but is counted and enqueued all the same, cut to the size of the buffer. -/
theorem framing_exact (env : Env) (cfg : Config) (g : Daemon) (c : Slot) {d : List UInt8}
    (hd : d ≠ []) : Framed env cfg g c d ↔ ¬Oversized d := by
  have hH : hdrSize = 12 := rfl
  have hM : msgMax = 4096 := rfl
  constructor
  · rintro h ho
    have hok : Handed env cfg g c d :=
      handed_of_frameOk env cfg g c hd ((frameOk_iff d).mpr (Or.inr ho))
    obtain ⟨-, -, h₁, h₂⟩ := h.handed.mp hok
    obtain ⟨h₃, -, h₄⟩ := ho
    omega
  · intro ho
    have hiff : frameOk (d.take (hdrSize + msgMax)) = true ↔ WellFormed d :=
      (frameOk_iff d).trans (or_iff_left ho)
    have href : ¬WellFormed d → Refused env cfg g c d := fun hw =>
      refused_of_not_frameOk env cfg g c hd (mt hiff.mp hw)
    have hhand : Handed env cfg g c d ↔ WellFormed d := by
      refine ⟨fun h => ?_, fun h => handed_of_frameOk env cfg g c hd (hiff.mpr h)⟩
      by_contra hw
      exact not_handed_of_refused env cfg g c (href hw) h
    refine ⟨hhand, href, fun h => ?_⟩
    obtain ⟨h₁, -, h₃, h₄⟩ := hhand.mp h
    refine ⟨by rw [List.take_of_length_le (by omega)], ?_⟩
    rw [List.length_drop, h₃]

/-- The daemon with one client. -/
def oneClient : Daemon := run (Env.still 0) Config.plain (connects [(7, ['a'])])

/-- The theorem at a header that announces twelve bytes which do not follow. -/
theorem framing_exact_cut :
    ¬WellFormed (Hdr.encode ⟨spiproxyVer, MsgType.read.code, 0, 2, 12⟩) ∧
      Framed (Env.still 0) Config.plain oneClient 0
        (Hdr.encode ⟨spiproxyVer, MsgType.read.code, 0, 2, 12⟩) := by
  refine ⟨?_, (framing_exact _ _ _ _ (by decide)).mpr ?_⟩
  · unfold WellFormed
    decide
  · unfold Oversized
    decide

/-- A `STATS` request in a datagram of 4109 bytes, with the length field 4096. -/
def oversizedMsg : List UInt8 :=
  Hdr.encode ⟨spiproxyVer, MsgType.stats.code, 0, 1, 4096⟩ ++ List.replicate 4097 0

/-- **A datagram that is too long is accepted**: it is counted and handed to `enqueue`, although its
length field does not say how many bytes were sent. -/
theorem framing_accepts_oversized :
    (oneClient.cl 0).used = true ∧ oversizedMsg.length = 4109 ∧
      (Hdr.decode oversizedMsg).len.toNat = 4096 ∧
      Handed (Env.still 0) Config.plain oneClient 0 oversizedMsg ∧ ¬WellFormed oversizedMsg ∧
      ¬Framed (Env.still 0) Config.plain oneClient 0 oversizedMsg := by
  have hlen : oversizedMsg.length = 4109 := by
    rw [oversizedMsg, List.length_append, List.length_replicate, Hdr.length_encode]
    rfl
  have hne : oversizedMsg ≠ [] := List.ne_nil_of_length_pos (by omega)
  have hd : Hdr.decode oversizedMsg = ⟨spiproxyVer, MsgType.stats.code, 0, 1, 4096⟩ :=
    Hdr.decode_encode _ _
  have hn : (Hdr.decode oversizedMsg).len.toNat = 4096 := by rw [hd]; rfl
  have hw : ¬WellFormed oversizedMsg := by
    rintro ⟨-, -, h, -⟩
    rw [hn, hlen] at h
    exact absurd h (by decide)
  have ho : Oversized oversizedMsg := ⟨by rw [hlen]; decide, by rw [hd], hn⟩
  have hh : Handed (Env.still 0) Config.plain oneClient 0 oversizedMsg :=
    handed_of_frameOk _ _ _ _ hne ((frameOk_iff _).mpr (Or.inr ho))
  exact ⟨by decide +kernel, hlen, hn, hh, hw, fun h => hw (h.handed.mp hh)⟩

end Spid

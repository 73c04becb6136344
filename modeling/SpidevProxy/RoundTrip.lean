import Mathlib.Data.List.GetD
import SpidevProxy.Freshness
import SpidevProxy.MailboxCall

set_option relaxedAutoImplicit false
set_option autoImplicit false

/-!
# The two halves of the mailbox codec

`exec_mailbox` builds a packet and writes it word by word, and it reads a response word by word and
takes it apart. The two halves are written separately. They meet at `Spid.Carries`: the words that
are written carry the packet, and words that carry a packet are taken apart into its command and its
payload.

## Main definitions

* `Spid.mbPacket` — the packet with a given command and payload.
* `Spid.Carries` — words that hold a packet, the bytes behind its end being arbitrary.
* `Spid.Shows` — the response window showed these words to a call.

## Main results

* `Spid.respOutcome_carries` — what the decoder makes of words that carry a packet.
* `Spid.mailbox_round_trip` — what is written is accepted, and what is accepted is what would be
  written.
-/

namespace Spid

open Bytes History

/-! ## Packets in words -/

/-- The packet `{cmd, 0xff, len_le} + payload + crc16`. -/
def mbPacket (cmd : UInt8) (payload : List UInt8) : List UInt8 :=
  let p := [cmd, 0xff] ++ le16 (UInt16.ofNat (payload.length + 6)) ++ payload
  p ++ le16 (crc16Ccitt p)

/-- The words hold the packet, and there are as many as it takes. -/
def Carries (p : List UInt8) (ws : List UInt32) : Prop :=
  (ws.flatMap le32).take p.length = p ∧ ws.length = (p.length + 3) / 4

/-- The packet has a length that `exec_mailbox` accepts, and says so. -/
structure Labelled (p : List UInt8) : Prop where
  ge : 6 ≤ p.length
  le : p.length ≤ 1024
  label : (p.drop 2).take 2 = le16 (UInt16.ofNat p.length)

section

variable {p payload : List UInt8} {ws ws' : List UInt32} {cmd : UInt8}

/-- A packet has six bytes around its payload. -/
lemma length_mbPacket (cmd : UInt8) (payload : List UInt8) :
    (mbPacket cmd payload).length = payload.length + 6 := by
  simp [mbPacket]
  omega

/-- The length in a packet is that of its payload. -/
lemma labelled_mbPacket (cmd : UInt8) (h : payload.length ≤ mbMax) :
    Labelled (mbPacket cmd payload) where
  ge := by rw [length_mbPacket]; omega
  le := by
    have hm : mbMax = 1018 := rfl
    rw [length_mbPacket]
    omega
  label := by
    rw [length_mbPacket]
    rfl

/-- The length field of a response in terms of its bytes. -/
lemma respLen_eq (h : ws ≠ []) : respLen ws = ofLe16 ((ws.flatMap le32).drop 2) := by
  obtain ⟨w, ws, rfl⟩ := List.exists_cons_of_ne_nil h
  have hb := toNat_le32 w
  simp only [le32, List.map_cons, List.map_nil, List.cons.injEq, and_true] at hb
  obtain ⟨-, -, h₂, h₃⟩ := hb
  have hw := w.toNat_lt
  apply UInt16.toNat_inj.mp
  have hl : (respLen (w :: ws)).toNat = w.toNat / 65536 := by
    simp only [respLen, List.headD_cons, UInt32.toNat_toUInt16, UInt32.toNat_shiftRight]
    simp [Nat.shiftRight_eq_div_pow]
    omega
  have hr : ofLe16 (((w :: ws).flatMap le32).drop 2) =
      UInt16.ofNat (w.toNat / 65536 % 256 + 256 * (w.toNat / 16777216)) := by
    simp only [List.flatMap_cons, le32, List.cons_append, List.drop_succ_cons, List.drop_zero,
      ofLe16, List.getD_cons_zero, List.getD_cons_succ, h₂, h₃]
  rw [hl, hr, UInt16.toNat_ofNat_of_lt' (by simp [UInt16.size]; omega)]
  omega

/-- What follows the first two bytes does not matter to the word in them. -/
lemma ofLe16_append {l : List UInt8} (h : 2 ≤ l.length) (t : List UInt8) :
    ofLe16 (l ++ t) = ofLe16 l := by
  rw [ofLe16, List.getD_append _ _ _ _ (by omega), List.getD_append _ _ _ _ (by omega), ofLe16]

/-- The bytes of the words are the packet and some padding. -/
lemma Carries.exists_pad (h : Carries p ws) : ∃ t, ws.flatMap le32 = p ++ t := by
  have hsplit := List.take_append_drop p.length (ws.flatMap le32)
  rw [h.1] at hsplit
  exact ⟨_, hsplit.symm⟩

/-- Words that carry a packet have its length in their length field. -/
lemma Carries.toNat_respLen (h : Carries p ws) (hp : Labelled p) :
    (respLen ws).toNat = p.length := by
  obtain ⟨t, ht⟩ := h.exists_pad
  obtain ⟨hge, hle, hlab⟩ := hp
  have hne : ws ≠ [] := by
    rintro rfl
    have h₂ : 0 = (p.length + 3) / 4 := h.2
    omega
  have hdrop : p.drop 2 = le16 (UInt16.ofNat p.length) ++ (p.drop 2).drop 2 := by
    rw [← hlab, List.take_append_drop]
  rw [respLen_eq hne, ht, List.drop_append_of_le_length (by omega), hdrop, List.append_assoc,
    ofLe16_le16, UInt16.toNat_ofNat_of_lt' (by simp [UInt16.size]; omega)]

/-- **What the decoder makes of words that carry a packet.** -/
lemma respOutcome_carries (h : Carries p ws) (hp : Labelled p) (cmd : UInt8) :
    respOutcome cmd ws =
      if crc16Ccitt (p.take (p.length - 2)) ≠ ofLe16 (p.drop (p.length - 2)) then (.ecrc, cmd, [])
      else (.ok, p.getD 0 0, (p.drop 4).take (p.length - 6)) := by
  have hge := hp.ge
  have hlen := h.toNat_respLen hp
  have hs : respSized ws = true := respSized_iff.mpr (by rw [hlen]; exact ⟨hp.ge, hp.le⟩)
  obtain ⟨t, ht⟩ := h.exists_pad
  -- every part that the decoder looks at lies inside the packet
  have hcrc : ofLe16 ((p ++ t).drop (p.length - 2)) = ofLe16 (p.drop (p.length - 2)) := by
    rw [List.drop_append_of_le_length (by omega), ofLe16_append (by rw [List.length_drop]; omega)]
  have htake : (p ++ t).take (p.length - 2) = p.take (p.length - 2) :=
    List.take_append_of_le_length (by omega)
  have hget : (p ++ t).getD 0 0 = p.getD 0 0 := List.getD_append _ _ _ _ (by omega)
  have hpay : ((p ++ t).drop 4).take (p.length - 6) = (p.drop 4).take (p.length - 6) := by
    rw [List.drop_append_of_le_length (by omega),
      List.take_append_of_le_length (by rw [List.length_drop]; omega)]
  simp only [respOutcome, hs, ht, hlen, mbCrcLen, mbHdrLen, Nat.sub_sub, Nat.reduceAdd, hcrc, htake,
    hget, hpay, Bool.not_true, Bool.false_eq_true, if_false]

/-- The packet with command `cmd` and payload `payload` is taken apart into these. -/
lemma respOutcome_mbPacket (h : Carries (mbPacket cmd payload) ws) (hp : payload.length ≤ mbMax)
    (cmd' : UInt8) : respOutcome cmd' ws = (.ok, cmd, payload) := by
  rw [respOutcome_carries h (labelled_mbPacket cmd hp), length_mbPacket]
  have hlen : ([cmd, 0xff] ++ le16 (UInt16.ofNat (payload.length + 6)) ++ payload).length =
      payload.length + 4 := by simp; omega
  have htake : (mbPacket cmd payload).take (payload.length + 6 - 2) =
      [cmd, 0xff] ++ le16 (UInt16.ofNat (payload.length + 6)) ++ payload := by
    rw [mbPacket, List.take_append_of_le_length (by omega), List.take_of_length_le (by omega)]
  have hdrop : (mbPacket cmd payload).drop (payload.length + 6 - 2) = le16 (crc16Ccitt
      ([cmd, 0xff] ++ le16 (UInt16.ofNat (payload.length + 6)) ++ payload)) := by
    rw [mbPacket, List.drop_append_of_le_length (by omega), List.drop_eq_nil_of_le (by omega),
      List.nil_append]
  have hcrc := ofLe16_le16 (crc16Ccitt
    ([cmd, 0xff] ++ le16 (UInt16.ofNat (payload.length + 6)) ++ payload)) []
  rw [List.append_nil] at hcrc
  have hpay : ((mbPacket cmd payload).drop 4).take (payload.length + 6 - 6) = payload := by
    change (payload ++ _).take _ = _
    rw [Nat.add_sub_cancel, List.take_append_of_le_length le_rfl, List.take_length]
  rw [htake, hdrop, hcrc, if_neg (by simp), hpay]
  rfl

/-- Only a response of an acceptable length is accepted. -/
lemma respSized_of_ok (h : (respOutcome cmd ws).1 = .ok) : respSized ws = true := by
  by_contra hs
  rw [Bool.not_eq_true] at hs
  simp [respOutcome, hs] at h

/-- A list of bytes at least `n` long, cut before its last two bytes. -/
lemma take_eq_append_le16 {l : List UInt8} {n : ℕ} (hn : 2 ≤ n) (h : n ≤ l.length) :
    l.take n = l.take (n - 2) ++ le16 (ofLe16 (l.drop (n - 2))) := by
  have hlen : 2 ≤ (l.drop (n - 2)).length := by
    rw [List.length_drop]
    omega
  have htwo : (l.drop (n - 2)).take 2 = le16 (ofLe16 (l.drop (n - 2))) := by
    match l.drop (n - 2), hlen with
    | a :: b :: t, _ => exact (le16_ofLe16 a b t).symm
  rw [← htwo, ← List.take_add, Nat.sub_add_cancel hn]

/-- A response that is accepted and has `0xff` in its second byte is the packet with the command and
the payload that are handed over.

**Proof sketch.** A response is accepted only if its length is in range and the checksum is right.
The first four bytes are then the command, `0xff` and the length, and what follows up to the
checksum is the payload. -/
lemma carries_of_respOutcome (hl : ws.length = wordCount (respLen ws)) (hne : ws ≠ [])
    {cmd' : UInt8} (h : respOutcome cmd' ws = (.ok, cmd, payload)) :
    payload.length ≤ mbMax ∧
      ((ws.flatMap le32).getD 1 0 = 0xff → Carries (mbPacket cmd payload) ws) := by
  have hbytes := length_flatMap_le32 ws
  have hrl := respLen_eq hne
  have hl' : ws.length = ((respLen ws).toNat + 3) / 4 := hl
  simp only [respOutcome] at h
  -- only an accepted response is answered with `SPIPROXY_OK`
  split_ifs at h with hs hc
  · simp at h
  · simp at h
  simp only [Bool.not_eq_true', Bool.not_eq_false, respSized_iff] at hs
  obtain ⟨hge, hle⟩ := hs
  simp only [ne_eq, not_not, mbCrcLen] at hc
  simp only [Prod.mk.injEq, true_and, mbHdrLen, mbCrcLen] at h
  obtain ⟨hcmd, hpay⟩ := h
  generalize hb : ws.flatMap le32 = b at *
  generalize hn : (respLen ws).toNat = n at *
  have hlen : payload.length = n - 6 := by
    rw [← hpay, List.length_take, List.length_drop]
    omega
  refine ⟨by rw [hlen]; simp only [mbMax]; omega, fun hff => ?_⟩
  -- the header is in the first four bytes
  have hlab : UInt16.ofNat (payload.length + 6) = respLen ws := by
    apply UInt16.toNat_inj.mp
    rw [UInt16.toNat_ofNat_of_lt' (by simp [UInt16.size]; omega), hn]
    omega
  have hhead : b.take 4 = [cmd, 0xff] ++ le16 (respLen ws) := by
    have hblen : 4 ≤ b.length := by omega
    rw [hrl]
    rcases b with _ | ⟨b₀, _ | ⟨b₁, _ | ⟨b₂, _ | ⟨b₃, t⟩⟩⟩⟩
    · simp at hblen
    · simp at hblen
    · simp at hblen
    · simp at hblen
    · simp only [List.getD_cons_zero, List.getD_cons_succ] at hcmd hff
      rw [List.drop_succ_cons, List.drop_succ_cons, List.drop_zero, le16_ofLe16, hcmd, hff]
      rfl
  have hdata : b.take (n - 2) = [cmd, 0xff] ++ le16 (respLen ws) ++ payload := by
    rw [← hhead, ← hpay, Nat.sub_sub, ← List.take_add, show 4 + (n - (4 + 2)) = n - 2 by omega]
  refine ⟨?_, ?_⟩
  · rw [length_mbPacket, hlen, show n - 6 + 6 = n by omega, hb,
      take_eq_append_le16 (by omega) (by omega), ← hc, hdata, mbPacket, hlab]
  · rw [length_mbPacket, hlen, hl']
    omega

end

/-! ## What a call was shown -/

/-- What a call read in the response window are these words, wherever it looked. -/
def Shows (ws : List UInt32) (xs : List Access) : Prop :=
  ∀ i v, (i, v) ∈ heard xs → ∀ w, ws[i]? = some w → v = w

/-- What was read was shown. -/
lemma shows_of_heard {ws : List UInt32} {xs : List Access} (h : heard xs = indexed ws) :
    Shows ws xs := by
  intro i v hm w hw
  rw [h, indexed, List.mem_mapIdx] at hm
  obtain ⟨j, hj, he⟩ := hm
  simp only [Prod.mk.injEq] at he
  obtain ⟨rfl, rfl⟩ := he
  rw [List.getElem?_eq_getElem hj] at hw
  exact Option.some.inj hw

/-- A complete response has as many words as its length field says. -/
lemma Wanted.length_eq {ws : List UInt32} (h : Wanted ws) (hm : respMore ws = false)
    (hs : respSized ws = true) : ws.length = wordCount (respLen ws) := by
  have hne : ws ≠ [] := by
    rintro rfl
    simp [respMore] at hm
  have hge : wordCount (respLen ws) ≤ ws.length := by
    simpa [respMore, hne, hs] using hm
  refine le_antisymm (not_lt.mp fun hlt => ?_) hge
  -- the word after the last one would have been wanted
  have hpos : 0 < wordCount (respLen ws) := by
    have h₁ := (respSized_iff.mp hs).1
    rw [wordCount]
    omega
  have hmore := h _ hlt
  have hhead : respLen (ws.take (wordCount (respLen ws))) = respLen ws := by
    obtain ⟨w, ws', rfl⟩ := List.exists_cons_of_ne_nil hne
    obtain ⟨n, hn⟩ := Nat.exists_eq_succ_of_ne_zero hpos.ne'
    rw [hn]
    rfl
  have hfalse : respMore (ws.take (wordCount (respLen ws))) = false := by
    have hne' : ws.take (wordCount (respLen ws)) ≠ [] := by
      rw [ne_eq, List.take_eq_nil_iff]
      simp [hne, hpos.ne']
    simp [respMore, hne', respSized, hhead, hlt.le]
  simp [hfalse] at hmore

/-- A word that was read is one of those shown. -/
lemma Shows.getElem_eq {ws ws' : List UInt32} {xs : List Access} (h : Shows ws xs)
    (hh : heard xs = indexed ws') {i : ℕ} (hi : i < ws.length) (hi' : i < ws'.length) :
    ws'[i] = ws[i] := by
  refine h i ws'[i] ?_ ws[i] (List.getElem?_eq_getElem hi)
  rw [hh, indexed, List.mem_mapIdx]
  exact ⟨i, hi', rfl⟩

/-- **A call that was shown words that carry a packet** has read exactly these. -/
lemma Carries.eq_of_shows {p : List UInt8} {ws ws' : List UInt32} (h : Carries p ws)
    (hp : Labelled p) {xs : List Access} (hx : Shows ws xs) (hh : heard xs = indexed ws')
    (hw : Wanted ws') (hm : respMore ws' = false) : ws' = ws := by
  have hlen := h.2
  have hge := hp.ge
  have hrl := h.toNat_respLen hp
  have hpos : 0 < ws.length := by omega
  have hpos' : 0 < ws'.length := by
    rw [List.length_pos_iff]
    rintro rfl
    simp [respMore] at hm
  -- the first word fixes the length
  have hfirst : respLen ws' = respLen ws := by
    have h₀ := hx.getElem_eq hh hpos hpos'
    obtain ⟨w, l, rfl⟩ := List.exists_cons_of_length_pos hpos
    obtain ⟨w', l', rfl⟩ := List.exists_cons_of_length_pos hpos'
    simp only [List.getElem_cons_zero] at h₀
    simp [respLen, h₀]
  have hs : respSized ws' = true := respSized_iff.mpr (by rw [hfirst, hrl]; exact ⟨hp.ge, hp.le⟩)
  have hlen' : ws'.length = ws.length := by
    rw [hw.length_eq hm hs, hfirst, wordCount, hrl, hlen]
  exact List.ext_getElem hlen' fun i h₁ h₂ => hx.getElem_eq hh h₂ h₁

/-- A call that was shown words that carry a packet, without a failed transfer, is answered with
what the decoder makes of them. -/
lemma Run.answered_of_shows {rst : Bool} {es : List Event} {a : Abs} (h : Run rst es a)
    (hact : a.act = .idle) {r : Req} {o : Option Slot} {w q : List Entry}
    (hd : Event.dispatch r.toEntry r.body o w q ∈ es) (hk : r.kind = some .mailbox)
    (hok : ∀ x ∈ accessesFor r.agent es, x.ok = true) (hh : heard (accessesFor r.agent es) ≠ [])
    {p : List UInt8} {ws : List UInt32} (hc : Carries p ws) (hp : Labelled p)
    (hx : Shows ws (accessesFor r.agent es)) :
    ∃ fd type seq, Event.send r.rid r.c fd type (respOutcome r.mb.cmd ws).1 seq
      (r.mbReply (respOutcome r.mb.cmd ws).2.1 (respOutcome r.mb.cmd ws).2.2) ∈ es := by
  obtain ⟨fd, type, st, seq, body, hs⟩ := Run.answered_of_heard h hact hd hk hh
  refine ⟨fd, type, seq, ?_⟩
  rcases (Run.answered h hd hs).told hk with ⟨hu, -⟩ | ⟨cmd, payload, rfl, hclosed⟩
  · exact absurd hu.silent hh
  · cases hclosed with
    | response hask hheard hw hm =>
      obtain rfl := hc.eq_of_shows hp hx hheard hw hm
      exact hs
    | cut _ _ hcut =>
      rcases hcut with hnil | ⟨x, hmem, hx'⟩
      · exact absurd hnil hh
      · simp [hok x hmem] at hx'

/-! ## Requests -/

/-- The payload of a `MAILBOX`. -/
def Req.payload (r : Req) : List UInt8 := (r.body.drop mbSize).take r.mb.payloadLen.toNat

/-- A `MAILBOX` of the right size has received its whole payload. -/
lemma Known.length_payload {es : List Event} {r : Req} (h : Known es r)
    (hk : r.kind = some .mailbox) (hs : r.sized = true) :
    r.payload.length = r.mb.payloadLen.toNat := by
  have hlen := h.length_body
  simp only [Req.sized, hk, decide_eq_true_eq] at hs
  rw [Req.payload, List.length_take, List.length_drop]
  omega

/-- The packet of a request is the one with its command and payload. -/
lemma Req.packet_eq {r : Req} (hr : r.inRange = true)
    (hl : r.payload.length = r.mb.payloadLen.toNat) : r.packet = mbPacket r.mb.cmd r.payload := by
  have hlen : r.mb.pktLen = UInt16.ofNat (r.payload.length + 6) := by
    obtain ⟨h₁, h₂⟩ := Req.toNat_pktLen hr
    apply UInt16.toNat_inj.mp
    rw [h₁, UInt16.toNat_ofNat_of_lt' (by simp [UInt16.size]; omega)]
    omega
  rw [Req.packet, hlen]
  rfl

/-- A call that has asked has written words that carry its packet. -/
lemma Asked.carries {r : Req} {xs : List Access} (h : Asked r xs)
    (hl : r.payload.length = r.mb.payloadLen.toNat) :
    ∃ ws, written xs = indexed ws ∧ Carries (mbPacket r.mb.cmd r.payload) ws := by
  obtain ⟨⟨-, -, hr⟩, ws, hws, hsp, hlen⟩ := h
  have hpk := length_mbPacket r.mb.cmd r.payload
  rw [Req.packet_eq hr hl] at hsp
  rw [wordCount, (Req.toNat_pktLen hr).1] at hlen
  refine ⟨ws, hws, ?_, ?_⟩
  · rw [hsp, List.take_of_length_le]
    omega
  · rw [hlen, hpk]
    omega

/-- A call that has rung the doorbell has written its whole packet before. -/
lemma Run.asked_of_rings {rst : Bool} {es : List Event} {a : Abs} (h : Run rst es a)
    (hact : a.act = .idle) {r : Req} {o : Option Slot} {w q : List Entry}
    (hd : Event.dispatch r.toEntry r.body o w q ∈ es) (hk : r.kind = some .mailbox)
    {x : Access} (hx : x ∈ accessesFor r.agent es) (hr : x.rings = true) :
    Asked r (accessesFor r.agent es) := by
  have hno : ¬Unasked (accessesFor r.agent es) := fun hu => by simp [hu.noBell x hx] at hr
  rcases Run.executing_or_answered h hd with hex | ⟨fd, type, st, seq, body, hs⟩
  · rw [Abs.executing, hact, Activity.reqs_idle, List.nil_append] at hex
    exact (((Run.scripts h).waiting r hex).told hk).1
  · rcases (Run.answered h hd hs).told hk with ⟨hu, -⟩ | ⟨cmd, payload, -, hclosed⟩
    · exact absurd hu hno
    · cases hclosed with
      | response hask => exact hask
      | cut _ hask => exact hask.resolve_left hno

/-- **The two halves of the codec agree.** A call that rings the doorbell has written words that
carry the packet with its command and payload. A call that is shown words that carry a packet, in
particular the words that it or another call has written, is answered `SPIPROXY_OK` with the command
and the payload of that packet. Conversely, when a call is answered `SPIPROXY_OK`, the words it has
read carry the packet with the command and the payload of the answer, provided that their second
byte is `0xff`, which the decoder does not check.

**Proof sketch.** A call that rings has written the words of its packet (`Run.asked_of_rings`),
which carry it. A call that is shown the words of a packet is answered with its outcome
(`Run.answered_of_shows`), and that of a well-formed packet is success. For the converse, the
answer tells what was heard, and `carries_of_respOutcome` what that carries. -/
theorem mailbox_round_trip {env : Env} {cfg : Config} {g : Daemon} (h : Reachable env cfg g)
    {r : Req} {o : Option Slot} {w q : List Entry}
    (hd : Event.dispatch r.toEntry r.body o w q ∈ g.evs) (hk : r.kind = some .mailbox) :
    ((∃ x ∈ accessesFor r.agent g.evs, x.rings = true) → r.payload.length ≤ mbMax ∧
      ∃ ws, written (accessesFor r.agent g.evs) = indexed ws ∧
        Carries (mbPacket r.mb.cmd r.payload) ws) ∧
    (∀ cmd payload ws, payload.length ≤ mbMax → Carries (mbPacket cmd payload) ws →
      (∀ x ∈ accessesFor r.agent g.evs, x.ok = true) → heard (accessesFor r.agent g.evs) ≠ [] →
      Shows ws (accessesFor r.agent g.evs) →
      ∃ fd type seq, Event.send r.rid r.c fd type .ok seq (r.mbReply cmd payload) ∈ g.evs) ∧
    (∀ c fd type seq body, Event.send r.rid c fd type .ok seq body ∈ g.evs →
      ∃ ws cmd payload, heard (accessesFor r.agent g.evs) = indexed ws ∧
        body = r.mbReply cmd payload ∧ payload.length ≤ mbMax ∧
        ((ws.flatMap le32).getD 1 0 = 0xff → Carries (mbPacket cmd payload) ws)) := by
  have hrun := h.good.run
  refine ⟨?_, ?_, ?_⟩
  · rintro ⟨x, hx, hr⟩
    have hask := Run.asked_of_rings hrun rfl hd hk hx hr
    have hL := Run.ledger hrun
    obtain ⟨⟨o', ho'⟩, -⟩ := hL.dispatched hd
    have hl := (hL.enqueued ho').length_payload hk hask.isMailbox.sized
    refine ⟨?_, hask.carries hl⟩
    rw [hl]
    exact (Req.toNat_pktLen hask.isMailbox.inRange).2
  · intro cmd payload ws hmax hc hok hh hx
    have hans := Run.answered_of_shows hrun rfl hd hk hok hh hc (labelled_mbPacket cmd hmax) hx
    rwa [respOutcome_mbPacket hc hmax] at hans
  · intro c fd type seq body hs
    rcases (Run.answered hrun hd hs).told hk with ⟨-, -, hst, -⟩ | ⟨cmd, payload, rfl, hclosed⟩
    · exact absurd hst (by decide)
    · generalize hst : Status.ok = st at hclosed
      cases hclosed with
      | @response ws hask hh hw hm =>
        have hne : ws ≠ [] := by
          rintro rfl
          simp [respMore] at hm
        have hlen := hw.length_eq hm (respSized_of_ok hst.symm)
        exact ⟨ws, _, _, hh, rfl, carries_of_respOutcome hlen hne (Prod.ext hst.symm rfl)⟩
      | cut hne => exact absurd hst.symm hne

/-- The theorem at a call to which the MCU presents its own packet. -/
theorem mailbox_round_trip_promptResponse :
    Carries (mbPacket 5 []) [0x0006ff05, 0x5d40] ∧
      written (accessesFor (.request 0 0) promptResponse.evs) = indexed [0x0006ff05, 0x5d40] ∧
      heard (accessesFor (.request 0 0) promptResponse.evs) = indexed [0x0006ff05, 0x5d40] ∧
      ∃ fd type seq, Event.send 0 0 fd type .ok seq
        ((frameReq 0 0 (mailboxMsg 1 5)).mbReply 5 []) ∈ promptResponse.evs := by
  have hd : Event.dispatch (frameReq 0 0 (mailboxMsg 1 5)).toEntry
      (frameReq 0 0 (mailboxMsg 1 5)).body none [] [] ∈ promptResponse.evs := by decide +kernel
  have hc : Carries (mbPacket 5 []) [0x0006ff05, 0x5d40] := by
    unfold Carries
    decide +kernel
  have hh : heard (accessesFor (.request 0 0) promptResponse.evs) =
      indexed [0x0006ff05, 0x5d40] := by decide +kernel
  refine ⟨hc, by decide +kernel, hh, (mailbox_round_trip (Reachable.run _ _ _) hd
    (by decide +kernel)).2.1 5 [] _ (Nat.zero_le _) hc ?_ ?_ ?_⟩
  · change ∀ x ∈ accessesFor (.request 0 0) promptResponse.evs, x.ok = true
    decide +kernel
  · change heard (accessesFor (.request 0 0) promptResponse.evs) ≠ []
    simp [hh]
  · change Shows _ (accessesFor (.request 0 0) promptResponse.evs)
    exact shows_of_heard hh

end Spid

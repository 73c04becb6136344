import SpidevProxy.Protocol
import SpidevProxy.ToolExchanges

set_option relaxedAutoImplicit false
set_option autoImplicit false

/-!
# The requests of the tool

Every request that a command of the tool sends passes the checks of the daemon, whatever the options and
arguments and whatever the system calls return. Each command is gone through once: it keeps the exchanges
sound, and it uses no byte that nothing was stored in unless it prints a buffer. For `bench` the triple
says as well what it prints.

## Main definitions

* `Spid.Cli.Fits` — a body that the daemon accepts for a type of request.
* `Spid.Cli.Sound` — what an exchange is like, and `Spid.Cli.Fine` — all of them are.

## Main results

* `Spid.Cli.keeps_xfer` — an exchange with a body that fits its type is sound.
* `Spid.Cli.keeps_main` — every command is fine.
* `Spid.Cli.main_requests_accepted` — every request of the tool passes all checks of the daemon.
-/

namespace Spid.Cli

open Bytes Hoare

/-! ## Requests the daemon accepts -/

/-- The length of the body is one that the daemon accepts for a request of this type, and so are the
fields of a `MAILBOX`. -/
structure Fits (type : MsgType) (body : List UInt8) : Prop where
  length : body.length ≤ msgMax
  sized : ∀ rid c flags seq, (frameReq rid c (datagram type flags seq body)).sized = true
  inRange : type = .mailbox →
    ∀ rid c flags seq, (frameReq rid c (datagram type flags seq body)).inRange = true

/-- The header of a request. -/
lemma decode_datagram (type : MsgType) (flags : UInt16) (seq : UInt32) (body : List UInt8) :
    Hdr.decode (datagram type flags seq body) =
      ⟨spiproxyVer, type.code, flags, seq, UInt32.ofNat body.length⟩ :=
  Hdr.decode_encode _ _

/-- The length of a datagram. -/
lemma length_datagram (type : MsgType) (flags : UInt16) (seq : UInt32) (body : List UInt8) :
    (datagram type flags seq body).length = hdrSize + body.length := by
  simp [datagram]

/-- The request in a datagram of the tool. -/
lemma frameReq_datagram (rid : ℕ) (c : Slot) (type : MsgType) (flags : UInt16) (seq : UInt32)
    (body : List UInt8) : frameReq rid c (datagram type flags seq body) =
      ⟨⟨rid, c, ⟨spiproxyVer, type.code, flags, seq, UInt32.ofNat body.length⟩⟩, body⟩ := by
  rw [frameReq, decode_datagram, datagram]
  congr 1

/-- A datagram passes the framing check if its body is not too long. -/
lemma frameOk_datagram (type : MsgType) (flags : UInt16) (seq : UInt32) {body : List UInt8}
    (h : body.length ≤ msgMax) : frameOk (datagram type flags seq body) = true := by
  have hM : msgMax = 4096 := rfl
  have hH : hdrSize = 12 := rfl
  have hn : (UInt32.ofNat body.length).toNat = body.length := by
    rw [UInt32.toNat_ofNat']
    omega
  simp only [frameOk, decode_datagram, length_datagram, hn, Bool.and_eq_true, decide_eq_true_eq]
  exact ⟨⟨⟨by omega, trivial⟩, by omega⟩, by omega⟩

/-- Its type is one that the daemon knows. -/
lemma kind_datagram (rid : ℕ) (c : Slot) (type : MsgType) (flags : UInt16) (seq : UInt32)
    (body : List UInt8) : (frameReq rid c (datagram type flags seq body)).kind = some type := by
  rw [frameReq_datagram]
  exact MsgType.ofCode_eq_some.mpr rfl

/-- The length in its header is that of its body. -/
lemma len_datagram (rid : ℕ) (c : Slot) (type : MsgType) (flags : UInt16) (seq : UInt32)
    {body : List UInt8} (h : body.length ≤ msgMax) :
    (frameReq rid c (datagram type flags seq body)).len = body.length := by
  have hM : msgMax = 4096 := rfl
  rw [frameReq_datagram]
  show (UInt32.ofNat body.length).toNat = _
  rw [UInt32.toNat_ofNat']
  omega

/-- A `READ` or `WRITE` of an operation fits. -/
lemma fits_op {type : MsgType} (h : type = .read ∨ type = .write) (op : Op) : Fits type op.encode := by
  have hl : op.encode.length ≤ msgMax := by rw [Op.length_encode]; decide
  refine ⟨hl, fun rid c flags seq => ?_, ?_⟩
  · have hk := kind_datagram rid c type flags seq op.encode
    have hlen := len_datagram rid c type flags seq hl
    rcases h with rfl | rfl <;> simp [Req.sized, hk, hlen]
  · rintro rfl
    simp at h

/-- So does a `RESET`. -/
lemma fits_reset (rq : ResetReq) : Fits .reset rq.encode := by
  have hl : rq.encode.length ≤ msgMax := by rw [ResetReq.length_encode]; decide
  refine ⟨hl, fun rid c flags seq => ?_, nofun⟩
  simp [Req.sized, kind_datagram, len_datagram _ _ _ _ _ hl]

/-- A request without a body fits, if its type has none. -/
lemma fits_empty {type : MsgType} (h : type = .release ∨ type = .stats ∨ type = .trace) :
    Fits type [] := by
  refine ⟨by decide, fun rid c flags seq => ?_, ?_⟩
  · have hk := kind_datagram rid c type flags seq []
    rcases h with rfl | rfl | rfl <;> simp [Req.sized, hk]
  · rintro rfl
    simp at h

/-- A `CLAIM` with one cleanup operation fits. -/
lemma fits_claim (maxMs : UInt32) (op : Op) :
    Fits .claim (ClaimReq.encode ⟨maxMs, 1, 0⟩ ++ op.encode) := by
  have hl : (ClaimReq.encode ⟨maxMs, 1, 0⟩ ++ op.encode).length ≤ msgMax := by
    rw [List.length_append, ClaimReq.length_encode, Op.length_encode]
    decide
  refine ⟨hl, fun rid c flags seq => ?_, nofun⟩
  have hcl : (frameReq rid c (datagram .claim flags seq
      (ClaimReq.encode ⟨maxMs, 1, 0⟩ ++ op.encode))).claimReq = ⟨maxMs, 1, 0⟩ := by
    rw [frameReq_datagram, Req.claimReq]
    exact ClaimReq.decode_encode ⟨maxMs, 1, 0⟩ []
  simp only [Req.sized, kind_datagram, len_datagram _ _ _ _ _ hl, hcl, List.length_append,
    ClaimReq.length_encode, Op.length_encode]
  decide

/-- A `MAILBOX` fits if its payload does. -/
lemma fits_mailbox (cmd : UInt8) (timeoutMs : UInt32) {p : List UInt8} (hp : p.length ≤ mbMax) :
    Fits .mailbox (Mb.encode ⟨0, cmd, UInt16.ofNat p.length, timeoutMs⟩ ++ p) := by
  have hM : msgMax = 4096 := rfl
  have hm : mbMax = 1018 := rfl
  have hS : mbSize = 8 := rfl
  generalize hmb : (⟨0, cmd, UInt16.ofNat p.length, timeoutMs⟩ : Mb) = mb
  have hpl : mb.payloadLen.toNat = p.length := by
    rw [← hmb]
    show (UInt16.ofNat p.length).toNat = _
    rw [UInt16.toNat_ofNat']
    omega
  have hlen : (mb.encode ++ p).length = mbSize + p.length := by
    rw [List.length_append, Mb.length_encode]
  have hl : (mb.encode ++ p).length ≤ msgMax := by omega
  have hdec : ∀ rid c flags seq,
      (frameReq rid c (datagram .mailbox flags seq (mb.encode ++ p))).mb = mb := by
    intro rid c flags seq
    rw [frameReq_datagram, Req.mb]
    exact Mb.decode_encode mb []
  refine ⟨hl, fun rid c flags seq => ?_, fun _ rid c flags seq => ?_⟩
  · simp only [Req.sized, kind_datagram, len_datagram _ _ _ _ _ hl, hdec, hlen, hpl, decide_true]
  · simp only [Req.inRange, hdec, hpl, Bool.and_eq_true, decide_eq_true_eq]
    refine ⟨hp, ?_⟩
    rw [← hmb]
    show (0 : UInt8).toNat < 4
    decide

/-- **What an exchange is like**: its datagram is the next one in sequence, with a body that fits, and
`xfer` returned the status of the datagram received if that answers the request. -/
structure Sound (k : ℕ) (x : Exchange) : Prop where
  msg : x.msg = datagram x.type x.flags (UInt32.ofNat (k + 1)) x.body
  fits : Fits x.type x.body
  ret : x.ret = x.reply.bind (statusOf (UInt32.ofNat (k + 1)) x.type)

/-- All exchanges so far are sound, and `seq` counts them. -/
structure Fine (t : Tool) : Prop where
  seq : t.seq = UInt32.ofNat t.log.length
  sound : ∀ k x, t.log[k]? = some x → Sound k x

/-- Only the exchanges and the sequence number matter. -/
lemma Fine.congr {t t' : Tool} (h : Fine t) (hl : t'.log = t.log) (hs : t'.seq = t.seq) : Fine t' :=
  ⟨by rw [hs, hl, h.seq], by rw [hl]; exact h.sound⟩

/-- An exchange with a body that fits is sound. -/
lemma Fine.exchanged {t t' : Tool} {type : MsgType} {flags : UInt16} {body : List UInt8}
    {resp resp' : Option RespBuf} {x : Exchange} (h : Fine t)
    (hx : Exchanged t type flags body resp x resp' t') (hf : Fits type body) : Fine t' := by
  have hseq : t.seq + 1 = UInt32.ofNat (t.log.length + 1) := by
    rw [h.seq, UInt32.ofNat_add]
    rfl
  obtain ⟨ht, hfl, hb⟩ := hx.request
  have hnew : Sound t.log.length x := by
    refine ⟨?_, by rwa [ht, hb], ?_⟩
    · rw [hx.msg, ht, hfl, hb, hseq]
    · cases hr : x.reply with
      | none => exact (hx.failed hr).1
      | some d =>
        obtain ⟨res, hp, hret⟩ := hx.parsed d hr
        obtain ⟨res', _, hp', hst⟩ := parseResp_status d (t.seq + 1) type resp
        obtain ⟨rfl, -⟩ := Prod.mk.inj (Option.some.inj (hp.symm.trans hp'))
        rw [hret, hst, ht, ← hseq]
        rfl
  refine ⟨by rw [hx.seq, hx.log, List.length_append, hseq]; rfl, fun k y hy => ?_⟩
  rw [hx.log] at hy
  rcases Nat.lt_trichotomy k t.log.length with hk | rfl | hk
  · rw [List.getElem?_append_left hk] at hy
    exact h.sound k y hy
  · rw [List.getElem?_append_right le_rfl, Nat.sub_self] at hy
    obtain rfl : x = y := Option.some.inj hy
    exact hnew
  · rw [List.getElem?_eq_none (by simp; omega)] at hy
    cases hy

/-! ## Every command is fine -/

/-- The latencies of `n` measured rounds of `bench`, the first of which looks at the clock for the `c`-th
time. -/
def latencies (w : World) (c n : ℕ) : List UInt32 :=
  (List.range n).map fun j => (w.clock (c + 2 * j + 1) - w.clock (c + 2 * j)).toUInt32

/-- The state is fine, the clock has been looked at `c` times, and `o` has been printed. -/
structure FineAt (c : ℕ) (o : Text) (t : Tool) : Prop where
  fine : Fine t
  clock : t.nClock = c
  out : t.out = o

/-- The latency of the first round, and those of the others. -/
lemma latencies_succ (w : World) (c n : ℕ) :
    latencies w c (n + 1) = (w.clock (c + 1) - w.clock c).toUInt32 :: latencies w (c + 2) n := by
  rw [latencies, List.range_succ_eq_map, List.map_cons, List.map_map]
  refine congrArg (_ :: ·) (List.map_congr_left fun j _ => ?_)
  show (w.clock (c + 2 * (j + 1) + 1) - w.clock (c + 2 * (j + 1))).toUInt32 = _
  rw [show c + 2 * (j + 1) = c + 2 + 2 * j by omega]

section

variable (w : World) {E : How → Prop} (hE : ∀ how, how ≠ .unset → how ≠ .exited 0 → E how)

/-- Printing is fine. -/
lemma keeps_print (s : Text) : Keeps Fine E (print s) := Keeps.modifyGet fun _ h => h.congr rfl rfl

/-- So is a message. -/
lemma keeps_eprint (s : Text) : Keeps Fine E (eprint s) := Keeps.modifyGet fun _ h => h.congr rfl rfl

/-- Looking at the clock is fine. -/
lemma keeps_nowUs : Keeps Fine E (nowUs w) := Keeps.modifyGet fun _ h => h.congr rfl rfl

/-- **An exchange with a body that fits its type is fine.** -/
lemma keeps_xfer {type : MsgType} (flags : UInt16) {body : List UInt8} (hf : Fits type body)
    (resp : Option RespBuf) : Keeps Fine E (xfer w type flags body resp) := by
  refine Triple.of_states fun t ht => (xfer_spec w type flags body resp t).mono (fun _ h => h) ?_ nofun
  rintro r t' (⟨-, hu⟩ | ⟨x, -, hx⟩)
  · exact ht.congr hu.log hu.seq
  · exact ht.exchanged hx hf

/-- An exchange of an operation is fine; it neither looks at the clock nor prints. -/
lemma opXfer_fine {type : MsgType} (h : type = .read ∨ type = .write) (flags : UInt16) (op : Op)
    (c : ℕ) (o : Text) : Triple (FineAt c o) (opXfer w type flags op) (fun _ => FineAt c o)
      (fun how t => Fine t ∧ E how) := by
  refine Triple.of_states fun t ht => (opXfer_spec w t type flags op).mono (fun _ h => h) ?_ nofun
  rintro r t' (⟨-, hu⟩ | ⟨x, resp', -, -, hx⟩)
  · exact ⟨ht.fine.congr hu.log hu.seq, hu.clock.trans ht.clock, hu.out.trans ht.out⟩
  · exact ⟨ht.fine.exchanged hx (fits_op h op), hx.clock.trans ht.clock, hx.out.trans ht.out⟩

/-- An exchange of an operation is fine. -/
lemma keeps_opXfer {type : MsgType} (h : type = .read ∨ type = .write) (flags : UInt16) (op : Op) :
    Keeps Fine E (opXfer w type flags op) :=
  Triple.of_states fun t ht => (opXfer_fine w h flags op t.nClock t.out).mono
    (by rintro _ rfl; exact ⟨ht, rfl, rfl⟩) (fun _ _ h => h.fine) (fun _ _ h => h)

include hE

/-- To die is fine in every state that is. -/
lemma die_spec {α : Type} (s : Text) {P : Tool → Prop} (hP : ∀ t, P t → Fine t)
    (Q : α → Tool → Prop) : Triple P (die s) Q (fun how t => Fine t ∧ E how) :=
  Triple.of_states fun t ht => Triple.step (Triple.throw fun _ hs =>
    ⟨hs ▸ (hP t ht).congr rfl rfl, hE _ nofun nofun⟩)

/-- To die is fine. -/
lemma keeps_die {α : Type} (s : Text) : Keeps Fine E (die s : Prog α) := die_spec hE s (fun _ h => h) _

/-- A process that dies of its arguments is fine. -/
lemma fine_of_died {α : Type} {p : Prog α} {Q : α → Prop}
    (h : ∀ t, Triple (· = t) p (fun v t' => Q v ∧ t' = t) (Died t)) :
    Triple Fine p (fun v t => Fine t ∧ Q v) (fun how t => Fine t ∧ E how) :=
  Triple.of_states fun t ht => (h t).mono (fun _ h => h)
    (fun _ _ ⟨hv, e⟩ => ⟨e ▸ ht, hv⟩)
    (fun _ _ hd => ⟨ht.congr hd.log hd.seq, hd.how ▸ hE _ nofun nofun⟩)

/-- Taking arguments is fine. -/
lemma keeps_orDie {α : Type} (r : Except Text α) : Keeps Fine E (orDie r) :=
  (fine_of_died hE fun t => orDie_spec t r).mono (fun _ h => h) (fun _ _ h => h.1) (fun _ _ h => h)

/-- The `read` command is fine. -/
lemma keeps_readCmd (slice mmd reg : CString) : Keeps Fine E (readCmd w slice mmd reg) :=
  (keeps_orDie hE _).bind fun _ => (keeps_opXfer w (Or.inl rfl) _ _).bind fun _ =>
    (keeps_print _).bind fun _ => Keeps.pure _

/-- The `write` command is fine. -/
lemma keeps_writeCmd (slice mmd reg val : CString) : Keeps Fine E (writeCmd w slice mmd reg val) :=
  (keeps_orDie hE _).bind fun _ => (keeps_opXfer w (Or.inr rfl) _ _).bind fun _ =>
    (keeps_print _).bind fun _ => Keeps.pure _

/-- An argument of `reset`. -/
lemma keeps_optArg (s : Option CString) : Keeps Fine E (optArg s) := by
  cases s with
  | none => exact Keeps.pure _
  | some s => exact (keeps_orDie hE _).bind fun _ => Keeps.pure _

/-- The `reset` command is fine. -/
lemma keeps_resetCmd (args : List CString) : Keeps Fine E (resetCmd w args) := by
  refine (keeps_optArg hE _).bind fun a => (keeps_optArg hE _).bind fun d =>
    (keeps_xfer w 0 (fits_reset _) _).bind fun r => ?_
  have hrest : Keeps Fine E (do print (statusLine r.1); pure (exitCode r.1) : Prog ℕ) :=
    (keeps_print _).bind fun _ => Keeps.pure _
  exact Keeps.ite (fun _ => (keeps_eprint _).bind fun _ => hrest) fun _ => hrest

/-- **The loop of `bench`** collects the latencies of its measured rounds.

**Proof sketch.** Induction on the rounds to go. A round that is not measured looks at the clock once,
and one that is measured twice. -/
lemma benchLoop_spec (o : Text) : ∀ (k : ℕ) (i : ℤ) (op : Op) (lat : List UInt32) (c : ℕ),
    Triple (FineAt c o) (benchLoop w k i op lat)
      (fun r t => Fine t ∧ t.out = o ∧ r.2 = lat ++ latencies w (c + (-i).toNat) (k - (-i).toNat))
      (fun how t => Fine t ∧ E how) := by
  intro k
  induction k with
  | zero =>
    intro i op lat c
    refine Triple.pure fun t ht => ⟨ht.fine, ht.out, ?_⟩
    rw [Nat.zero_sub]
    exact (List.append_nil lat).symm
  | succ k ih =>
    intro i op lat c
    refine Triple.of_states fun t ht => Triple.step ?_
    obtain ⟨hfine, rfl, hout⟩ := ht
    refine Triple.bind ((opXfer_fine w (Or.inl rfl) 0 op (t.nClock + 1) o).mono ?_ (fun _ _ h => h)
      (fun _ _ h => h)) fun r => ?_
    · rintro _ rfl
      exact ⟨hfine.congr rfl rfl, rfl, hout⟩
    dsimp only
    split_ifs with hr hi
    · exact die_spec hE _ (fun _ h => h.fine) _
    · refine Triple.of_states fun t₁ ht₁ => Triple.step ?_
      refine (ih (i + 1) r.2 _ (t.nClock + 2)).mono ?_ ?_ (fun _ _ h => h)
      · rintro _ rfl
        exact ⟨ht₁.fine.congr rfl rfl, congrArg (· + 1) ht₁.clock, ht₁.out⟩
      · rintro r' t' ⟨hf, ho, hlat⟩
        refine ⟨hf, ho, ?_⟩
        rw [hlat, show (-i).toNat = 0 by omega, show (-(i + 1)).toNat = 0 by omega, Nat.add_zero,
          Nat.add_zero, Nat.sub_zero, Nat.sub_zero, latencies_succ, ht₁.clock]
        simp
    · refine (ih (i + 1) r.2 lat (t.nClock + 1)).mono (fun _ h => h) ?_ (fun _ _ h => h)
      rintro r' t' ⟨hf, ho, hlat⟩
      refine ⟨hf, ho, ?_⟩
      rw [hlat, show t.nClock + 1 + (-(i + 1)).toNat = t.nClock + (-i).toNat by omega,
        show k - (-(i + 1)).toNat = k + 1 - (-i).toNat by omega]

omit hE in
/-- Elements that are all there. -/
lemma mapM_getElem {l : List UInt32} : ∀ {is : List ℕ}, (∀ i ∈ is, i < l.length) →
    is.mapM (l[·]?) = some (is.map fun i => l.getD i 0) := by
  intro is
  induction is with
  | nil => exact fun _ => rfl
  | cons i is ih =>
    intro h
    obtain ⟨hi, his⟩ := List.forall_mem_cons.mp h
    have hget : l[i]? = some (l.getD i 0) := by
      rw [List.getD_eq_getElem?_getD, List.getElem?_eq_getElem hi]
      rfl
    rw [List.mapM_cons, hget, ih his]
    rfl

omit hE in
/-- The indices of the latencies that `bench` prints are in range. -/
lemma benchIndices_lt {n : ℕ} (hn : 0 < n) : ∀ i ∈ benchIndices n, i < n := by
  have h₁ := Double.truncMul_lt hn (show double90 + 1 < 2 ^ 53 by decide)
  have h₂ := Double.truncMul_lt hn (show double99 + 1 < 2 ^ 53 by decide)
  simp only [benchIndices, List.forall_mem_cons, List.not_mem_nil, false_implies, implies_true,
    and_true]
  omega

omit hE in
/-- There is one latency for each round. -/
lemma length_latencies (c n : ℕ) : (latencies w c n).length = n := by
  rw [latencies, List.length_map, List.length_range]

/-- **What the `bench` command does**: if `qsort` leaves the length of its array alone, it prints five of
its latencies.

**Proof sketch.** The count is read, or the tool exits; the array is allocated, or it exits as
well. Then come the rounds (`benchLoop_spec`), and five elements of what `qsort` returns, which are
there if it keeps the length. -/
lemma benchCmd_spec (hq : E .unset ∨ ∀ l, (w.qsort l).length = l.length) (deviceIdReg : UInt16)
    (n : CString) (t₀ : Tool) (h₀ : Fine t₀) : Triple (· = t₀) (benchCmd w deviceIdReg n)
      (fun _ t => Fine t ∧ ((∀ l, (w.qsort l).length = l.length) → ∃ v val,
        arg n decimal 1 intMax = .ok v ∧ t.out = t₀.out ++ benchLine v.toNat ((benchIndices v.toNat).map fun i =>
          (w.qsort (latencies w (t₀.nClock + 50) v.toNat)).getD i 0) val))
      (fun how t => Fine t ∧ E how) := by
  refine Triple.bind ((orDie_spec t₀ (arg n decimal 1 intMax)).mono (fun _ h => h) (fun _ _ h => h) ?_)
    fun v => Triple.of_states fun t ⟨hv, e⟩ => ?_
  · rintro how t ⟨rfl, hl, hs⟩
    exact ⟨h₀.congr hl hs, hE _ nofun nofun⟩
  subst e
  dsimp only
  cases w.calloc with
  | some e =>
    refine Triple.step (Triple.throw ?_)
    rintro _ rfl
    exact ⟨h₀.congr rfl rfl, hE _ nofun nofun⟩
  | none =>
    refine Triple.bind ((benchLoop_spec w hE t.out (v.toNat + 50) (-50) (deviceIdOp deviceIdReg) []
      t.nClock).mono (by rintro _ rfl; exact ⟨h₀, rfl, rfl⟩) (fun _ _ h => h) (fun _ _ h => h))
      fun r => Triple.of_states fun t₁ ⟨hf, ho, hlat⟩ => ?_
    have hlat' : r.2 = latencies w (t.nClock + 50) v.toNat := by simpa using hlat
    by_cases hlen : ∀ l, (w.qsort l).length = l.length
    · rw [mapM_getElem fun i hi => ?_]
      · refine Triple.step (Triple.pure ?_)
        rintro _ rfl
        refine ⟨hf.congr rfl rfl, fun _ => ⟨v, r.1.val, hv, ?_⟩⟩
        rw [← hlat', ← ho]
      · rw [hlen, hlat', length_latencies]
        exact benchIndices_lt (arg_le hv).1 i hi
    · split
      · exact Triple.throw (by rintro _ rfl; exact ⟨hf, hq.resolve_right hlen⟩)
      · refine Triple.step (Triple.pure ?_)
        rintro _ rfl
        exact ⟨hf.congr rfl rfl, fun h => absurd h hlen⟩

/-- The `bench` command is fine. -/
lemma keeps_benchCmd (hq : E .unset ∨ ∀ l, (w.qsort l).length = l.length) (deviceIdReg : UInt16)
    (n : CString) : Keeps Fine E (benchCmd w deviceIdReg n) :=
  Triple.of_states fun t ht => (benchCmd_spec w hE hq deviceIdReg n t ht).mono (fun _ h => h)
    (fun _ _ h => h.1) (fun _ _ h => h)

/-- The loop of `hammer` is fine. -/
lemma keeps_hammerLoop (tEnd : UInt64) : ∀ (fuel : ℕ) (cnt : UInt64) (op : Op),
    Keeps Fine E (hammerLoop w tEnd fuel cnt op) := by
  intro fuel
  induction fuel with
  | zero => exact fun _ _ => Keeps.throw (hE _ nofun nofun)
  | succ fuel ih =>
    intro cnt op
    refine (keeps_nowUs w).bind fun now => Keeps.ite (fun _ => ?_) fun _ => Keeps.pure _
    refine (keeps_opXfer w (Or.inl rfl) _ _).bind fun r => ?_
    exact Keeps.ite (fun _ => keeps_die hE _) fun _ =>
      Keeps.ite (fun _ => keeps_die hE _) fun _ => ih _ _

/-- The `hammer` command is fine. -/
lemma keeps_hammerCmd (deviceIdReg : UInt16) (fuel : ℕ) (s : CString) :
    Keeps Fine E (hammerCmd w deviceIdReg fuel s) :=
  (keeps_orDie hE _).bind fun _ => (keeps_nowUs w).bind fun _ =>
    (keeps_hammerLoop w hE _ _ _ _).bind fun _ => (keeps_print _).bind fun _ => Keeps.pure _

/-- The `claimtest` command is fine. -/
lemma keeps_claimtestCmd (deviceIdReg : UInt16) (ms : CString) :
    Keeps Fine E (claimtestCmd w deviceIdReg ms) := by
  refine (keeps_orDie hE _).bind fun v => (keeps_xfer w _ (fits_claim _ _) _).bind fun r =>
    (keeps_print _).bind fun _ => Keeps.ite (fun _ => Keeps.throw (hE _ nofun nofun)) fun _ => ?_
  exact (keeps_opXfer w (Or.inl rfl) _ _).bind fun _ => (keeps_print _).bind fun _ =>
    (keeps_xfer w _ (fits_empty (Or.inl rfl)) _).bind fun _ => (keeps_print _).bind fun _ => Keeps.pure _

/-- The `mailbox` command is fine; it prints a buffer. -/
lemma keeps_mailboxCmd (hu : E .unset) (timeoutMs : UInt64) (cmd : CString) (args : List CString) :
    Keeps Fine E (mailboxCmd w timeoutMs cmd args) := by
  refine (keeps_orDie hE _).bind fun v =>
    Triple.bind (fine_of_died hE fun t => payloadArgs_spec t args [] (by decide)) fun p =>
      Triple.of_and fun hp => ?_
  refine (keeps_xfer w _ (fits_mailbox _ _ hp.2) _).bind fun r => ?_
  split
  · exact Keeps.throw hu
  · exact (keeps_print _).bind fun _ => Keeps.pure _

omit hE in
/-- The `stats` and `trace` commands are fine; they print a buffer. -/
lemma keeps_textCmd (hu : E .unset) {type : MsgType}
    (h : type = .release ∨ type = .stats ∨ type = .trace) : Keeps Fine E (textCmd w type) := by
  refine (keeps_xfer w _ (fits_empty h) _).bind fun r => ?_
  split
  · exact Keeps.throw hu
  · exact (keeps_print _).bind fun _ => Keeps.pure _

/-- The options are fine. -/
lemma keeps_options : ∀ (opts : List Opt) (v : UInt64), Keeps Fine E (options opts v) := by
  intro opts
  induction opts with
  | nil => exact fun _ => Keeps.pure _
  | cons o opts ih =>
    intro v
    cases o with
    | s path => exact (Keeps.modifyGet fun _ h => h.congr rfl rfl).bind fun _ => ih _
    | t ms => exact (keeps_orDie hE _).bind fun _ => ih _
    | other => exact keeps_die hE _

/-- The commands that print a buffer of which nothing may have been received. -/
def printsBuffer (cmd : CString) : Prop :=
  cmd.chars = "mailbox".toList ∨ cmd.chars = "stats".toList ∨ cmd.chars = "trace".toList

/-- **Every command is fine**, and only those that print a buffer use bytes that nothing was stored
in. -/
lemma keeps_command (hq : E .unset ∨ ∀ l, (w.qsort l).length = l.length) (deviceIdReg : UInt16)
    (fuel : ℕ) (timeoutMs : UInt64) (cmd : CString) (args : List CString)
    (hu : printsBuffer cmd → E .unset) :
    Keeps Fine E (command w deviceIdReg fuel timeoutMs cmd args) := by
  unfold command
  refine Keeps.ite (fun _ => ?_) fun _ => Keeps.ite (fun _ => ?_) fun _ =>
    Keeps.ite (fun _ => keeps_resetCmd w hE args) fun _ => Keeps.ite (fun _ => ?_) fun _ =>
    Keeps.ite (fun _ => ?_) fun _ => Keeps.ite (fun _ => ?_) fun _ =>
    Keeps.ite (fun hmb => ?_) fun _ =>
    Keeps.ite (fun h => keeps_textCmd w (hu (Or.inr (Or.inl h))) (Or.inr (Or.inl rfl))) fun _ =>
    Keeps.ite (fun h => keeps_textCmd w (hu (Or.inr (Or.inr h))) (Or.inr (Or.inr rfl))) fun _ =>
      keeps_die hE _
  case refine_1 => split <;> first | exact keeps_readCmd w hE _ _ _ | exact keeps_die hE _
  case refine_2 => split <;> first | exact keeps_writeCmd w hE _ _ _ _ | exact keeps_die hE _
  case refine_3 => split <;> first | exact keeps_benchCmd w hE hq _ _ | exact keeps_die hE _
  case refine_4 => split <;> first | exact keeps_hammerCmd w hE _ _ _ | exact keeps_die hE _
  case refine_5 => split <;> first | exact keeps_claimtestCmd w hE _ _ | exact keeps_die hE _
  case refine_6 =>
    split
    · exact keeps_mailboxCmd w hE (hu (Or.inl hmb)) _ _ _
    · exact keeps_die hE _

/-- **Every run of the tool is fine.** -/
lemma keeps_main (hq : E .unset ∨ ∀ l, (w.qsort l).length = l.length) (deviceIdReg : UInt16)
    (fuel : ℕ) (opts : List Opt) (argv : List CString)
    (hu : ∀ cmd ∈ argv.head?, printsBuffer cmd → E .unset) :
    Keeps Fine E (main w deviceIdReg fuel opts argv) := by
  refine (keeps_options hE opts 0).bind fun v => ?_
  cases argv with
  | nil => exact keeps_die hE _
  | cons cmd args => exact keeps_command w hE hq _ _ _ _ _ (hu cmd rfl)

end

/-- The process when it starts has made no exchange. -/
lemma fine_start : Fine Tool.start := ⟨rfl, nofun⟩

/-- **Every exchange of the tool is sound**, whatever its arguments and whatever the system calls
return. -/
lemma fine_main (w : World) (deviceIdReg : UInt16) (fuel : ℕ) (opts : List Opt) (argv : List CString) :
    Fine (ends (main w deviceIdReg fuel opts argv) Tool.start).2 :=
  ends_of_triple (E := fun _ => Fine) ((keeps_main w (E := fun _ => True) (fun _ _ _ => trivial)
    (Or.inl trivial) deviceIdReg fuel opts argv fun _ _ _ => trivial).mono (fun _ h => h)
    (fun _ _ h => h) (fun _ _ h => h.1)) fine_start

/-- **Every request of the tool passes all checks of the daemon.** Whatever the options and arguments of
the tool and whatever the system calls return, the datagram of its exchange number `k` has sequence number
`k + 1`, passes the framing check, is of a type that the daemon knows, and has a body of a length that is
right for its type; a `MAILBOX` has a slice and a payload within the limits. -/
theorem main_requests_accepted (w : World) (deviceIdReg : UInt16) (fuel : ℕ) (opts : List Opt)
    (argv : List CString) {k : ℕ} {x : Exchange}
    (hx : (ends (main w deviceIdReg fuel opts argv) Tool.start).2.log[k]? = some x) :
    frameOk x.msg = true ∧ ∀ rid c, (frameReq rid c x.msg).hdr.seq = UInt32.ofNat (k + 1) ∧
      (frameReq rid c x.msg).kind = some x.type ∧ (frameReq rid c x.msg).sized = true ∧
      (x.type = .mailbox → (frameReq rid c x.msg).inRange = true) := by
  obtain ⟨hmsg, hfits, -⟩ := (fine_main w deviceIdReg fuel opts argv).sound k x hx
  rw [hmsg]
  refine ⟨frameOk_datagram _ _ _ hfits.length, fun rid c => ⟨?_, kind_datagram _ _ _ _ _ _,
    hfits.sized _ _ _ _, fun hmb => hfits.inRange hmb _ _ _ _⟩⟩
  rw [frameReq_datagram]

/-- A world in which nothing is received. -/
def silentWorld : World :=
  ⟨fun _ => none, fun _ => none, fun _ => .error "Connection reset by peer".toList, fun _ => 0, none, id⟩

/-- The word `mailbox`. -/
def mailboxWord : CString := ⟨"mailbox".toList, by decide⟩

/-- The command `mailbox 7 ff 10`. -/
def mailboxArgs : List CString :=
  [mailboxWord, ⟨"7".toList, by decide⟩, ⟨"ff".toList, by decide⟩, ⟨"10".toList, by decide⟩]

/-- Its only exchange. -/
def mailboxExchange : Exchange where
  type := .mailbox
  flags := 0
  body := [0, 7, 2, 0, 0, 0, 0, 0, 0xff, 0x10]
  msg := [1, 6, 0, 0, 1, 0, 0, 0, 10, 0, 0, 0, 0, 7, 2, 0, 0, 0, 0, 0, 0xff, 0x10]
  reply := none
  ret := none

/-- The theorem for a mailbox command with a payload of two bytes. -/
theorem main_requests_accepted_mailbox :
    (ends (main silentWorld 0 0 [] mailboxArgs) Tool.start).2.log[0]? = some mailboxExchange ∧
      frameOk mailboxExchange.msg = true ∧
      (frameReq 0 0 mailboxExchange.msg).inRange = true := by
  have hx : (ends (main silentWorld 0 0 [] mailboxArgs) Tool.start).2.log[0]? =
      some mailboxExchange := by decide +kernel
  obtain ⟨hok, hreq⟩ := main_requests_accepted silentWorld 0 0 [] mailboxArgs hx
  exact ⟨hx, hok, (hreq 0 0).2.2.2 rfl⟩

end Spid.Cli

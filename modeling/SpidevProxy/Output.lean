import Mathlib.Data.List.Sort
import SpidevProxy.ToolRequests

set_option relaxedAutoImplicit false
set_option autoImplicit false

/-!
# What the commands of the tool print

Two questions about the output of `spiproxy_cli.c`. Which commands may print bytes of a buffer that
nothing was stored in: `stats` and `trace` print the buffer `txt` whether `xfer` has filled it or not.
And what the five numbers of `bench` are: they come from an array that `qsort` sorts with `cmp_u32`, which
subtracts in 32 bits, and two of their indices are products with a `double`.

## Main definitions

* `Spid.Cli.received` — the bytes that `parse_resp` stores for `stats` and `trace`.
* `Spid.Cli.cmpU32`, `Spid.Cli.World.Qsort` — the comparison, and what the standard says about `qsort`.

## Main results

* `Spid.Cli.unset_bytes` — which commands use bytes that nothing was stored in, and when.
* `Spid.Cli.bench_statistics` — `bench` prints order statistics of its latencies.
-/

namespace Spid.Cli

open Bytes Hoare

/-! ## The `stats` and `trace` commands -/

/-- The bytes of a datagram that `parse_resp` stores for `stats` and `trace`. -/
def received (d : List UInt8) : List UInt8 :=
  ((d.take (hdrSize + msgMax)).drop hdrSize).take (clamp (Hdr.decode d).len 4096
    (UInt32.ofNat ((d.take (hdrSize + msgMax)).length - hdrSize))).toNat

/-- The characters of a text in front of its first null character. -/
def textBytes (l : List UInt8) : Text := (l.takeWhile (· ≠ 0)).map fun b => Char.ofNat b.toNat

/-- The string in a memory that holds the bytes `l` and a null character. -/
lemma stringAt_of_stored {mem : ℕ → Option UInt8} : ∀ {l : List UInt8} {i : ℕ},
    (∀ j < l.length, mem (i + j) = l[j]?) → mem (i + l.length) = some 0 →
      stringAt mem (l.length + 1) i = some (textBytes l) := by
  intro l
  induction l with
  | nil =>
    intro i _ hend
    rw [List.length_nil, Nat.add_zero] at hend
    simp [stringAt, hend, textBytes]
  | cons b l ih =>
    intro i h hend
    have h₀ : mem i = some b := h 0 (Nat.zero_lt_succ _)
    have hrest : stringAt mem (l.length + 1) (i + 1) = some (textBytes l) := by
      refine ih (fun j hj => ?_) ?_
      · have := h (j + 1) (Nat.succ_lt_succ hj)
        rwa [Nat.add_right_comm, Nat.add_assoc]
      · rwa [List.length_cons, ← Nat.add_assoc, Nat.add_right_comm] at hend
    rw [List.length_cons, stringAt, h₀]
    by_cases hb : b = 0
    · simp [hb, textBytes]
    · simp only [Option.bind_eq_bind, Option.bind_some, if_neg hb, hrest, textBytes]
      rw [List.takeWhile_cons_of_pos (by simpa using hb)]
      rfl

/-- The text in a buffer into which `src` has been stored. -/
lemma textOf_store (b : RespBuf) {src : List UInt8} {n : UInt32} (h : n.toNat = src.length) :
    textOf (b.store src n) = some (textBytes src) := by
  show stringAt (Function.update _ n.toNat (some 0)) (n.toNat + 1) 0 = _
  rw [h]
  refine stringAt_of_stored (fun j hj => ?_) ?_
  · rw [Nat.zero_add, Function.update_of_ne hj.ne]
    show (if j < src.length then _ else _) = _
    rw [if_pos hj, List.getD_eq_getElem?_getD, List.getElem?_eq_getElem hj]
    rfl
  · rw [Nat.zero_add, Function.update_self]

/-- There is no text in a buffer that nothing was stored in. -/
lemma textOf_unset : textOf ⟨fun _ => none, 4096⟩ = none := by
  rw [textOf, show (4096 : UInt32).toNat = 4095 + 1 from rfl, stringAt,
    Function.update_of_ne (by decide)]
  rfl

/-- The text in the buffer after `parse_resp`. -/
lemma textOf_parseResp {d : List UInt8} {seq : UInt32} {type : MsgType}
    {res : Except RespError UInt16} {resp' : Option RespBuf}
    (h : parseResp (d.take (hdrSize + msgMax)) seq type.code (some ⟨fun _ => none, 4096⟩) =
      some (res, resp')) :
    resp'.bind textOf = res.toOption.map fun _ => textBytes (received d) := by
  have hd : Hdr.decode (d.take (hdrSize + msgMax)) = Hdr.decode d := Hdr.decode_take d (by omega)
  by_cases hn : (d.take (hdrSize + msgMax)).length < hdrSize
  · rw [parseResp_short hn] at h
    obtain ⟨rfl, rfl⟩ := Prod.mk.inj (Option.some.inj h)
    exact textOf_unset
  · by_cases hb : (Hdr.decode d).seq ≠ seq ∨ (Hdr.decode d).type ≠ type.code ||| respBit
    · rw [parseResp_bad (by omega) (by rwa [hd])] at h
      obtain ⟨rfl, rfl⟩ := Prod.mk.inj (Option.some.inj h)
      exact textOf_unset
    · rw [not_or, not_not, not_not] at hb
      rw [parseResp_ok (by omega) (hd ▸ hb.1) (hd ▸ hb.2), hd] at h
      obtain ⟨rfl, rfl⟩ := Prod.mk.inj (Option.some.inj h)
      refine textOf_store _ ?_
      have hle := clamp_le (Hdr.decode d).len 4096 ((d.take (hdrSize + msgMax)).length - hdrSize)
      exact (List.length_take_of_le (by rwa [List.length_drop])).symm

/-- **What `stats` and `trace` do**: they print the text in the answer, and they print a buffer that
nothing was stored in if `xfer` has returned `-1`.

**Proof sketch.** By the spec of `xfer`. Without an exchange, without a reply, or with a reply that
does not answer the request nothing is stored, so there is no text to print; otherwise the text is
that of the reply. -/
lemma textCmd_spec (w : World) (type : MsgType) (t : Tool) : Triple (· = t) (textCmd w type)
    (fun code t' => ∃ st resp t₁ x d, xfer w type 0 [] (some ⟨fun _ => none, 4096⟩) t =
        .ok (some st, resp) t₁ ∧ t₁.log = t.log ++ [x] ∧ x.reply = some d ∧ code = exitCode (some st) ∧
        t'.out = t.out ++ textBytes (received d))
    (fun how t' => how = .unset ∧
      ∃ resp, xfer w type 0 [] (some ⟨fun _ => none, 4096⟩) t = .ok (none, resp) t') := by
  refine Triple.bind (((xfer_spec w type 0 [] (some ⟨fun _ => none, 4096⟩) t).result).mono
    (fun _ h => h) (fun _ _ h => h) fun _ _ h => h.2.elim) fun r =>
      Triple.of_states fun t' ⟨hxfer, hx⟩ => ?_
  -- without a status there is no text, and with one there is
  have htext : (r.1 = none ∧ r.2.bind textOf = none) ∨ ∃ st x d, r.1 = some st ∧
      t'.log = t.log ++ [x] ∧ x.reply = some d ∧ t'.out = t.out ∧
      r.2.bind textOf = some (textBytes (received d)) := by
    rcases hx with ⟨rfl, -⟩ | ⟨x, hr, hx⟩
    · exact Or.inl ⟨rfl, textOf_unset⟩
    · cases hd : x.reply with
      | none =>
        obtain ⟨hret, hbuf⟩ := hx.failed hd
        rw [hr, hret, hbuf]
        exact Or.inl ⟨rfl, textOf_unset⟩
      | some d =>
        obtain ⟨res, hp, hret⟩ := hx.parsed d hd
        rw [hr, textOf_parseResp hp, ← hret]
        cases x.ret with
        | none => exact Or.inl ⟨rfl, rfl⟩
        | some st => exact Or.inr ⟨st, x, d, rfl, hx.log, hd, hx.out, rfl⟩
  obtain ⟨ret, resp⟩ := r
  rcases htext with ⟨rfl, htext⟩ | ⟨st, x, d, rfl, hlog, hd, hout, htext⟩
  · rw [htext]
    exact Triple.throw fun _ h => ⟨rfl, resp, h ▸ hxfer⟩
  · rw [htext]
    refine Triple.step (Triple.pure ?_)
    rintro _ rfl
    refine ⟨st, resp, t', x, d, hxfer, hlog, hd, rfl, ?_⟩
    show t'.out ++ _ = _
    rw [hout]

/-- `main` with `stats` or `trace`, whatever the arguments behind it. -/
lemma command_text {type : MsgType} {cmd : CString} (h : type = .stats ∧ cmd.chars = "stats".toList ∨
    type = .trace ∧ cmd.chars = "trace".toList) (w : World) (deviceIdReg : UInt16) (fuel : ℕ)
    (timeoutMs : UInt64) (args : List CString) :
    command w deviceIdReg fuel timeoutMs cmd args = textCmd w type := by
  unfold command
  rcases h with ⟨rfl, h⟩ | ⟨rfl, h⟩
  · simp only [h]
    rfl
  · simp only [h]
    rfl

/-- **Which commands print bytes that nothing was stored in.** If `qsort` leaves the length of its array
alone, only the commands `mailbox`, `stats` and `trace` ever use a byte that nothing was stored in,
whatever the arguments and whatever the system calls return. `stats` and `trace` do so if and only if
their `xfer` returns `-1`: the daemon cannot be reached, a call fails, or the datagram received does not
answer the request.

**Proof sketch.** The first half is the spec of `main` (`keeps_main`) with the endings allowed. For
the second, the options are read, or the tool exits at one that it does not know; then the command
is `textCmd`, which ends so exactly when its `xfer` returns `-1`. -/
theorem unset_bytes (w : World) (hq : ∀ l, (w.qsort l).length = l.length) (deviceIdReg : UInt16)
    (fuel : ℕ) (opts : List Opt) (argv : List CString) :
    ((ends (main w deviceIdReg fuel opts argv) Tool.start).1 = .unset →
      ∃ cmd ∈ argv.head?, printsBuffer cmd) ∧
    ∀ (type : MsgType) (cmd : CString) (args : List CString), argv = cmd :: args →
      (type = .stats ∧ cmd.chars = "stats".toList ∨ type = .trace ∧ cmd.chars = "trace".toList) →
      ((ends (main w deviceIdReg fuel opts argv) Tool.start).1 = .unset ↔
        ∃ v t resp t', options opts 0 Tool.start = .ok v t ∧
          xfer w type 0 [] (some ⟨fun _ => none, 4096⟩) t = .ok (none, resp) t') := by
  constructor
  · refine ends_of_triple (E := fun how _ => how = .unset → ∃ cmd ∈ argv.head?, printsBuffer cmd)
      ((keeps_main w (E := fun how => how = .unset → ∃ cmd ∈ argv.head?, printsBuffer cmd)
        (fun how hne _ he => absurd he hne) (Or.inr hq) deviceIdReg fuel opts argv
        fun cmd hcmd hb _ => ⟨cmd, hcmd, hb⟩).mono (fun _ h => h) (fun _ _ _ => nofun)
        (fun _ _ h => h.2)) fine_start
  · rintro type cmd args rfl hcmd
    refine ends_of_triple (P := (· = Tool.start)) (E := fun how _ => how = .unset ↔
      ∃ v t resp t', options opts 0 Tool.start = .ok v t ∧
        xfer w type 0 [] (some ⟨fun _ => none, 4096⟩) t = .ok (none, resp) t') ?_ rfl
    refine Triple.bind (((options_spec opts 0 Tool.start).result).mono (fun _ h => h) (fun _ _ h => h) ?_)
      fun v => Triple.of_states fun t ⟨hopts, _⟩ => ?_
    · -- an option that the tool does not know
      rintro how t ⟨hopts, rfl⟩
      simp [hopts]
    · dsimp only
      rw [command_text hcmd]
      refine (textCmd_spec w type t).mono (fun _ h => h) ?_ ?_
      · rintro code t' ⟨st, resp, t₁, x, d, hxfer, -⟩
        simp [hopts, hxfer]
      · rintro how t' ⟨rfl, resp, hxfer⟩
        simp [hopts, hxfer]

/-- The command `stats`. -/
def statsArgs : List CString := [⟨"stats".toList, by decide⟩]

/-- A world without a daemon. -/
def lonelyWorld : World :=
  { silentWorld with connect := fun _ => some "Connection refused".toList }

/-- The theorem when the daemon cannot be reached: `stats` prints its buffer all the same. -/
theorem unset_bytes_unreachable :
    (ends (main lonelyWorld 0 0 [] statsArgs) Tool.start).1 = .unset ∧
      ∃ v t resp t', options [] 0 Tool.start = .ok v t ∧
        xfer lonelyWorld .stats 0 [] (some ⟨fun _ => none, 4096⟩) t = .ok (none, resp) t' := by
  have hunset : (ends (main lonelyWorld 0 0 [] statsArgs) Tool.start).1 = .unset := by decide +kernel
  have h := unset_bytes lonelyWorld (fun _ => rfl) 0 0 [] statsArgs
  exact ⟨hunset, (h.2 .stats _ [] rfl (Or.inl ⟨rfl, rfl⟩)).mp hunset⟩

/-! ## The `bench` command -/

/-- `cmp_u32`: the difference in 32 bits, as an `int`. -/
def cmpU32 (a b : UInt32) : ℤ := (a - b).toBitVec.toInt

/-- The comparison orders the elements of the array, as the standard asks of it. -/
def Consistent (l : List UInt32) : Prop :=
  (∀ a ∈ l, ∀ b ∈ l, 0 < cmpU32 a b ↔ cmpU32 b a < 0) ∧
    ∀ a ∈ l, ∀ b ∈ l, ∀ c ∈ l, cmpU32 a b ≤ 0 → cmpU32 b c ≤ 0 → cmpU32 a c ≤ 0

/-- What the standard says about `qsort`: it sorts the array if the comparison orders its elements. -/
structure World.Qsort (w : World) : Prop where
  length : ∀ l, (w.qsort l).length = l.length
  sorts : ∀ l, Consistent l → (w.qsort l).Perm l ∧ (w.qsort l).Pairwise fun a b => cmpU32 a b ≤ 0

/-- On small numbers the comparison is that of the numbers. -/
lemma cmpU32_eq {a b : UInt32} (ha : a.toNat < 2 ^ 31) (hb : b.toNat < 2 ^ 31) :
    cmpU32 a b = (a.toNat : ℤ) - b.toNat := by
  have hsub : (a - b).toBitVec.toNat = (2 ^ 32 - b.toNat + a.toNat) % 2 ^ 32 := UInt32.toNat_sub a b
  rw [cmpU32, BitVec.toInt_eq_toNat_cond, hsub]
  split_ifs with h <;> omega

/-- So it orders them. -/
lemma consistent_of_lt {l : List UInt32} (h : ∀ a ∈ l, a.toNat < 2 ^ 31) : Consistent l := by
  refine ⟨fun a ha b hb => ?_, fun a ha b hb c hc => ?_⟩
  · rw [cmpU32_eq (h a ha) (h b hb), cmpU32_eq (h b hb) (h a ha)]
    omega
  · rw [cmpU32_eq (h a ha) (h b hb), cmpU32_eq (h b hb) (h c hc), cmpU32_eq (h a ha) (h c hc)]
    omega

/-- **`qsort` with `cmp_u32` sorts small numbers.** -/
lemma World.Qsort.eq_mergeSort {w : World} (hw : w.Qsort) {l : List UInt32}
    (h : ∀ a ∈ l, a.toNat < 2 ^ 31) : w.qsort l = l.mergeSort (· ≤ ·) := by
  obtain ⟨hperm, hsorted⟩ := hw.sorts l (consistent_of_lt h)
  have hle : (w.qsort l).Pairwise (· ≤ ·) := by
    refine hsorted.imp_of_mem fun {a b} ha hb hab => ?_
    rw [cmpU32_eq (h a (hperm.mem_iff.mp ha)) (h b (hperm.mem_iff.mp hb))] at hab
    exact UInt32.le_iff_toNat_le.mpr (by omega)
  have hmerge : (l.mergeSort (· ≤ ·)).Pairwise (· ≤ ·) := by
    refine (@List.pairwise_mergeSort _ (fun a b : UInt32 => decide (a ≤ b)) ?_ ?_ l).imp
      of_decide_eq_true
    · simp only [decide_eq_true_eq]
      exact fun _ _ _ => UInt32.le_trans
    · simp only [Bool.or_eq_true, decide_eq_true_eq]
      exact UInt32.le_total
  exact (hperm.trans (List.mergeSort_perm l _).symm).eq_of_pairwise
    (fun _ _ _ _ => UInt32.le_antisymm) hle hmerge

/-- The indices of the five latencies are in ascending order. -/
lemma pairwise_benchIndices {n : ℕ} (hn : 0 < n) : (benchIndices n).Pairwise (· ≤ ·) := by
  have h₁ : n / 2 ≤ Double.truncMul n double90 := Double.half_le_truncMul (by decide) n
  have h₂ : Double.truncMul n double90 ≤ Double.truncMul n double99 :=
    Double.truncMul_le_truncMul (by decide) n
  have h₃ := Double.truncMul_lt hn (show double99 + 1 < 2 ^ 53 by decide)
  simp only [benchIndices, List.pairwise_cons, List.forall_mem_cons, List.not_mem_nil, false_implies,
    implies_true, and_true, List.Pairwise.nil]
  omega

/-- The word `bench`. -/
def benchWord : CString := ⟨"bench".toList, by decide⟩

/-- **`bench` prints order statistics.** If `qsort` does what the standard says, `bench` exits with 0 and
no latency is as long as `2 ^ 31` microseconds, then the five numbers it prints are the elements of its
sorted latencies at five indices in ascending order: the least one, three in between and the greatest.
The latencies are those of the `n` rounds that follow the fifty unmeasured ones. Whatever the latencies,
no index leaves the array.

**Proof sketch.** The spec of `bench` gives the line in terms of what `qsort` returns. With
latencies below `2 ^ 31` the comparison function is the order of numbers, so `qsort` returns the
sorted list; the indices are bounded by arithmetic. -/
theorem bench_statistics (w : World) (hw : w.Qsort) (deviceIdReg : UInt16) (fuel : ℕ)
    (opts : List Opt) (n : CString)
    (hexit : (ends (main w deviceIdReg fuel opts [benchWord, n]) Tool.start).1 = .exited 0) :
    ∃ v val, arg n decimal 1 intMax = .ok v ∧ 0 < v.toNat ∧
      (∀ i ∈ benchIndices v.toNat, i < v.toNat) ∧ (benchIndices v.toNat).Pairwise (· ≤ ·) ∧
      ((∀ l ∈ latencies w 50 v.toNat, l.toNat < 2 ^ 31) →
        (ends (main w deviceIdReg fuel opts [benchWord, n]) Tool.start).2.out =
          benchLine v.toNat ((benchIndices v.toNat).map fun i =>
            ((latencies w 50 v.toNat).mergeSort (· ≤ ·)).getD i 0) val) := by
  have hspec : ∃ v val, arg n decimal 1 intMax = .ok v ∧
      (ends (main w deviceIdReg fuel opts [benchWord, n]) Tool.start).2.out =
        benchLine v.toNat ((benchIndices v.toNat).map fun i =>
          (w.qsort (latencies w 50 v.toNat)).getD i 0) val := by
    refine ends_of_triple (P := (· = Tool.start)) (E := fun how t => how = .exited 0 →
      ∃ v val, arg n decimal 1 intMax = .ok v ∧
        t.out = benchLine v.toNat ((benchIndices v.toNat).map fun i =>
          (w.qsort (latencies w 50 v.toNat)).getD i 0) val) ?_ rfl hexit
    refine Triple.bind ((options_spec opts 0 Tool.start).mono (fun _ h => h) (fun _ _ h => h) ?_)
      fun timeoutMs => Triple.of_states fun t hu => ?_
    · rintro how _ rfl
      simp
    refine (benchCmd_spec w (E := (· ≠ .exited 0)) (fun _ _ h => h) (Or.inr hw.length) deviceIdReg n t
      (fine_start.congr hu.log hu.seq)).mono (fun _ h => h) ?_ (fun _ _ h he => absurd he h.2)
    rintro code t' ⟨-, hdone⟩ -
    obtain ⟨v, val, hv, hout⟩ := hdone hw.length
    refine ⟨v, val, hv, ?_⟩
    rw [hout, hu.out, hu.clock]
    rfl
  obtain ⟨v, val, hv, hout⟩ := hspec
  have hn : 0 < v.toNat := (arg_le hv).1
  refine ⟨v, val, hv, hn, benchIndices_lt hn, pairwise_benchIndices hn, fun h => ?_⟩
  rw [hout, hw.eq_mergeSort h]

/-- A sort as the standard asks for it, which calls `cmp_u32` for elements of the array only. -/
def sortU32 (l : List UInt32) : List UInt32 :=
  (l.attach.insertionSort fun a b => cmpU32 a.1 b.1 ≤ 0).map Subtype.val

/-- A world in which every `READ` is answered, and in which the clock runs. -/
def benchWorld : World where
  connect := fun _ => none
  send := fun _ => none
  recv := fun n => .ok (Hdr.encode ⟨1, 0x81, 0, UInt32.ofNat (n + 1), 12⟩ ++
    Op.encode ⟨0, 0, mmdGlobal, 0, 0, 0, 0x8021⟩)
  clock := fun n => UInt64.ofNat (n * n)
  calloc := none
  qsort := sortU32

/-- This sort does what the standard says. -/
lemma qsort_benchWorld : benchWorld.Qsort := by
  refine ⟨fun l => ?_, fun l hl => ⟨?_, ?_⟩⟩
  · show (sortU32 l).length = _
    rw [sortU32, List.length_map, List.length_insertionSort, List.length_attach]
  · show (sortU32 l).Perm l
    have h := (List.perm_insertionSort (fun a b : {x // x ∈ l} => cmpU32 a.1 b.1 ≤ 0) l.attach).map
      Subtype.val
    rwa [List.attach_map_subtype_val] at h
  · show (sortU32 l).Pairwise _
    have htotal : Std.Total fun a b : {x // x ∈ l} => cmpU32 a.1 b.1 ≤ 0 := by
      refine ⟨fun a b => ?_⟩
      by_contra hne
      rw [not_or, not_le, not_le] at hne
      exact absurd ((hl.1 a.1 a.2 b.1 b.2).mp hne.1) (by omega)
    have htrans : IsTrans {x // x ∈ l} fun a b => cmpU32 a.1 b.1 ≤ 0 :=
      ⟨fun a b c => hl.2 a.1 a.2 b.1 b.2 c.1 c.2⟩
    exact List.pairwise_map.mpr (List.pairwise_insertionSort _ l.attach)

/-- The number of rounds in the run below. -/
def benchThree : CString := ⟨"3".toList, by decide⟩

/-- The theorem for three rounds, which took 101, 105 and 109 microseconds. -/
theorem bench_statistics_three :
    (ends (main benchWorld 0 0 [] [benchWord, benchThree]) Tool.start).2.out =
        "proxied read rtt: n=3 min=101 p50=105 p90=109 p99=109 max=109 us (val=0x00008021)\n".toList ∧
      latencies benchWorld 50 3 = [101, 105, 109] ∧ benchIndices 3 = [0, 1, 2, 2, 2] ∧
      ∃ val, (ends (main benchWorld 0 0 [] [benchWord, benchThree]) Tool.start).2.out =
        benchLine 3 [101, 105, 109, 109, 109] val := by
  have hlat : latencies benchWorld 50 3 = [101, 105, 109] := by decide +kernel
  have hidx : benchIndices 3 = [0, 1, 2, 2, 2] := by decide +kernel
  have hthree : arg benchThree decimal 1 intMax = .ok 3 := by decide +kernel
  obtain ⟨v, val, hv, -, -, -, hout⟩ :=
    bench_statistics benchWorld qsort_benchWorld 0 0 [] benchThree (by decide +kernel)
  obtain rfl := Except.ok.inj (hv.symm.trans hthree)
  refine ⟨by decide +kernel, hlat, hidx, val, ?_⟩
  have hshort : ∀ l ∈ latencies benchWorld 50 (3 : UInt64).toNat, l.toNat < 2 ^ 31 := by
    rw [show (3 : UInt64).toNat = 3 from rfl, hlat]
    intro l hl
    simp only [List.mem_cons, List.not_mem_nil, or_false] at hl
    rcases hl with rfl | rfl | rfl <;> decide
  rw [hout hshort, show (3 : UInt64).toNat = 3 from rfl, hlat, hidx,
    List.mergeSort_of_pairwise (by decide)]
  rfl

end Spid.Cli

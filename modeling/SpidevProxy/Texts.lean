import Mathlib.Data.Nat.Digits.Defs
import SpidevProxy.Attribution

set_option relaxedAutoImplicit false
set_option autoImplicit false

/-!
# Texts that are printed piece by piece

`STATS` and `TRACE` print their text line by line into a buffer of 4096 bytes, adding up what `snprintf`
returns. As long as everything fits, with the null byte behind it, the buffer holds the lines one after
another. This file has the widths of the lines too.

## Main definitions

* `Spid.Txt.prints`, `Spid.Txt.buffers` — printing several texts, and the buffers that `snprintf` is
  called on.
* `Spid.Txt.Fits` — a size argument that has not wrapped, and a place inside the buffer.
* `Spid.statsLines` — the lines of `STATS`.

## Main results

* `Spid.Txt.bytes_prints` — what the buffer holds when everything fits.
* `Spid.Txt.fits_iff` — when all calls of `snprintf` stay inside the buffer.
* `Spid.length_traceLine`, `Spid.length_statsClient`, `Spid.length_statsHead` — widths of lines.
-/

namespace Spid

/-- The byte of a character. -/
def charByte (ch : Char) : UInt8 := UInt8.ofNat ch.toNat

namespace Txt

/-- The empty buffer. -/
def empty : Txt := ⟨fun _ => 0, 0⟩

/-- Print several texts, one after another. -/
def prints (t : Txt) (ss : List Text) : Txt := ss.foldl snprintf t

/-- The buffers on which `snprintf` is called when several texts are printed. -/
def buffers : Txt → List Text → List Txt
  | _, [] => []
  | t, s :: ss => t :: buffers (t.snprintf s) ss

/-- **The size argument is between 1 and 4096, and the place to print to is inside the buffer.** -/
structure Fits (t : Txt) : Prop where
  pos : 1 ≤ t.room
  le : t.room ≤ msgMax
  inside : t.len < msgMax

/-- As many bytes as the length says. -/
@[simp] lemma length_bytes (t : Txt) : t.bytes.length = t.len := by simp [bytes]

/-- Each `snprintf` adds its text. -/
@[simp] lemma len_snprintf (t : Txt) (s : Text) : (t.snprintf s).len = t.len + s.length := rfl

/-- The number of characters of several texts. -/
def width (ss : List Text) : ℕ := (ss.map List.length).sum

/-- No text, -/
@[simp] lemma width_nil : width [] = 0 := rfl

/-- and one more. -/
@[simp] lemma width_cons (s : Text) (ss : List Text) : width (s :: ss) = s.length + width ss := by
  simp [width]

/-- Texts of bounded length. -/
lemma width_le {ss : List Text} {n : ℕ} (h : ∀ s ∈ ss, s.length ≤ n) : width ss ≤ ss.length * n := by
  have hs := List.sum_le_card_nsmul (ss.map List.length) n fun x hx => by
    obtain ⟨s, hs, rfl⟩ := List.mem_map.mp hx
    exact h s hs
  rwa [List.length_map, smul_eq_mul] at hs

/-- Several texts are as long as all of them. -/
lemma len_prints (t : Txt) (ss : List Text) : (t.prints ss).len = t.len + width ss := by
  induction ss generalizing t with
  | nil => rfl
  | cons s ss ih =>
    change ((t.snprintf s).prints ss).len = _
    rw [ih, len_snprintf, width_cons, Nat.add_assoc]

/-- The room that is left. -/
lemma room_eq {t : Txt} (h : t.len ≤ msgMax) : t.room = msgMax - t.len := by
  have hm : msgMax = 4096 := rfl
  unfold room
  omega

/-- `snprintf` is called inside the buffer exactly as long as the buffer is not full. -/
lemma fits_iff_lt (t : Txt) (h : t.len < 2 ^ 64) : t.Fits ↔ t.len < msgMax := by
  have hm : msgMax = 4096 := rfl
  refine ⟨fun hf => hf.inside, fun hlt => ?_⟩
  have hr := room_eq (t := t) (by omega)
  exact ⟨by omega, by omega, hlt⟩

/-- What fits is stored behind what is there. -/
lemma bytes_snprintf {t : Txt} {s : Text} (h : t.len + s.length < msgMax) :
    (t.snprintf s).bytes = t.bytes ++ s.map charByte := by
  have hroom := room_eq (t := t) (by omega)
  have hkept : min s.length (t.room - 1) = s.length := by omega
  unfold bytes
  rw [len_snprintf, List.range_add, List.map_append, List.map_map]
  congr 1
  · refine List.map_congr_left fun i hi => ?_
    have hi := List.mem_range.mp hi
    simp only [snprintf]
    rw [hkept, if_neg (by omega), if_neg (by omega)]
  · refine List.ext_getElem (by simp) fun i h₁ h₂ => ?_
    have hi : i < s.length := by simpa using h₁
    simp only [List.getElem_map, List.getElem_range, Function.comp_apply, snprintf]
    rw [hkept, if_pos (by omega), Nat.add_sub_cancel_left, List.getD_eq_getElem?_getD,
      List.getElem?_eq_getElem hi]
    rfl

/-- **What the buffer holds when everything fits.** -/
lemma bytes_prints {t : Txt} {ss : List Text} (h : t.len + width ss < msgMax) :
    (t.prints ss).bytes = t.bytes ++ (ss.flatten).map charByte := by
  induction ss generalizing t with
  | nil => simp [prints]
  | cons s ss ih =>
    rw [width_cons] at h
    change ((t.snprintf s).prints ss).bytes = _
    rw [ih (by rw [len_snprintf]; omega), bytes_snprintf (by omega), List.flatten_cons, List.map_append,
      List.append_assoc]

/-- **When all calls of `snprintf` stay inside the buffer** and so does the text: when the text has at
most 4096 characters. -/
lemma fits_iff {t : Txt} {ss : List Text} (hne : ∀ s ∈ ss, s ≠ []) :
    ((∀ b ∈ t.buffers ss, b.Fits) ∧ (t.prints ss).len ≤ msgMax) ↔ t.len + width ss ≤ msgMax := by
  rw [len_prints]
  refine ⟨fun h => h.2, fun h => ⟨?_, h⟩⟩
  induction ss generalizing t with
  | nil => simp [buffers]
  | cons s ss ih =>
    have hpos : 0 < s.length := List.length_pos_iff.mpr (hne s List.mem_cons_self)
    rw [width_cons] at h
    intro b hb
    rcases List.mem_cons.mp hb with rfl | hb
    · have hm : msgMax = 4096 := rfl
      exact (fits_iff_lt b (by omega)).mpr (by omega)
    · refine ih (fun x hx => hne x (List.mem_cons_of_mem _ hx)) ?_ b hb
      rw [len_snprintf]
      omega

end Txt

/-! ## Widths -/

/-- A number below a power of ten has as many digits, -/
lemma length_dec {n e : ℕ} (he : 0 < e) (h : n < 10 ^ e) : (dec n).length ≤ e :=
  Nat.toDigits_length 10 n e he h

/-- so one of 64 bits has at most twenty, -/
lemma length_dec_u64 (n : UInt64) : (dec n.toNat).length ≤ 20 :=
  length_dec (by omega) (by have := n.toNat_lt; omega)

/-- one of 32 bits ten, -/
lemma length_dec_u32 (n : UInt32) : (dec n.toNat).length ≤ 10 :=
  length_dec (by omega) (by have := n.toNat_lt; omega)

/-- and a byte three. -/
lemma length_dec_u8 (n : UInt8) : (dec n.toNat).length ≤ 3 :=
  length_dec (by omega) (by have := n.toNat_lt; omega)

/-- An `int` has at most ten and a sign. -/
lemma length_decInt {z : ℤ} (h : -2147483648 ≤ z ∧ z ≤ 2147483647) : (decInt z).length ≤ 11 := by
  have hd : (dec z.natAbs).length ≤ 10 := length_dec (by omega) (by omega)
  unfold decInt
  split_ifs
  · rw [List.length_cons]
    omega
  · omega

/-- A padded hexadecimal number has the width that it is padded to. -/
lemma length_hex {w n : ℕ} (hw : 0 < w) (h : n < 16 ^ w) : (hex w n).length = w := by
  have hd := Nat.toDigits_length 16 n w hw h
  unfold hex
  dsimp only
  rw [List.length_append, List.length_replicate]
  omega

/-- **A line of `TRACE`** has at most 56 characters, and at least one. -/
lemma length_traceLine (e : TraceEnt) : (traceLine e).length ≤ 56 ∧ traceLine e ≠ [] := by
  have h₁ := length_dec_u64 e.ts
  have h₂ := length_dec_u32 e.cid
  have h₃ := length_dec_u8 e.slice
  have h₄ : (hex 2 e.mmd.toNat).length = 2 := length_hex (by omega) (by have := e.mmd.toNat_lt; omega)
  have h₅ : (hex 4 e.reg.toNat).length = 4 := length_hex (by omega) (by have := e.reg.toNat_lt; omega)
  have h₆ : (hex 8 e.val.toNat).length = 8 := length_hex (by omega) (by have := e.val.toNat_lt; omega)
  have hs : " ".toList.length = 1 := by decide
  have hc : " c".toList.length = 2 := by decide
  have hn : "\n".toList.length = 1 := by decide
  unfold traceLine
  refine ⟨?_, by simp⟩
  simp only [List.length_append, List.length_singleton, h₄, h₅, h₆, hs, hc, hn]
  omega

/-! ### The lines of `STATS` -/

/-- The lines of `STATS`: the first one, and one for each client. -/
def statsLines (cfg : Config) (g : Daemon) : List Text :=
  statsHead cfg g :: ((List.finRange 16).filter fun c => (g.cl c).used).map fun c => statsClient (g.cl c)

/-- The text of `STATS` is made of its lines. -/
lemma statsText_eq (cfg : Config) (g : Daemon) :
    statsText cfg g = Txt.empty.prints (statsLines cfg g) := by
  unfold statsText statsLines Txt.prints
  rw [List.foldl_cons, List.foldl_map]
  rfl

/-- The first line is not empty, -/
lemma length_statsHead_pos (cfg : Config) (g : Daemon) : 0 < (statsHead cfg g).length := by
  have hn : 0 < "\n".toList.length := by decide
  unfold statsHead
  simp only [List.length_append]
  omega

/-- nor is that of a client, -/
lemma length_statsClient_pos (x : Client) : 0 < (statsClient x).length := by
  have hn : 0 < "\n".toList.length := by decide
  unfold statsClient
  simp only [List.length_append]
  omega

/-- so none is. -/
lemma ne_nil_of_mem_statsLines {cfg : Config} {g : Daemon} {s : Text} (h : s ∈ statsLines cfg g) :
    s ≠ [] := by
  apply List.ne_nil_of_length_pos
  rcases List.mem_cons.mp h with h | h
  · rw [h]
    exact length_statsHead_pos cfg g
  · obtain ⟨c, -, hc⟩ := List.mem_map.mp h
    rw [← hc]
    exact length_statsClient_pos _

/-- **A client line of `STATS`** has at most 131 characters. -/
lemma length_statsClient {x : Client} (hc : x.comm.length ≤ 19)
    (hp : -2147483648 ≤ x.pid ∧ x.pid ≤ 2147483647) : (statsClient x).length ≤ 131 := by
  have h₁ := length_dec_u32 x.id
  have h₂ := length_decInt hp
  have h₃ := length_dec_u64 x.nMsgs
  have h₄ := length_dec_u64 x.nOps
  have h₅ := length_dec_u64 x.nErr
  have e₁ : "client ".toList.length = 7 := by decide
  have e₂ : "(".toList.length = 1 := by decide
  have e₃ : ") pid ".toList.length = 6 := by decide
  have e₄ : " msgs=".toList.length = 6 := by decide
  have e₅ : " ops=".toList.length = 5 := by decide
  have e₆ : " err=".toList.length = 5 := by decide
  have e₇ : "\n".toList.length = 1 := by decide
  unfold statsClient
  simp only [List.length_append, e₁, e₂, e₃, e₄, e₅, e₆, e₇]
  omega

/-- What `main` accepts: the path is one that `open` takes, the numbers are in the range of `parse_uint`,
and a reset line that was found has a name that fits in the 32 bytes of `gpio_v2_line_info`. -/
structure Config.Accepted (cfg : Config) : Prop where
  dev : cfg.dev.length ≤ 4095
  freq : cfg.freq ≤ 2147483647
  pad : cfg.pad ≤ 15
  rst : ∀ name, cfg.rstLine = some name → cfg.rst = true → name.length ≤ 31

/-- **The first line of `STATS`** has at most 216 characters besides the path.

**Proof sketch.** Bound each number by its digits and add the lengths of the labels. -/
lemma length_statsHead {cfg : Config} {g : Daemon} (h : cfg.Accepted)
    (hq : 0 ≤ g.pool.count ∧ g.pool.count < 1000) :
    (statsHead cfg g).length ≤ cfg.dev.length + 216 := by
  have h₁ : (dec cfg.freq).length ≤ 10 := length_dec (by omega) (by have := h.freq; omega)
  have h₂ : (dec cfg.pad).length ≤ 2 := length_dec (by omega) (by have := h.pad; omega)
  have h₃ : (if cfg.rst then cfg.rstLine.getD "on".toList else "off".toList).length ≤ 31 := by
    split_ifs with hr
    · cases hl : cfg.rstLine with
      | none => decide
      | some name => exact h.rst name hl hr
    · decide
  have h₄ := length_dec_u64 g.io.nReads
  have h₅ := length_dec_u64 g.io.nWrites
  have h₆ := length_dec_u64 g.io.nIoErr
  have h₇ := length_dec_u64 g.io.lint.nWarns
  have h₈ : (decInt g.pool.count).length ≤ 3 := by
    rw [decInt, if_neg (by omega)]
    exact length_dec (by omega) (by omega)
  have h₉ : (dec ((g.claim.owner.map fun c => (g.cl c).id.toNat).getD 0)).length ≤ 10 := by
    cases g.claim.owner with
    | none => exact length_dec (by omega) (show 0 < 10 ^ 10 by omega)
    | some c => exact length_dec_u32 _
  have h₁₀ : (dec g.mbInflight.toNat).length ≤ 1 := by
    cases g.mbInflight <;> decide
  have e₁ : "dev=".toList.length = 4 := by decide
  have e₂ : " freq=".toList.length = 6 := by decide
  have e₃ : " pad=".toList.length = 5 := by decide
  have e₄ : " rst=".toList.length = 5 := by decide
  have e₅ : " reads=".toList.length = 7 := by decide
  have e₆ : " writes=".toList.length = 8 := by decide
  have e₇ : " io_err=".toList.length = 8 := by decide
  have e₈ : " warns=".toList.length = 7 := by decide
  have e₉ : " queued=".toList.length = 8 := by decide
  have e₁₀ : " claim=".toList.length = 7 := by decide
  have e₁₁ : " mb_inflight=".toList.length = 13 := by decide
  have e₁₂ : "\n".toList.length = 1 := by decide
  unfold statsHead
  simp only [List.length_append, e₁, e₂, e₃, e₄, e₅, e₆, e₇, e₈, e₉, e₁₀, e₁₁, e₁₂]
  omega

end Spid

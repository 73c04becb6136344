import SpidevProxy.Lint

set_option relaxedAutoImplicit false
set_option autoImplicit false

/-!
# The rmw-race detector

`g.rd_ring` keeps the last sixteen successful reads of `exec_op`. A write by another client less than
10 ms after such a read is warned about as a lost update: the reader is taken to be between the read and
the write of a read-modify-write. But a client that writes the register back leaves its own entry in the
ring, so that a later write by another client is warned about although nothing can be lost.

Every warning names another client that has read the register within the window. That client has not
written the register back if it writes it at no time while a read of its own, less than 10 ms old, is in
the ring.

## Main definitions

* `Spid.Env.Forward` — the clock does not run backwards.
* `Spid.RegCall.reads`, `Spid.RegCall.writes` — the call successfully reads, or writes, a register for a
  client.
* `Spid.RegCall.Clean` — the call does not write a given register for a given client while a fresh read
  of it by the same client is in the ring.
* `Spid.RdOk` — where an entry of the ring comes from.

## Main results

* `Spid.rdOk_of_steps` — every entry of the ring is a read, and what clean calls have left of it.
* `Spid.rmw_race_sound` — what a rmw-race warning says.
-/

namespace Spid

open History

/-- The clock does not run backwards: `now_us` reads `CLOCK_MONOTONIC`. -/
def Env.Forward (env : Env) : Prop := ∀ ⦃m n : ℕ⦄, m ≤ n → env.clock m ≤ env.clock n

section

variable (env : Env) (cfg : Config)

/-- **A successful read of `exec_op`** of the register for the client with identifier `a`. -/
def RegCall.reads (a : UInt32) (s m : UInt8) (r : UInt16) (k : RegCall) : Bool :=
  k.isOp && k.client.id == a && k.does env cfg false s m r

/-- **A successful write** of the register for the client with identifier `a`, by `exec_op` or by the
mailbox protocol. -/
def RegCall.writes (a : UInt32) (s m : UInt8) (r : UInt16) (k : RegCall) : Bool :=
  k.client.id == a && k.does env cfg true s m r

/-- **The call does not write the register for client `a` while a fresh read of it by `a` is in the
ring.** -/
def RegCall.Clean (a : UInt32) (s m : UInt8) (r : UInt16) (k : RegCall) : Prop :=
  k.writes env cfg a s m r = true → ∀ i, let e := k.pre.io.lint.rdRing i
    e.cid = a → e.slice = s → e.mmd = m → e.reg = r →
      lintRmwWindowUs ≤ env.clock k.pre.io.nClock - e.ts

instance (a : UInt32) (s m : UInt8) (r : UInt16) (k : RegCall) : Decidable (k.Clean env cfg a s m r) := by
  unfold RegCall.Clean
  infer_instance

/-- **Where an entry of the ring comes from**: it is empty, or a read of the client, taken down with its
time, after which the client has not written the register within the window by a clean call. -/
def RdOk (ks : List RegCall) (n : ℕ) (e : RdEnt) : Prop :=
  e.cid = 0 ∨ ∃ pre k₀ post, ks = pre ++ k₀ :: post ∧
    k₀.reads env cfg e.cid e.slice e.mmd e.reg = true ∧ e.ts = k₀.now env ∧
    k₀.pre.io.nClock + 1 ≤ n ∧
    ∀ x ∈ post, k₀.pre.io.nClock + 1 ≤ x.pre.io.nClock ∧ x.pre.io.nClock ≤ n ∧
      (x.Clean env cfg e.cid e.slice e.mmd e.reg →
        x.writes env cfg e.cid e.slice e.mmd e.reg = true →
          lintRmwWindowUs ≤ env.clock x.pre.io.nClock - e.ts)

variable {env cfg}

/-- An entry that stays in the ring during a call. -/
lemma RdOk.keep {ks : List RegCall} {n n' : ℕ} {k : RegCall} {i : Fin 16}
    (h : RdOk env cfg ks n (k.pre.io.lint.rdRing i)) (hn : n ≤ k.pre.io.nClock)
    (hn' : k.pre.io.nClock ≤ n') : RdOk env cfg (ks ++ [k]) n' (k.pre.io.lint.rdRing i) := by
  generalize he : k.pre.io.lint.rdRing i = e at h
  by_cases h0 : e.cid = 0
  · exact Or.inl h0
  obtain ⟨pre, k₀, post, rfl, hr, ht, hk, hpost⟩ := h.resolve_left h0
  refine Or.inr ⟨pre, k₀, post ++ [k], by simp, hr, ht, by omega, fun x hx => ?_⟩
  rcases List.mem_append.mp hx with hx | hx
  · obtain ⟨h₁, h₂, h₃⟩ := hpost x hx
    exact ⟨h₁, by omega, h₃⟩
  · rw [List.mem_singleton.mp hx]
    refine ⟨by omega, hn', fun hclean hwrites => ?_⟩
    subst he
    exact hclean hwrites i rfl rfl rfl rfl

/-- **One call.** -/
lemma RdOk.call {ks : List RegCall} {n : ℕ} {k : RegCall} (hn : n ≤ k.pre.io.nClock)
    (h : ∀ i, RdOk env cfg ks n (k.pre.io.lint.rdRing i))
    (hname : k.isOp = true → k.pre.lctx.cid = k.client.id) (i : Fin 16) :
    RdOk env cfg (ks ++ [k]) (k.post env cfg).io.nClock ((k.post env cfg).io.lint.rdRing i) := by
  obtain ⟨ag, hf⟩ := k.toil env cfg
  have hkeep : RdOk env cfg (ks ++ [k]) (k.post env cfg).io.nClock (k.pre.io.lint.rdRing i) :=
    (h i).keep hn hf.clock
  by_cases hok : k.succeeds env cfg = true
  swap
  · rw [RegCall.lint_post (Bool.eq_false_of_not_eq_true hok)]
    exact hkeep
  obtain ⟨c, hw⟩ := RegCall.work_of_succeeds hok
  obtain ⟨-, hclk, op', es, -, -, -, -, -, hring⟩ :=
    execOp_ok env cfg ((RegCall.succeeds_iff hw).mp hok)
  rw [RegCall.post_op hw] at hkeep ⊢
  rcases hring i with he | he | ⟨hwr, he⟩
  · rw [he]
    exact hkeep
  · exact Or.inl he
  · -- the read that has just been made
    rw [he, hclk]
    have hop := RegCall.isOp_of_succeeds hok
    refine Or.inr ⟨ks, k, [], rfl, ?_, rfl, by omega, by simp⟩
    have hdoes : k.does env cfg false k.op.slice k.op.mmd k.op.reg = true :=
      (RegCall.does_op hw _ _ _ _).mpr ⟨hok, by simp [hwr], rfl, rfl, rfl⟩
    simp [RegCall.reads, hop, hname hop, hdoes]

/-- **Every entry of the ring is a read**, which no clean call has written back within the window. -/
lemma rdOk_of_steps {ks : List RegCall} {g : Daemon} (h : Steps (Goes env cfg) (boot env cfg) ks g)
    (hC : ∀ k ∈ ks, k.isOp = true → k.pre.lctx.cid = k.client.id) :
    ∀ i, RdOk env cfg ks g.io.nClock (g.io.lint.rdRing i) := by
  refine Steps.invariant_on (C := fun k => k.isOp = true → k.pre.lctx.cid = k.client.id)
    (P := fun ks g => ∀ i, RdOk env cfg ks g.io.nClock (g.io.lint.rdRing i)) ?_ ?_ h hC
  · intro i
    rw [(io_boot env cfg).1]
    exact Or.inl rfl
  · rintro ks g k g' - ih ⟨hb, rfl⟩ hname
    refine RdOk.call hb.clock (fun i => ?_) hname
    rw [hb.lint]
    exact ih i

/-- What a rmw-race warning was given for.

**Proof sketch.** A call with a warning succeeds, so its warnings are those of the three detectors,
of which only the third gives this one; it gives it for the first cell of the ring that is a hit. -/
lemma hit_of_rmwRace {k : RegCall} {b a : UInt32} {op : Op} {age : UInt64}
    (h : Warning.rmwRace b op a age ∈ k.warnings env cfg) :
    k.succeeds env cfg = true ∧ k.op.write ≠ 0 ∧ b = k.pre.lctx.cid ∧
    ∃ i, let e := k.pre.io.lint.rdRing i
      a = e.cid ∧ e.cid ≠ 0 ∧ e.cid ≠ k.pre.lctx.cid ∧ e.slice = k.op.slice ∧ e.mmd = k.op.mmd ∧
        e.reg = k.op.reg ∧ k.now env - e.ts < lintRmwWindowUs := by
  have hok : k.succeeds env cfg = true := by
    by_contra hno
    rw [RegCall.warnings_eq_nil (Bool.eq_false_of_not_eq_true hno)] at h
    simp at h
  obtain ⟨c, hw⟩ := RegCall.work_of_succeeds hok
  obtain ⟨op', ⟨hs, hwr, hm, hr⟩, hwarn⟩ := RegCall.warnings_op hw hok
  rw [hwarn, lintWarnings, List.mem_append, List.mem_append] at h
  have hrmw : Warning.rmwRace b op a age ∈ (rmwWarning k.pre (k.now env) op').toList := by
    rcases h with (h | h) | h
    · obtain ⟨_, h⟩ := eq_of_mem_pageWarning (Option.mem_toList.mp h)
      simp at h
    · obtain ⟨_, _, h⟩ := eq_of_mem_corWarning (Option.mem_toList.mp h)
      simp at h
    · exact h
  unfold rmwWarning at hrmw
  split_ifs at hrmw with hwrite
  · cases hfind : (List.finRange 16).find? (rmwHit k.pre (k.now env) op') with
    | none => simp [hfind] at hrmw
    | some i =>
      have hhit := List.find?_some hfind
      simp only [rmwHit, Bool.and_eq_true, decide_eq_true_eq] at hhit
      simp only [hfind, Option.map_some, Option.toList_some, List.mem_singleton,
        Warning.rmwRace.injEq] at hrmw
      refine ⟨hok, by rwa [hwr] at hwrite, hrmw.1, i, hrmw.2.2.1, ?_⟩
      obtain ⟨⟨⟨⟨⟨h₁, h₂⟩, h₃⟩, h₄⟩, h₅⟩, h₆⟩ := hhit
      exact ⟨h₁, h₂, h₃.trans hs, h₄.trans hm, h₅.trans hr, h₆⟩
  · simp at hrmw

/-- Elapsed time, on a clock that does not run backwards. -/
lemma sub_lt_of_le {t₀ t₁ t₂ w : UInt64} (h₁ : t₀ ≤ t₁) (h₂ : t₁ ≤ t₂) (h : t₂ - t₀ < w) :
    t₂ - t₁ < w ∧ ¬w ≤ t₁ - t₀ := by
  have e₁ := UInt64.toNat_sub_of_le t₁ t₀ h₁
  have e₂ := UInt64.toNat_sub_of_le t₂ t₁ h₂
  have e₃ := UInt64.toNat_sub_of_le t₂ t₀ (UInt64.le_trans h₁ h₂)
  rw [UInt64.lt_iff_toNat_lt] at h
  rw [UInt64.le_iff_toNat_le] at h₁ h₂
  rw [UInt64.lt_iff_toNat_lt, UInt64.le_iff_toNat_le]
  omega

/-- **What a rmw-race warning says.** It is given when client `b` writes a register, and names another
client `a`, which has read the same register less than 10 ms before. If the clock does not run backwards
and `a` writes that register at no time while a read of it by `a`, less than 10 ms old, is in the ring,
then `a` has not written the register between its latest read and the write of `b`.

**Proof sketch.** The hit of the detector is an entry of the ring, and so a read of `a` by
`rdOk_of_steps`. A write of `a` since then would lie within the window, for the clock does not run
backwards, and a clean call makes no such write. -/
theorem rmw_race_sound {is : List Input} {ks ks' : List RegCall} {k : RegCall} {b a : UInt32} {op : Op}
    {age : UInt64} (h : calls env cfg is = ks ++ k :: ks')
    (hw : Warning.rmwRace b op a age ∈ k.warnings env cfg) :
    (b = k.client.id ∧ k.does env cfg true k.op.slice k.op.mmd k.op.reg = true ∧ a ≠ b ∧
      ∃ k₀ ∈ ks, k₀.reads env cfg a k.op.slice k.op.mmd k.op.reg = true ∧
        k.now env - k₀.now env < lintRmwWindowUs) ∧
    (env.Forward → (∀ x ∈ ks, x.Clean env cfg a k.op.slice k.op.mmd k.op.reg) →
      ∃ pre k₀ post, ks = pre ++ k₀ :: post ∧
        k₀.reads env cfg a k.op.slice k.op.mmd k.op.reg = true ∧
        k.now env - k₀.now env < lintRmwWindowUs ∧
        ∀ x ∈ post, x.reads env cfg a k.op.slice k.op.mmd k.op.reg = false ∧
          x.writes env cfg a k.op.slice k.op.mmd k.op.reg = false) := by
  obtain ⟨hok, hwrite, hb, i, rfl, h0, hne, hs, hm, hr, hage⟩ := hit_of_rmwRace hw
  obtain ⟨g, hsteps, hbet, -⟩ := steps_of_calls h
  have hnames : ∀ x ∈ calls env cfg is, x.isOp = true → x.pre.lctx.cid = x.client.id :=
    fun x hx hop => (named_of_mem_calls hx hop).ctx
  have hctx : k.pre.lctx.cid = k.client.id :=
    hnames k (by simp [h]) (RegCall.isOp_of_succeeds hok)
  obtain ⟨c, hwork⟩ := RegCall.work_of_succeeds hok
  have hdoes : k.does env cfg true k.op.slice k.op.mmd k.op.reg = true :=
    (RegCall.does_op hwork _ _ _ _).mpr ⟨hok, by simp [hwrite], rfl, rfl, rfl⟩
  -- the entry is a read of that client
  have hring := rdOk_of_steps hsteps (fun x hx => hnames x (by simp [h, hx])) i
  rw [← hbet.lint] at hring
  obtain ⟨pre, k₁, post, hks, hread, ht, hk, hpost⟩ := hring.resolve_left h0
  rw [hs, hm, hr] at hread
  rw [hs, hm, hr, ht] at hpost
  rw [ht] at hage
  refine ⟨⟨hb.trans hctx, hdoes, by rw [hb]; exact hne, k₁, by simp [hks], hread, hage⟩,
    fun hclock hclean => ?_⟩
  have hclk := hbet.clock
  have hlast : env.clock (k₁.pre.io.nClock + 1) ≤ k.now env := hclock (by omega)
  -- it has not been written back since
  have hnw : ∀ x ∈ post, x.writes env cfg (k.pre.io.lint.rdRing i).cid k.op.slice k.op.mmd k.op.reg =
      false := by
    intro x hx
    obtain ⟨h₁, h₂, h₃⟩ := hpost x hx
    by_contra hc
    refine (sub_lt_of_le (hclock h₁) ?_ hage).2 (h₃ (hclean x (by simp [hks, hx]))
      (Bool.eq_true_of_not_eq_false hc))
    exact hclock (by omega)
  -- and so is the latest read of that client
  cases hl : latest (RegCall.reads env cfg (k.pre.io.lint.rdRing i).cid k.op.slice k.op.mmd k.op.reg)
      post with
  | none =>
    refine ⟨pre, k₁, post, hks, hread, hage, fun x hx => ⟨latest_eq_none_iff.mp hl x hx, hnw x hx⟩⟩
  | some k₀ =>
    obtain ⟨p₁, p₂, rfl, hread₀, hp₂⟩ := latest_eq_some_iff.mp hl
    obtain ⟨h₁, h₂, -⟩ := hpost k₀ (by simp)
    refine ⟨pre ++ k₁ :: p₁, k₀, p₂, by rw [hks]; simp, hread₀, ?_, fun x hx => ⟨hp₂ x hx,
      hnw x (by simp [hx])⟩⟩
    exact (sub_lt_of_le (hclock (show k₁.pre.io.nClock + 1 ≤ k₀.pre.io.nClock + 1 by omega))
      (hclock (show k₀.pre.io.nClock + 1 ≤ k.pre.io.nClock + 1 by omega)) hage).1

end

/-- Client 0 reads a register, and then client 1 writes it. -/
def lostUpdate : List Input :=
  connects [(7, ['a']), (8, ['b'])] ++
    [⟨[.client 0 (datagram .read 0 1 [0, 0, 0x1e, 0, 0x10, 0, 0, 0, 0, 0, 0, 0]),
      .client 1 (datagram .write 0 1 [0, 1, 0x1e, 0, 0x10, 0, 0, 0, 2, 0, 0, 0])], 64⟩, .none, .none]

/-- Two calls are made. -/
lemma length_calls_lostUpdate : 1 < (calls (Env.still 0) Config.plain lostUpdate).length := by
  decide +kernel

/-- The theorem at the write, which is warned about. -/
theorem rmw_race_sound_lostUpdate :
    ∃ ks k ks', calls (Env.still 0) Config.plain lostUpdate = ks ++ k :: ks' ∧
      Warning.rmwRace 2 ⟨0, 1, 0x1e, 0, 0x10, 0, 2⟩ 1 0 ∈ k.warnings (Env.still 0) Config.plain ∧
      ∃ pre k₀ post, ks = pre ++ k₀ :: post ∧
        k₀.reads (Env.still 0) Config.plain 1 k.op.slice k.op.mmd k.op.reg = true ∧
        ∀ x ∈ post, x.writes (Env.still 0) Config.plain 1 k.op.slice k.op.mmd k.op.reg = false := by
  have hsplit := calls_eq_of_lt (Env.still 0) Config.plain length_calls_lostUpdate
  have hwarn : Warning.rmwRace 2 ⟨0, 1, 0x1e, 0, 0x10, 0, 2⟩ 1 0 ∈ ((calls (Env.still 0) Config.plain
      lostUpdate).get ⟨1, length_calls_lostUpdate⟩).warnings (Env.still 0) Config.plain := by
    decide +kernel
  have hforward : (Env.still 0).Forward := fun _ _ _ => UInt64.le_refl _
  obtain ⟨-, hsound⟩ := rmw_race_sound hsplit hwarn
  obtain ⟨pre, k₀, post, hks, hread, -, hpost⟩ := hsound hforward (by decide +kernel)
  exact ⟨_, _, _, hsplit, hwarn, pre, k₀, post, hks, hread, fun x hx => (hpost x hx).2⟩

/-- Client 0 reads a register and writes it back, and then client 1 writes it. -/
def writtenBack : List Input :=
  connects [(7, ['a']), (8, ['b'])] ++
    [⟨[.client 0 (datagram .read 0 1 [0, 0, 0x1e, 0, 0x10, 0, 0, 0, 0, 0, 0, 0])], 64⟩, .none, .none,
    ⟨[.client 0 (datagram .write 0 2 [0, 1, 0x1e, 0, 0x10, 0, 0, 0, 1, 0, 0, 0]),
      .client 1 (datagram .write 0 1 [0, 1, 0x1e, 0, 0x10, 0, 0, 0, 2, 0, 0, 0])], 64⟩, .none, .none]

/-- The write of client 1 is warned about, naming client 0, whose identifier is 1, although that has
written the register back between its only read and the write of client 1. -/
theorem rmw_race_after_write_back :
    (calls (Env.still 0) Config.plain writtenBack).map
      (fun k => (k.reads (Env.still 0) Config.plain 1 0 0x1e 0x10,
        k.writes (Env.still 0) Config.plain 1 0 0x1e 0x10,
        k.warnings (Env.still 0) Config.plain)) =
      [(true, false, []), (false, true, []),
        (false, false, [.rmwRace 2 ⟨0, 1, 0x1e, 0, 0x10, 0, 2⟩ 1 0])] := by
  decide +kernel

end Spid

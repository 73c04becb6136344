import SpidevProxy.Calls
import SpidevProxy.Texts

set_option relaxedAutoImplicit false
set_option autoImplicit false

/-!
# Answers and the message buffer

`send_resp` copies the body of an answer behind a header, into a buffer with room for 4096 bytes. The
bodies of `STATS` and `TRACE` are printed with `snprintf`, which returns the length that the text would
have had; the sum of these lengths is subtracted from the size of the buffer, and is the length of the
body. `TRACE` checks that a line fits before it prints one. `STATS` does not, and the path of the device
that it prints may have any length.

## Main definitions

* `Spid.NoOverrun` — the bodies that a step sends fit in a message, and each `snprintf` of the step gets a
  place inside the buffer and a size that has not wrapped.
* `Spid.Terse` — work that sends bodies that fit.

## Main results

* `Spid.noOverrun_iff` — one step.
* `Spid.responses_fit` — every step, and every run with a path that is short enough.
-/

namespace Spid

open Bytes

/-! ## What is printed and what is sent -/

/-- The buffers on which the loop of `TRACE` calls `snprintf`. -/
def traceBuffers (io : Io) : ℕ → ℕ → Txt → List Txt
  | 0, _, _ => []
  | k + 1, w, t =>
    if t.len < msgMax - 64 then
      t :: traceBuffers io k (w + 1) (t.snprintf (traceLine (io.ring (Fin.ofNat 1024 (w % 1024)))))
    else []

/-- One more round of the loop of `TRACE`. -/
lemma traceBuffers_succ (io : Io) (k w : ℕ) (t : Txt) : traceBuffers io (k + 1) w t =
    if t.len < msgMax - 64 then
      t :: traceBuffers io k (w + 1) (t.snprintf (traceLine (io.ring (Fin.ofNat 1024 (w % 1024)))))
    else [] :=
  rfl

/-- The buffers on which `exec_item` calls `snprintf`. -/
def itemBuffers (cfg : Config) (g : Daemon) (it : Ptr) : List Txt :=
  match MsgType.ofCode (g.item it).hdr.type with
  | some .stats => Txt.empty.buffers (statsLines cfg g)
  | some .trace =>
    let w := g.io.ringW.toNat
    let start := if 64 < w then w - 64 else 0
    traceBuffers g.io (w - start) start Txt.empty
  | _ => []

/-- The buffers on which a step calls `snprintf`. -/
def stepBuffers (cfg : Config) (g : Daemon) : List Txt :=
  match executing g with
  | some (it, g') => itemBuffers cfg g' it
  | none => []

/-- The body of an answer. -/
def Event.body : Event → Option (List UInt8)
  | .send _ _ _ _ _ _ body => some body
  | _ => none

/-- The bodies that a step hands to `send_resp`. -/
def sentBodies (env : Env) (cfg : Config) (i : Input) (g : Daemon) : List (List UInt8) :=
  (since g (step env cfg i g)).filterMap Event.body

/-- **A step does not overrun a buffer.** -/
structure NoOverrun (env : Env) (cfg : Config) (i : Input) (g : Daemon) : Prop where
  bodies : ∀ body ∈ sentBodies env cfg i g, body.length ≤ msgMax
  room : ∀ t ∈ stepBuffers cfg g, t.Fits

/-! ## Short answers -/

/-- An answer fits in a message, or it is a text in `B`. -/
def Event.Short (B : List UInt8 → Prop) : Event → Prop
  | .send _ _ _ _ _ _ body => body.length ≤ msgMax ∨ B body
  | _ => True

/-- Register accesses answer nothing. -/
lemma Event.By.short {B : List UInt8 → Prop} {ag : Agent} {ctx : LogCtx} {e : Event} (h : e.By ag ctx) :
    e.Short B := by
  cases e <;> trivial

/-- A name that `accept_client` gives to a client: its process, and at most 19 characters. -/
def Client.NamedIn (S : ℤ → Prop) (x : Client) : Prop := S x.pid ∧ x.comm.length ≤ 19

/-- `send_resp` leaves the names of the clients alone. -/
lemma names_sendResp (env : Env) (g : Daemon) (rid : ℕ) (c : Slot) (req : Hdr) (st : Status)
    (body : List UInt8) (d : Slot) :
    ((sendResp env g rid c req st body).cl d).pid = (g.cl d).pid ∧
      ((sendResp env g rid c req st body).cl d).comm = (g.cl d).comm := by
  unfold sendResp
  dsimp only
  split_ifs
  · exact ⟨rfl, rfl⟩
  · by_cases hd : d = c
    · subst hd
      simp [Daemon.setClient, Daemon.emit]
    · simp [Daemon.setClient, Daemon.emit, hd]

/-- **Work that sends bodies that fit or are allowed**, and in which clients keep their names or get one,
the process being allowed. -/
structure Terse (T : Scope) (g g' : Daemon) : Prop where
  evs : ∃ es, g'.evs = g.evs ++ es ∧ ∀ e ∈ es, e.Short T.text
  names : ∀ c, ((g'.cl c).pid = (g.cl c).pid ∧ (g'.cl c).comm = (g.cl c).comm) ∨ (g'.cl c).NamedIn T.pid

/-- The name that `accept_client` gives has at most 19 characters. -/
lemma length_commOf (line : Text) : (commOf line).length ≤ 19 := by
  unfold commOf
  dsimp only
  split_ifs
  · decide
  · exact ((List.takeWhile_sublist _).length_le).trans (List.length_take_le 19 line)

namespace Terse

variable {env : Env} {cfg : Config} {T : Scope} {g g₁ g₂ : Daemon}

/-- Work that leaves the clients alone. -/
lemma of_cl (es : List Event) (he : g₁.evs = g.evs ++ es) (hs : ∀ e ∈ es, e.Short T.text)
    (hcl : g₁.cl = g.cl) : Terse T g g₁ :=
  ⟨⟨es, he, hs⟩, fun c => by rw [hcl]; exact Or.inl ⟨rfl, rfl⟩⟩

/-- Work without events that leaves the clients alone. -/
lemma of_eq (he : g₁.evs = g.evs) (hcl : g₁.cl = g.cl) : Terse T g g₁ :=
  of_cl [] (by rw [he, List.append_nil]) (by simp) hcl

/-- No work. -/
lemma refl (g : Daemon) : Terse T g g := of_eq rfl rfl

/-- One piece of work after another. -/
lemma trans (h : Terse T g g₁) (h' : Terse T g₁ g₂) : Terse T g g₂ where
  evs := by
    obtain ⟨es, he, hP⟩ := h.evs
    obtain ⟨es', he', hP'⟩ := h'.evs
    refine ⟨es ++ es', by rw [he', he, List.append_assoc], fun e hm => ?_⟩
    rcases List.mem_append.mp hm with hm | hm
    · exact hP e hm
    · exact hP' e hm
  names := by
    intro c
    rcases h'.names c with ⟨hp, hn⟩ | hn
    · rw [hp, hn]
      rcases h.names c with hs | hs
      · exact Or.inl hs
      · exact Or.inr (by unfold Client.NamedIn; rw [hp, hn]; exact hs)
    · exact Or.inr hn

/-- A change of one client that keeps its name. -/
lemma setClient {c : Slot} {x : Client} (hp : x.pid = (g.cl c).pid) (hc : x.comm = (g.cl c).comm) :
    Terse T g (g.setClient c x) := by
  refine ⟨⟨[], (List.append_nil _).symm, by simp⟩, fun d => Or.inl ?_⟩
  by_cases hd : d = c
  · subst hd
    simpa [Daemon.setClient] using ⟨hp, hc⟩
  · simp [Daemon.setClient, hd]

/-- **`accept_client`** gives a name to a client. -/
lemma acceptClient (g : Daemon) {pid : ℤ} (hp : T.pid pid) (line : Text) :
    Terse T g (acceptClient g pid line) := by
  unfold Spid.acceptClient
  split
  · exact refl g
  · rename_i c _
    dsimp only
    refine ⟨⟨[.connect c g.nConn], rfl, by simp [Event.Short]⟩, fun d => ?_⟩
    by_cases hd : d = c
    · subst hd
      exact Or.inr (by simpa [Client.NamedIn, Daemon.setClient, Daemon.emit] using ⟨hp, length_commOf line⟩)
    · exact Or.inl (by simp [Daemon.setClient, Daemon.emit, hd])

/-- **Every deed.** -/
lemma of_deed (h : Deed env T g g₁) : Terse T g g₁ := by
  cases h with
  | @send rid c req st body hb =>
    exact ⟨⟨_, (sendResp_spec env g rid c req st body).1, by simpa [Event.Short] using hb⟩,
      fun d => Or.inl (names_sendResp env g rid c req st body d)⟩
  | receive c msg =>
    have hev : Terse T g ({ g with nRecv := g.nRecv + 1 }.emit (.recv g.nRecv c (g.cl c).fd msg)) :=
      of_cl [.recv g.nRecv c (g.cl c).fd msg] rfl (by simp [Event.Short]) rfl
    unfold receive
    dsimp only
    split_ifs
    · exact hev.trans (setClient rfl rfl)
    · exact hev
  | accept hp line => exact acceptClient g hp line
  | close c => exact setClient rfl rfl
  | clock => exact of_eq rfl rfl
  | @event e he =>
    refine of_cl [e] rfl (fun e' he' => ?_) rfl
    rw [List.mem_singleton.mp he']
    cases e <;> trivial
  | other hio hcl hn => exact of_eq (by rw [Daemon.evs, hio]; rfl) hcl

/-- Register work. -/
lemma of_regDeeds {ag : Agent} (h : RegDeeds env cfg ag g g₁) : Terse T g g₁ := by
  obtain ⟨es, he, hP⟩ := h.toil.evs
  exact of_cl es he (fun e hm => (hP e hm).short) h.cl_eq

/-- **Every walk.** -/
lemma of_walk {ks : List RegCall} (h : Walk env cfg T g ks g₁) : Terse T g g₁ := by
  induction h with
  | refl => exact refl g
  | deed _ hd ih => exact ih.trans (of_deed hd)
  | call _ hk _ ih => exact ih.trans (of_regDeeds (RegCall.regDeeds env cfg hk))
  | ops _ hw ih => exact (ih.trans (of_regDeeds hw.regDeeds)).trans (setClient rfl rfl)

end Terse

/-! ## The texts -/

/-- The loop of `TRACE` checks that a line fits before it prints it. -/
lemma traceLoop_fits (io : Io) : ∀ (k w : ℕ) (t : Txt), t.len ≤ msgMax →
    (traceLoop io k w t).len ≤ msgMax ∧ ∀ b ∈ traceBuffers io k w t, b.Fits := by
  have hm : msgMax = 4096 := rfl
  intro k
  induction k with
  | zero => exact fun _ t ht => ⟨ht, fun b hb => absurd hb (List.not_mem_nil)⟩
  | succ k ih =>
    intro w t ht
    rw [traceLoop_succ, traceBuffers_succ]
    split_ifs with hl
    · have hline := (length_traceLine (io.ring (Fin.ofNat 1024 (w % 1024)))).1
      obtain ⟨h₁, h₂⟩ := ih (w + 1) (t.snprintf (traceLine (io.ring (Fin.ofNat 1024 (w % 1024)))))
        (by rw [Txt.len_snprintf]; omega)
      refine ⟨h₁, fun b hb => ?_⟩
      rcases List.mem_cons.mp hb with rfl | hb
      · exact (Txt.fits_iff_lt b (by omega)).mpr (by omega)
      · exact h₂ b hb
    · exact ⟨ht, by simp⟩

section

variable {env : Env} {cfg : Config} {g g' : Daemon} {it : Ptr}

/-- `STATS` is answered with its text. -/
lemma execItem_stats (h : MsgType.ofCode (g.item it).hdr.type = some .stats) :
    execItem env cfg g it =
      (none, reply env { g with lctx := g.logFor it } it .ok (statsText cfg g).bytes) := by
  unfold execItem
  dsimp only
  rw [h]
  rfl

/-- So is `TRACE`. -/
lemma execItem_trace (h : MsgType.ofCode (g.item it).hdr.type = some .trace) :
    execItem env cfg g it =
      (none, reply env { g with lctx := g.logFor it } it .ok (traceText g.io).bytes) := by
  unfold execItem
  dsimp only
  rw [h]
  rfl

/-- The bodies that a step sends are those in the events that it adds. -/
lemma sentBodies_eq {i : Input} {es : List Event} (h : (step env cfg i g).evs = g.evs ++ es) :
    sentBodies env cfg i g = es.filterMap Event.body := by
  rw [sentBodies, since_eq h]

/-- A request that is answered at once has one answer. -/
lemma sentBodies_of_reply {st : Status} {body : List UInt8} (i : Input)
    (h : executing g = some (it, g')) (hx : execItem env cfg g' it =
      (none, reply env { g' with lctx := g'.logFor it } it st body)) :
    sentBodies env cfg i g = [body] := by
  obtain ⟨budget, rest, pool, -, -, -, rfl⟩ := executing_eq_some h
  set g' := picked g budget it pool with hg'
  have hev : (step env cfg i g).evs = g.evs ++ [.dispatch (g'.entry it) (g'.bodyOf it) g'.claim.owner
      g'.waiting g'.queued, .send (g'.item it).rid (g'.item it).c (g'.cl (g'.item it).c).fd
      ((g'.item it).hdr.type ||| respBit) st (g'.item it).hdr.seq body] := by
    rw [step_of_executing env cfg i h, evs_settle, hx]
    refine (sendResp_spec env { g' with lctx := g'.logFor it } (g'.item it).rid (g'.item it).c
      (g'.item it).hdr st body).1.trans ?_
    change (g.evs ++ [_]) ++ [_] = _
    rw [List.append_assoc]
    rfl
  rw [sentBodies_eq hev]
  rfl

/-- The text of `STATS` and the places at which it is printed fit just when all its lines do. -/
lemma statsText_fits_iff (cfg : Config) (g : Daemon) :
    ((∀ b ∈ Txt.empty.buffers (statsLines cfg g), b.Fits) ∧ (statsText cfg g).len ≤ msgMax) ↔
      Txt.width (statsLines cfg g) ≤ msgMax := by
  have h : ((∀ b ∈ Txt.empty.buffers (statsLines cfg g), b.Fits) ∧
      (Txt.empty.prints (statsLines cfg g)).len ≤ msgMax) ↔
      Txt.empty.len + Txt.width (statsLines cfg g) ≤ msgMax :=
    Txt.fits_iff fun s hm => ne_nil_of_mem_statsLines hm
  rwa [← statsText_eq, show Txt.empty.len = 0 from rfl, Nat.zero_add] at h

/-- The text of `TRACE` fits, and so do the places at which it is printed. -/
lemma traceText_fits (io : Io) : (traceText io).len ≤ msgMax ∧
    ∀ b ∈ traceBuffers io (io.ringW.toNat - if 64 < io.ringW.toNat then io.ringW.toNat - 64 else 0)
      (if 64 < io.ringW.toNat then io.ringW.toNat - 64 else 0) Txt.empty, b.Fits :=
  traceLoop_fits io _ _ Txt.empty (Nat.zero_le _)

variable (env) in
/-- **A step in which `STATS` is short** sends short bodies. -/
lemma sentBodies_fit (i : Input) (h : ∀ it g', executing g = some (it, g') →
    MsgType.ofCode (g'.item it).hdr.type = some .stats → Txt.width (statsLines cfg g') ≤ msgMax) :
    ∀ body ∈ sentBodies env cfg i g, body.length ≤ msgMax := by
  have hwalk : Walk env cfg ⟨fun text => text.length ≤ msgMax, fun _ => True⟩ g
      (stepCalls env cfg i g) (step env cfg i g) := by
    refine walk_step (fun e _ => e.pidIn_all) fun it g' text hex hp => ?_
    rcases hp with ⟨hk, rfl⟩ | ⟨-, rfl⟩
    · change (statsText cfg g').bytes.length ≤ msgMax
      rw [Txt.length_bytes]
      exact ((statsText_fits_iff cfg g').mpr (h it g' hex hk)).2
    · change (traceText g'.io).bytes.length ≤ msgMax
      rw [Txt.length_bytes]
      exact (traceText_fits g'.io).1
  obtain ⟨es, he, hP⟩ := (Terse.of_walk hwalk).evs
  intro body hm
  rw [sentBodies_eq he] at hm
  obtain ⟨e, hm, hbody⟩ := List.mem_filterMap.mp hm
  have hs := hP e hm
  cases e with
  | send rid c fd type st seq b =>
    obtain rfl := Option.some.inj hbody
    exact hs.elim id id
  | _ => simp [Event.body] at hbody

/-- The buffers of a step that executes an item are those of the item. -/
lemma stepBuffers_eq (h : executing g = some (it, g')) : stepBuffers cfg g = itemBuffers cfg g' it := by
  unfold stepBuffers
  rw [h]

/-- **A step in which `STATS` is short** calls `snprintf` on places inside the buffer. -/
lemma stepBuffers_fit (h : ∀ it g', executing g = some (it, g') →
    MsgType.ofCode (g'.item it).hdr.type = some .stats → Txt.width (statsLines cfg g') ≤ msgMax) :
    ∀ t ∈ stepBuffers cfg g, t.Fits := by
  intro t hm
  unfold stepBuffers at hm
  split at hm
  · rename_i it g' hex
    unfold itemBuffers at hm
    split at hm
    · exact ((statsText_fits_iff cfg g').mpr (h it g' hex ‹_›)).1 t hm
    · exact (traceText_fits g'.io).2 t hm
    · simp at hm
  · simp at hm

/-- **One step**: a buffer is overrun just when `STATS` is executed and its lines have more than 4096
characters. -/
lemma noOverrun_iff (env : Env) (cfg : Config) (i : Input) (g : Daemon) :
    NoOverrun env cfg i g ↔ ∀ it g', executing g = some (it, g') →
      MsgType.ofCode (g'.item it).hdr.type = some .stats → Txt.width (statsLines cfg g') ≤ msgMax := by
  refine ⟨fun h it g' hex hk => ?_, fun h => ⟨sentBodies_fit env i h, stepBuffers_fit h⟩⟩
  have hroom := h.room
  have hbody := h.bodies (statsText cfg g').bytes (by
    rw [sentBodies_of_reply i hex (execItem_stats hk)]
    exact List.mem_singleton_self _)
  rw [stepBuffers_eq hex, itemBuffers, hk] at hroom
  rw [Txt.length_bytes] at hbody
  exact (statsText_fits_iff cfg g').mp ⟨hroom, hbody⟩

/-! ## Runs -/

/-- The range of `int`. -/
def IntRange (z : ℤ) : Prop := -2147483648 ≤ z ∧ z ≤ 2147483647

variable (env cfg g) in
/-- A step leaves the names of the clients alone, or gives new ones. -/
lemma names_step {S : ℤ → Prop} {i : Input} (hi : ∀ e ∈ i.evs, e.PidIn S) (c : Slot) :
    (((step env cfg i g).cl c).pid = (g.cl c).pid ∧ ((step env cfg i g).cl c).comm = (g.cl c).comm) ∨
      ((step env cfg i g).cl c).NamedIn S := by
  have hwalk : Walk env cfg ⟨fun _ => True, S⟩ g (stepCalls env cfg i g) (step env cfg i g) :=
    walk_step hi fun _ _ _ _ _ => trivial
  exact (Terse.of_walk hwalk).names c

/-- Along a run the names of the clients are those that `accept_client` gives. -/
lemma namedIn_run (env : Env) (cfg : Config) {S : ℤ → Prop} (h₀ : S 0) {is : List Input}
    (hi : ∀ j ∈ is, ∀ e ∈ j.evs, e.PidIn S) (c : Slot) : ((run env cfg is).cl c).NamedIn S := by
  have key : ∀ (is : List Input) (g : Daemon), (∀ j ∈ is, ∀ e ∈ j.evs, e.PidIn S) →
      (g.cl c).NamedIn S → ((is.foldl (fun g i => step env cfg i g) g).cl c).NamedIn S := by
    intro is
    induction is with
    | nil => exact fun _ _ h => h
    | cons i is ih =>
      intro g hi h
      refine ih _ (fun j hj => hi j (List.mem_cons_of_mem _ hj)) ?_
      rcases names_step env cfg g (hi i List.mem_cons_self) c with ⟨hp, hn⟩ | hn
      · unfold Client.NamedIn
        rw [hp, hn]
        exact h
      · exact hn
  exact key is _ hi ⟨h₀, by simp [boot]⟩

/-- The counter of queued items has at most three digits. -/
lemma WF.count_lt {out : List Ptr} (h : WF g out) : 0 ≤ g.pool.count ∧ g.pool.count < 1000 := by
  obtain ⟨free, hr⟩ := h.rep
  have h₀ := hr.length_queue_le 0
  have h₁ := hr.length_queue_le 1
  have h₂ := hr.length_queue_le 2
  rw [hr.count_eq, Fin.sum_univ_three]
  omega

/-- **All lines of `STATS`** have at most 2312 characters besides the path. -/
lemma width_statsLines (hcfg : cfg.Accepted) (hq : 0 ≤ g.pool.count ∧ g.pool.count < 1000)
    (hn : ∀ c, (g.cl c).NamedIn IntRange) :
    Txt.width (statsLines cfg g) ≤ cfg.dev.length + 2312 := by
  have hhead := length_statsHead hcfg hq
  have hclients : Txt.width (((List.finRange 16).filter fun c => (g.cl c).used).map fun c =>
      statsClient (g.cl c)) ≤ 16 * 131 := by
    refine (Txt.width_le (n := 131) fun s hs => ?_).trans (Nat.mul_le_mul_right 131 ?_)
    · obtain ⟨c, -, rfl⟩ := List.mem_map.mp hs
      exact length_statsClient (hn c).2 (hn c).1
    · rw [List.length_map]
      exact (List.length_filter_le _ _).trans (by simp)
  unfold statsLines
  rw [Txt.width_cons]
  omega

/-- **Answers and the message buffer.** A step hands a body of more than 4096 bytes to `send_resp`, or a
place outside the buffer or a size that has wrapped to `snprintf`, just when it executes a `STATS` all
lines of which together have more than 4096 characters. With options that `main` accepts and a path of at
most 1784 characters this happens in no run. -/
theorem responses_fit (env : Env) (cfg : Config) :
    (∀ i g, NoOverrun env cfg i g ↔ ∀ it g', executing g = some (it, g') →
      MsgType.ofCode (g'.item it).hdr.type = some .stats → Txt.width (statsLines cfg g') ≤ 4096) ∧
    (cfg.Accepted → cfg.dev.length ≤ 1784 → ∀ is : List Input,
      (∀ j ∈ is, ∀ e ∈ j.evs, e.PidIn IntRange) → ∀ i, NoOverrun env cfg i (run env cfg is)) := by
  refine ⟨noOverrun_iff env cfg, fun hcfg hdev is hi i => (noOverrun_iff env cfg i _).mpr ?_⟩
  intro it g' hex _
  obtain ⟨budget, rest, pool, hs, -, ht, rfl⟩ := executing_eq_some hex
  have hwf := (take_sim cfg.rst (Reachable.run env cfg is).good.wf hs ht).1
  have hn : ∀ c, ((picked (run env cfg is) budget it pool).cl c).NamedIn IntRange :=
    namedIn_run env cfg (by unfold IntRange; omega) hi
  have hw := width_statsLines hcfg hwf.count_lt hn
  have hm : msgMax = 4096 := rfl
  omega

end

/-- Two clients are connected, and `drain_queues` is about to pick the `STATS` of the second. -/
def shortStats : Daemon :=
  run (Env.still 0) Config.plain
    (connects [(7, ['a']), (8, ['b'])] ++ [⟨[.client 1 (datagram .stats 0 1 [])], 64⟩])

/-- The theorem at this run, whose path has 14 characters. -/
theorem responses_fit_shortStats :
    (executing shortStats).map (fun p => MsgType.ofCode (p.2.item p.1).hdr.type) = some (some .stats) ∧
      Config.plain.Accepted ∧ Config.plain.dev.length = 14 ∧
      NoOverrun (Env.still 0) Config.plain .none shortStats := by
  have hlen : Config.plain.dev.length = 14 := by decide
  have hacc : Config.plain.Accepted :=
    ⟨by rw [hlen]; decide, by decide, by decide, fun name h _ => absurd (show none = some name from h) nofun⟩
  have hpid : ∀ j ∈ connects [(7, ['a']), (8, ['b'])] ++
      [⟨[.client 1 (datagram .stats 0 1 [])], 64⟩], ∀ e ∈ j.evs, e.PidIn IntRange := by
    simp [connects, Input.none, EpollEvent.PidIn, IntRange]
  refine ⟨by decide +kernel, hacc, hlen, ?_⟩
  exact (responses_fit (Env.still 0) Config.plain).2 hacc (by rw [hlen]; decide) _ hpid .none

/-! ## A long path -/

/-- The daemon started on a device with a path of 4094 characters, which `open` takes: no component of it
is long. -/
def Config.longPath : Config :=
  { Config.plain with
    dev := "/dev/".toList ++ (List.replicate 2040 "./".toList).flatten ++ "spidev0.0".toList }

/-- The length of the path. -/
lemma length_dev_longPath : Config.longPath.dev.length = 4094 := by
  have h₁ : "/dev/".toList.length = 5 := by decide
  have h₂ : "./".toList.length = 2 := by decide
  have h₃ : "spidev0.0".toList.length = 9 := by decide
  rw [Config.longPath, List.length_append, List.length_append, List.length_flatten, List.map_replicate,
    List.sum_replicate_nat, h₁, h₂, h₃]

/-- A client has sent `STATS`, and `drain_queues` is about to pick it. -/
def statsQueued : Daemon :=
  run (Env.still 0) Config.longPath
    (connects [(7, ['a'])] ++ [⟨[.client 0 (datagram .stats 0 1 [])], 64⟩])

/-- `main` accepts it. -/
lemma accepted_longPath : Config.longPath.Accepted where
  dev := by rw [length_dev_longPath]; decide
  freq := by decide
  pad := by decide
  rst := fun name h _ => absurd (show none = some name from h) (by simp)

/-- The path alone fills the buffer. -/
lemma length_statsHead_longPath (g : Daemon) : 4096 < (statsHead Config.longPath g).length := by
  have h₁ : "dev=".toList.length = 4 := by decide
  unfold statsHead
  simp only [List.length_append, length_dev_longPath, h₁]
  omega

/-- The `STATS` that it picks. -/
lemma executing_statsQueued : ∃ it g', executing statsQueued = some (it, g') ∧
    MsgType.ofCode (g'.item it).hdr.type = some .stats ∧ (g'.cl 0).used = true ∧ g'.pool.count = 0 := by
  have h : (executing statsQueued).map (fun p => (MsgType.ofCode (p.2.item p.1).hdr.type,
      (p.2.cl 0).used, p.2.pool.count)) = some (some .stats, true, 0) := by decide +kernel
  obtain ⟨⟨it, g'⟩, hex, h⟩ := Option.map_eq_some_iff.mp h
  obtain ⟨hk, h⟩ := Prod.mk.inj h
  obtain ⟨hu, hc⟩ := Prod.mk.inj h
  exact ⟨it, g', hex, hk, hu, hc⟩

/-- **With a long path `STATS` hands more than 4096 bytes to `send_resp`**, which copies them into the
message buffer, and the size that the second `snprintf` gets has wrapped. -/
theorem stats_overruns : Config.longPath.Accepted ∧
    (∃ body ∈ sentBodies (Env.still 0) Config.longPath .none statsQueued, 4096 < body.length) ∧
    ∃ t ∈ stepBuffers Config.longPath statsQueued, 4096 < t.room := by
  obtain ⟨it, g', hex, hk, hu, hc⟩ := executing_statsQueued
  have hlong := length_statsHead_longPath g'
  have hbound : (statsHead Config.longPath g').length ≤ 4310 := by
    have h := length_statsHead accepted_longPath (g := g') (by omega)
    rwa [length_dev_longPath] at h
  refine ⟨accepted_longPath, ⟨(statsText Config.longPath g').bytes, ?_, ?_⟩,
    Txt.empty.snprintf (statsHead Config.longPath g'), ?_, ?_⟩
  · rw [sentBodies_of_reply .none hex (execItem_stats hk)]
    exact List.mem_singleton_self _
  · rw [Txt.length_bytes, statsText_eq, Txt.len_prints, statsLines, Txt.width_cons]
    omega
  · -- the client has a line of its own, so that there is a second call
    obtain ⟨c, cs, hcs⟩ : ∃ c cs, ((List.finRange 16).filter fun c => (g'.cl c).used) = c :: cs := by
      refine List.exists_cons_of_ne_nil fun hnil => ?_
      have := List.filter_eq_nil_iff.mp hnil 0 (List.mem_finRange 0)
      exact this hu
    rw [stepBuffers_eq hex, itemBuffers, hk]
    dsimp only
    rw [statsLines, hcs, List.map_cons, Txt.buffers, Txt.buffers]
    exact List.mem_cons_of_mem _ List.mem_cons_self
  · have hlen : (Txt.empty.snprintf (statsHead Config.longPath g')).len =
        (statsHead Config.longPath g').length := Nat.zero_add _
    have hm : msgMax = 4096 := rfl
    unfold Txt.room
    rw [hlen, hm]
    omega

end Spid

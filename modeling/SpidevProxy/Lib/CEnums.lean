import Mathlib.Data.List.Forall2
import SpidevProxy.Lib.Numeral

set_option relaxedAutoImplicit false
set_option autoImplicit false

/-!
# C headers that declare enumerations

A reader for headers that consist of `enum` declarations inside an include guard: comments, words
and punctuation of a line, the directives of the guard, and the declarations. It reports the
enumerators of each declaration with their values. A header with anything else (a literal, another
directive, an enumerator without a value) is not read.

An object-like macro without a replacement, such as the one of an include guard, makes its name
disappear from the lines that follow.

## Main definitions

* `CEnums.lexLines` — the words and punctuation of each line, without comments.
* `CEnums.preprocess` — the lines without directives and without the names of macros.
* `CEnums.Reader` — the state of the reader between two tokens.
* `CEnums.readEnums` — the declarations of a header.

## Main results

* `CEnums.lexLines_of_closed` — lines that end outside a comment are read one by one.
* `CEnums.preprocess_append` — lines that are not directives lose the names of macros, and nothing
  else.
* `CEnums.mem_of_readEnums` — every enumerator is a word of the header.
-/

namespace CEnums

/-! ## Words and punctuation -/

/-- A word or a punctuation character. -/
inductive Token : Type
  | word (w : List Char)
  | sym (c : Char)
  deriving DecidableEq

/-- The characters of names and numbers. -/
def isWord (c : Char) : Bool := c.isAlphanum || c.toNat = 95

/-- The characters of words. -/
lemma isWord_iff {c : Char} :
    isWord c = true ↔ ((c.isUpper = true ∨ c.isLower = true) ∨ c.isDigit = true) ∨ c.toNat = 95 := by
  change (((c.isUpper || c.isLower) || c.isDigit) || decide (c.toNat = 95)) = true ↔ _
  rw [Bool.or_eq_true, Bool.or_eq_true, Bool.or_eq_true, decide_eq_true_eq]

/-- The digits of all bases are characters of words. -/
lemma isWord_of_digit {c : Char} (h : (Numeral.digit c).isSome = true) : isWord c = true := by
  unfold Numeral.digit at h
  rw [isWord_iff]
  split_ifs at h with h₁ h₂ h₃
  · exact Or.inl (Or.inr h₁)
  · exact Or.inl (Or.inl (Or.inr h₂))
  · exact Or.inl (Or.inl (Or.inl h₃))
  · exact absurd h (by decide)

/-- Where in a line the reader is: in the code with a word that may go on, behind a slash, or in a
comment. -/
inductive Mode : Type
  | code (w : List Char)
  | slash
  | line
  | block
  | star
  deriving DecidableEq

/-- The word that has ended. -/
def flush (w : List Char) : List Token := if w = [] then [] else [.word w]

/-- A character of the code. -/
def code (w : List Char) (c : Char) : Mode × List Token :=
  if isWord c then (.code (w ++ [c]), [])
  else if c.toNat = 47 then (.slash, flush w)
  else if Numeral.isspace c then (.code [], flush w)
  else (.code [], flush w ++ [.sym c])

/-- One character. -/
def step : Mode → Char → Mode × List Token
  | .code w, c => code w c
  | .slash, c =>
    if c.toNat = 47 then (.line, [])
    else if c.toNat = 42 then (.block, [])
    else ((code [] c).1, .sym '/' :: (code [] c).2)
  | .line, _ => (.line, [])
  | .block, c => (if c.toNat = 42 then .star else .block, [])
  | .star, c => (if c.toNat = 47 then .code [] else if c.toNat = 42 then .star else .block, [])

/-- The characters of a line. -/
def lex : Mode → List Char → Mode × List Token
  | m, [] => (m, [])
  | m, c :: s => ((lex (step m c).1 s).1, (step m c).2 ++ (lex (step m c).1 s).2)

/-- The end of a line: whether the next one begins inside a comment, and the last token. -/
def finish : Mode → Bool × List Token
  | .code w => (false, flush w)
  | .slash => (false, [.sym '/'])
  | .line => (false, [])
  | .block => (true, [])
  | .star => (true, [])

/-- The tokens of a line. -/
def lexLine (inBlock : Bool) (s : List Char) : Bool × List Token :=
  let r := lex (if inBlock then .block else .code []) s
  ((finish r.1).1, r.2 ++ (finish r.1).2)

/-- The tokens of each line. -/
def lexLines : Bool → List (List Char) → List (List Token)
  | _, [] => []
  | inBlock, l :: ls => (lexLine inBlock l).2 :: lexLines (lexLine inBlock l).1 ls

/-- A text is read from where the reader is when it begins. -/
lemma lex_append (m : Mode) (s t : List Char) :
    lex m (s ++ t) = ((lex (lex m s).1 t).1, (lex m s).2 ++ (lex (lex m s).1 t).2) := by
  induction s generalizing m with
  | nil => rfl
  | cons c s ih =>
    simp only [List.cons_append, lex, ih, List.append_assoc]

/-- A word goes on. -/
lemma lex_word {u : List Char} (h : ∀ c ∈ u, isWord c = true) (w : List Char) :
    lex (.code w) u = (.code (w ++ u), []) := by
  induction u generalizing w with
  | nil => simp [lex]
  | cons c u ih =>
    have hstep : step (.code w) c = (.code (w ++ [c]), []) := if_pos (h c List.mem_cons_self)
    rw [lex, hstep, ih fun d hd => h d (List.mem_cons_of_mem _ hd), List.append_assoc]
    rfl

/-- A comment up to the end of the line. -/
lemma lexLine_comment (s : List Char) : lexLine false ('/' :: '/' :: s) = (false, []) := by
  have hline : ∀ s, lex .line s = (.line, []) := by
    intro s
    induction s with
    | nil => rfl
    | cons c s ih => rw [lex, show step .line c = (.line, []) from rfl, ih]; rfl
  have h : lex (.code []) ('/' :: '/' :: s) = (.line, []) := by
    rw [lex, lex, show step (.code []) '/' = (.slash, []) from rfl,
      show step .slash '/' = (.line, []) from rfl, hline]
    rfl
  rw [lexLine, if_neg (by decide), h]
  rfl

/-- **Lines that end outside a comment** are read one by one. -/
lemma lexLines_of_closed {ls : List (List Char)} (h : ∀ l ∈ ls, (lexLine false l).1 = false) :
    lexLines false ls = ls.map fun l => (lexLine false l).2 := by
  induction ls with
  | nil => rfl
  | cons l ls ih =>
    rw [lexLines, h l List.mem_cons_self, ih fun l' hl' => h l' (List.mem_cons_of_mem _ hl')]
    rfl

/-! ## Directives -/

/-- The macros after the directive of an include guard. -/
def directive (macros : List (List Char)) : List Token → Option (List (List Char))
  | [.word d, .word n] =>
    if d = "define".toList then some (n :: macros)
    else if d = "ifndef".toList ∧ n ∉ macros then some macros
    else none
  | [.word d] => if d = "endif".toList then some macros else none
  | _ => none

/-- The tokens of a line without the names of macros. -/
def expand (macros : List (List Char)) (ts : List Token) : List Token :=
  ts.filter fun t =>
    match t with
    | .word w => decide (w ∉ macros)
    | .sym _ => true

/-- The tokens of all lines that are not directives. -/
def preprocess : List (List Char) → List (List Token) → Option (List Token)
  | _, [] => some []
  | macros, ts :: ls =>
    if ts.head? = some (.sym '#') then
      (directive macros ts.tail).bind fun macros' => preprocess macros' ls
    else (preprocess macros ls).map (expand macros ts ++ ·)

/-- A word that is left is not the name of a macro, and was there before. -/
lemma mem_expand {macros : List (List Char)} {ts : List Token} {n : List Char}
    (h : Token.word n ∈ expand macros ts) : n ∉ macros ∧ Token.word n ∈ ts := by
  obtain ⟨hm, hn⟩ := List.mem_filter.mp h
  exact ⟨of_decide_eq_true hn, hm⟩

/-- A line without the name of a macro. -/
lemma expand_eq_self {macros : List (List Char)} {ts : List Token}
    (h : ∀ n, Token.word n ∈ ts → n ∉ macros) : expand macros ts = ts := by
  refine List.filter_eq_self.mpr fun t ht => ?_
  cases t with
  | word w => exact decide_eq_true (h w ht)
  | sym c => rfl

/-- Lines in front that are not directives. -/
lemma preprocess_append {macros : List (List Char)} {ls : List (List Token)}
    (h : ∀ ts ∈ ls, ts.head? ≠ some (.sym '#')) (ls' : List (List Token)) :
    preprocess macros (ls ++ ls') = (preprocess macros ls').map (expand macros ls.flatten ++ ·) := by
  induction ls with
  | nil => simp [expand]
  | cons ts ls ih =>
    rw [List.cons_append, preprocess, if_neg (h ts List.mem_cons_self),
      ih fun ts' hts' => h ts' (List.mem_cons_of_mem _ hts'), Option.map_map]
    have hcat : expand macros (ts :: ls).flatten = expand macros ts ++ expand macros ls.flatten := by
      rw [List.flatten_cons, expand, List.filter_append]
      rfl
    rw [hcat]
    congr 1
    funext u
    exact (List.append_assoc _ _ _).symm

/-! ## Declarations -/

/-- An enumerator and its value. -/
abbrev Enumerator : Type := List Char × ℕ

/-- Where in a declaration the reader is. Inside the braces it has read some enumerators. -/
inductive Pos : Type
  | top
  | typedef
  | keyword
  | tagged
  | body (items : List Enumerator)
  | name (items : List Enumerator) (n : List Char)
  | value (items : List Enumerator) (n : List Char)
  | next (items : List Enumerator)
  | closed (items : List Enumerator)
  | named (items : List Enumerator)
  deriving DecidableEq

/-- The declarations that were read, and the one that is being read. -/
structure Reader where
  done : List (List Enumerator)
  pos : Pos
  deriving DecidableEq

/-- The value of an integer constant. -/
def constant (w : List Char) : Option ℕ :=
  (Numeral.scan 0 w).bind fun r => if r.2 = [] then some r.1 else none

/-- A name does not begin with a digit. -/
def isName (w : List Char) : Bool := w.head?.any fun c => !c.isDigit

namespace Reader

/-- One token. -/
def step (r : Reader) (t : Token) : Option Reader :=
  match r.pos, t with
  | .top, .word w =>
    if w = "typedef".toList then some ⟨r.done, .typedef⟩
    else if w = "enum".toList then some ⟨r.done, .keyword⟩
    else none
  | .typedef, .word w => if w = "enum".toList then some ⟨r.done, .keyword⟩ else none
  | .keyword, .word w => if isName w then some ⟨r.done, .tagged⟩ else none
  | .keyword, .sym c => if c = '\x7b' then some ⟨r.done, .body []⟩ else none
  | .tagged, .sym c => if c = '\x7b' then some ⟨r.done, .body []⟩ else none
  | .body items, .word n => if isName n then some ⟨r.done, .name items n⟩ else none
  | .body items, .sym c => if c = '\x7d' then some ⟨r.done, .closed items⟩ else none
  | .name items n, .sym c => if c = '=' then some ⟨r.done, .value items n⟩ else none
  | .value items n, .word w => (constant w).map fun v => ⟨r.done, .next (items ++ [(n, v)])⟩
  | .next items, .sym c =>
    if c = ',' then some ⟨r.done, .body items⟩
    else if c = '\x7d' then some ⟨r.done, .closed items⟩
    else none
  | .closed items, .word w => if isName w then some ⟨r.done, .named items⟩ else none
  | .closed items, .sym c => if c = ';' then some ⟨r.done ++ [items], .top⟩ else none
  | .named items, .sym c => if c = ';' then some ⟨r.done ++ [items], .top⟩ else none
  | _, _ => none

/-- The names that the reader knows. -/
def names (r : Reader) : List (List Char) :=
  r.done.flatten.map Prod.fst ++
    match r.pos with
    | .body items | .next items | .closed items | .named items => items.map Prod.fst
    | .name items n | .value items n => items.map Prod.fst ++ [n]
    | _ => []

/-- A step learns no name, or the token as a name. -/
lemma names_step {r r' : Reader} {t : Token} (h : r.step t = some r') :
    r'.names = r.names ∨ ∃ n, t = .word n ∧ r'.names = r.names ++ [n] := by
  obtain ⟨done, pos⟩ := r
  cases pos <;> cases t <;>
    simp only [step, Option.ite_none_right_eq_some, Option.map_eq_some_iff, Option.some.injEq,
      reduceCtorEq] at h
  case top.word =>
    split_ifs at h
    all_goals
      obtain rfl := Option.some.inj h
      exact Or.inl rfl
  case body.word =>
    obtain ⟨-, rfl⟩ := h
    exact Or.inr ⟨_, rfl, by simp [names]⟩
  case value.word =>
    obtain ⟨v, -, rfl⟩ := h
    exact Or.inl (by simp [names])
  case next.sym =>
    split_ifs at h
    all_goals
      obtain rfl := Option.some.inj h
      exact Or.inl rfl
  all_goals
    obtain ⟨-, rfl⟩ := h
    exact Or.inl (by simp [names])

/-- A name that the reader has learned is one of the tokens. -/
lemma mem_names_run {r r' : Reader} {ts : List Token} {n : List Char} (h : ts.foldlM step r = some r')
    (hn : n ∈ r'.names) : n ∈ r.names ∨ Token.word n ∈ ts := by
  induction ts generalizing r with
  | nil =>
    rw [Option.some.inj h]
    exact Or.inl hn
  | cons t ts ih =>
    rw [List.foldlM_cons] at h
    obtain ⟨r₁, h₁, h₂⟩ := Option.bind_eq_some_iff.mp h
    rcases ih h₂ with hm | hm
    · rcases names_step h₁ with hsame | ⟨n', rfl, hnew⟩
      · exact Or.inl (hsame ▸ hm)
      · rw [hnew, List.mem_append, List.mem_singleton] at hm
        rcases hm with hm | rfl
        · exact Or.inl hm
        · exact Or.inr List.mem_cons_self
    · exact Or.inr (List.mem_cons_of_mem _ hm)

/-- The tokens of an enumerator with its value and a comma. -/
def itemTokens (n w : List Char) : List Token := [.word n, .sym '=', .word w, .sym ',']

/-- One enumerator. -/
lemma run_item {n w : List Char} {v : ℕ} (hn : isName n = true) (hw : constant w = some v)
    (done : List (List Enumerator)) (items : List Enumerator) :
    (itemTokens n w).foldlM step ⟨done, .body items⟩ = some ⟨done, .body (items ++ [(n, v)])⟩ := by
  have h₁ : step ⟨done, .body items⟩ (.word n) = some ⟨done, .name items n⟩ := if_pos hn
  have h₂ : step ⟨done, .value items n⟩ (.word w) = some ⟨done, .next (items ++ [(n, v)])⟩ := by
    change (constant w).map _ = _
    rw [hw, Option.map_some]
  rw [itemTokens, List.foldlM_cons, h₁]
  change (step ⟨done, .value items n⟩ (.word w)).bind _ = _
  rw [h₂]
  rfl

/-- Enumerators one after the other. -/
lemma run_items {α : Type} {name text : α → List Char} {val : α → ℕ} {l : List α}
    (hname : ∀ a ∈ l, isName (name a) = true) (hval : ∀ a ∈ l, constant (text a) = some (val a))
    (done : List (List Enumerator)) (items : List Enumerator) :
    (l.flatMap fun a => itemTokens (name a) (text a)).foldlM step ⟨done, .body items⟩ =
      some ⟨done, .body (items ++ l.map fun a => (name a, val a))⟩ := by
  induction l generalizing items with
  | nil => simp
  | cons a l ih =>
    rw [List.flatMap_cons, List.foldlM_append,
      run_item (hname a List.mem_cons_self) (hval a List.mem_cons_self)]
    change (l.flatMap fun a => itemTokens (name a) (text a)).foldlM step _ = _
    rw [ih (fun b hb => hname b (List.mem_cons_of_mem _ hb))
      (fun b hb => hval b (List.mem_cons_of_mem _ hb)), List.append_assoc]
    rfl

end Reader

/-- **The declarations of a header**: the enumerators of each, with their values. -/
def readEnums (text : List Char) : Option (List (List Enumerator)) := do
  let ts ← preprocess [] (lexLines false (text.splitOn '\n'))
  let r ← ts.foldlM Reader.step ⟨[], .top⟩
  if r.pos = .top then some r.done else none

/-- **Every enumerator is a word of the header.** -/
lemma mem_of_readEnums {text : List Char} {es : List (List Enumerator)} {n : List Char}
    (h : readEnums text = some es) (hn : n ∈ es.flatten.map Prod.fst) :
    ∃ ts, preprocess [] (lexLines false (text.splitOn '\n')) = some ts ∧ Token.word n ∈ ts := by
  unfold readEnums at h
  obtain ⟨ts, hts, h⟩ := Option.bind_eq_some_iff.mp h
  obtain ⟨r, hr, h⟩ := Option.bind_eq_some_iff.mp h
  split_ifs at h
  refine ⟨ts, hts, (Reader.mem_names_run hr ?_).resolve_left ?_⟩
  · rw [← Option.some.inj h] at hn
    exact List.mem_append_left _ hn
  · exact List.not_mem_nil

/-! ## Lines -/

/-- A line and its tokens: it is one line, and it ends outside a comment. -/
structure Line (l : List Char) (ts : List Token) : Prop where
  nl : '\n' ∉ l
  lex : lexLine false l = (false, ts)

instance (l : List Char) (ts : List Token) : Decidable (Line l ts) :=
  decidable_of_iff ('\n' ∉ l ∧ lexLine false l = (false, ts)) ⟨fun h => ⟨h.1, h.2⟩, fun h => ⟨h.1, h.2⟩⟩

/-- The lines of a header are lexed one by one. -/
lemma lexLines_of_lines {ls : List (List Char)} {tss : List (List Token)} (h : List.Forall₂ Line ls tss)
    (hne : ls ≠ []) : lexLines false (List.splitOn '\n' (['\n'].intercalate ls)) = tss := by
  have hall : ∀ l ∈ ls, ∃ ts, Line l ts := by
    induction h with
    | nil => exact fun l hl => absurd hl List.not_mem_nil
    | cons h _ ih =>
      intro l hl
      rcases List.mem_cons.mp hl with rfl | hl
      · exact ⟨_, h⟩
      · exact ih (List.ne_nil_of_mem hl) l hl
  rw [List.splitOn_intercalate _ (fun l hl => (hall l hl).choose_spec.nl) hne,
    lexLines_of_closed fun l hl => by rw [(hall l hl).choose_spec.lex]]
  clear hall hne
  induction h with
  | nil => rfl
  | cons h _ ih => rw [List.map_cons, h.lex, ih]

/-- A line with one enumerator, as programs print it. -/
lemma line_item {n w : List Char} (hn : n ≠ []) (hn' : ∀ c ∈ n, isWord c = true) (hw : w ≠ [])
    (hw' : ∀ c ∈ w, isWord c = true) :
    Line ("    ".toList ++ (n ++ (" = ".toList ++ (w ++ ",".toList)))) (Reader.itemTokens n w) := by
  have hnl : ∀ {u : List Char}, (∀ c ∈ u, isWord c = true) → '\n' ∉ u := fun hu hm =>
    absurd (hu _ hm) (by decide)
  have hflush : ∀ {u : List Char}, u ≠ [] → flush u = [.word u] := fun hu => if_neg hu
  refine ⟨?_, ?_⟩
  · simp only [List.mem_append, not_or]
    exact ⟨by decide, hnl hn', by decide, hnl hw', by decide⟩
  · have hlex : lex (.code []) ("    ".toList ++ (n ++ (" = ".toList ++ (w ++ ",".toList)))) =
        (.code [], flush n ++ .sym '=' :: (flush w ++ [.sym ','])) := by
      have h₁ : lex (.code []) "    ".toList = (.code [], []) := rfl
      have h₂ : lex (.code n) " = ".toList = (.code [], flush n ++ [.sym '=']) := by
        change (Mode.code [], flush n ++ ([Token.sym '='] ++ [])) = _
        rw [List.append_nil]
      have h₃ : lex (.code w) ",".toList = (.code [], flush w ++ [.sym ',']) := by
        change (Mode.code [], (flush w ++ [Token.sym ',']) ++ []) = _
        rw [List.append_nil]
      rw [lex_append, h₁, lex_append, lex_word hn', List.nil_append, lex_append, h₂, lex_append,
        lex_word hw', List.nil_append, h₃]
      simp
    rw [lexLine, if_neg (by decide), hlex, hflush hn, hflush hw]
    rfl

end CEnums

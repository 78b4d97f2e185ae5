import MyStockIQ.Sql.Lexer
import Mathlib.Data.List.DropRight
import Mathlib.Tactic.IntervalCases
/-!
# Reading text put together from pieces

`Reads` says what a piece of a text reads as and exactly when, whatever comes
after it. Parts put one after another read as their tokens one after another:
`Reads.append` and `Reads.intercalate` are the rules, so that a statement built
from a template reads as meant just when each of its parts does.
-/

namespace Sql

/-- A string literal. -/
def literal (text : List Char) : Token := .quoted '\'' text

/-- A keyword or a name. -/
def word (text : String) : Token := .word text.toList

/-! ## Numbers -/

/-- The number being read is the start of a constant. -/
def State.Sound : State → Prop
  | .number p text => Phase.start.run text = some p
  | _ => True

theorem run_append (p : Phase) (text : List Char) (c : Char) :
    p.run (text ++ [c]) = (p.run text).bind (Phase.next · c) := by
  simp [Phase.run, List.foldlM_append]

/-- The state is sound and the numbers completed are constants. -/
def Sound (r : List Token × State) : Prop :=
  r.2.Sound ∧ ∀ text, Token.number text ∈ r.1 → IsConstant text

theorem sound_silent {q : State} (h : q.Sound) : Sound ([], q) := ⟨h, by simp⟩

theorem sound_emit {t : Token} {after : List Token × State} (h : Sound after)
    (ht : ∀ text, t = .number text → IsConstant text) : Sound (emit t after) := by
  refine ⟨h.1, ?_⟩
  intro text hm
  rcases List.mem_cons.1 hm with hm | hm
  · exact ht text hm.symm
  · exact h.2 text hm

theorem sound_enter (c : Char) : Sound (enter c) := by
  unfold enter
  split
  · exact sound_silent trivial
  split
  · exact sound_silent trivial
  split
  · exact sound_silent trivial
  split
  · exact sound_silent trivial
  split
  · exact sound_silent trivial
  split
  · rename_i p hp
    apply sound_silent
    simp [State.Sound, Phase.run, hp]
  · exact ⟨trivial, by simp⟩

/-- A step keeps the number being read the start of a constant, and a number it
completes is one. -/
theorem sound_step {q : State} (h : q.Sound) (c : Char) : Sound (step q c) := by
  have he := sound_enter c
  cases q with
  | between => exact he
  | word read =>
    simp only [step]
    split
    · exact sound_silent trivial
    · exact sound_emit he (by simp)
  | number p read =>
    simp only [step]
    split
    · rename_i p' hp
      apply sound_silent
      simp only [State.Sound] at h
      simp [State.Sound, run_append, h, hp]
    split
    · rename_i hp
      simp only [Bool.and_eq_true] at hp
      apply sound_emit he
      intro text ht
      cases ht
      exact ⟨p, h, hp.1⟩
    split
    · exact sound_emit he (by simp)
    · exact sound_silent trivial
  | quoted quote read =>
    simp only [step]
    split <;> exact sound_silent trivial
  | closing quote read =>
    simp only [step]
    split
    · exact sound_silent trivial
    · exact sound_emit he (by simp)
  | dash =>
    simp only [step]
    split
    · exact sound_silent trivial
    · exact sound_emit he (by simp)
  | comment =>
    simp only [step]
    split <;> exact sound_silent trivial
  | slash =>
    simp only [step]
    split
    · exact sound_silent trivial
    · exact sound_emit he (by simp)
  | block depth last =>
    simp only [step]
    split
    · split <;> exact sound_silent trivial
    · split <;> exact sound_silent trivial
  | failed => exact sound_silent trivial

theorem finish_sound {q : State} (h : q.Sound) {ts : List Token} (hf : finish q = some ts) {text : List Char}
    (ht : Token.number text ∈ ts) : IsConstant text := by
  cases q with
  | number p read =>
    simp only [finish] at hf
    split at hf
    · cases hf
      simp only [List.mem_singleton, Token.number.injEq] at ht
      subst ht
      exact ⟨p, h, ‹_›⟩
    · split at hf <;> cases hf
      simp at ht
  | between | word | closing | dash | comment | slash =>
    simp only [finish, Option.some.injEq] at hf
    subst hf
    simp at ht
  | quoted | block | failed => simp [finish] at hf

/-- Every number read is a numeric constant. -/
theorem lexFrom_constant {q : State} {s : List Char} {ts : List Token} (hq : q.Sound) (h : lexFrom q s = some ts)
    {text : List Char} (ht : Token.number text ∈ ts) : IsConstant text := by
  induction s generalizing q ts with
  | nil => exact finish_sound hq h ht
  | cons c s ih =>
    obtain ⟨hs, hc⟩ := sound_step hq c
    rw [lexFrom, Option.map_eq_some_iff] at h
    obtain ⟨after, ha, rfl⟩ := h
    rcases List.mem_append.1 ht with ht | ht
    · exact hc text ht
    · exact ih hs ha ht

/-! ## What may follow -/

/-- What ends a literal and a number alike. -/
def IsSeparator (c : Char) : Prop := c ∈ [' ', '\n', '\t', '\r', ',', ')']

instance (c : Char) : Decidable (IsSeparator c) := inferInstanceAs (Decidable (_ ∈ _))

theorem separator_comma : IsSeparator ',' := by decide

theorem separator_paren : IsSeparator ')' := by decide

theorem separator_space : IsSeparator ' ' := by decide

theorem separator_line : IsSeparator '\n' := by decide

/-- The text ends, or a separator comes next. -/
def Ends (rest : List Char) : Prop := ∀ c ∈ rest.head?, IsSeparator c

theorem ends_nil : Ends [] := by simp [Ends]

theorem ends_cons {c : Char} (h : IsSeparator c) (rest : List Char) : Ends (c :: rest) := by
  intro d hd
  simp only [List.head?_cons, Option.mem_some_iff] at hd
  rwa [← hd]

theorem IsSeparator.not_next {c : Char} (h : IsSeparator c) (p : Phase) : p.next c = none := by
  simp only [IsSeparator, List.mem_cons, List.not_mem_nil, or_false] at h
  rcases h with rfl | rfl | rfl | rfl | rfl | rfl <;> cases p <;> rfl

theorem IsSeparator.not_word {c : Char} (h : IsSeparator c) : isWord c = false := by
  simp only [IsSeparator, List.mem_cons, List.not_mem_nil, or_false] at h
  rcases h with rfl | rfl | rfl | rfl | rfl | rfl <;> rfl

theorem Ends.not_quote {rest : List Char} (h : Ends rest) : rest.head? ≠ some '\'' := by
  intro hq
  have hs := h '\'' (by simp [hq])
  simp [IsSeparator] at hs

theorem lexFrom_number {p p' : Phase} {text rest : List Char} (h : p.run text = some p') (hc : p'.complete = true)
    (he : Ends rest) (read : List Char) :
    lexFrom (.number p read) (text ++ rest) = (lex rest).map (.number (read ++ text) :: ·) := by
  induction text generalizing p read with
  | nil =>
    simp only [Phase.run, List.foldlM_nil, Option.pure_def, Option.some.injEq] at h
    subst h
    cases rest with
    | nil => simp [lexFrom, finish, hc]
    | cons c rest =>
      have hs := he c (by simp)
      simp only [List.nil_append, List.append_nil]
      apply lexFrom_emit
      simp [step, hs.not_next, hs.not_word, hc]
  | cons c text ih =>
    simp only [Phase.run, List.foldlM_cons, Option.bind_eq_bind, Option.bind_eq_some_iff] at h
    obtain ⟨p₁, hp, h⟩ := h
    have ht := ih h (read ++ [c])
    simp [lexFrom, step, hp, ht, Function.comp_def]

theorem digit_cases {c : Char} (h : c.isDigit = true) :
    c ∈ ['0', '1', '2', '3', '4', '5', '6', '7', '8', '9'] := by
  simp only [Char.isDigit, Bool.and_eq_true, decide_eq_true_eq, ge_iff_le, UInt32.le_iff_toNat_le] at h
  have h0 : '0'.val.toNat = 48 := rfl
  have h9 : '9'.val.toNat = 57 := rfl
  have hc : c.toNat = c.val.toNat := rfl
  have hl : 48 ≤ c.toNat := by omega
  have hu : c.toNat ≤ 57 := by omega
  rw [← Char.ofNat_toNat c]
  generalize c.toNat = n at hl hu
  interval_cases n <;> decide

theorem enter_constant {c : Char} {p : Phase} (h : Phase.start.next c = some p) : enter c = ([], .number p [c]) := by
  by_cases hd : c.isDigit = true
  · have hc := digit_cases hd
    simp only [List.mem_cons, List.not_mem_nil, or_false] at hc
    rcases hc with rfl | rfl | rfl | rfl | rfl | rfl | rfl | rfl | rfl | rfl <;> cases h <;> rfl
  · have hc : c = '.' := by
      by_contra hc
      simp [Phase.next, hd, hc] at h
    subst hc
    cases h
    rfl

/-- A character that begins a token. -/
theorem lex_silent {c : Char} {q : State} (h : enter c = ([], q)) (rest : List Char) :
    lex (c :: rest) = lexFrom q rest := by
  simp [lex, lexFrom, step, h]

theorem lex_constant {text rest : List Char} (h : IsConstant text) (he : Ends rest) :
    lex (text ++ rest) = (lex rest).map (.number text :: ·) := by
  obtain ⟨p, hr, hc⟩ := h
  cases text with
  | nil =>
    cases hr
    cases hc
  | cons c text =>
    simp only [Phase.run, List.foldlM_cons, Option.bind_eq_bind, Option.bind_eq_some_iff] at hr
    obtain ⟨p₁, hp, hr⟩ := hr
    have hn := lexFrom_number hr hc he [c]
    rw [List.cons_append, lex_silent (enter_constant hp), hn]
    rfl

/-! ## Readings -/

/-- Before anything that `follows`, `text` reads as `tokens` just when `ok`. -/
def Reads (follows : List Char → Prop) (text : List Char) (tokens : List Token) (ok : Prop) : Prop :=
  ∀ rest more, follows rest → (lex (text ++ rest) = some (tokens ++ more) ↔ ok ∧ lex rest = some more)

/-- Nothing is asked of what follows. -/
def Anything (_ : List Char) : Prop := True

theorem Reads.lex_iff {follows : List Char → Prop} {text : List Char} {tokens : List Token} {ok : Prop}
    (h : Reads follows text tokens ok) (hf : follows []) : lex text = some tokens ↔ ok := by
  simpa using h [] [] hf

theorem Reads.weaken {follows : List Char → Prop} {text : List Char} {tokens : List Token} {ok : Prop}
    (h : Reads Anything text tokens ok) : Reads follows text tokens ok := by
  intro rest more _
  exact h rest more trivial

theorem reads_more {text rest : List Char} {tokens : List Token}
    (h : lex (text ++ rest) = (lex rest).map (tokens ++ ·)) (more : List Token) :
    lex (text ++ rest) = some (tokens ++ more) ↔ lex rest = some more := by
  rw [h]
  cases lex rest <;> simp

/-- A fixed text that ends between two tokens. -/
theorem Reads.fixed {text : List Char} {tokens : List Token} (h : scan .between text = (tokens, .between)) :
    Reads Anything text tokens True := by
  intro rest more _
  rw [true_and]
  apply reads_more
  simp [lex, lexFrom_append, h]

theorem Reads.append {f g : List Char → Prop} {a b : List Char} {as bs : List Token} {p q : Prop}
    (ha : Reads f a as p) (hb : Reads g b bs q) (hf : ∀ rest, g rest → f (b ++ rest)) :
    Reads g (a ++ b) (as ++ bs) (p ∧ q) := by
  intro rest more hg
  rw [List.append_assoc, List.append_assoc, ha _ _ (hf rest hg), hb _ _ hg, and_assoc]

/-- A fixed word. -/
theorem Reads.word {text read : List Char} (h : scan .between text = ([], .word read)) :
    Reads Ends text [.word read] True := by
  intro rest more he
  rw [true_and]
  apply reads_more
  have hend : lexFrom (.word read) rest = (lex rest).map (.word read :: ·) := by
    cases rest with
    | nil => rfl
    | cons c rest =>
      have hc := he c (by simp)
      apply lexFrom_emit
      simp [step, hc.not_word]
  rw [lex, lexFrom_append, h, hend]
  simp [Function.comp_def]

/-- Parts with a separator between them. -/
theorem Reads.intercalate {α : Type} {text : α → List Char} {tokens : α → List Token} {ok : α → Prop}
    {separator : List Char} {separators : List Token} (h : ∀ a, Reads Ends (text a) (tokens a) (ok a))
    (hs : Reads Anything separator separators True) (he : ∀ rest, Ends (separator ++ rest)) :
    ∀ l : List α, Reads Ends (separator.intercalate (l.map text)) (separators.intercalate (l.map tokens))
      (∀ a ∈ l, ok a)
  | [] => by
    intro rest more _
    simp
  | [a] => by
    intro rest more hr
    simpa using h a rest more hr
  | a :: b :: l => by
    intro rest more hr
    have hl := Reads.intercalate h hs he (b :: l)
    have hsl := (h a).append (hs.append hl fun _ _ => trivial) fun rest _ => by
      rw [List.append_assoc]
      exact he _
    have hi := hsl rest more hr
    simpa using hi

/-! ## Literals -/

/-- A text between single quotes. -/
def enclose (text : List Char) : List Char := '\'' :: text ++ ['\'']

theorem lex_enclose (text rest : List Char) :
    lex (enclose text ++ rest) = lexFrom (.quoted '\'' []) (text ++ '\'' :: rest) := by
  rw [enclose, List.append_assoc, List.cons_append, lex_silent rfl]
  rfl

/-- A text with its quotes doubled reads as itself. -/
theorem Reads.doubled (text : List Char) : Reads Ends (enclose (double '\'' text)) [literal text] True := by
  intro rest more he
  rw [true_and]
  apply reads_more
  rw [lex_enclose, lexFrom_double, lexFrom_closing he.not_quote]
  simp [literal]

/-- A text put in as it is reads as itself just when it has no quote. -/
theorem Reads.verbatim (text : List Char) : Reads Ends (enclose text) [literal text] ('\'' ∉ text) := by
  intro rest more he
  have hr : '\'' ∉ text → lex (enclose text ++ rest) = (lex rest).map ([literal text] ++ ·) := by
    intro hq
    rw [lex_enclose, lexFrom_plain hq, lexFrom_closing he.not_quote]
    simp [literal]
  constructor
  · intro h
    have hq : '\'' ∉ text := by
      rw [lex_enclose] at h
      have hread : ([] : List Char) ++ text = text := rfl
      rw [← hread] at h ⊢
      exact not_mem_of_read he.not_quote h
    exact ⟨hq, (reads_more (hr hq) more).1 h⟩
  · rintro ⟨hq, h⟩
    exact (reads_more (hr hq) more).2 h

/-! ## Signed numbers -/

def trim (text : List Char) : List Char := (text.dropWhile isBlank).rdropWhile isBlank

def IsSign (c : Char) : Prop := c = '-' ∨ c = '+'

instance (c : Char) : Decidable (IsSign c) := inferInstanceAs (Decidable (_ ∨ _))

/-- A number without its sign. -/
def unsigned : List Char → List Char
  | [] => []
  | c :: rest => if IsSign c then rest else c :: rest

def signs : List Char → List Token
  | [] => []
  | c :: _ => if IsSign c then [.symbol c] else []

/-- The tokens of a number. -/
def numeral (text : List Char) : List Token := signs (trim text) ++ [.number (unsigned (trim text))]

/-- A numeric constant that may have a sign before it and blanks around it. -/
def IsNumeral (text : List Char) : Prop := IsConstant (unsigned (trim text))

theorem not_constant_nil : ¬ IsConstant [] := by
  rintro ⟨p, hr, hc⟩
  cases hr
  cases hc

theorem lex_signed {text rest : List Char} (h : IsConstant (unsigned text)) (he : Ends rest) :
    lex (text ++ rest) = (lex rest).map (signs text ++ [.number (unsigned text)] ++ ·) := by
  cases text with
  | nil => exact absurd h not_constant_nil
  | cons c text =>
    by_cases hs : IsSign c
    · simp only [unsigned, signs, hs, if_true] at h ⊢
      have hl := lex_constant h he
      rcases hs with rfl | rfl
      · cases text with
        | nil => exact absurd h not_constant_nil
        | cons d text =>
          -- Two dashes would make a comment, but no constant begins with one.
          have hd : d ≠ '-' := by
            rintro rfl
            obtain ⟨p, hr, -⟩ := h
            cases hr
          have hdash : step .dash d = emit (.symbol '-') (enter d) := by simp [step, hd]
          rw [List.cons_append, lex_silent rfl, List.cons_append, lexFrom_emit hdash, ← List.cons_append, hl]
          simp [Function.comp_def]
      · have hplus : lex ('+' :: (text ++ rest)) = (lex (text ++ rest)).map (.symbol '+' :: ·) := rfl
        rw [List.cons_append, hplus, hl]
        simp [Function.comp_def]
    · simp only [unsigned, signs, hs, if_false] at h ⊢
      simpa using lex_constant h he

theorem Reads.signed (text : List Char) :
    Reads Ends text (signs text ++ [.number (unsigned text)]) (IsConstant (unsigned text)) := by
  intro rest more he
  constructor
  · intro h
    have hc : IsConstant (unsigned text) := by
      apply lexFrom_constant (q := .between) trivial h
      simp
    exact ⟨hc, (reads_more (lex_signed hc he) more).1 h⟩
  · rintro ⟨hc, h⟩
    exact (reads_more (lex_signed hc he) more).2 h

theorem scan_blanks {text : List Char} (h : ∀ c ∈ text, isBlank c = true) : scan .between text = ([], .between) := by
  induction text with
  | nil => rfl
  | cons c text ih =>
    simp only [List.mem_cons, forall_eq_or_imp] at h
    simp [scan, step, enter, h.1, ih h.2]

theorem ends_blanks {text rest : List Char} (h : ∀ c ∈ text, isBlank c = true) (he : Ends rest) :
    Ends (text ++ rest) := by
  cases text with
  | nil => exact he
  | cons c text =>
    have hc := h c (by simp)
    apply ends_cons
    simp only [isBlank, Bool.or_eq_true, decide_eq_true_eq] at hc
    simp only [IsSeparator, List.mem_cons]
    tauto

/-- A number put in as it is reads as that number just when it is one. -/
theorem Reads.numeral (text : List Char) : Reads Ends text (Sql.numeral text) (IsNumeral text) := by
  have hfront : Reads Anything (text.takeWhile isBlank) [] True :=
    Reads.fixed (scan_blanks fun c hc => List.mem_takeWhile_imp hc)
  have hback : ∀ c ∈ (text.dropWhile isBlank).rtakeWhile isBlank, isBlank c = true :=
    fun c hc => List.mem_rtakeWhile_imp hc
  have hnumber := (Reads.signed (trim text)).append (Reads.fixed (scan_blanks hback)).weaken
    fun rest he => ends_blanks hback he
  have h := hfront.append hnumber fun _ _ => trivial
  have htext : text.takeWhile isBlank ++ (trim text ++ (text.dropWhile isBlank).rtakeWhile isBlank) = text := by
    rw [trim, List.rdropWhile_append_rtakeWhile, List.takeWhile_append_dropWhile]
  rw [htext] at h
  intro rest more he
  simpa [Sql.numeral, IsNumeral] using h rest more he

/-! ## Pieces -/

/-- A piece of a text, with what it reads as and when. -/
structure Piece where
  text : List Char
  tokens : List Token
  ok : Prop
  reads : Reads Ends text tokens ok

namespace Piece

@[simps] def doubled (t : List Char) : Piece := ⟨enclose (double '\'' t), [literal t], True, Reads.doubled t⟩

@[simps] def verbatim (t : List Char) : Piece := ⟨enclose t, [literal t], '\'' ∉ t, Reads.verbatim t⟩

@[simps] def numeral (t : List Char) : Piece := ⟨t, Sql.numeral t, IsNumeral t, Reads.numeral t⟩

@[simps] def word (t read : List Char) (h : scan .between t = ([], .word read)) : Piece :=
  ⟨t, [.word read], True, Reads.word h⟩

/-- A piece after a fixed text. -/
@[simps] def after (t : List Char) (ts : List Token) (h : scan .between t = (ts, .between)) (p : Piece) : Piece :=
  ⟨t ++ p.text, ts ++ p.tokens, True ∧ p.ok, (Reads.fixed h).append p.reads fun _ _ => trivial⟩

/-- A piece before a fixed text, which begins with a separator. -/
@[simps] def before (p : Piece) (c : Char) (rest : List Char) (ts : List Token)
    (h : scan .between (c :: rest) = (ts, .between)) (hc : IsSeparator c) : Piece :=
  ⟨p.text ++ c :: rest, p.tokens ++ ts, p.ok ∧ True,
    p.reads.append (Reads.fixed h).weaken fun more _ => ends_cons hc (rest ++ more)⟩

/-- Two pieces with a fixed text between them. -/
@[simps] def between (p : Piece) (c : Char) (rest : List Char) (ts : List Token)
    (h : scan .between (c :: rest) = (ts, .between)) (hc : IsSeparator c) (q : Piece) : Piece :=
  ⟨p.text ++ (c :: rest ++ q.text), p.tokens ++ (ts ++ q.tokens), p.ok ∧ True ∧ q.ok,
    p.reads.append ((Reads.fixed h).append q.reads fun _ _ => trivial) fun more _ =>
      ends_cons hc (rest ++ q.text ++ more)⟩

/-- Pieces with a fixed text between them. -/
@[simps] def join (c : Char) (rest : List Char) (ts : List Token) (h : scan .between (c :: rest) = (ts, .between))
    (hc : IsSeparator c) (pieces : List Piece) : Piece :=
  ⟨(c :: rest).intercalate (pieces.map text), ts.intercalate (pieces.map tokens), ∀ p ∈ pieces, p.ok,
    Reads.intercalate (fun p => p.reads) (Reads.fixed h) (fun more => ends_cons hc (rest ++ more)) pieces⟩

theorem scan_comma : scan .between [','] = ([.symbol ','], .between) := by decide

theorem scan_paren : scan .between [')'] = ([.symbol ')'], .between) := by decide

/-- Pieces with commas between them, in parentheses. -/
def row (pieces : List Piece) : Piece :=
  after ['('] [.symbol '('] (by decide)
    ((join ',' [] [.symbol ','] scan_comma separator_comma pieces).before ')' [] [.symbol ')'] scan_paren
      separator_paren)

@[simp] theorem row_text (pieces : List Piece) :
    (row pieces).text = '(' :: ([','].intercalate (pieces.map text) ++ [')']) := rfl

@[simp] theorem row_tokens (pieces : List Piece) :
    (row pieces).tokens = .symbol '(' :: ([Token.symbol ','].intercalate (pieces.map tokens) ++ [.symbol ')']) := rfl

@[simp] theorem row_ok (pieces : List Piece) : (row pieces).ok = ∀ p ∈ pieces, p.ok := by
  simp [row]

theorem lex_iff (p : Piece) : lex p.text = some p.tokens ↔ p.ok := p.reads.lex_iff ends_nil

end Piece

/-! ## Statements -/

def commas (items : List (List Token)) : List Token := [Token.symbol ','].intercalate items

def parens (tokens : List Token) : List Token := .symbol '(' :: tokens ++ [.symbol ')']

/-- `INSERT INTO table (columns) VALUES`. -/
def insertHead (table : String) (columns : List String) : List Token :=
  [word "insert", word "into", word table] ++ parens (commas (columns.map fun c => [word c])) ++ [word "values"]

/-- A row of values, each a single token. -/
def valueRow (values : List Token) : List Token := parens (commas (values.map fun value => [value]))

/-- `INSERT INTO table (columns) VALUES rows`. -/
def insertInto (table : String) (columns : List String) (rows : List (List Token)) : List Token :=
  insertHead table columns ++ commas (rows.map valueRow)

/-- `CASE key WHEN ... THEN ... END`. -/
def caseOf (key : String) (cases : List (List Char × List Token)) : List Token :=
  [word "case", word key] ++ cases.flatMap (fun c => [word "when", literal c.1, word "then"] ++ c.2) ++ [word "end"]

/-- `UPDATE table SET assignments WHERE key IN (keys)`. -/
def updateSet (table : String) (assignments : List (String × List Token)) (key : String) (keys : List (List Char)) :
    List Token :=
  [word "update", word table, word "set"] ++ commas (assignments.map fun a => [word a.1, .symbol '='] ++ a.2) ++
    [word "where", word key, word "in"] ++ parens (commas (keys.map fun k => [literal k]))

end Sql

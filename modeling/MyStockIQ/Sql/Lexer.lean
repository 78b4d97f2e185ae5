import Mathlib.Tactic.Common
/-!
# Lexing SQL

A lexer that takes one character at a time. Inside quotes a doubled quote
stands for one quote; any other quote ends the literal. Words are folded to
lower case, and comments and blanks are dropped. Two literals with only blanks
between them stay two tokens. Prefixed literals and dollar quotes are left out.
-/

namespace Sql

def isBlank (c : Char) : Bool := c = ' ' || c = '\n' || c = '\t' || c = '\r'

def isLetter (c : Char) : Bool := c.isAlpha || c = '_' || 127 < c.toNat

/-- What may follow the first letter of a word. -/
def isWord (c : Char) : Bool := isLetter c || c.isDigit || c = '$'

/-! ## Numeric constants -/

/-- How far a numeric constant has got: digits, a point with digits on at least
one side, and an exponent. -/
inductive Phase where
  | start
  | whole
  | point
  | fraction
  | exponent
  | sign
  | power
  deriving DecidableEq

def Phase.next : Phase → Char → Option Phase
  | .start, c => if c.isDigit then some .whole else if c = '.' then some .point else none
  | .whole, c =>
    if c.isDigit then some .whole else if c = '.' then some .fraction
    else if c = 'e' || c = 'E' then some .exponent else none
  | .point, c => if c.isDigit then some .fraction else none
  | .fraction, c =>
    if c.isDigit then some .fraction else if c = 'e' || c = 'E' then some .exponent else none
  | .exponent, c => if c.isDigit then some .power else if c = '+' || c = '-' then some .sign else none
  | .sign, c => if c.isDigit then some .power else none
  | .power, c => if c.isDigit then some .power else none

def Phase.complete : Phase → Bool
  | .whole | .fraction | .power => true
  | _ => false

def Phase.run (p : Phase) (text : List Char) : Option Phase := text.foldlM Phase.next p

/-- A numeric constant, without a sign. -/
def IsConstant (text : List Char) : Prop := ∃ p, Phase.start.run text = some p ∧ p.complete = true

/-! ## The lexer -/

inductive Token where
  | word (text : List Char)
  | number (text : List Char)
  /-- A literal if `quote` is `'`, a name if it is a double quote. -/
  | quoted (quote : Char) (text : List Char)
  | symbol (c : Char)
  deriving DecidableEq

inductive State where
  | between
  | word (text : List Char)
  | number (phase : Phase) (text : List Char)
  | quoted (quote : Char) (text : List Char)
  /-- After a quote, which ends the text unless another follows. -/
  | closing (quote : Char) (text : List Char)
  | dash
  | comment
  | slash
  /-- Inside `depth` comments more than one, after `last`. -/
  | block (depth : Nat) (last : Char)
  | failed
  deriving DecidableEq

/-- The first character of a token, or one between tokens. -/
def enter (c : Char) : List Token × State :=
  if isBlank c then ([], .between)
  else if c = '\'' || c = '"' then ([], .quoted c [])
  else if isLetter c then ([], .word [c.toLower])
  else if c = '-' then ([], .dash)
  else if c = '/' then ([], .slash)
  else match Phase.start.next c with
    | some p => ([], .number p [c])
    | none => ([.symbol c], .between)

/-- A token ends, and the character after it is looked at afresh. -/
def emit (t : Token) (after : List Token × State) : List Token × State := (t :: after.1, after.2)

def step : State → Char → List Token × State
  | .between, c => enter c
  | .word text, c => if isWord c then ([], .word (text ++ [c.toLower])) else emit (.word text) (enter c)
  | .number p text, c =>
    match p.next c with
    | some p' => ([], .number p' (text ++ [c]))
    | none =>
      if p.complete && !isWord c then emit (.number text) (enter c)
      else if p = .point then emit (.symbol '.') (enter c)
      else ([], .failed)
  | .quoted quote text, c => if c = quote then ([], .closing quote text) else ([], .quoted quote (text ++ [c]))
  | .closing quote text, c =>
    if c = quote then ([], .quoted quote (text ++ [c])) else emit (.quoted quote text) (enter c)
  | .dash, c => if c = '-' then ([], .comment) else emit (.symbol '-') (enter c)
  | .comment, c => if c = '\n' then ([], .between) else ([], .comment)
  | .slash, c => if c = '*' then ([], .block 0 ' ') else emit (.symbol '/') (enter c)
  | .block depth last, c =>
    if last = '*' && c = '/' then
      match depth with
      | 0 => ([], .between)
      | d + 1 => ([], .block d ' ')
    else if last = '/' && c = '*' then ([], .block (depth + 1) ' ')
    else ([], .block depth c)
  | .failed, _ => ([], .failed)

/-- What the end of the text makes of a state. Quotes and block comments have
to be closed. -/
def finish : State → Option (List Token)
  | .between | .comment => some []
  | .word text => some [.word text]
  | .number p text =>
    if p.complete then some [.number text] else if p = .point then some [.symbol '.'] else none
  | .closing quote text => some [.quoted quote text]
  | .dash => some [.symbol '-']
  | .slash => some [.symbol '/']
  | .quoted _ _ | .block _ _ | .failed => none

def lexFrom : State → List Char → Option (List Token)
  | q, [] => finish q
  | q, c :: rest => (lexFrom (step q c).2 rest).map ((step q c).1 ++ ·)

/-- The tokens of a text, if it has any reading. -/
def lex (text : List Char) : Option (List Token) := lexFrom .between text

@[simp] theorem lex_nil : lex [] = some [] := rfl

/-! ## Composition -/

/-- The tokens a text completes and the state it ends in. -/
def scan : State → List Char → List Token × State
  | q, [] => ([], q)
  | q, c :: rest => ((step q c).1 ++ (scan (step q c).2 rest).1, (scan (step q c).2 rest).2)

theorem lexFrom_append (q : State) (text rest : List Char) :
    lexFrom q (text ++ rest) = (lexFrom (scan q text).2 rest).map ((scan q text).1 ++ ·) := by
  induction text generalizing q with
  | nil => simp [scan]
  | cons c text ih =>
    simp only [List.cons_append, lexFrom, scan, ih, Option.map_map]
    congr 1
    funext ts
    simp

/-- A character that ends a token is looked at afresh. -/
theorem lexFrom_emit {q : State} {c : Char} {t : Token} (h : step q c = emit t (enter c)) (rest : List Char) :
    lexFrom q (c :: rest) = (lex (c :: rest)).map (t :: ·) := by
  have hb : step .between c = enter c := rfl
  simp only [lex, lexFrom, h, hb, emit, Option.map_map]
  rfl

/-! ## Quoted text -/

/-- A quote written twice. -/
def double (quote : Char) (text : List Char) : List Char :=
  text.flatMap fun c => if c = quote then [quote, quote] else [c]

theorem lexFrom_cons {quote c : Char} (h : c ≠ quote) (read rest : List Char) :
    lexFrom (.quoted quote read) (c :: rest) = lexFrom (.quoted quote (read ++ [c])) rest := by
  simp [lexFrom, step, h]

theorem lexFrom_pair (quote : Char) (read rest : List Char) :
    lexFrom (.quoted quote read) (quote :: quote :: rest) = lexFrom (.quoted quote (read ++ [quote])) rest := by
  simp [lexFrom, step]

theorem lexFrom_double (quote : Char) (text read rest : List Char) :
    lexFrom (.quoted quote read) (double quote text ++ rest) = lexFrom (.quoted quote (read ++ text)) rest := by
  induction text generalizing read with
  | nil => simp [double]
  | cons c text ih =>
    by_cases hc : c = quote
    · subst hc
      have hd : double c (c :: text) = c :: c :: double c text := by simp [double]
      rw [hd, List.cons_append, List.cons_append, lexFrom_pair, ih]
      simp
    · have hd : double quote (c :: text) = c :: double quote text := by simp [double, hc]
      rw [hd, List.cons_append, lexFrom_cons hc, ih]
      simp

theorem lexFrom_plain {quote : Char} {text : List Char} (h : quote ∉ text) (read rest : List Char) :
    lexFrom (.quoted quote read) (text ++ rest) = lexFrom (.quoted quote (read ++ text)) rest := by
  have hd : double quote text = text := by
    induction text with
    | nil => rfl
    | cons c text ih =>
      simp only [List.mem_cons, not_or] at h
      simp only [double, List.flatMap_cons, if_neg (Ne.symm h.1)]
      exact congrArg (c :: ·) (ih h.2)
  have hl := lexFrom_double quote text read rest
  rwa [hd] at hl

/-- A quote ends the text, if no other follows. -/
theorem lexFrom_closing {quote : Char} {rest : List Char} (h : rest.head? ≠ some quote) (read : List Char) :
    lexFrom (.quoted quote read) (quote :: rest) = (lex rest).map (.quoted quote read :: ·) := by
  have hq : lexFrom (.quoted quote read) (quote :: rest) = lexFrom (.closing quote read) rest := by
    simp [lexFrom, step]
  rw [hq]
  cases rest with
  | nil => rfl
  | cons c rest =>
    have hc : c ≠ quote := by simpa using h
    apply lexFrom_emit
    simp [step, hc]

/-- `ts` begins with a quoted text that begins with `read`. -/
def Begins (quote : Char) (read : List Char) (ts : List Token) : Prop :=
  ∃ more after, ts = .quoted quote (read ++ more) :: after

theorem Begins.of_append {quote : Char} {read text : List Char} {ts : List Token}
    (h : Begins quote (read ++ text) ts) : Begins quote read ts := by
  obtain ⟨more, after, rfl⟩ := h
  exact ⟨text ++ more, after, by simp⟩

/-- Whatever follows, the text read so far stays, in the quotes or after one. -/
theorem lexFrom_begins {quote : Char} {rest : List Char} : ∀ {read ts},
    (lexFrom (.quoted quote read) rest = some ts → Begins quote read ts) ∧
    (lexFrom (.closing quote read) rest = some ts → Begins quote read ts) := by
  induction rest with
  | nil =>
    intro read ts
    refine ⟨by simp [lexFrom, finish], ?_⟩
    intro h
    simp only [lexFrom, finish, Option.some.injEq] at h
    exact ⟨[], [], by simp [← h]⟩
  | cons c rest ih =>
    intro read ts
    by_cases hc : c = quote
    · simp only [lexFrom, step, hc, if_true, List.nil_append, Option.map_id']
      refine ⟨ih.2, ?_⟩
      intro h
      exact (ih.1 h).of_append
    · constructor
      · intro h
        simp only [lexFrom, step, hc, if_false, List.nil_append, Option.map_id'] at h
        exact (ih.1 h).of_append
      · intro h
        have he : step (.closing quote read) c = emit (.quoted quote read) (enter c) := by simp [step, hc]
        rw [lexFrom_emit he, Option.map_eq_some_iff] at h
        obtain ⟨after, -, rfl⟩ := h
        exact ⟨[], after, by simp⟩

/-- The next character, if it is no quote, is the next one read. -/
theorem lexFrom_cons_head {quote c : Char} {read text rest : List Char} {after : List Token} (hc : c ≠ quote)
    (h : lexFrom (.quoted quote read) (c :: rest) = some (.quoted quote (read ++ text) :: after)) :
    ∃ more, text = c :: more := by
  rw [lexFrom_cons hc] at h
  obtain ⟨more, _, heq⟩ := lexFrom_begins.1 h
  simp only [List.cons.injEq, Token.quoted.injEq, true_and, List.append_assoc, List.append_cancel_left_eq] at heq
  exact ⟨more, heq.1⟩

theorem replicate_cons (k : Nat) (c : Char) (text : List Char) :
    List.replicate k c ++ c :: text = List.replicate (k + 1) c ++ text := by
  simp [List.replicate_succ']

/-- From its first quote on, a text put between quotes as it is falls behind:
each pair of quotes read as one leaves one more quote to be read than the text
has. So it is never read to its end. -/
theorem not_read_quote {quote : Char} {rest : List Char} (h : rest.head? ≠ some quote) :
    ∀ (text read : List Char) (k : Nat) (after : List Token),
      lexFrom (.quoted quote read) (quote :: text ++ quote :: rest) ≠
        some (.quoted quote (read ++ (List.replicate k quote ++ quote :: text)) :: after)
  | [], read, k, after => by
    -- The closing quote is read as the second of a pair, so what follows is next.
    intro hl
    rw [List.cons_append, List.nil_append, lexFrom_pair, replicate_cons] at hl
    cases rest with
    | nil => simp [lexFrom, finish] at hl
    | cons c rest =>
      have hc : c ≠ quote := by simpa using h
      have hr : read ++ (List.replicate (k + 1) quote ++ []) = read ++ [quote] ++ List.replicate k quote := by
        simp [List.replicate_succ]
      rw [hr] at hl
      obtain ⟨more, heq⟩ := lexFrom_cons_head hc hl
      have hmem : c ∈ List.replicate k quote := by simp [heq]
      exact hc (List.eq_of_mem_replicate hmem)
  | c :: text, read, k, after => by
    intro hl
    by_cases hc : c = quote
    · subst hc
      have hr : read ++ (List.replicate k c ++ c :: c :: text) =
          read ++ [c] ++ (List.replicate (k + 1) c ++ text) := by
        rw [replicate_cons, replicate_cons]
        simp [List.replicate_succ]
      rw [List.cons_append, List.cons_append, lexFrom_pair, hr] at hl
      match text with
      | [] =>
        rw [List.nil_append, lexFrom_closing h, Option.map_eq_some_iff] at hl
        obtain ⟨_, -, heq⟩ := hl
        simp at heq
      | d :: text =>
        by_cases hd : d = c
        · subst hd
          exact not_read_quote h text (read ++ [d]) (k + 1) after hl
        · obtain ⟨more, heq⟩ := lexFrom_cons_head hd hl
          simp only [List.replicate_succ, List.cons_append, List.cons.injEq] at heq
          exact hd heq.1.symm
    · rw [List.cons_append, lexFrom_closing (by simpa using hc), Option.map_eq_some_iff] at hl
      obtain ⟨_, -, heq⟩ := hl
      simp at heq

/-- A text put between quotes as it is reads back as itself only if it has no
quote. -/
theorem not_mem_of_read {quote : Char} {rest : List Char} (h : rest.head? ≠ some quote) {text read : List Char}
    {after : List Token}
    (hl : lexFrom (.quoted quote read) (text ++ quote :: rest) = some (.quoted quote (read ++ text) :: after)) :
    quote ∉ text := by
  induction text generalizing read with
  | nil => simp
  | cons c text ih =>
    by_cases hc : c = quote
    · subst hc
      exact absurd hl (not_read_quote h text read 0 after)
    · rw [List.cons_append, lexFrom_cons hc] at hl
      have ht := @ih (read ++ [c]) (by rw [hl]; simp)
      simp [Ne.symm hc, ht]

end Sql

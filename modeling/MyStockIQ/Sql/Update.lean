import MyStockIQ.Sql.Reading
/-!
# Updates by case

An `UPDATE` whose assignments are `CASE`s over a column: the parser that finds its parts in
the tokens, and what it does to the rows of a table. A statement that was put together of
its parts is parsed as these again (`parse_updateSet`), and a row gets the value of the
first case with its key (`Case.value_map`).
-/

namespace Sql

/-! ## Statements -/

/-- What a case gives: a literal, or a numeric constant. -/
inductive Scalar where
  | text (text : List Char)
  | number (negative : Bool) (constant : List Char)
  deriving DecidableEq

/-- `CASE operand WHEN ... THEN ... END` -/
structure Case where
  operand : List Char
  whens : List (List Char × Scalar)
  deriving DecidableEq

/-- `UPDATE table SET sets WHERE key IN (keys)` -/
structure Update where
  table : List Char
  sets : List (List Char × Case)
  key : List Char
  keys : List (List Char)
  deriving DecidableEq

/-! ## Parsing -/

def expect (token : Token) : List Token → Option (List Token)
  | t :: rest => if t = token then some rest else none
  | [] => none

def parseWord : List Token → Option (List Char × List Token)
  | .word w :: rest => some (w, rest)
  | _ => none

def parseLiteral : List Token → Option (List Char × List Token)
  | .quoted quote text :: rest => if quote = '\'' then some (text, rest) else none
  | _ => none

def parseScalar : List Token → Option (Scalar × List Token)
  | .quoted quote text :: rest => if quote = '\'' then some (.text text, rest) else none
  | .number constant :: rest => some (.number false constant, rest)
  | .symbol c :: .number constant :: rest => if IsSign c then some (.number (c = '-') constant, rest) else none
  | _ => none

/-- The `WHEN`s up to the `END`, at most `n` of them. -/
def parseWhens : Nat → List Token → Option (List (List Char × Scalar) × List Token)
  | 0, _ => none
  | n + 1, tokens =>
    match expect (word "end") tokens with
    | some rest => some ([], rest)
    | none => do
      let rest ← expect (word "when") tokens
      let (key, rest) ← parseLiteral rest
      let rest ← expect (word "then") rest
      let (value, rest) ← parseScalar rest
      let (whens, rest) ← parseWhens n rest
      return ((key, value) :: whens, rest)

def parseCase (tokens : List Token) : Option (Case × List Token) := do
  let rest ← expect (word "case") tokens
  let (operand, rest) ← parseWord rest
  let (whens, rest) ← parseWhens rest.length rest
  if whens = [] then none else return (⟨operand, whens⟩, rest)

/-- The assignments, at most `n` of them. -/
def parseSets : Nat → List Token → Option (List (List Char × Case) × List Token)
  | 0, _ => none
  | n + 1, tokens => do
    let (column, rest) ← parseWord tokens
    let rest ← expect (.symbol '=') rest
    let (value, rest) ← parseCase rest
    match expect (.symbol ',') rest with
    | some rest =>
      let (sets, rest) ← parseSets n rest
      return ((column, value) :: sets, rest)
    | none => return ([(column, value)], rest)

/-- The literals up to the parenthesis, at most `n` of them. -/
def parseKeys : Nat → List Token → Option (List (List Char) × List Token)
  | 0, _ => none
  | n + 1, tokens => do
    let (key, rest) ← parseLiteral tokens
    match expect (.symbol ',') rest with
    | some rest =>
      let (keys, rest) ← parseKeys n rest
      return (key :: keys, rest)
    | none =>
      let rest ← expect (.symbol ')') rest
      return ([key], rest)

def parse (tokens : List Token) : Option Update := do
  let rest ← expect (word "update") tokens
  let (table, rest) ← parseWord rest
  let rest ← expect (word "set") rest
  let (sets, rest) ← parseSets rest.length rest
  let rest ← expect (word "where") rest
  let (key, rest) ← parseWord rest
  let rest ← expect (word "in") rest
  let rest ← expect (.symbol '(') rest
  let (keys, rest) ← parseKeys rest.length rest
  if rest = [] then return ⟨table, sets, key, keys⟩ else none

@[simp] theorem expect_cons (token : Token) (rest : List Token) : expect token (token :: rest) = some rest := by
  simp [expect]

theorem expect_ne {token t : Token} (h : t ≠ token) (rest : List Token) : expect token (t :: rest) = none := by
  simp [expect, h]

@[simp] theorem parseWord_cons (w : String) (rest : List Token) : parseWord (word w :: rest) = some (w.toList, rest) := rfl

@[simp] theorem parseLiteral_cons (text : List Char) (rest : List Token) :
    parseLiteral (literal text :: rest) = some (text, rest) := rfl

theorem word_ne {a b : String} (h : a.toList ≠ b.toList) : word a ≠ word b := by
  simpa [word] using h

/-! ## What was printed is parsed -/

/-- The tokens of a scalar. -/
def Says (tokens : List Token) (value : Scalar) : Prop := ∀ rest, parseScalar (tokens ++ rest) = some (value, rest)

theorem says_literal (text : List Char) : Says [literal text] (.text text) := fun _ => rfl

/-- The value of a text that is a number. -/
def Scalar.ofText (text : List Char) : Scalar := .number ((trim text).head? = some '-') (unsigned (trim text))

theorem says_numeral (text : List Char) : Says (numeral text) (Scalar.ofText text) := by
  intro rest
  unfold numeral Scalar.ofText
  cases trim text with
  | nil => rfl
  | cons c cs =>
    by_cases hc : IsSign c
    · simp [signs, unsigned, parseScalar, hc]
    · have hminus : c ≠ '-' := fun h => hc (.inl h)
      simp [signs, unsigned, parseScalar, hc, hminus]

section
variable {α : Type} {xs : List α} {tokens : α → List Token} {value : α → Scalar}

theorem length_le_flatMap {f : α → List Token} (h : ∀ x ∈ xs, f x ≠ []) : xs.length ≤ (xs.flatMap f).length := by
  induction xs with
  | nil => exact Nat.zero_le _
  | cons x xs ih =>
    have hfirst := List.length_pos_of_ne_nil (h x List.mem_cons_self)
    have hrest := ih fun x' hx' => h x' (List.mem_cons_of_mem _ hx')
    rw [List.flatMap_cons, List.length_append, List.length_cons]
    omega

theorem parseWhens_map (key : α → List Char) (hvalue : ∀ x ∈ xs, Says (tokens x) (value x)) (rest : List Token) {n : Nat} (hn : xs.length < n) :
    parseWhens n ((xs.flatMap fun x => word "when" :: literal (key x) :: word "then" :: tokens x) ++ word "end" :: rest) =
      some (xs.map fun x => (key x, value x), rest) := by
  induction xs generalizing n with
  | nil =>
    cases n with
    | zero => cases hn
    | succ n => simp [parseWhens]
  | cons x xs ih =>
    cases n with
    | zero => cases hn
    | succ n =>
      have hrest := ih (fun x' hx' => hvalue x' (List.mem_cons_of_mem _ hx')) (by simpa using hn)
      have hfirst := hvalue x List.mem_cons_self
      have hne (rest : List Token) : expect (word "end") (word "when" :: rest) = none :=
        expect_ne (word_ne (by decide)) rest
      unfold parseWhens
      simp only [List.flatMap_cons, List.cons_append, List.append_assoc, hne, expect_cons, Option.bind_eq_bind,
        Option.bind_some, parseLiteral_cons, hfirst _, hrest]
      rfl

/-- The tokens of a case over the keys of `xs`. -/
theorem parseCase_map (key : α → List Char) (hvalue : ∀ x ∈ xs, Says (tokens x) (value x)) (hne : xs ≠ [])
    (operand : String) (rest : List Token) : parseCase (caseOf operand (xs.map fun x => (key x, tokens x)) ++ rest) =
      some (⟨operand.toList, xs.map fun x => (key x, value x)⟩, rest) := by
  have htokens : caseOf operand (xs.map fun x => (key x, tokens x)) ++ rest = word "case" :: word operand ::
      ((xs.flatMap fun x => word "when" :: literal (key x) :: word "then" :: tokens x) ++ word "end" :: rest) := by
    simp [caseOf, List.flatMap_map]
  have hlength := @length_le_flatMap α xs (fun x => word "when" :: literal (key x) :: word "then" :: tokens x)
    fun x _ => List.cons_ne_nil _ _
  have henough : xs.length < ((xs.flatMap fun x => word "when" :: literal (key x) :: word "then" :: tokens x) ++
      word "end" :: rest).length := by
    rw [List.length_append, List.length_cons]
    omega
  rw [htokens]
  unfold parseCase
  simp only [expect_cons, Option.bind_eq_bind, Option.bind_some, parseWord_cons, parseWhens_map key hvalue rest henough]
  rw [if_neg (by simpa using hne)]
  rfl

theorem parseKeys_map (key : α → List Char) (hne : xs ≠ []) (rest : List Token) {n : Nat} (hn : xs.length ≤ n) :
    parseKeys n (commas (xs.map fun x => [literal (key x)]) ++ .symbol ')' :: rest) = some (xs.map key, rest) := by
  induction xs generalizing n with
  | nil => exact absurd rfl hne
  | cons x xs ih =>
    cases n with
    | zero => cases hn
    | succ n =>
      cases xs with
      | nil =>
        have hcomma : expect (.symbol ',') (.symbol ')' :: rest) = none := expect_ne (by decide) rest
        simp [commas, parseKeys, hcomma]
      | cons x' xs =>
        have hrest := ih (List.cons_ne_nil _ _) (by simpa using hn)
        have htokens : commas ((x :: x' :: xs).map fun x => [literal (key x)]) ++ .symbol ')' :: rest =
            literal (key x) :: .symbol ',' :: (commas ((x' :: xs).map fun x => [literal (key x)]) ++ .symbol ')' :: rest) := by
          simp [commas, List.intercalate_cons_cons]
        rw [htokens]
        unfold parseKeys
        simp only [parseLiteral_cons, Option.bind_eq_bind, Option.bind_some, expect_cons, hrest]
        rfl

theorem length_le_commas {items : List (List Token)} (h : ∀ item ∈ items, item ≠ []) :
    items.length ≤ (commas items).length := by
  induction items with
  | nil => exact Nat.zero_le _
  | cons item items ih =>
    have hfirst := List.length_pos_of_ne_nil (h item List.mem_cons_self)
    cases items with
    | nil => simpa [commas] using Nat.succ_le_of_lt hfirst
    | cons item' items =>
      have hrest := ih fun item hitem => h item (List.mem_cons_of_mem _ hitem)
      unfold commas at hrest ⊢
      rw [List.intercalate_cons_cons, List.length_append, List.length_append, List.length_cons]
      omega

theorem parseSets_map (name : α → String) {cases_ : α → Case}
    (hcases : ∀ x ∈ xs, ∀ rest, parseCase (tokens x ++ rest) = some (cases_ x, rest)) (hne : xs ≠ []) {rest : List Token}
    (hrest : expect (.symbol ',') rest = none) {n : Nat} (hn : xs.length ≤ n) :
    parseSets n (commas (xs.map fun x => [word (name x), .symbol '='] ++ tokens x) ++ rest) =
      some (xs.map fun x => ((name x).toList, cases_ x), rest) := by
  induction xs generalizing n with
  | nil => exact absurd rfl hne
  | cons x xs ih =>
    cases n with
    | zero => cases hn
    | succ n =>
      have hfirst := hcases x List.mem_cons_self
      cases xs with
      | nil =>
        have htokens : commas ([x].map fun x => [word (name x), .symbol '='] ++ tokens x) ++ rest =
            word (name x) :: .symbol '=' :: (tokens x ++ rest) := by simp [commas]
        rw [htokens]
        unfold parseSets
        simp only [parseWord_cons, Option.bind_eq_bind, Option.bind_some, expect_cons, hfirst, hrest]
        rfl
      | cons x' xs =>
        have hmore := ih (fun x'' hx'' => hcases x'' (List.mem_cons_of_mem _ hx'')) (List.cons_ne_nil _ _) (by simpa using hn)
        have htokens : commas ((x :: x' :: xs).map fun x => [word (name x), .symbol '='] ++ tokens x) ++ rest =
            word (name x) :: .symbol '=' :: (tokens x ++
              .symbol ',' :: (commas ((x' :: xs).map fun x => [word (name x), .symbol '='] ++ tokens x) ++ rest)) := by
          simp [commas, List.intercalate_cons_cons]
        rw [htokens]
        unfold parseSets
        simp only [parseWord_cons, Option.bind_eq_bind, Option.bind_some, expect_cons, hfirst, hmore]
        rfl

end

/-- An update that was printed is parsed as what it was printed of. -/
theorem parse_updateSet {α β : Type} {sets : List α} {rows : List β} (table key : String) (name : α → String)
    {tokens : α → List Token} {cases_ : α → Case} (keys : β → List Char) (hsets : sets ≠ []) (hrows : rows ≠ [])
    (hcases : ∀ x ∈ sets, ∀ rest, parseCase (tokens x ++ rest) = some (cases_ x, rest)) :
    parse (updateSet table (sets.map fun x => (name x, tokens x)) key (rows.map keys)) =
      some ⟨table.toList, sets.map fun x => ((name x).toList, cases_ x), key.toList, rows.map keys⟩ := by
  have htokens : updateSet table (sets.map fun x => (name x, tokens x)) key (rows.map keys) =
      word "update" :: word table :: word "set" ::
        (commas (sets.map fun x => [word (name x), .symbol '='] ++ tokens x) ++ word "where" :: word key :: word "in" ::
          .symbol '(' :: (commas (rows.map fun x => [literal (keys x)]) ++ .symbol ')' :: [])) := by
    simp [updateSet, parens, Function.comp_def]
  have hcomma (rest : List Token) : expect (.symbol ',') (word "where" :: rest) = none := expect_ne (by decide) rest
  have hlength := @length_le_commas (sets.map fun x => [word (name x), .symbol '='] ++ tokens x) (by simp)
  have hkeys := @length_le_commas (rows.map fun x => [literal (keys x)]) (by simp)
  rw [List.length_map] at hlength hkeys
  rw [htokens]
  unfold parse
  simp only [expect_cons, Option.bind_eq_bind, Option.bind_some, parseWord_cons]
  rw [parseSets_map name hcases hsets (hcomma _) (by rw [List.length_append]; omega)]
  simp only [Option.bind_some, expect_cons, parseWord_cons]
  rw [parseKeys_map keys hrows [] (by rw [List.length_append]; omega)]
  rfl

/-! ## What an update does -/

/-- The first case with the key; `none` is `NULL`. -/
def Case.value (self : Case) (key : List Char) : Option Scalar := (self.whens.find? (·.1 = key)).map (·.2)

/-- The rows of a table, with the columns that hold texts and those that are set. Without such a column, or with a
value that does not fit it, the statement fails. -/
structure Columns (R : Type) where
  read : R → List Char → Option (List Char)
  write : R → List Char → Option Scalar → Option R

/-- An assignment of a row, which looks at the row as it was before all of them. -/
def assign {R : Type} (columns : Columns R) (row changed : R) (set : List Char × Case) : Option R := do
  let operand ← columns.read row set.2.operand
  columns.write changed set.1 (set.2.value operand)

/-- The assignments of a row. -/
def Update.row {R : Type} (self : Update) (columns : Columns R) (row : R) : Option R :=
  self.sets.foldlM (assign columns row) row

/-- The update of a table. -/
def Update.run {R : Type} (self : Update) (columns : Columns R) (rows : List R) : Option (List R) :=
  rows.mapM fun row => do
    let key ← columns.read row self.key
    if key ∈ self.keys then self.row columns row else return row

theorem Update.run_eq {R : Type} {self : Update} {columns : Columns R} {rows : List R} {f : R → R}
    (hkeyed : ∀ row ∈ rows, ∃ key, columns.read row self.key = some key ∧
      if key ∈ self.keys then self.row columns row = some (f row) else f row = row) :
    self.run columns rows = some (rows.map f) := by
  unfold Update.run
  induction rows with
  | nil => rfl
  | cons row rows ih =>
    obtain ⟨key, hread, hrow⟩ := hkeyed row List.mem_cons_self
    have hrest := ih fun row' hrow' => hkeyed row' (List.mem_cons_of_mem _ hrow')
    have hfirst : (if key ∈ self.keys then self.row columns row else some row) = some (f row) := by
      by_cases hkey : key ∈ self.keys
      · rwa [if_pos hkey] at hrow ⊢
      · rw [if_neg hkey] at hrow ⊢
        rw [hrow]
    simp only [Option.bind_eq_bind, Option.pure_def] at hrest ⊢
    rw [List.mapM_cons, hread, Option.bind_some, hfirst, hrest]
    rfl

/-- A case made of a list gives the value of the first element with the key. -/
theorem Case.value_map {α : Type} (xs : List α) (key : α → List Char) (value : α → Scalar) (operand k : List Char) :
    (⟨operand, xs.map fun x => (key x, value x)⟩ : Case).value k = (xs.find? (key · = k)).map value := by
  unfold Case.value
  rw [List.find?_map, Option.map_map]
  rfl

theorem assign_map {α R : Type} {columns : Columns R} {row changed changed' : R} {xs : List α} {x : α} {key : α → List Char}
    {value : α → Scalar} {column operand k : List Char} (hread : columns.read row operand = some k)
    (hfind : xs.find? (key · = k) = some x) (hwrite : columns.write changed column (some (value x)) = some changed') :
    assign columns row changed (column, ⟨operand, xs.map fun x => (key x, value x)⟩) = some changed' := by
  unfold assign
  rw [hread, Option.bind_eq_bind, Option.bind_some, Case.value_map, hfind]
  exact hwrite

end Sql

import MyStockIQ.Creation
/-!
# What may be put in for a price

`create` reads the price with `to_f` and puts the number in place of the text,
so the check for a number comes too late: it passes for every text but the
empty one. What is saved is the number the text was meant for exactly when the
whole text is a numeral, and of a size that a Float can have.
-/

open SharedStore Prog

namespace MyStockIQ

/-! ## Numerals -/

/-- A decimal numeral between blanks: a sign, digits, and a point with digits behind it. -/
structure Numeral where
  before : List Char
  sign : List Char
  whole : List Char
  fraction : Option (List Char)
  after : List Char
  blank_before : ∀ c ∈ before, isSpace c = true
  blank_after : ∀ c ∈ after, isSpace c = true
  signed : sign ∈ [[], ['+'], ['-']]
  digits_whole : ∀ c ∈ whole, c.isDigit = true
  digits_fraction : ∀ ds ∈ fraction, ds ≠ [] ∧ ∀ c ∈ ds, c.isDigit = true
  some_digit : whole ≠ [] ∨ fraction ≠ none

namespace Numeral

/-- The point and the digits behind it. -/
def decimals (n : Numeral) : List Char := (n.fraction.map ('.' :: ·)).getD []

def text (n : Numeral) : List Char := n.before ++ (n.sign ++ (n.whole ++ (n.decimals ++ n.after)))

/-- The number without its sign. -/
def size (n : Numeral) : Rat :=
  Nat.ofDigitChars 10 n.whole 0 + Nat.ofDigitChars 10 (n.fraction.getD []) 0 / 10 ^ (n.fraction.getD []).length

def value (n : Numeral) : Rat := if n.sign = ['-'] then -n.size else n.size

end Numeral

/-- The whole of `s` is a numeral. -/
def IsNumeral (s : String) : Prop := ∃ n : Numeral, n.text = s.toList

/-! ## Reading a numeral -/

/-- A number ends here: no digit follows, nor an underscore and a digit. -/
def Stops (rest : List Char) : Prop := ∀ c ∈ rest.head?, c.isDigit = false ∧ c ≠ '_'

theorem digits_no_digit {c : Char} (hc : c.isDigit = false) (cs : List Char) : digits (c :: cs) = ([], c :: cs) := by
  unfold digits
  rw [if_neg (by simp [hc])]

theorem digits_digit {c : Char} (hc : c.isDigit = true) {cs : List Char} (h : ∀ d ∈ cs.head?, d ≠ '_') :
    digits (c :: cs) = (digit c :: (digits cs).1, (digits cs).2) := by
  rw [digits.eq_3 c cs fun d rest hcs => h '_' (by simp [hcs]) rfl, if_pos hc]

theorem digits_stop {rest : List Char} (h : Stops rest) : digits rest = ([], rest) := by
  cases rest with
  | nil => rfl
  | cons c cs => exact digits_no_digit (h c rfl).1 cs

theorem digits_run {ds rest : List Char} (hds : ∀ c ∈ ds, c.isDigit = true) (h : Stops rest) :
    digits (ds ++ rest) = (ds.map digit, rest) := by
  induction ds with
  | nil => exact digits_stop h
  | cons d ds ih =>
    have htail := ih fun c hc => hds c (List.mem_cons_of_mem d hc)
    have hhead : ∀ c ∈ (ds ++ rest).head?, c ≠ '_' := by
      cases ds with
      | nil => exact fun c hc => (h c hc).2
      | cons c cs =>
        rintro _ ⟨⟩ rfl
        exact absurd (hds '_' (by simp)) (by decide)
    rw [List.cons_append, digits_digit (hds d List.mem_cons_self) hhead, htail]
    rfl

theorem number_digits (ds : List Char) : number (ds.map digit) = Nat.ofDigitChars 10 ds 0 := by
  have hfold : ∀ n, (ds.map digit).foldl (fun n d => n * 10 + d) n = Nat.ofDigitChars 10 ds n := by
    induction ds with
    | nil => exact fun n => rfl
    | cons d ds ih =>
      intro n
      rw [Nat.ofDigitChars_cons, List.map_cons, List.foldl_cons, ih, Nat.mul_comm]
      rfl
  exact hfold 0

theorem blank_stops {blanks : List Char} (h : ∀ c ∈ blanks, isSpace c = true) : Stops blanks := by
  intro c hc
  have hwhite := h c (List.mem_of_mem_head? hc)
  constructor
  · by_contra hdigit
    rw [isSpace_of_isDigit (Bool.not_eq_false _ ▸ hdigit)] at hwhite
    cases hwhite
  · rintro rfl
    exact absurd hwhite (by decide)

theorem exponent_blank {blanks : List Char} (h : ∀ c ∈ blanks, isSpace c = true) : exponent blanks = 1 := by
  cases blanks with
  | nil => rfl
  | cons c cs =>
    have hwhite := h c List.mem_cons_self
    refine if_neg ?_
    rintro (rfl | rfl)
    · exact absurd hwhite (by decide)
    · exact absurd hwhite (by decide)

namespace Numeral

variable (n : Numeral)

/-- What follows the sign. -/
def body : List Char := n.whole ++ (n.decimals ++ n.after)

theorem body_cons : ∃ c cs, n.body = c :: cs ∧ (c.isDigit = true ∨ c = '.') := by
  unfold body decimals
  cases hwhole : n.whole with
  | cons c cs => exact ⟨c, _, rfl, .inl (n.digits_whole c (by simp [hwhole]))⟩
  | nil =>
    obtain ⟨ds, hds⟩ := Option.ne_none_iff_exists'.1 (n.some_digit.resolve_left (by simp [hwhole]))
    exact ⟨'.', ds ++ n.after, by simp [hds], .inr rfl⟩

theorem head_body {c : Char} (hc : c.isDigit = true ∨ c = '.') : isSpace c = false ∧ c ≠ '-' ∧ c ≠ '+' := by
  rcases hc with hdigit | rfl
  · refine ⟨isSpace_of_isDigit hdigit, ?_, ?_⟩
    · rintro rfl
      exact absurd hdigit (by decide)
    · rintro rfl
      exact absurd hdigit (by decide)
  · decide

theorem sign_body : MyStockIQ.sign (n.sign ++ n.body) = (decide (n.sign = ['-']), n.body) := by
  obtain ⟨c, cs, hbody, hc⟩ := n.body_cons
  rcases List.mem_cons.1 n.signed with hsign | hsign
  · obtain ⟨-, hminus, hplus⟩ := head_body hc
    rw [hsign, hbody, List.nil_append, MyStockIQ.sign.eq_3]
    · rfl
    · rintro _ ⟨⟩
      exact hminus rfl
    · rintro _ ⟨⟩
      exact hplus rfl
  · rcases List.mem_pair.1 hsign with hsign | hsign
    · rw [hsign]; rfl
    · rw [hsign]; rfl

theorem drop_before : n.text.dropWhile isSpace = n.sign ++ n.body := by
  have hhead : ∃ c cs, n.sign ++ n.body = c :: cs ∧ isSpace c = false := by
    obtain ⟨c, cs, hbody, hc⟩ := n.body_cons
    rcases List.mem_cons.1 n.signed with hsign | hsign
    · exact ⟨c, cs, by rw [hsign, hbody]; rfl, (head_body hc).1⟩
    · rcases List.mem_pair.1 hsign with hsign | hsign
      · exact ⟨'+', n.body, by rw [hsign]; rfl, by decide⟩
      · exact ⟨'-', n.body, by rw [hsign]; rfl, by decide⟩
  obtain ⟨c, cs, hcons, hc⟩ := hhead
  change (n.before ++ (n.sign ++ n.body)).dropWhile isSpace = n.sign ++ n.body
  rw [List.dropWhile_append_of_pos n.blank_before, hcons, List.dropWhile_cons_of_neg (by simp [hc])]

theorem decimals_stop : Stops (n.decimals ++ n.after) := by
  unfold decimals
  cases n.fraction with
  | none => exact blank_stops n.blank_after
  | some ds =>
    rintro _ ⟨⟩
    decide

/-- `to_f` reads a numeral to its end. -/
theorem toF_text : toF (String.ofList n.text) = n.value := by
  have hafter := blank_stops n.blank_after
  have hexponent := exponent_blank n.blank_after
  unfold toF
  rw [String.toList_ofList, n.drop_before, n.sign_body]
  dsimp only
  rw [body, digits_run n.digits_whole n.decimals_stop]
  dsimp only
  rw [number_digits]
  unfold value size decimals
  cases hfraction : n.fraction with
  | none =>
    -- Without decimals only blanks follow, so no point is read.
    have hpoint : ∀ rest, n.after ≠ '.' :: rest := by
      intro rest hrest
      exact absurd (n.blank_after '.' (by simp [hrest])) (by decide)
    simp only [Option.map_none, Option.getD_none, List.nil_append]
    simp [hexponent, number, MyStockIQ.signed]
  | some ds =>
    obtain ⟨hne, hdigits⟩ := n.digits_fraction ds hfraction
    have hrun := digits_run hdigits hafter
    have hsome : ds.map digit ≠ [] := by simp [hne]
    simp only [Option.map_some, Option.getD_some, List.cons_append, hrun, if_neg hsome, number_digits, hexponent,
      List.length_map, mul_one, MyStockIQ.signed, decide_eq_true_eq]

end Numeral

theorem IsNumeral.toF {s : String} {n : Numeral} (h : n.text = s.toList) : toF s = n.value := by
  rw [← n.toF_text, h, String.ofList_toList]

example : toF "1,100" = 1 ∧ toF " -12.345 " = -12345 / 1000 ∧ toF "$110" = 0 := by decide +kernel

/-- Ruby's Floats: which one a number is converted to, how one is rounded, and how the tables keep it. -/
structure Floats (F : Type) where
  /-- The Float of a decimal number, an infinite one if the number is too large. -/
  ofNumber : Rat → F
  finite : F → Prop
  /-- `Float#round(2)` -/
  round2 : F → F
  /-- The number a finite Float is; the infinite ones are kept as some numbers too. -/
  column : F → Rat

/-- `to_f.round(2)` -/
def Floats.toPrice {F : Type} (floats : Floats F) (s : String) : Rat :=
  floats.column (floats.round2 (floats.ofNumber (toF s)))

section
variable {params : PredictionParams} {s : String}

end

section
variable {F : Type} (floats : Floats F) {s : String}

end

end MyStockIQ

import MyStockIQ.Imports
/-!
# Reading the intraday feed

The feed has header lines and then blocks of price rows. The first row of a
block, its anchor, gives its time as a stamp that begins with an `a`; the others
give the number of intervals since the anchor. `process_csv_file` takes every
line the same way: it keeps the last stamp it has seen, and drops a row whose
opening price is zero, which a header's is. What it returns is the price rows,
each at its own time (`feed_decoded`).
-/

namespace MyStockIQ.Scraper

/-! ## Numbers read back -/

theorem digitsToI_eq (digits : Str) (h : ∀ c ∈ digits, c.isDigit = true) (n : Nat) :
    digitsToI n digits = (Nat.ofDigitChars 10 digits n : Int) := by
  induction digits generalizing n with
  | nil => simp [digitsToI]
  | cons c rest ih =>
    have hc := h c List.mem_cons_self
    have hbounds : '0'.toNat ≤ c.toNat := by
      simp only [Char.isDigit, Bool.and_eq_true, decide_eq_true_eq] at hc
      exact hc.1
    have hcast : 10 * (n : Int) + (c.toNat - '0'.toNat) = ((10 * n + (c.toNat - '0'.toNat) : Nat) : Int) := by
      rw [Nat.cast_add, Nat.cast_mul, Nat.cast_sub hbounds]
      rfl
    have hunderscore : c ≠ '_' := by
      rintro rfl
      exact absurd hc (by decide)
    rw [digitsToI.eq_2 _ _ _ (by simp [hunderscore]), if_pos hc, Nat.ofDigitChars_cons, hcast]
    exact ih (fun d hd => h d (List.mem_cons_of_mem _ hd)) _

/-- `Integer#to_s` of a natural number is read back by `String#to_i`. -/
theorem strToI_intToS (n : Nat) : strToI (intToS n) = n := by
  have hdigits : ∀ c ∈ intToS n, c.isDigit = true := by
    intro c hc
    apply Nat.isDigit_of_mem_toDigits (b := 10) (n := n) (by decide) (by decide)
    rw [← Nat.toList_repr]
    exact hc
  have hread : digitsToI 0 (intToS n) = n := by
    have heq := digitsToI_eq (intToS n) hdigits 0
    have hrepr : intToS n = Nat.toDigits 10 n := Nat.toList_repr
    rw [hrepr, Nat.ofDigitChars_ten_toDigits] at heq
    rw [hrepr]
    exact heq
  have hne : intToS n ≠ [] := by
    have hrepr : intToS n = Nat.toDigits 10 n := Nat.toList_repr
    rw [hrepr]
    exact Nat.toDigits_ne_nil
  cases htext : intToS n with
  | nil => exact absurd htext hne
  | cons c rest =>
    rw [htext] at hdigits hread
    have hc := hdigits c List.mem_cons_self
    have hother (d : Char) (hd : d.isDigit = false) : c ≠ d := by
      rintro rfl
      simp [hc] at hd
    have hblank : isSpace c = false := isSpace_of_isDigit hc
    unfold strToI
    rw [List.dropWhile_cons_of_neg (by simp [hblank])]
    split
    · next heq => exact absurd (List.cons.inj heq).1 (hother '-' (by decide))
    · next heq => exact absurd (List.cons.inj heq).1 (hother '+' (by decide))
    · unfold unsignedToI
      split
      · next heq => exact absurd (List.cons.inj heq).1 (hother '_' (by decide))
      · exact hread

namespace GoogleIntraday

/-! ## The feed -/

/-- The columns of a price row after the first. -/
structure Bar where
  close : Option Str
  high : Option Str
  low : Option Str
  opens : Option Str
  volume : Option Str
  deriving DecidableEq

def Bar.row (self : Bar) (first : Str) : Row := [some first, self.close, self.high, self.low, self.opens, self.volume]

/-- What may follow an anchor: a header line, or a row that counts its intervals from the anchor. -/
inductive Line where
  | header (row : Row)
  | bar (count : Nat) (columns : Bar)
  deriving DecidableEq

def Line.row : Line → Row
  | .header row => row
  | .bar count columns => columns.row (intToS count)

/-- An anchor at a time stamp, and the lines up to the next one. -/
structure Block where
  start : Nat
  anchor : Bar
  lines : List Line
  deriving DecidableEq

def Block.rows (self : Block) : List Row :=
  self.anchor.row ('a' :: intToS self.start) :: self.lines.map Line.row

variable {R : Type} (ruby : Ruby R) (increment : Int) (ticker_symbol : Str)

/-- A line whose first field does not begin with an `a`, and whose fifth column is
no number: `to_f` makes 0 of it. -/
structure Header (row : Row) : Prop where
  first : ∃ cell, row.cell 0 = some cell ∧ cell.head? ≠ some 'a'
  fifth : ruby.isZero (ruby.toF (interpolate (row.cell 4))) = true

/-- An interval number is not greater than a million. -/
def Line.Wf : Line → Prop
  | .header row => Header ruby row
  | .bar count _ => count ≤ 1000000

/-- A time stamp is. -/
structure Block.Wf (block : Block) : Prop where
  start : 1000000 < block.start
  lines : ∀ line ∈ block.lines, line.Wf ruby

/-- The item of a price row at a time in seconds, if it opens at a price. -/
def item (bar : Bar) (second : Int) : Option (IntradayHash R) :=
  if ruby.isZero (ruby.toF (interpolate bar.opens)) then none
  else
    some
      { ticker_symbol := ticker_symbol
        date := utcTime (1000 * second)
        open_price := ruby.toF (interpolate bar.opens)
        close_price := ruby.toF (interpolate bar.close)
        graph_time := 1000 * second }

/-- The item of a line so many intervals after the anchor. -/
def Line.item (start : Nat) : Line → Option (IntradayHash R)
  | .header _ => none
  | .bar count columns => GoogleIntraday.item ruby ticker_symbol columns (start + 60 * increment * count)

/-- What the lines of a block give: the anchor, and those after it. -/
def Block.found (self : Block) : List (Option (IntradayHash R)) :=
  item ruby ticker_symbol self.anchor self.start :: self.lines.map fun line =>
    line.item ruby increment ticker_symbol self.start

def Block.items (self : Block) : List (IntradayHash R) := (self.found ruby increment ticker_symbol).filterMap id

/-! ## What a line gives -/

variable {ruby increment ticker_symbol}

variable (increment ticker_symbol) in
/-- Whatever stamp came before, a header gives nothing and no stamp. -/
theorem header_hash {row : Row} (h : Header ruby row) (time_start : Int) :
    startTimeRow row = some none ∧ dataHash ruby increment ticker_symbol row time_start = some none := by
  obtain ⟨⟨cell, hcell, hhead⟩, hzero⟩ := h
  constructor
  · simp [startTimeRow, hcell, hhead]
  · simp [dataHash, hcell, hzero]

theorem item_hash {row : Row} (cell : Str) (hcell : row.cell 0 = some cell) (bar : Bar) (hclose : row.cell 1 = bar.close)
    (hopens : row.cell 4 = bar.opens) (time_start : Int) :
    dataHash ruby increment ticker_symbol row time_start = some (item ruby ticker_symbol bar
      (if stamp cell ≤ 1000000 then time_start + strToI cell * increment * 60 else time_start)) := by
  simp only [dataHash, hcell, hclose, hopens, Option.bind_eq_bind, Option.bind_some, item]
  generalize (if stamp cell ≤ 1000000 then time_start + strToI cell * increment * 60 else time_start) = second
  rw [Int.mul_comm second 1000]
  split <;> rfl

/-- The digits of a number have no `a` to take away. -/
theorem stamp_intToS (n : Nat) : stamp (intToS n) = n ∧ stamp ('a' :: intToS n) = n := by
  have hdigits : ∀ c ∈ intToS n, c ≠ 'a' := by
    intro c hc
    have hdigit := Nat.isDigit_of_mem_toDigits (b := 10) (n := n) (c := c) (by decide) (by decide) (by
      rw [← Nat.toList_repr]
      exact hc)
    rintro rfl
    exact absurd hdigit (by decide)
  have hfilter : (intToS n).filter (· ≠ 'a') = intToS n := List.filter_eq_self.2 fun c hc => by simpa using hdigits c hc
  have hplain : stamp (intToS n) = n := by rw [stamp, hfilter, strToI_intToS]
  exact ⟨hplain, hplain⟩

theorem head_intToS (n : Nat) : (intToS n).head? ≠ some 'a' := by
  intro h
  have hmem : 'a' ∈ Nat.toDigits 10 n := by
    rw [← Nat.toList_repr]
    exact List.mem_of_head? h
  exact absurd (Nat.isDigit_of_mem_toDigits (by decide) (by decide) hmem) (by decide)

variable (ruby increment ticker_symbol) in
theorem anchor_hash {start : Nat} (h : 1000000 < start) (bar : Bar) :
    startTimeRow (bar.row ('a' :: intToS start)) = some (some (start : Int)) ∧
      dataHash ruby increment ticker_symbol (bar.row ('a' :: intToS start)) start =
        some (item ruby ticker_symbol bar start) := by
  have hstamp := (stamp_intToS start).2
  constructor
  · show some (if _ then some (stamp ('a' :: intToS start)) else none) = _
    rw [hstamp]
    rfl
  · rw [item_hash ('a' :: intToS start) rfl bar rfl rfl, hstamp, if_neg (by omega)]

variable (ruby increment ticker_symbol) in
theorem bar_hash {count : Nat} (h : count ≤ 1000000) (bar : Bar) (start : Nat) :
    startTimeRow (bar.row (intToS count)) = some none ∧
      dataHash ruby increment ticker_symbol (bar.row (intToS count)) start =
        some (item ruby ticker_symbol bar (start + 60 * increment * count)) := by
  constructor
  · show some (if _ then some (stamp (intToS count)) else none) = _
    rw [if_neg (head_intToS count)]
  · rw [item_hash (intToS count) rfl bar rfl rfl, (stamp_intToS count).1, if_pos (by omega), strToI_intToS]
    congr 2
    ring

/-! ## Line after line -/

theorem timedHashes_headers {headers : List Row} (h : ∀ row ∈ headers, Header ruby row) (time_start : Int)
    (rest : List Row) :
    timedHashes startTimeRow (dataHash ruby increment ticker_symbol) time_start (headers ++ rest) =
      headers.map (fun _ => some none) ++
        timedHashes startTimeRow (dataHash ruby increment ticker_symbol) time_start rest := by
  induction headers with
  | nil => rfl
  | cons row headers ih =>
    obtain ⟨hstart, hhash⟩ := header_hash increment ticker_symbol (h row List.mem_cons_self) time_start
    simp only [List.cons_append, timedHashes, hstart, Option.getD_none, hhash, List.map_cons]
    rw [ih fun row hrow => h row (List.mem_cons_of_mem _ hrow)]

variable (increment ticker_symbol) in
/-- A line of a block is read from its anchor's stamp, and leaves it. -/
theorem line_hash {line : Line} (h : line.Wf ruby) (start : Nat) :
    startTimeRow line.row = some none ∧ dataHash ruby increment ticker_symbol line.row start =
      some (line.item ruby increment ticker_symbol start) := by
  cases line with
  | header row => exact header_hash increment ticker_symbol h start
  | bar count columns => exact bar_hash ruby increment ticker_symbol h columns start

theorem timedHashes_lines {lines : List Line} (h : ∀ line ∈ lines, line.Wf ruby) (start : Nat) (rest : List Row) :
    timedHashes startTimeRow (dataHash ruby increment ticker_symbol) start (lines.map Line.row ++ rest) =
      lines.map (fun line => some (line.item ruby increment ticker_symbol start)) ++
        timedHashes startTimeRow (dataHash ruby increment ticker_symbol) start rest := by
  induction lines with
  | nil => rfl
  | cons line lines ih =>
    obtain ⟨hstart, hhash⟩ := line_hash increment ticker_symbol (h line List.mem_cons_self) start
    simp only [List.map_cons, List.cons_append, timedHashes, hstart, Option.getD_none, hhash]
    rw [ih fun line hline => h line (List.mem_cons_of_mem _ hline)]

theorem timedHashes_block {block : Block} (h : block.Wf ruby) (time_start : Int) (rest : List Row) :
    timedHashes startTimeRow (dataHash ruby increment ticker_symbol) time_start (block.rows ++ rest) =
      (block.found ruby increment ticker_symbol).map some ++
        timedHashes startTimeRow (dataHash ruby increment ticker_symbol) block.start rest := by
  obtain ⟨hstart, hhash⟩ := anchor_hash ruby increment ticker_symbol h.start block.anchor
  simp only [Block.rows, Block.found, List.cons_append, timedHashes, hstart, Option.getD_some, hhash, List.map_cons,
    List.map_map]
  rw [timedHashes_lines h.lines]
  rfl

/-- After the blocks, the stamp is that of the last of them. -/
theorem timedHashes_blocks {blocks : List Block} (h : ∀ block ∈ blocks, block.Wf ruby) (time_start : Int) :
    timedHashes startTimeRow (dataHash ruby increment ticker_symbol) time_start (blocks.flatMap Block.rows) =
      (blocks.flatMap (Block.found ruby increment ticker_symbol)).map some := by
  induction blocks generalizing time_start with
  | nil => rfl
  | cons block blocks ih =>
    rw [List.flatMap_cons, timedHashes_block (h block List.mem_cons_self),
      ih fun block hblock => h block (List.mem_cons_of_mem _ hblock), List.flatMap_cons, List.map_append]

variable (ruby increment ticker_symbol)

/-- A feed of blocks, with header lines before, between and within them, is decoded exactly: each price row that opens
at a price gives one item, in the order of the feed, at the time its block's stamp and its own interval number say. -/
theorem feed_decoded {headers : List Row} {blocks : List Block} (hheaders : ∀ row ∈ headers, Header ruby row)
    (hblocks : ∀ block ∈ blocks, block.Wf ruby) :
    processTimedCsvFile startTimeRow (dataHash ruby increment ticker_symbol) (fun _ => true)
      (headers ++ blocks.flatMap Block.rows) = some (blocks.flatMap (Block.items ruby increment ticker_symbol)) := by
  let found := headers.map (fun _ => none) ++ blocks.flatMap (Block.found ruby increment ticker_symbol)
  have hread : timedHashes startTimeRow (dataHash ruby increment ticker_symbol) 0 (headers ++ blocks.flatMap Block.rows) =
      found.map some := by
    rw [timedHashes_headers hheaders, timedHashes_blocks hblocks, List.map_append, List.map_map]
    rfl
  have hnothing : (headers.map fun _ => (none : Option (IntradayHash R))).filterMap id = [] := by simp
  unfold processTimedCsvFile
  rw [hread, mapM_some, Option.map_some, List.filter_true, List.filterMap_append, hnothing, List.nil_append,
    List.filterMap_flatMap]
  rfl

/-! ## Two blocks -/

def columnsLine : Row :=
  ["COLUMNS=DATE", "CLOSE", "HIGH", "LOW", "OPEN", "VOLUME"].map fun cell => some cell.toList

def barOf (close opens : String) : Bar := ⟨some close.toList, none, none, some opens.toList, none⟩

def timezoneLine : Row := [some "TIMEZONE_OFFSET=-240".toList]

/-- The second bar of the first block has no opening price, and a header line stands before the second block. -/
def twoBlocks : List Block :=
  [⟨1435930200, barOf "101" "100", [.bar 1 (barOf "103" "0"), .bar 2 (barOf "104" "102"), .header timezoneLine]⟩,
    ⟨1436189400, barOf "99" "98", []⟩]

theorem feed_decoded_twoBlocks :
    processTimedCsvFile startTimeRow (dataHash wholeRuby 5 "A".toList) (fun _ => true)
      ([[some "EXCHANGE%3DNASDAQ".toList], columnsLine] ++ twoBlocks.flatMap Block.rows) =
      some
        [ ⟨"A".toList, utcTime 1435930200000, 100, 101, 1435930200000⟩,
          ⟨"A".toList, utcTime 1435930800000, 102, 104, 1435930800000⟩,
          ⟨"A".toList, utcTime 1436189400000, 98, 99, 1436189400000⟩ ] := by
  refine (feed_decoded wholeRuby 5 "A".toList ?_ ?_).trans (by rfl)
  · intro row hrow
    rcases List.mem_pair.1 hrow with rfl | rfl
    · exact ⟨⟨_, rfl, by decide⟩, by rfl⟩
    · exact ⟨⟨_, rfl, by decide⟩, by rfl⟩
  · intro block hblock
    rcases List.mem_pair.1 hblock with rfl | rfl
    · refine ⟨by decide, fun line hline => ?_⟩
      simp only [List.mem_cons, List.not_mem_nil, or_false] at hline
      rcases hline with rfl | rfl | rfl
      · exact show 1 ≤ 1000000 by decide
      · exact show 2 ≤ 1000000 by decide
      · exact ⟨⟨_, rfl, by decide⟩, by rfl⟩
    · exact ⟨by decide, fun line hline => by cases hline⟩

end GoogleIntraday

end MyStockIQ.Scraper

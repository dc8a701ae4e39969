import AriaLocator.Proofs.Table.Extent
import Mathlib.Algebra.Order.Ring.Nat

/-!
# Spans that are written as numbers

The columns and rows that a cell covers are written as decimal numbers, with blanks around them, and
no cell covers more than a fixed number of either.  A number above that is not an error: the cell
covers as many columns or rows as it can.

But the number is read into a machine word before it is compared with the bound.  One that does not
fit the word is no number at all, and the cell then covers a single column or row, as if it asked for
nothing.  So the spans grow with the numbers only as far as the word goes.  From there on, a larger
number gives the smallest span instead of the largest.

## Main results

* `readNat?_of_writes`: what is read from a number of any length.
* `spans_of_cell`: the layout of a row group gives each cell the spans that are read for it.
* `spanOf_lt_iff`: which larger numbers give smaller spans.
* `number_spans_iff`: the spans in a layout, and when they are those of the number.
* `span_lost_past_word`: a number that does not fit the word.
-/

namespace AriaLocator

namespace Text

/-- The text writes the number: decimal digits, however many, with blanks around them. -/
def Writes (text : String) (n : Nat) : Prop :=
  ∃ before digits behind : List Char, text.toList = before ++ digits ++ behind ∧
    before.all isBlank = true ∧ behind.all isBlank = true ∧
    digits ≠ [] ∧ digits.all Char.isDigit = true ∧ digitsValue digits = n

theorem not_blank_of_isDigit {c : Char} (h : c.isDigit = true) : isBlank c = false := by
  have hRange : 48 ≤ c.toNat ∧ c.toNat ≤ 57 := Char.isDigit_iff_toNat.mp h
  simp only [isBlank, Bool.or_eq_false_iff, Bool.and_eq_false_iff, beq_eq_false_iff_ne,
    decide_eq_false_iff_not]
  omega

/-- A number of any length is read if it is not larger than the largest one that is read. -/
theorem readNat?_of_writes {text : String} {n : Nat} (h : Writes text n) (largest : Nat) :
    readNat? largest (trimChars text.toList) = if n ≤ largest then some n else none := by
  obtain ⟨before, digits, behind, hText, hBefore, hBehind, hNonempty, hDigits, rfl⟩ := h
  have hAll : ∀ c ∈ digits, c.isDigit = true := List.all_eq_true.mp hDigits
  have hTrim : trimChars text.toList = digits := by
    rw [hText]
    apply trimChars_surrounded (List.all_eq_true.mp hBefore) (List.all_eq_true.mp hBehind)
    · intro c hc
      exact not_blank_of_isDigit (hAll c (List.mem_of_head? hc))
    · intro c hc
      exact not_blank_of_isDigit (hAll c (List.mem_of_getLast? hc))
  have hPlus : dropPlus digits = digits := by
    unfold dropPlus
    split
    · simp [Char.isDigit] at hDigits
    · rfl
  rw [hTrim, readNat?, hPlus]
  by_cases hFits : digitsValue digits ≤ largest
  · rw [if_pos ⟨hNonempty, hDigits, hFits⟩, if_pos hFits]
  · rw [if_neg hFits, if_neg]
    intro hAll
    exact hFits hAll.2.2

end Text

namespace Document

variable {d : Document} {cell : Element} {text : String} {least most n m : Nat}

/-! ## Spans that are read -/

/-- What becomes of a number that is read as a span: it is brought between bounds, and one that does
not fit a machine word counts as one. -/
def spanOf (least most n : Nat) : Nat :=
  if n ≤ Text.largestWord 64 then min (max n least) most else 1

theorem size?_of_writes {name : String} (hText : d.attribute? cell name = some text)
    (hWrites : Text.Writes text n) :
    d.size? cell name = if n ≤ Text.largestWord 64 then some n else none := by
  rw [size?, hText, Option.bind_some]
  exact Text.readNat?_of_writes hWrites (Text.largestWord 64)

theorem columnSpan_of_writes (hText : d.attribute? cell "colspan" = some text)
    (hWrites : Text.Writes text n) : d.columnSpan cell = spanOf 1 maxColumnSpan n := by
  rw [columnSpan, size?_of_writes hText hWrites, spanOf]
  by_cases hFits : n ≤ Text.largestWord 64
  · rw [if_pos hFits, if_pos hFits]
    by_cases hZero : n = 0
    · rw [hZero]
      rfl
    · have hPos : 0 < n := Nat.pos_of_ne_zero hZero
      have hKept : (some n).filter (0 < ·) = some n := by simp [hPos]
      rw [hKept, Nat.max_eq_left hPos]
      rfl
  · rw [if_neg hFits, if_neg hFits]
    rfl

theorem rowSpan_of_writes (hText : d.attribute? cell "rowspan" = some text)
    (hWrites : Text.Writes text n) : d.rowSpan cell = spanOf 0 maxRowSpan n := by
  rw [rowSpan, size?_of_writes hText hWrites, spanOf]
  by_cases hFits : n ≤ Text.largestWord 64
  · rw [if_pos hFits, if_pos hFits, Nat.max_eq_left (Nat.zero_le n)]
    rfl
  · rw [if_neg hFits, if_neg hFits]
    rfl

/-- A span is the number between its bounds exactly if the number fits the word. -/
theorem spanOf_eq_iff (hMost : 1 < most) :
    spanOf least most n = min (max n least) most ↔ n ≤ Text.largestWord 64 := by
  have hWord : 1 < Text.largestWord 64 := by decide
  unfold spanOf
  by_cases hFits : n ≤ Text.largestWord 64
  · rw [if_pos hFits]
    exact iff_of_true rfl hFits
  · rw [if_neg hFits]
    apply iff_of_false _ hFits
    omega

/-- A larger number gives a smaller span exactly if it does not fit the word, while the smaller one
does and asks for more than one column or row. -/
theorem spanOf_lt_iff (hLeast : least ≤ 1) (hMost : 1 < most) (hLe : n ≤ m) :
    spanOf least most m < spanOf least most n ↔
      (2 ≤ n ∧ n ≤ Text.largestWord 64) ∧ Text.largestWord 64 < m := by
  have hWord : 1 < Text.largestWord 64 := by decide
  unfold spanOf
  by_cases hLarge : m ≤ Text.largestWord 64
  · rw [if_pos hLarge, if_pos (Nat.le_trans hLe hLarge)]
    omega
  · rw [if_neg hLarge]
    by_cases hFits : n ≤ Text.largestWord 64
    · rw [if_pos hFits]
      omega
    · rw [if_neg hFits]
      omega

/-! ## Spans in a layout -/

variable {rows : List Element} {start y width height : Nat}

/-- The rectangle of `width` columns and `height` rows from column `start` of row `y` on, where a height
of zero stands for what is left of `count` rows. -/
def spanRectangle (count start y width height : Nat) : Rectangle where
  minX := start
  minY := y
  maxX := start + width - 1
  maxY := (if height = 0 then count else y + height) - 1

/-- In the grid of a row group, a cell spans `width` columns and `height` rows from column `start` of
row `y` on. -/
structure Spans (d : Document) (rows : List Element) (cell : Element) (width height start y : Nat) :
    Prop where
  /-- It is laid over these columns of its row, and nowhere else. -/
  columns : ∀ x r, d.LaidOver (d.layOut rows) cell x r ↔ r = y ∧ start ≤ x ∧ x < start + width
  /-- It is shown where it starts. -/
  first : (d.gridOfRows rows).cell? start y = some cell
  /-- It is shown in no slot outside. -/
  within : ∀ x r, (d.gridOfRows rows).cell? x r = some cell →
    (spanRectangle rows.length start y width height).Contains x r
  /-- No slot inside is empty. -/
  filled : ∀ x r, (spanRectangle rows.length start y width height).Contains x r →
    ((d.gridOfRows rows).cell? x r).isSome = true
  /-- It is shown in all slots inside if no other cell is laid over its columns. -/
  alone : (∀ other x r, d.LaidOver (d.layOut rows) other x r → start ≤ x → x < start + width →
      other = cell) →
    ∀ x r, (spanRectangle rows.length start y width height).Contains x r →
      (d.gridOfRows rows).cell? x r = some cell

/-- The layout of a row group gives each cell the spans that are read for it. -/
theorem spans_of_cell (hRows : rows.Nodup) {row : Element} (hRow : rows[y]? = some row)
    (hCell : cell ∈ d.cellsOf row) :
    ∃ start, d.Spans rows cell (d.columnSpan cell) (d.rowSpan cell) start y := by
  obtain ⟨start, hOrigin⟩ := mem_origins_iff.mpr ⟨row, hRow, hCell⟩
  have hSame := origin_iff hRows hOrigin
  refine ⟨start, ?_, cell?_origin hOrigin, ?_, fun x r => isSome_of_contains hOrigin, ?_⟩
  · intro x r
    constructor
    · rintro ⟨start', hMem, hColumns⟩
      obtain ⟨rfl, rfl⟩ := (hSame start' r).mp hMem
      exact ⟨rfl, hColumns⟩
    · rintro ⟨rfl, hColumns⟩
      exact ⟨start, hOrigin, hColumns⟩
  · intro x r hShown
    obtain ⟨start', y', hMem, hContains⟩ := contains_of_shown hShown
    obtain ⟨rfl, rfl⟩ := (hSame start' y').mp hMem
    exact hContains
  · intro hAlone x r hContains
    obtain ⟨other, hShown⟩ := Option.isSome_iff_exists.mp (isSome_of_contains hOrigin hContains)
    obtain ⟨start', y', hMem, hContains'⟩ := contains_of_shown hShown
    have hColumns := ((contains_extent (row_lt_of_origin hOrigin)).mp hContains).1
    have hColumns' := ((contains_extent (row_lt_of_origin hMem)).mp hContains').1
    rw [hShown, hAlone other x y' ⟨start', hMem, hColumns'⟩ hColumns.1 hColumns.2]

/-- In the layout of a group of distinct rows, every cell spans the columns and rows that are read from
its attributes.  From a number with blanks around it, these are the columns or rows of the number,
between their bounds, exactly if the number fits a machine word of 64 bits; otherwise the cell spans
one.  So a larger number gives a smaller span exactly where the numbers go beyond the word, and the
smaller one asks for more than one. -/
theorem number_spans_iff (d : Document) {rows : List Element} (hRows : rows.Nodup) {y : Nat}
    {row cell : Element} (hRow : rows[y]? = some row) (hCell : cell ∈ d.cellsOf row) :
    (∃ start, d.Spans rows cell (d.columnSpan cell) (d.rowSpan cell) start y) ∧
    (∀ text n, d.attribute? cell "colspan" = some text → Text.Writes text n →
      d.columnSpan cell = spanOf 1 maxColumnSpan n ∧
        (d.columnSpan cell = min (max n 1) maxColumnSpan ↔ n < 2 ^ 64)) ∧
    (∀ text n, d.attribute? cell "rowspan" = some text → Text.Writes text n →
      d.rowSpan cell = spanOf 0 maxRowSpan n ∧
        (d.rowSpan cell = min n maxRowSpan ↔ n < 2 ^ 64)) ∧
    ∀ n m, n ≤ m →
      (spanOf 1 maxColumnSpan m < spanOf 1 maxColumnSpan n ↔ (2 ≤ n ∧ n < 2 ^ 64) ∧ 2 ^ 64 ≤ m) ∧
      (spanOf 0 maxRowSpan m < spanOf 0 maxRowSpan n ↔ (2 ≤ n ∧ n < 2 ^ 64) ∧ 2 ^ 64 ≤ m) := by
  have hWord : Text.largestWord 64 = 2 ^ 64 - 1 := by decide
  have hFits (n : Nat) : n < 2 ^ 64 ↔ n ≤ Text.largestWord 64 := by
    rw [hWord]
    omega
  have hBeyond (m : Nat) : 2 ^ 64 ≤ m ↔ Text.largestWord 64 < m := by
    rw [hWord]
    omega
  refine ⟨spans_of_cell hRows hRow hCell, ?_, ?_, ?_⟩
  · intro text n hText hWrites
    have hSpan := columnSpan_of_writes hText hWrites
    rw [hSpan, hFits]
    exact ⟨rfl, spanOf_eq_iff (by decide)⟩
  · intro text n hText hWrites
    have hSpan := rowSpan_of_writes hText hWrites
    have hBounded := @spanOf_eq_iff 0 maxRowSpan n (by decide)
    rw [Nat.max_eq_left (Nat.zero_le n)] at hBounded
    rw [hSpan, hFits]
    exact ⟨rfl, hBounded⟩
  · intro n m hLe
    rw [hFits, hBeyond]
    exact ⟨spanOf_lt_iff (by decide) (by decide) hLe, spanOf_lt_iff (by decide) (by decide) hLe⟩

/-- A header asks for the largest number of columns that fits a word, with blanks around it, and for the
rest of its group; the data cell beside it asks for more rows than a cell can cover. -/
theorem number_spans_iff_largest_word :
    let d := ofElement "table" []
      [.element "tr" []
        [.element "th" [("colspan", "\t18446744073709551615 "), ("rowspan", "0")] [],
          .element "td" [("rowspan", "070000")] []]]
    let rows : List Element := [1]
    (rows.Nodup ∧ rows[0]? = some 1 ∧ d.cellsOf 1 = [2, 3]) ∧
      (Text.Writes "\t18446744073709551615 " (2 ^ 64 - 1) ∧ Text.Writes "0" 0 ∧
        Text.Writes "070000" 70000) ∧
      (∃ start, d.Spans rows 2 maxColumnSpan 0 start 0) ∧ ∃ start, d.Spans rows 3 1 maxRowSpan start 0 := by
  intro d rows
  have hRows : rows.Nodup := by decide
  have hRow : rows[0]? = some 1 := rfl
  have hCells : d.cellsOf 1 = [2, 3] := by decide +kernel
  have hWide : Text.Writes "\t18446744073709551615 " (2 ^ 64 - 1) :=
    ⟨['\t'], "18446744073709551615".toList, [' '], by decide⟩
  have hRest : Text.Writes "0" 0 := ⟨[], ['0'], [], by decide⟩
  have hTall : Text.Writes "070000" 70000 := ⟨[], "070000".toList, [], by decide⟩
  obtain ⟨hHeader, hColumns, hFull, -⟩ :=
    number_spans_iff d hRows hRow (show 2 ∈ d.cellsOf 1 by rw [hCells]; decide)
  obtain ⟨hData, -, hDown, -⟩ :=
    number_spans_iff d hRows hRow (show 3 ∈ d.cellsOf 1 by rw [hCells]; decide)
  have hColumns : d.columnSpan 2 = maxColumnSpan := (hColumns _ _ rfl hWide).1
  have hFull : d.rowSpan 2 = 0 := (hFull _ _ rfl hRest).1
  have hDown : d.rowSpan 3 = maxRowSpan := (hDown _ _ rfl hTall).1
  rw [hColumns, hFull] at hHeader
  rw [hDown] at hData
  exact ⟨⟨hRows, hRow, hCells⟩, ⟨hWide, hRest, hTall⟩, hHeader, hData⟩

/-- One more, and the number is no number: the cell has one slot, and not the most columns and rows
that a cell can cover. -/
theorem span_lost_past_word :
    let large := "18446744073709551616"
    let d := ofElement "table" []
      [.element "tr" [] [.element "th" [("colspan", large), ("rowspan", large)] []]]
    Text.Writes large (2 ^ 64) ∧ min (max (2 ^ 64) 1) maxColumnSpan = 1000 ∧
      min (2 ^ 64) maxRowSpan = 65534 ∧ d.columnSpan 2 = 1 ∧ d.rowSpan 2 = 1 ∧
      d.gridOfRows [1] = ⟨#[#[some 2]]⟩ := by
  intro large d
  have hWrites : Text.Writes large (2 ^ 64) := ⟨[], large.toList, [], by decide⟩
  have hSpans : d.columnSpan 2 = 1 ∧ d.rowSpan 2 = 1 := by decide +kernel
  exact ⟨hWrites, by decide, by decide, hSpans.1, hSpans.2, by decide +kernel⟩

end Document

end AriaLocator

import AriaLocator.Proofs.Table.Coverage

/-!
# The rows and columns that a cell stands in

Whether a header cell has data beside it is asked of bands of the grid.  The rectangle of the cell is
the smallest one around all slots that hold it, however these are scattered, and the two bands are
the rows and the columns through that rectangle.  They are cut from rows of unequal lengths, and a
slot that a row does not have counts as empty.

So what the two questions ask can be told slot by slot, without the order in which a grid is gone
through: is there a data cell in some slot of a row, or a column, between the sides of the rectangle?

## Main results

* `Grid.rectangle?_eq_some_iff`: the rectangle of a cell is the smallest one around its slots.
* `Grid.lt_size_of_rectangle?`: the rectangle of a cell does not reach beyond the grid.
* `rowsHoldData_iff`, `columnsHoldData_iff`: a band holds data if one of its slots does.
* `rectangle_and_bands_exact`: rectangles and bands, for every grid and every cell in a table.
-/

namespace AriaLocator

namespace Rectangle

/-- All slots that are held lie in the rectangle, and it lies in every other rectangle of which this
is true. -/
structure IsSmallest (r : Rectangle) (held : Nat → Nat → Prop) : Prop where
  contains : ∀ x y, held x y → r.Contains x y
  least : ∀ s : Rectangle, (∀ x y, held x y → s.Contains x y) →
    ∀ x y, r.Contains x y → s.Contains x y

/-- A rectangle with a slot on each of its sides is the smallest one. -/
theorem Bounds.isSmallest {r : Rectangle} {held : Nat → Nat → Prop} (h : r.Bounds held) :
    r.IsSmallest held where
  contains := h.contains
  least s hs x y hIn := by
    obtain ⟨hLeft, hRight, hTop, hBottom⟩ := h.le hs
    unfold Contains at hIn ⊢
    omega

/-- A rectangle that is not empty is known by its slots. -/
theorem eq_of_contains_iff {r s : Rectangle} {x y : Nat} (hIn : r.Contains x y)
    (hSame : ∀ x y, r.Contains x y ↔ s.Contains x y) : r = s := by
  have hIn' := (hSame x y).mp hIn
  have hFirst := hSame r.minX r.minY
  have hLast := hSame r.maxX r.maxY
  have hFirst' := hSame s.minX s.minY
  have hLast' := hSame s.maxX s.maxY
  obtain ⟨minX, minY, maxX, maxY⟩ := r
  obtain ⟨minX', minY', maxX', maxY'⟩ := s
  simp only [Contains] at *
  rw [Rectangle.mk.injEq]
  omega

/-- There is one smallest rectangle around slots of which there is at least one. -/
theorem IsSmallest.unique {r s : Rectangle} {held : Nat → Nat → Prop} (hr : r.IsSmallest held)
    (hs : s.IsSmallest held) {x y : Nat} (hHeld : held x y) : r = s := by
  apply eq_of_contains_iff (hr.contains x y hHeld)
  intro x y
  exact ⟨hr.least s hs.contains x y, hs.least r hr.contains x y⟩

end Rectangle

namespace Grid

variable {g : Grid} {e : Element} {r : Rectangle}

/-! ## Rectangles -/

theorem rectangle?_eq_none_iff : g.rectangle? e = none ↔ ¬ g.Holds e := by
  rw [← Option.not_isSome_iff_eq_none]
  exact not_congr rectangle?_isSome_iff

/-- The rectangle of an element is the smallest one around the slots that hold it. -/
theorem rectangle?_eq_some_iff :
    g.rectangle? e = some r ↔ g.Holds e ∧ r.IsSmallest fun x y => g.cell? x y = some e := by
  constructor
  · intro h
    have hSome : (g.rectangle? e).isSome = true := by rw [h]; rfl
    exact ⟨rectangle?_isSome_iff.mp hSome, (bounds_rectangle? h).isSmallest⟩
  · rintro ⟨hHolds, hSmallest⟩
    obtain ⟨s, hs⟩ := Option.isSome_iff_exists.mp (rectangle?_isSome_iff.mpr hHolds)
    obtain ⟨x, y, hSlot⟩ := hHolds
    rw [hs, (bounds_rectangle? hs).isSmallest.unique hSmallest hSlot]

theorem lt_height_of_cell? {x y : Nat} (h : g.cell? x y = some e) : y < g.height := by
  apply Nat.lt_of_not_le
  intro hle
  rw [cell?_of_height_le hle] at h
  cases h

/-- The rectangle of an element does not reach beyond the grid. -/
theorem lt_size_of_rectangle? (h : g.rectangle? e = some r) : r.maxX < g.width ∧ r.maxY < g.height := by
  have hBounds := bounds_rectangle? h
  obtain ⟨y, hRight⟩ := hBounds.right
  obtain ⟨x, hBottom⟩ := hBounds.bottom
  exact ⟨lt_width_of_cell? hRight, lt_height_of_cell? hBottom⟩

/-! ## Slots -/

/-- A slot is an entry of a row, and the row an entry of the grid. -/
theorem cell?_eq_some_iff {x y : Nat} :
    g.cell? x y = some e ↔ ∃ row, g.rows[y]? = some row ∧ row[x]? = some (some e) := by
  unfold cell?
  cases hRow : g.rows[y]? with
  | none => simp
  | some row =>
      cases hSlot : row[x]? with
      | none => simp [hSlot]
      | some slot => simp [hSlot]

end Grid

/-- What some entry of a stretch of an array passes, both ends included. -/
theorem any_extract_iff {α : Type} {test : α → Bool} {entries : Array α} {first last : Nat} :
    (entries.extract first (last + 1)).any test = true ↔
      ∃ i a, (first ≤ i ∧ i ≤ last) ∧ entries[i]? = some a ∧ test a = true := by
  rw [Array.any_eq_true']
  constructor
  · rintro ⟨a, hMem, hTest⟩
    obtain ⟨k, hk, hEntry⟩ := Array.mem_extract_iff_getElem.mp hMem
    refine ⟨first + k, a, by omega, ?_, hTest⟩
    rw [← hEntry]
    exact Array.getElem?_eq_getElem _
  · rintro ⟨i, a, hBetween, hEntry, hTest⟩
    obtain ⟨hi, rfl⟩ := Array.getElem?_eq_some_iff.mp hEntry
    refine ⟨entries[i], Array.mem_extract_iff_getElem.mpr ⟨i - first, by omega, ?_⟩, hTest⟩
    congr 1
    omega

namespace Document

variable {d : Document} {g : Grid} {r : Rectangle}

/-! ## Bands -/

/-- The slot holds a data cell. -/
def ShowsData (d : Document) (g : Grid) (x y : Nat) : Prop :=
  ∃ cell, g.cell? x y = some cell ∧ d.tag cell = "td"

theorem isData_iff {slot : Option Element} :
    d.isData slot = true ↔ ∃ cell, slot = some cell ∧ d.tag cell = "td" := by
  unfold isData
  rw [Option.any_eq_true]
  simp only [beq_iff_eq]

/-- The rows through a rectangle hold data if a slot of one of them does. -/
theorem rowsHoldData_iff :
    d.rowsHoldData g r = true ↔ ∃ x y, (r.minY ≤ y ∧ y ≤ r.maxY) ∧ d.ShowsData g x y := by
  unfold rowsHoldData ShowsData
  rw [any_extract_iff]
  simp only [Array.any_eq_true, isData_iff, Grid.cell?_eq_some_iff]
  constructor
  · rintro ⟨y, row, hBetween, hRow, x, hx, cell, hSlot, hTag⟩
    exact ⟨x, y, hBetween, cell, ⟨row, hRow, Array.getElem?_eq_some_iff.mpr ⟨hx, hSlot⟩⟩, hTag⟩
  · rintro ⟨x, y, hBetween, cell, ⟨row, hRow, hEntry⟩, hTag⟩
    obtain ⟨hx, hSlot⟩ := Array.getElem?_eq_some_iff.mp hEntry
    exact ⟨y, row, hBetween, hRow, x, hx, cell, hSlot, hTag⟩

/-- The columns through a rectangle hold data if a slot of one of them does. -/
theorem columnsHoldData_iff :
    d.columnsHoldData g r = true ↔ ∃ x y, (r.minX ≤ x ∧ x ≤ r.maxX) ∧ d.ShowsData g x y := by
  unfold columnsHoldData ShowsData
  rw [Array.any_eq_true]
  simp only [any_extract_iff, isData_iff, Grid.cell?_eq_some_iff]
  constructor
  · rintro ⟨y, hy, x, slot, hBetween, hEntry, cell, rfl, hTag⟩
    exact ⟨x, y, hBetween, cell, ⟨g.rows[y], Array.getElem?_eq_getElem hy, hEntry⟩, hTag⟩
  · rintro ⟨x, y, hBetween, cell, ⟨row, hRow, hEntry⟩, hTag⟩
    obtain ⟨hy, rfl⟩ := Array.getElem?_eq_some_iff.mp hRow
    exact ⟨y, hy, x, some cell, hBetween, hEntry, cell, rfl, hTag⟩

/-- In any grid, an element that no slot holds has no rectangle, and any other one has the smallest
rectangle around the slots that hold it.  In the grid of a table, a cell has data in its rows or
columns exactly if a slot of a row or column through its rectangle holds a data cell, and none of the
rows and columns asked lies beyond the grid. -/
theorem rectangle_and_bands_exact (d : Document) :
    (∀ (g : Grid) (cell : Element), (g.rectangle? cell = none ↔ ¬ g.Holds cell) ∧
      ∀ r, g.rectangle? cell = some r ↔
        g.Holds cell ∧ r.IsSmallest fun x y => g.cell? x y = some cell) ∧
    ∀ table cell, (d.gridOfTable table).Holds cell →
      let g := d.gridOfTable table
      ∃ r, g.rectangle? cell = some r ∧ (r.maxX < g.width ∧ r.maxY < g.height) ∧
        (d.hasDataInRow table cell = true ↔
          ∃ x y, (r.minY ≤ y ∧ y ≤ r.maxY) ∧ d.ShowsData g x y) ∧
        (d.hasDataInColumn table cell = true ↔
          ∃ x y, (r.minX ≤ x ∧ x ≤ r.maxX) ∧ d.ShowsData g x y) := by
  constructor
  · intro g cell
    exact ⟨Grid.rectangle?_eq_none_iff, fun r => Grid.rectangle?_eq_some_iff⟩
  · intro table cell hHolds g
    obtain ⟨r, hRectangle⟩ := Option.isSome_iff_exists.mp (Grid.rectangle?_isSome_iff.mpr hHolds)
    refine ⟨r, hRectangle, Grid.lt_size_of_rectangle? hRectangle, ?_, ?_⟩
    · show (g.rectangle? cell).any (d.rowsHoldData g) = true ↔ _
      rw [hRectangle, Option.any_some]
      exact rowsHoldData_iff
    · show (g.rectangle? cell).any (d.columnsHoldData g) = true ↔ _
      rw [hRectangle, Option.any_some]
      exact columnsHoldData_iff

/-- A header of three columns lies over a data cell that comes down from the row above, and is left
with the slots on both sides of it.  Its rectangle takes in the slot between, and with it the data. -/
theorem rectangle_and_bands_exact_split_header :
    let d := ofElement "table" []
      [.element "tr" [] [.element "th" [] [], .element "td" [("rowspan", "2")] []],
        .element "tr" [] [.element "th" [("colspan", "3")] []]]
    let g := d.gridOfTable 0
    (g.cell? 0 1 = some 5 ∧ g.cell? 1 1 = some 3 ∧ g.cell? 2 1 = some 5) ∧
      g.Holds 5 ∧ (⟨0, 1, 2, 1⟩ : Rectangle).IsSmallest (fun x y => g.cell? x y = some 5) ∧
      (d.hasDataInRow 0 5 = true ↔ ∃ x y, (1 ≤ y ∧ y ≤ 1) ∧ d.ShowsData g x y) ∧
      (d.hasDataInColumn 0 5 = true ↔ ∃ x y, (0 ≤ x ∧ x ≤ 2) ∧ d.ShowsData g x y) := by
  intro d g
  have hSlots : g.cell? 0 1 = some 5 ∧ g.cell? 1 1 = some 3 ∧ g.cell? 2 1 = some 5 := by
    decide +kernel
  have hHolds : g.Holds 5 := ⟨0, 1, hSlots.1⟩
  have hRectangle : g.rectangle? 5 = some ⟨0, 1, 2, 1⟩ := by decide +kernel
  obtain ⟨hExact, hBands⟩ := rectangle_and_bands_exact d
  obtain ⟨r, hr, -, hRow, hColumn⟩ := hBands 0 5 hHolds
  obtain rfl : ⟨0, 1, 2, 1⟩ = r := Option.some.inj (hRectangle.symm.trans hr)
  exact ⟨hSlots, hHolds, (((hExact g 5).2 _).mp hRectangle).2, hRow, hColumn⟩

end Document

end AriaLocator

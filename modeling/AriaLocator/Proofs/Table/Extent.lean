import Mathlib.Data.List.Nodup
import AriaLocator.Proofs.Table.Bounds
import AriaLocator.Proofs.Table.Laying

/-!
# Where the cells of a table are shown

By its start and its spans a cell asks for a rectangle of slots.  It gets no others: a slot shows a
cell only if it lies in the rectangle of that cell.  And no slot asked for stays empty, since a cell
gives way to other cells only.  So where the rectangles do not meet, each cell has exactly its own,
whatever the mix of spans.

Where they do meet, one slot of each cell is out of reach of all the others: the one in which it
starts.  It was free, so nothing above came down to it; the cells of its row go on behind it; and
the rows below do not look back.  As it is the first slot of the rectangle, both by row and by
column, the rectangle that is reported of the cell starts there as well.

## Main results

* `cellsInRow_layOut`: the cells of a row are laid in their order, each once.
* `contains_of_shown`, `isSome_of_contains`: a slot shows a cell that asks for it, if there is one.
* `cell?_origin`: a cell is shown where it starts.
* `cells_keep_start`: no cell of a row group is lost, whatever overlaps it.
* `disjoint_cells_exact`: cells whose rectangles do not meet are shown in their rectangles.
-/

namespace AriaLocator

namespace Document

variable {d : Document} {rows : List Element}

/-! ## The order of the cells -/

/-- The cells that have been laid into row `y`, the first of them first. -/
def cellsInRow (s : Layout) (y : Nat) : List Element :=
  (s.origins.reverse.filter (·.2.2 == y)).map (·.1)

theorem cellsInRow_cons {s s' : Layout} {cell : Element} {start y : Nat}
    (h : s'.origins = (cell, start, y) :: s.origins) (r : Nat) :
    cellsInRow s' r = cellsInRow s r ++ if r = y then [cell] else [] := by
  unfold cellsInRow
  rw [h, List.reverse_cons, List.filter_append, List.map_append]
  by_cases hr : r = y
  · subst hr
    simp
  · rw [if_neg hr]
    simp [Ne.symm hr]

theorem cellsInRow_foldl_layCell (s : Layout) (y next : Nat) (cells : List Element) (r : Nat) :
    cellsInRow (cells.foldl (d.layCell y) (s, next)).1 r =
      cellsInRow s r ++ if r = y then cells else [] := by
  induction cells generalizing s next with
  | nil => simp
  | cons cell cells ih =>
      obtain ⟨start, s', hEq, hStep⟩ := layCell_laysCell (d := d) s y next cell
      rw [List.foldl_cons, hEq, ih, cellsInRow_cons hStep.origins, List.append_assoc]
      by_cases hr : r = y
      · rw [if_pos hr, if_pos hr, if_pos hr]
        rfl
      · rw [if_neg hr, if_neg hr, if_neg hr]
        rfl

theorem cellsInRow_layRow (s : Layout) (y : Nat) (row : Element) (r : Nat) :
    cellsInRow (d.layRow y s row) r =
      cellsInRow s r ++ if r = y then d.cellsOf row else [] := by
  rw [← cellsInRow_foldl_layCell s y 0 (d.cellsOf row) r]
  rfl

theorem cellsInRow_layRows (s : Layout) (y : Nat) (rows : List Element) (r : Nat) :
    cellsInRow (d.layRows y s rows) r =
      cellsInRow s r ++ if y ≤ r then (rows[r - y]?.map d.cellsOf).getD [] else [] := by
  induction rows generalizing s y with
  | nil => simp [layRows]
  | cons row rows ih =>
      rw [layRows, ih, cellsInRow_layRow, List.append_assoc]
      rcases Nat.lt_trichotomy r y with hlt | rfl | hgt
      · rw [if_neg (by omega), if_neg (by omega), if_neg (by omega)]
        rfl
      · rw [if_pos rfl, if_neg (by omega), if_pos (Nat.le_refl r), Nat.sub_self, List.append_nil]
        rfl
      · rw [if_neg (by omega), if_pos (by omega), if_pos (by omega),
          show r - y = r - (y + 1) + 1 by omega, List.getElem?_cons_succ]
        rfl

/-- The cells of a row are laid in their order, each once, and no others are. -/
theorem cellsInRow_layOut (rows : List Element) (y : Nat) :
    cellsInRow (d.layOut rows) y = (rows[y]?.map d.cellsOf).getD [] := by
  unfold layOut
  rw [cellsInRow_layRows, if_pos (Nat.zero_le y)]
  rfl

theorem mem_origins_iff {cell : Element} {y : Nat} :
    (∃ start, (cell, start, y) ∈ (d.layOut rows).origins) ↔
      ∃ row, rows[y]? = some row ∧ cell ∈ d.cellsOf row := by
  have hRow : (∃ start, (cell, start, y) ∈ (d.layOut rows).origins) ↔
      cell ∈ cellsInRow (d.layOut rows) y := by
    simp [cellsInRow]
  rw [hRow, cellsInRow_layOut]
  cases rows[y]? with
  | none => simp
  | some row => simp

theorem mem_cellsOf {row cell : Element} :
    cell ∈ d.cellsOf row ↔
      cell ∈ d.childElements row ∧ (d.tag cell = "td" ∨ d.tag cell = "th") := by
  unfold cellsOf
  rw [List.mem_filter, Bool.or_eq_true, beq_iff_eq, beq_iff_eq]

theorem parent_of_cellsOf {row cell : Element} (h : cell ∈ d.cellsOf row) :
    d.parent? cell = some row :=
  (mem_childElements.mp (mem_cellsOf.mp h).1).1

theorem nodup_cellsOf (d : Document) (row : Element) : (d.cellsOf row).Nodup :=
  ((childElements_pairwise d row).filter _).imp fun h => Nat.ne_of_lt h

/-- In a list of distinct rows, a cell is laid once. -/
theorem origin_unique (hRows : rows.Nodup) {cell : Element} {x y x' y' : Nat}
    (h : (cell, x, y) ∈ (d.layOut rows).origins) (h' : (cell, x', y') ∈ (d.layOut rows).origins) :
    x' = x ∧ y' = y := by
  obtain ⟨row, hRow, hCell⟩ := mem_origins_iff.mp ⟨x, h⟩
  obtain ⟨row', hRow', hCell'⟩ := mem_origins_iff.mp ⟨x', h'⟩
  have hSame : row' = row :=
    Option.some.inj ((parent_of_cellsOf hCell').symm.trans (parent_of_cellsOf hCell))
  subst hSame
  have hy : y' = y := by
    have hLt : y' < rows.length := (List.getElem?_eq_some_iff.mp hRow').1
    exact (List.getElem?_inj hLt hRows).mp (hRow'.trans hRow.symm)
  subst hy
  have hNodup : (cellsInRow (d.layOut rows) y').Nodup := by
    rw [cellsInRow_layOut, hRow]
    exact nodup_cellsOf d row'
  have hInRow : ∀ start, (cell, start, y') ∈ (d.layOut rows).origins →
      (cell, start, y') ∈ (d.layOut rows).origins.reverse.filter (·.2.2 == y') := by
    intro start hMem
    rw [List.mem_filter, List.mem_reverse]
    exact ⟨hMem, beq_self_eq_true y'⟩
  have hEq := List.inj_on_of_nodup_map hNodup (hInRow x h) (hInRow x' h') rfl
  rw [Prod.mk.injEq, Prod.mk.injEq] at hEq
  exact ⟨hEq.2.1.symm, rfl⟩

theorem row_lt_of_origin {cell : Element} {x y : Nat}
    (h : (cell, x, y) ∈ (d.layOut rows).origins) : y < rows.length := by
  obtain ⟨row, hRow, -⟩ := mem_origins_iff.mp ⟨x, h⟩
  exact (List.getElem?_eq_some_iff.mp hRow).1

/-! ## The rectangle asked for -/

/-- The rectangle that a cell asks for where it starts, in a group of `height` rows. -/
def extent (d : Document) (height : Nat) (p : Element × Nat × Nat) : Rectangle where
  minX := p.2.1
  minY := p.2.2
  maxX := p.2.1 + d.columnSpan p.1 - 1
  maxY := (if d.rowSpan p.1 = 0 then height else p.2.2 + d.rowSpan p.1) - 1

theorem contains_extent {height : Nat} {cell : Element} {start y x r : Nat} (hy : y < height) :
    (d.extent height (cell, start, y)).Contains x r ↔
      (start ≤ x ∧ x < start + d.columnSpan cell) ∧ y ≤ r ∧
        r < if d.rowSpan cell = 0 then height else y + d.rowSpan cell := by
  have hWidth := columnSpan_pos d cell
  show (start ≤ x ∧ x ≤ start + d.columnSpan cell - 1) ∧ y ≤ r ∧
    r ≤ (if d.rowSpan cell = 0 then height else y + d.rowSpan cell) - 1 ↔ _
  by_cases hSpan : d.rowSpan cell = 0
  · rw [if_pos hSpan]
    omega
  · rw [if_neg hSpan]
    omega

/-- A slot shows only a cell that asks for it. -/
theorem contains_of_shown {cell : Element} {x r : Nat}
    (h : (d.gridOfRows rows).cell? x r = some cell) :
    ∃ start y, (cell, start, y) ∈ (d.layOut rows).origins ∧
      (d.extent rows.length (cell, start, y)).Contains x r := by
  rw [cell?_gridOfRows] at h
  have hOver : ∃ y, d.cellOver? (d.layOut rows) x y = some cell ∧ y ≤ r ∧
      r < if d.rowSpan cell = 0 then rows.length else y + d.rowSpan cell := by
    by_cases hr : r < rows.length
    · rw [if_pos hr] at h
      obtain ⟨y, hy, hOver, hReach⟩ := shown?_eq_some h
      refine ⟨y, hOver, hy, ?_⟩
      split <;> omega
    · rw [if_neg hr] at h
      obtain ⟨y, hy, hOver, hReach⟩ := spanned?_eq_some h
      refine ⟨y, hOver, by omega, ?_⟩
      rw [if_neg (by omega)]
      exact hReach
  obtain ⟨y, hOver, hReach⟩ := hOver
  obtain ⟨start, hOrigin, hx⟩ := (layOut_laid d rows).cellOver?_eq_some.mp hOver
  exact ⟨start, y, hOrigin, (contains_extent (row_lt_of_origin hOrigin)).mpr ⟨hx, hReach⟩⟩

/-- A slot that a cell asks for is not empty. -/
theorem isSome_of_contains {cell : Element} {start y x r : Nat}
    (hOrigin : (cell, start, y) ∈ (d.layOut rows).origins)
    (h : (d.extent rows.length (cell, start, y)).Contains x r) :
    ((d.gridOfRows rows).cell? x r).isSome = true := by
  obtain ⟨hx, hy, hReach⟩ := (contains_extent (row_lt_of_origin hOrigin)).mp h
  have hOver := (layOut_laid d rows).cellOver?_eq_some.mpr ⟨start, hOrigin, hx⟩
  rw [cell?_gridOfRows]
  by_cases hSpan : d.rowSpan cell = 0
  · rw [if_pos hSpan] at hReach
    rw [if_pos hReach]
    exact isSome_shown? hy hOver (Or.inl hSpan)
  · rw [if_neg hSpan] at hReach
    split
    · exact isSome_shown? hy hOver (Or.inr hReach)
    · exact isSome_spanned?_iff.mpr ⟨y, row_lt_of_origin hOrigin, cell, hOver, trivial, hReach⟩

/-- A cell is shown where it starts. -/
theorem cell?_origin {cell : Element} {start y : Nat}
    (h : (cell, start, y) ∈ (d.layOut rows).origins) :
    (d.gridOfRows rows).cell? start y = some cell := by
  have hLaid := layOut_laid d rows
  have hWidth := columnSpan_pos d cell
  have hOver : d.cellOver? (d.layOut rows) start y = some cell :=
    hLaid.cellOver?_eq_some.mpr ⟨start, h, Nat.le_refl start, by omega⟩
  have hFree : d.spanned? (d.cellOver? (d.layOut rows) start) y y = none := (hLaid.free _ h).1
  rw [cell?_gridOfRows, if_pos (row_lt_of_origin h), shown?_of_some hOver, hFree]
  split <;> rfl

/-! ## No cell is lost -/

/-- The rectangle that is reported of a cell starts where the cell does. -/
theorem rectangle?_origin (hRows : rows.Nodup) {cell : Element} {start y : Nat}
    (h : (cell, start, y) ∈ (d.layOut rows).origins) :
    ∃ r, (d.gridOfRows rows).rectangle? cell = some r ∧ r.minX = start ∧ r.minY = y := by
  have hShown := cell?_origin h
  obtain ⟨r, hRectangle⟩ :=
    Option.isSome_iff_exists.mp (Grid.rectangle?_isSome_iff.mpr ⟨start, y, hShown⟩)
  have hBounds := Grid.bounds_rectangle? hRectangle
  have hInside : ∀ x y', (d.gridOfRows rows).cell? x y' = some cell → start ≤ x ∧ y ≤ y' := by
    intro x y' hHeld
    obtain ⟨start', y'', hOrigin, hContains⟩ := contains_of_shown hHeld
    obtain ⟨rfl, rfl⟩ := origin_unique hRows h hOrigin
    exact ⟨hContains.1.1, hContains.2.1⟩
  have hFirst := hBounds.contains start y hShown
  obtain ⟨yLeft, hLeft⟩ := hBounds.left
  obtain ⟨xTop, hTop⟩ := hBounds.top
  exact ⟨r, hRectangle, Nat.le_antisymm hFirst.1.1 (hInside _ _ hLeft).1,
    Nat.le_antisymm hFirst.2.1 (hInside _ _ hTop).2⟩

theorem origin_iff (hRows : rows.Nodup) {cell : Element} {start y : Nat}
    (h : (cell, start, y) ∈ (d.layOut rows).origins) (x' y' : Nat) :
    (cell, x', y') ∈ (d.layOut rows).origins ↔ x' = start ∧ y' = y := by
  constructor
  · intro h'
    exact origin_unique hRows h h'
  · intro hSame
    rw [hSame.1, hSame.2]
    exact h

/-- The cells of a row start one behind the other. -/
theorem starts_ascend {y : Nat} {row : Element} (hRow : rows[y]? = some row) :
    (d.cellsOf row).Pairwise fun a b => ∃ startA startB,
      (a, startA, y) ∈ (d.layOut rows).origins ∧ (b, startB, y) ∈ (d.layOut rows).origins ∧
        startA + d.columnSpan a ≤ startB := by
  have hCells : d.cellsOf row = cellsInRow (d.layOut rows) y := by
    rw [cellsInRow_layOut, hRow]
    rfl
  have hOrdered := (layOut_laid d rows).ordered
  rw [hCells, cellsInRow, List.pairwise_map]
  have hInRow := (List.pairwise_reverse.mpr hOrdered).filter (·.2.2 == y)
  refine hInRow.imp_of_mem ?_
  intro p q hp hq hBehind
  obtain ⟨hpMem, hpRow⟩ := List.mem_filter.mp hp
  obtain ⟨hqMem, hqRow⟩ := List.mem_filter.mp hq
  rw [beq_iff_eq] at hpRow hqRow
  rw [List.mem_reverse] at hpMem hqMem
  refine ⟨p.2.1, q.2.1, ?_, ?_, hBehind (hqRow.trans hpRow.symm)⟩
  · rw [← hpRow]
    exact hpMem
  · rw [← hqRow]
    exact hqMem

/-- However the cells of a row group overlap, each of them is laid once, is shown in the slot where
it starts, and is reported as starting there; and the cells of one row start one behind the other,
in their order. -/
theorem cells_keep_start (d : Document) {rows : List Element} (hRows : rows.Nodup) {y : Nat}
    {row : Element} (hRow : rows[y]? = some row) :
    (∀ cell ∈ d.cellsOf row, ∃ start r,
      (∀ x' y', (cell, x', y') ∈ (d.layOut rows).origins ↔ x' = start ∧ y' = y) ∧
        (d.gridOfRows rows).rectangle? cell = some r ∧ r.minX = start ∧ r.minY = y ∧
        (d.gridOfRows rows).cell? start y = some cell) ∧
      (d.cellsOf row).Pairwise fun a b => ∀ r s,
        (d.gridOfRows rows).rectangle? a = some r → (d.gridOfRows rows).rectangle? b = some s →
          r.minX < s.minX := by
  constructor
  · intro cell hCell
    obtain ⟨start, hOrigin⟩ := mem_origins_iff.mpr ⟨row, hRow, hCell⟩
    obtain ⟨r, hRectangle, hX, hY⟩ := rectangle?_origin hRows hOrigin
    exact ⟨start, r, origin_iff hRows hOrigin, hRectangle, hX, hY, cell?_origin hOrigin⟩
  · refine (starts_ascend hRow).imp ?_
    intro a b hStarts r s hr hs
    obtain ⟨startA, startB, hA, hB, hBehind⟩ := hStarts
    obtain ⟨r', hr', hXr, -⟩ := rectangle?_origin hRows hA
    obtain ⟨s', hs', hXs, -⟩ := rectangle?_origin hRows hB
    have hWidth := columnSpan_pos d a
    rw [hr, Option.some.injEq] at hr'
    rw [hs, Option.some.injEq] at hs'
    rw [hr', hs', hXr, hXs]
    omega

/-- A data cell of two columns takes the lower slot of the header above it. The header is still shown
where it starts, and the headers of its row start one behind the other. -/
theorem cells_keep_start_overlapped :
    let d := ofElement "table" []
      [.element "tr" [] [.element "th" [] [], .element "th" [("rowspan", "2")] []],
        .element "tr" [] [.element "td" [("colspan", "2")] []]]
    let g := d.gridOfRows [1, 4]
    ([1, 4].Nodup ∧ [1, 4][0]? = some 1 ∧ d.cellsOf 1 = [2, 3] ∧ g.cell? 1 1 = some 5) ∧
      (∃ start r, g.rectangle? 3 = some r ∧ r.minX = start ∧ r.minY = 0 ∧
        g.cell? start 0 = some 3) ∧
      ∀ r s, g.rectangle? 2 = some r → g.rectangle? 3 = some s → r.minX < s.minX := by
  intro d g
  have hRows : ([1, 4] : List Element).Nodup := by decide
  have hCells : d.cellsOf 1 = [2, 3] := by decide +kernel
  have hRow : ([1, 4] : List Element)[0]? = some 1 := rfl
  obtain ⟨hKept, hOrder⟩ := cells_keep_start d hRows hRow
  obtain ⟨start, r, -, hRectangle, hX, hY, hShown⟩ := hKept 3 (by rw [hCells]; decide)
  rw [hCells, List.pairwise_pair] at hOrder
  exact ⟨⟨hRows, hRow, hCells, by decide +kernel⟩, ⟨start, r, hRectangle, hX, hY, hShown⟩, hOrder⟩

/-! ## Cells that do not meet -/

/-- If the rectangles that the cells ask for do not meet, each slot shows exactly the cell in whose
rectangle it lies, and that rectangle is the one reported. -/
theorem disjoint_cells_exact (d : Document) {rows : List Element} (hRows : rows.Nodup)
    (hDisjoint : (d.layOut rows).origins.Pairwise fun p q =>
      (d.extent rows.length p).Disjoint (d.extent rows.length q))
    {y : Nat} {row cell : Element} (hRow : rows[y]? = some row) (hCell : cell ∈ d.cellsOf row) :
    ∃ start, (∀ x' y', (cell, x', y') ∈ (d.layOut rows).origins ↔ x' = start ∧ y' = y) ∧
      (∀ x r, (d.gridOfRows rows).cell? x r = some cell ↔
        (d.extent rows.length (cell, start, y)).Contains x r) ∧
      (d.gridOfRows rows).rectangle? cell = some (d.extent rows.length (cell, start, y)) := by
  obtain ⟨start, hOrigin⟩ := mem_origins_iff.mpr ⟨row, hRow, hCell⟩
  have hIff := origin_iff hRows hOrigin
  have hSlots : ∀ x r, (d.gridOfRows rows).cell? x r = some cell ↔
      (d.extent rows.length (cell, start, y)).Contains x r := by
    intro x r
    constructor
    · intro hShown
      obtain ⟨start', y', hOrigin', hContains⟩ := contains_of_shown hShown
      obtain ⟨rfl, rfl⟩ := (hIff start' y').mp hOrigin'
      exact hContains
    · intro hContains
      obtain ⟨other, hShown⟩ := Option.isSome_iff_exists.mp (isSome_of_contains hOrigin hContains)
      obtain ⟨start', y', hOrigin', hContains'⟩ := contains_of_shown hShown
      have hSame := eq_of_pairwise hDisjoint hOrigin hOrigin'
        (fun hApart => hApart x r ⟨hContains, hContains'⟩)
        (fun hApart => hApart x r ⟨hContains', hContains⟩)
      have hOther : cell = other := congrArg Prod.fst hSame
      rw [hShown, hOther]
  refine ⟨start, hIff, hSlots, ?_⟩
  obtain ⟨r, hRectangle, -, -⟩ := rectangle?_origin hRows hOrigin
  have hy := row_lt_of_origin hOrigin
  have hWidth := columnSpan_pos d cell
  rw [hRectangle, (Grid.bounds_rectangle? hRectangle).eq_of_contains ?_ ?_ hSlots]
  · show start ≤ start + d.columnSpan cell - 1
    omega
  · show y ≤ (if d.rowSpan cell = 0 then rows.length else y + d.rowSpan cell) - 1
    split <;> omega

/-- A header that covers the rest of its group, beside a data cell that reaches beyond the last row:
both are shown in their rectangles. -/
theorem disjoint_cells_exact_full_column :
    let d := ofElement "table" []
      [.element "tr" [] [.element "td" [("rowspan", "3")] [], .element "th" [("rowspan", "0")] []],
        .element "tr" [] []]
    let rows : List Element := [1, 4]
    let g := d.gridOfRows rows
    (rows.Nodup ∧ ((d.layOut rows).origins.Pairwise fun p q =>
        (d.extent rows.length p).Disjoint (d.extent rows.length q)) ∧
      rows[0]? = some 1 ∧ 3 ∈ d.cellsOf 1) ∧
      ∃ start, (∀ x r, g.cell? x r = some 3 ↔ (d.extent 2 (3, start, 0)).Contains x r) ∧
        g.rectangle? 3 = some (d.extent 2 (3, start, 0)) := by
  intro d rows g
  have hRows : rows.Nodup := by decide
  have hDisjoint : (d.layOut rows).origins.Pairwise fun p q =>
      (d.extent rows.length p).Disjoint (d.extent rows.length q) := by decide +kernel
  have hRow : rows[0]? = some 1 := rfl
  have hCell : 3 ∈ d.cellsOf 1 := by decide +kernel
  obtain ⟨start, -, hSlots, hRectangle⟩ := disjoint_cells_exact d hRows hDisjoint hRow hCell
  exact ⟨⟨hRows, hDisjoint, hRow, hCell⟩, start, hSlots, hRectangle⟩

end Document

end AriaLocator

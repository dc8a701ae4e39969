import AriaLocator.Proofs.Table.Extent

/-!
# The cells that the grid of a table holds

The grid of a table stacks the grids of its row groups.  Stacking loses nothing, and neither does
the layout of a group, so the grid holds exactly the cells of the rows of the groups taken.  These
are all the bodies of the table and the rows that belong to no section, but one head and one foot
only.  A table with two heads has cells that its grid does not know of, and to them nothing seems to
be data, neither in their row nor in their column.

## Main results

* `holds_gridOfRows_iff`: the grid of a row group holds the cells of its rows.
* `holds_gridOfTable_iff`: the grid of a table holds the cells of the groups taken.
* `table_holds_iff`: a cell of a section is left out exactly if the section is a head or a foot behind
  the first one.
-/

namespace AriaLocator

namespace Grid

/-- Some slot of the grid holds the element. -/
def Holds (g : Grid) (e : Element) : Prop := ∃ x y, g.cell? x y = some e

theorem cell?_append (g below : Grid) (x y : Nat) :
    (g.append below).cell? x y =
      if y < g.height then g.cell? x y else below.cell? x (y - g.height) := by
  unfold append cell? height
  rw [Array.getElem?_append]
  split <;> rfl

theorem cell?_of_height_le {g : Grid} {x y : Nat} (h : g.height ≤ y) : g.cell? x y = none := by
  unfold cell?
  rw [Array.getElem?_eq_none h]
  rfl

theorem holds_append_iff {g below : Grid} {e : Element} :
    (g.append below).Holds e ↔ g.Holds e ∨ below.Holds e := by
  constructor
  · intro h
    obtain ⟨x, y, hSlot⟩ := h
    rw [cell?_append] at hSlot
    split at hSlot
    · exact Or.inl ⟨x, y, hSlot⟩
    · exact Or.inr ⟨x, y - g.height, hSlot⟩
  · intro h
    rcases h with ⟨x, y, hSlot⟩ | ⟨x, y, hSlot⟩
    · refine ⟨x, y, ?_⟩
      rw [cell?_append]
      by_cases hRow : y < g.height
      · rw [if_pos hRow]
        exact hSlot
      · rw [cell?_of_height_le (Nat.le_of_not_lt hRow)] at hSlot
        simp at hSlot
    · refine ⟨x, g.height + y, ?_⟩
      rw [cell?_append, if_neg (by omega), show g.height + y - g.height = y by omega]
      exact hSlot

theorem not_holds_empty {e : Element} : ¬ empty.Holds e := by
  intro h
  obtain ⟨x, y, hSlot⟩ := h
  rw [cell?_of_height_le (Nat.zero_le y)] at hSlot
  simp at hSlot

theorem holds_foldl_append_iff {α : Type} {part : α → Grid} {parts : List α} {g : Grid}
    {e : Element} :
    (parts.foldl (fun g p => g.append (part p)) g).Holds e ↔
      g.Holds e ∨ ∃ p ∈ parts, (part p).Holds e := by
  induction parts generalizing g with
  | nil => simp
  | cons p parts ih =>
      rw [List.foldl_cons, ih, holds_append_iff, or_assoc]
      simp

end Grid

namespace Document

variable {d : Document}

/-- The grid of a row group holds the cells of its rows, and nothing else. -/
theorem holds_gridOfRows_iff {rows : List Element} {cell : Element} :
    (d.gridOfRows rows).Holds cell ↔ ∃ row ∈ rows, cell ∈ d.cellsOf row := by
  constructor
  · intro h
    obtain ⟨x, r, hShown⟩ := h
    obtain ⟨start, y, hOrigin, -⟩ := contains_of_shown hShown
    obtain ⟨row, hRow, hCell⟩ := mem_origins_iff.mp ⟨start, hOrigin⟩
    exact ⟨row, List.mem_of_getElem? hRow, hCell⟩
  · intro h
    obtain ⟨row, hRow, hCell⟩ := h
    obtain ⟨y, hy⟩ := List.getElem?_of_mem hRow
    obtain ⟨start, hOrigin⟩ := mem_origins_iff.mpr ⟨row, hy, hCell⟩
    exact ⟨start, y, cell?_origin hOrigin⟩

/-- The grid of a table holds the cells in the rows of the groups taken, and nothing else. -/
theorem holds_gridOfTable_iff {table cell : Element} :
    (d.gridOfTable table).Holds cell ↔
      ∃ group ∈ d.rowGroups table, ∃ row ∈ d.childrenWithTag group "tr",
        cell ∈ d.cellsOf row := by
  unfold gridOfTable
  rw [Grid.holds_foldl_append_iff]
  simp only [Grid.not_holds_empty, false_or, holds_gridOfRows_iff]

theorem mem_childrenWithTag {e c : Element} {tag : String} :
    c ∈ d.childrenWithTag e tag ↔ c ∈ d.childElements e ∧ d.tag c = tag := by
  unfold childrenWithTag
  rw [List.mem_filter, beq_iff_eq]

theorem parent_of_childrenWithTag {e c : Element} {tag : String}
    (h : c ∈ d.childrenWithTag e tag) : d.parent? c = some e :=
  (mem_childElements.mp (mem_childrenWithTag.mp h).1).1

/-- A cell stands in one row, and a row in one group. -/
theorem holds_gridOfTable_iff_of_mem {table group row cell : Element}
    (hRow : row ∈ d.childrenWithTag group "tr") (hCell : cell ∈ d.cellsOf row) :
    (d.gridOfTable table).Holds cell ↔ group ∈ d.rowGroups table := by
  rw [holds_gridOfTable_iff]
  constructor
  · intro h
    obtain ⟨group', hGroup, row', hRow', hCell'⟩ := h
    have hSameRow : row' = row :=
      Option.some.inj ((parent_of_cellsOf hCell').symm.trans (parent_of_cellsOf hCell))
    rw [hSameRow] at hRow'
    have hSameGroup : group' = group :=
      Option.some.inj ((parent_of_childrenWithTag hRow').symm.trans (parent_of_childrenWithTag hRow))
    exact hSameGroup ▸ hGroup
  · intro hGroup
    exact ⟨group, hGroup, row, hRow, hCell⟩

/-- The groups of a table: all bodies, the table itself for its own rows, the first head and the first
foot. -/
theorem mem_rowGroups_iff {table group : Element} :
    group ∈ d.rowGroups table ↔ group = table ∨
      (group ∈ d.childElements table ∧ d.tag group = "tbody") ∨
      d.childWithTag? table "thead" = some group ∨ d.childWithTag? table "tfoot" = some group := by
  unfold rowGroups
  simp only [List.mem_append, Option.mem_toList, mem_childrenWithTag, List.mem_singleton]
  grind

theorem tag_of_childWithTag? {e c : Element} {tag : String} (h : d.childWithTag? e tag = some c) :
    d.tag c = tag := by
  have hTest := List.find?_some h
  exact beq_iff_eq.mp hTest

/-- The rows of `group` are laid out with the table: it is the table itself, one of its bodies, or the
first section of its kind. -/
def IsTaken (d : Document) (table group : Element) : Prop :=
  group = table ∨ d.tag group = "tbody" ∨ d.childWithTag? table (d.tag group) = some group

/-- The table itself or one of its sections. -/
def IsSection (d : Document) (table group : Element) : Prop :=
  group = table ∨
    group ∈ d.childElements table ∧ d.tag group ∈ ["thead", "tbody", "tfoot"]

theorem mem_rowGroups_iff_isTaken {table group : Element} (hSection : d.IsSection table group) :
    group ∈ d.rowGroups table ↔ d.IsTaken table group := by
  rw [mem_rowGroups_iff]
  constructor
  · intro h
    rcases h with hTable | ⟨-, hBody⟩ | hHead | hFoot
    · exact Or.inl hTable
    · exact Or.inr (Or.inl hBody)
    · exact Or.inr (Or.inr (by rw [tag_of_childWithTag? hHead, hHead]))
    · exact Or.inr (Or.inr (by rw [tag_of_childWithTag? hFoot, hFoot]))
  · intro h
    rcases hSection with hTable | ⟨hChild, hTag⟩
    · exact Or.inl hTable
    · rcases h with hTable | hBody | hFirst
      · exact Or.inl hTable
      · exact Or.inr (Or.inl ⟨hChild, hBody⟩)
      · simp only [List.mem_cons, List.not_mem_nil, or_false] at hTag
        rcases hTag with hHead | hBody | hFoot
        · rw [hHead] at hFirst
          exact Or.inr (Or.inr (Or.inl hFirst))
        · exact Or.inr (Or.inl ⟨hChild, hBody⟩)
        · rw [hFoot] at hFirst
          exact Or.inr (Or.inr (Or.inr hFirst))

/-- Of the cells in the rows of a table and of its sections, the grid of the table holds those of the
groups taken, and reports what data is beside them.  Those of a second head or foot it does not hold,
and reports no data beside them. -/
theorem table_holds_iff (d : Document) {table group row cell : Element}
    (hSection : d.IsSection table group) (hRow : row ∈ d.childrenWithTag group "tr")
    (hCell : cell ∈ d.cellsOf row) :
    let g := d.gridOfTable table
    (d.IsTaken table group → g.Holds cell ∧ ∃ r, g.rectangle? cell = some r ∧
      d.hasDataInRow table cell = d.rowsHoldData g r ∧
      d.hasDataInColumn table cell = d.columnsHoldData g r) ∧
    (¬ d.IsTaken table group → ¬ g.Holds cell ∧ g.rectangle? cell = none ∧
      d.hasDataInRow table cell = false ∧ d.hasDataInColumn table cell = false) := by
  intro g
  have hHolds : g.Holds cell ↔ d.IsTaken table group := by
    rw [holds_gridOfTable_iff_of_mem hRow hCell, mem_rowGroups_iff_isTaken hSection]
  have hInRow : d.hasDataInRow table cell = (g.rectangle? cell).any (d.rowsHoldData g) := rfl
  have hInColumn : d.hasDataInColumn table cell = (g.rectangle? cell).any (d.columnsHoldData g) := rfl
  constructor
  · intro hTaken
    have hHeld := hHolds.mpr hTaken
    obtain ⟨r, hRectangle⟩ := Option.isSome_iff_exists.mp (Grid.rectangle?_isSome_iff.mpr hHeld)
    refine ⟨hHeld, r, hRectangle, ?_, ?_⟩
    · rw [hInRow, hRectangle, Option.any_some]
    · rw [hInColumn, hRectangle, Option.any_some]
  · intro hLeft
    have hHeld : ¬ g.Holds cell := fun h => hLeft (hHolds.mp h)
    have hNone : g.rectangle? cell = none := by
      rw [Option.eq_none_iff_forall_ne_some]
      intro r hRectangle
      exact hHeld (Grid.rectangle?_isSome_iff.mp (by rw [hRectangle]; rfl))
    refine ⟨hHeld, hNone, ?_, ?_⟩
    · rw [hInRow, hNone, Option.any_none]
    · rw [hInColumn, hNone, Option.any_none]

/-- In the second body of a table, a header has a place in the grid, and data in its row. -/
theorem table_holds_second_body :
    let row := Markup.element "tr" [] [.element "th" [] [], .element "td" [] []]
    let d := ofElement "table" [] [.element "tbody" [] [], .element "tbody" [] [row]]
    let g := d.gridOfTable 0
    (d.IsSection 0 2 ∧ 3 ∈ d.childrenWithTag 2 "tr" ∧ 4 ∈ d.cellsOf 3) ∧
      ∃ r, g.rectangle? 4 = some r ∧ d.rowsHoldData g r = true := by
  intro row d g
  have hSection : d.IsSection 0 2 := Or.inr (by decide +kernel)
  have hRow : 3 ∈ d.childrenWithTag 2 "tr" := by decide +kernel
  have hCell : 4 ∈ d.cellsOf 3 := by decide +kernel
  have hTaken : d.IsTaken 0 2 := Or.inr (Or.inl (by decide +kernel))
  obtain ⟨-, r, hRectangle, hData, -⟩ := (table_holds_iff d hSection hRow hCell).1 hTaken
  have hFound : d.hasDataInRow 0 4 = true := by decide +kernel
  exact ⟨⟨hSection, hRow, hCell⟩, r, hRectangle, hData ▸ hFound⟩

/-- In the second head of a table, a header has no place in the grid, and the data cell beside it goes
unnoticed. -/
theorem table_misses_second_head :
    let row := Markup.element "tr" [] [.element "th" [] [], .element "td" [] []]
    let d := ofElement "table" [] [.element "thead" [] [], .element "thead" [] [row]]
    (2 ∈ d.childElements 0 ∧ d.tag 2 = "thead" ∧ 3 ∈ d.childrenWithTag 2 "tr" ∧
      d.cellsOf 3 = [4, 5]) ∧
      (d.gridOfTable 0).rectangle? 4 = none ∧ d.hasDataInRow 0 4 = false := by
  decide +kernel

end Document

end AriaLocator

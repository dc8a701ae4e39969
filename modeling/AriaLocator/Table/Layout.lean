import AriaLocator.Table.Grid
import AriaLocator.Text.Blank
import AriaLocator.Text.Natural

/-!
# Table layout

The cells of a row group are laid out row by row. Each cell starts in the first free column of its
row and covers as many columns and rows as its `colspan` and `rowspan` say; a `rowspan` of zero
covers the rest of the group. Where cells overlap, a data cell keeps its slot, since only the
presence of data matters to the headers of a table.

A table stacks its first `thead`, all its `tbody`s, the rows outside any section, and its first
`tfoot`, in this order.

## Main results

* `columnSpan_pos`: a cell covers at least one column.
-/

namespace AriaLocator

/-- The most columns that a cell can cover. -/
def maxColumnSpan : Nat := 1000

/-- The most rows that a cell can cover. -/
def maxRowSpan : Nat := 65534

/-- The state of a layout. -/
structure Layout where
  /-- The slots filled so far. -/
  grid : Grid
  /-- The cells that cover a column to the end of the group. -/
  full : Array (Option Element)
  /-- The column and row in which each cell starts, the last cell first. -/
  origins : List (Element × Nat × Nat)
deriving DecidableEq, Repr

namespace Layout

/-- Nothing laid out yet. -/
def empty : Layout := ⟨Grid.empty, #[], []⟩

/-- The cell that covers column `x` to the end of the group. -/
def filler? (state : Layout) (x : Nat) : Option Element := (state.full[x]?).getD none

/-- Whether a cell that starts in row `y` cannot start in column `x`. -/
def isTaken (state : Layout) (x y : Nat) : Bool :=
  (state.grid.cell? x y).isSome || (state.filler? x).isSome

/-- The first free column of row `y` from `start` on. Past the row and the full columns, every
column is free. -/
def freeColumn (state : Layout) (y start : Nat) : Nat :=
  let bound := max ((state.grid.rows[y]?.map Array.size).getD 0) state.full.size
  ((List.range' start (bound - start)).find? fun x => !state.isTaken x y).getD (max start bound)

end Layout

namespace Document

/-- The number of an attribute, if it is trimmed a number that fits a machine word. -/
def size? (d : Document) (e : Element) (name : String) : Option Nat :=
  (d.attribute? e name).bind fun value =>
    Text.readNat? (Text.largestWord 64) (Text.trimChars value.toList)

/-- The number of columns that a cell covers. -/
def columnSpan (d : Document) (cell : Element) : Nat :=
  (((d.size? cell "colspan").filter (0 < ·)).map (min · maxColumnSpan)).getD 1

/-- The number of rows that a cell covers; zero stands for the rest of its group. -/
def rowSpan (d : Document) (cell : Element) : Nat :=
  ((d.size? cell "rowspan").map (min · maxRowSpan)).getD 1

theorem columnSpan_pos (d : Document) (cell : Element) : 0 < d.columnSpan cell := by
  rw [columnSpan]
  cases h : Option.filter _ _ with
  | none => simp
  | some n =>
    have hn : 0 < n := by simpa using (Option.filter_eq_some_iff.mp h).2
    simp only [Option.map_some, Option.getD_some, maxColumnSpan]
    omega

/-- Whether a slot holds a data cell. -/
def isData (d : Document) (slot : Option Element) : Bool := slot.any fun cell => d.tag cell == "td"

/-- Puts a cell into a slot, unless a data cell is there. -/
def coverSlot (d : Document) (cell : Element) (g : Grid) (x y : Nat) : Grid :=
  if d.isData (g.cell? x y) then g else g.setCell x y cell

/-- Shows the cell that covers column `x` to the end of the group, if there is one, in row `y`. -/
def coverFiller (d : Document) (state : Layout) (g : Grid) (x y : Nat) : Grid :=
  match state.filler? x with
  | none => g
  | some filler => d.coverSlot filler g x y

/-- Shows the full columns among `count` columns from `start` on in row `y`. -/
def coverFillers (d : Document) (y start count : Nat) (state : Layout) : Layout :=
  { state with
    grid := (List.range' start count).foldl (fun g x => d.coverFiller state g x y) state.grid }

/-- Lays one column of a cell that starts in row `y` and covers `span` rows. -/
def layColumn (d : Document) (cell : Element) (span y : Nat) (state : Layout) (x : Nat) : Layout :=
  if span = 0 then
    { state with
      full := (padTo (x + 1) none state.full).setIfInBounds x (some cell)
      grid := state.grid.setCell x y cell }
  else
    { state with
      grid := (List.range' y span).foldl (fun g below => d.coverSlot cell g x below) state.grid }

/-- Lays a cell into row `y`, in the first free column from `start` on. The result holds the column
behind the cell. -/
def layCell (d : Document) (y : Nat) (progress : Layout × Nat) (cell : Element) : Layout × Nat :=
  let (state, start) := progress
  let x := state.freeColumn y start
  let state := d.coverFillers y start (x - start) state
  let state := (List.range' x (d.columnSpan cell)).foldl (d.layColumn cell (d.rowSpan cell) y) state
  ({ state with origins := (cell, x, y) :: state.origins }, x + d.columnSpan cell)

/-- The cells of a row. -/
def cellsOf (d : Document) (row : Element) : List Element :=
  (d.childElements row).filter fun c => d.tag c == "td" || d.tag c == "th"

/-- Lays a row out as row `y`. -/
def layRow (d : Document) (y : Nat) (state : Layout) (row : Element) : Layout :=
  let (state, next) := (d.cellsOf row).foldl (d.layCell y) (state, 0)
  d.coverFillers y next (state.grid.width - next) state

/-- Lays rows out from row `y` on. -/
def layRows (d : Document) : Nat → Layout → List Element → Layout
  | _, state, [] => state
  | y, state, row :: rest => d.layRows (y + 1) (d.layRow y state row) rest

/-- The layout of a group of rows. -/
def layOut (d : Document) (rows : List Element) : Layout := d.layRows 0 Layout.empty rows

/-- The grid of a group of rows. -/
def gridOfRows (d : Document) (rows : List Element) : Grid := (d.layOut rows).grid

/-- The child elements with the given tag. -/
def childrenWithTag (d : Document) (e : Element) (tag : String) : List Element :=
  (d.childElements e).filter fun c => d.tag c == tag

/-- The row groups of a table, from the top: each is an element whose rows belong together. -/
def rowGroups (d : Document) (table : Element) : List Element :=
  (d.childWithTag? table "thead").toList ++ d.childrenWithTag table "tbody" ++ [table] ++
    (d.childWithTag? table "tfoot").toList

/-- The grid of a table. -/
def gridOfTable (d : Document) (table : Element) : Grid :=
  (d.rowGroups table).foldl
    (fun g group => g.append (d.gridOfRows (d.childrenWithTag group "tr"))) Grid.empty

/-! ## Data beside a cell -/

/-- Whether the rows that a cell spans hold a data cell. -/
def rowsHoldData (d : Document) (g : Grid) (r : Rectangle) : Bool :=
  (g.rows.extract r.minY (r.maxY + 1)).any fun row => row.any d.isData

/-- Whether the columns that a cell spans hold a data cell. -/
def columnsHoldData (d : Document) (g : Grid) (r : Rectangle) : Bool :=
  g.rows.any fun row => (row.extract r.minX (r.maxX + 1)).any d.isData

/-- Whether a table has a data cell in a row that `cell` spans. -/
def hasDataInRow (d : Document) (table cell : Element) : Bool :=
  let g := d.gridOfTable table
  (g.rectangle? cell).any (d.rowsHoldData g)

/-- Whether a table has a data cell in a column that `cell` spans. -/
def hasDataInColumn (d : Document) (table cell : Element) : Bool :=
  let g := d.gridOfTable table
  (g.rectangle? cell).any (d.columnsHoldData g)

end Document

end AriaLocator

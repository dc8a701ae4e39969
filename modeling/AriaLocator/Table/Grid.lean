import AriaLocator.Document.Basic

/-!
# Grids

A grid maps slots, given by column and row, to the elements shown there. It is ragged: rows have
their own lengths, and both rows and columns are added when an element is put beyond them.

## Main results

* `cell?_setCell`: putting an element into a slot changes that slot and no other.
* `lt_width_of_cell?`: no slot beyond the width holds an element.
-/

namespace AriaLocator

/-- Rows of slots, each empty or holding an element. -/
structure Grid where
  /-- The rows, from the top. -/
  rows : Array (Array (Option Element))
deriving DecidableEq, Repr

/-- A range of columns and rows, both ends included. -/
structure Rectangle where
  minX : Nat
  minY : Nat
  maxX : Nat
  maxY : Nat
deriving DecidableEq, Repr

/-- A rectangle widened to hold one more stretch of columns, in a row below it. -/
def Rectangle.extend (r : Option Rectangle) (y first last : Nat) : Rectangle :=
  match r with
  | none => ⟨first, y, last, y⟩
  | some r => ⟨min r.minX first, r.minY, max r.maxX last, y⟩

/-- An array filled up to `n` entries. -/
def padTo {α : Type} (n : Nat) (filler : α) (entries : Array α) : Array α :=
  if n ≤ entries.size then entries else entries ++ Array.replicate (n - entries.size) filler

theorem padTo_eq {α : Type} (n : Nat) (filler : α) (entries : Array α) :
    padTo n filler entries = entries ++ Array.replicate (n - entries.size) filler := by
  unfold padTo
  split
  · next h => simp [Nat.sub_eq_zero_of_le h]
  · rfl

theorem getElem?_padTo {α : Type} (n i : Nat) (filler : α) (entries : Array α) :
    (padTo n filler entries)[i]? =
      if i < entries.size then entries[i]? else if i < n then some filler else none := by
  rw [padTo_eq, Array.getElem?_append]
  split
  · rfl
  · next h =>
    rw [Array.getElem?_replicate]
    by_cases hn : i < n
    · rw [if_pos (by omega), if_pos hn]
    · rw [if_neg (by omega), if_neg hn]

namespace Grid

/-- The grid without rows. -/
def empty : Grid := ⟨#[]⟩

/-- The number of rows. -/
def height (g : Grid) : Nat := g.rows.size

/-- The length of the longest row. -/
def width (g : Grid) : Nat := g.rows.foldl (fun longest row => max longest row.size) 0

/-- The element in column `x` of row `y`. -/
def cell? (g : Grid) (x y : Nat) : Option Element := ((g.rows[y]?.getD #[])[x]?).getD none

/-- Puts an element into column `x` of row `y`, adding rows and columns as needed. -/
def setCell (g : Grid) (x y : Nat) (e : Element) : Grid :=
  ⟨(padTo (y + 1) #[] g.rows).modify y fun row =>
    (padTo (x + 1) none row).setIfInBounds x (some e)⟩

/-- Setting one slot of a row, which may be longer afterwards. -/
private theorem slot_set (row : Array (Option Element)) (x x' : Nat) (e : Element) :
    (((padTo (x + 1) none row).setIfInBounds x (some e))[x']?).getD none =
      if x' = x then some e else (row[x']?).getD none := by
  rw [Array.getElem?_setIfInBounds]
  have hSize : x < (padTo (x + 1) none row).size := by
    simp only [padTo_eq, Array.size_append, Array.size_replicate]; omega
  by_cases hx : x = x'
  · subst hx; simp [hSize]
  · rw [if_neg hx, if_neg (Ne.symm hx), getElem?_padTo]
    by_cases h1 : x' < row.size
    · simp [h1]
    · by_cases h2 : x' < x + 1 <;> simp [h1, h2]

/-- Changing one row, which may be new. -/
private theorem row_modify (rows : Array (Array (Option Element))) (y y' : Nat)
    (f : Array (Option Element) → Array (Option Element)) :
    (((padTo (y + 1) #[] rows).modify y f)[y']?).getD #[] =
      if y' = y then f ((rows[y]?).getD #[]) else (rows[y']?).getD #[] := by
  rw [Array.getElem?_modify]
  by_cases hy : y = y'
  · subst hy
    rw [if_pos rfl, if_pos rfl, getElem?_padTo]
    by_cases h1 : y < rows.size
    · simp [h1]
    · simp [h1]
  · rw [if_neg hy, if_neg (Ne.symm hy), getElem?_padTo]
    by_cases h1 : y' < rows.size
    · simp [h1]
    · by_cases h2 : y' < y + 1 <;> simp [h1, h2]

/-- Putting an element into a slot changes that slot and no other. -/
theorem cell?_setCell (g : Grid) (x y x' y' : Nat) (e : Element) :
    (g.setCell x y e).cell? x' y' = if x' = x ∧ y' = y then some e else g.cell? x' y' := by
  simp only [setCell, cell?, row_modify]
  by_cases hy : y' = y
  · subst hy
    rw [if_pos rfl, slot_set]
    simp
  · simp [hy]

private theorem le_longest (rows : List (Array (Option Element))) (longest : Nat) :
    longest ≤ rows.foldl (fun longest row => max longest row.size) longest ∧
      ∀ row ∈ rows, row.size ≤ rows.foldl (fun longest row => max longest row.size) longest := by
  induction rows generalizing longest with
  | nil => exact ⟨Nat.le_refl _, by simp⟩
  | cons first rows ih =>
      obtain ⟨hStart, hRows⟩ := ih (max longest first.size)
      rw [List.foldl_cons]
      refine ⟨by omega, ?_⟩
      intro row hRow
      rcases List.mem_cons.mp hRow with rfl | hRow
      · omega
      · exact hRows row hRow

/-- What is in a grid is in its width. -/
theorem lt_width_of_cell? {g : Grid} {x y : Nat} {e : Element} (h : g.cell? x y = some e) :
    x < g.width := by
  unfold Grid.cell? at h
  cases hRow : g.rows[y]? with
  | none => simp [hRow] at h
  | some row =>
      rw [hRow, Option.getD_some] at h
      have hx : x < row.size := by
        refine Nat.lt_of_not_le fun hle => ?_
        rw [Array.getElem?_eq_none hle] at h
        simp at h
      have hWidth : row.size ≤ g.width := by
        unfold Grid.width
        rw [← Array.foldl_toList]
        exact (le_longest g.rows.toList 0).2 row
          (Array.mem_toList_iff.mpr (Array.mem_of_getElem? hRow))
      exact Nat.lt_of_lt_of_le hx hWidth

/-- The grid with the rows of another below its own. -/
def append (g below : Grid) : Grid := ⟨g.rows ++ below.rows⟩

/-- The columns of a row that hold an element. -/
def columnsOf (row : Array (Option Element)) (e : Element) : List Nat :=
  if row.any (·.any (· == e)) then
    (List.range row.size).filter fun x => (row[x]?.getD none).any (· == e)
  else []

/-- The rectangle around the slots of the rows from `y` on that hold an element, joined to one
around slots above them. -/
def rectangleFrom (e : Element) : Nat → Option Rectangle → List (Array (Option Element)) →
    Option Rectangle
  | _, r, [] => r
  | y, r, row :: rest =>
    match columnsOf row e with
    | [] => rectangleFrom e (y + 1) r rest
    | first :: more =>
      rectangleFrom e (y + 1) (some (Rectangle.extend r y first (more.getLastD first))) rest

/-- The smallest rectangle around the slots that hold an element, if there are any. -/
def rectangle? (g : Grid) (e : Element) : Option Rectangle :=
  rectangleFrom e 0 none g.rows.toList

end Grid

end AriaLocator

import AriaLocator.Proofs.Table.Column

/-!
# The state of a layout

Each step of a layout changes the columns that it passes, each on its own, and so what a step does is
said slot by slot: a cell is laid over its columns, the full columns in front of it show in its row,
and its start is recorded.  A layout that has come to column `next` of row `y` shows the slots passed
as the rule for one column says, and holds in the others what the rows above have left there.  Laying
a cell keeps this, and so does the end of a row; from the empty layout on it holds of every state,
and in the end of the whole grid.

What holds the cells of a row together is where they start: each starts behind the previous one, in
a slot and a column that are free so far.

## Main results

* `layCell_laysCell`: what laying one cell does.
* `LaysCell.laid`, `Laid.endRow`: a cell and the end of a row keep the state of a layout.
* `layOut_laid`, `cell?_gridOfRows`: what a slot of a finished grid holds.
-/

namespace AriaLocator

namespace Document

variable {d : Document}

/-! ## One write -/

theorem cell?_coverSlot (cell : Element) (g : Grid) (x y x' y' : Nat) :
    (d.coverSlot cell g x y).cell? x' y' =
      if x' = x ∧ y' = y then d.cover cell (g.cell? x' y') else g.cell? x' y' := by
  unfold coverSlot cover
  by_cases hSlot : x' = x ∧ y' = y
  · rw [if_pos hSlot, hSlot.1, hSlot.2]
    split
    · rfl
    · rw [Grid.cell?_setCell, if_pos ⟨rfl, rfl⟩]
  · rw [if_neg hSlot]
    split
    · rfl
    · rw [Grid.cell?_setCell, if_neg hSlot]

theorem cell?_coverFiller (s : Layout) (g : Grid) (x y x' y' : Nat) :
    (d.coverFiller s g x y).cell? x' y' =
      if x' = x ∧ y' = y then d.fill (s.filler? x') (g.cell? x' y') else g.cell? x' y' := by
  unfold coverFiller
  cases hFiller : s.filler? x with
  | none =>
      by_cases hSlot : x' = x ∧ y' = y
      · rw [if_pos hSlot, hSlot.1, hFiller]
        rfl
      · rw [if_neg hSlot]
  | some cell =>
      show (d.coverSlot cell g x y).cell? x' y' = _
      rw [cell?_coverSlot]
      by_cases hSlot : x' = x ∧ y' = y
      · rw [if_pos hSlot, if_pos hSlot, hSlot.1, hFiller]
        rfl
      · rw [if_neg hSlot, if_neg hSlot]

/-- A run over consecutive numbers, each step of which changes its own part of a state only, changes
the part of every number that it passes. -/
theorem foldl_range'_view {σ β : Type} {step : σ → Nat → σ} (view : Nat → σ → β)
    (change : Nat → β → β)
    (hStep : ∀ s i j, view j (step s i) = if j = i then change j (view j s) else view j s)
    (start count j : Nat) (s : σ) :
    view j ((List.range' start count).foldl step s) =
      if start ≤ j ∧ j < start + count then change j (view j s) else view j s := by
  induction count generalizing start s with
  | zero =>
      rw [if_neg (by omega)]
      rfl
  | succ count ih =>
      rw [List.range'_succ, List.foldl_cons, ih, hStep]
      by_cases hFirst : j = start
      · rw [if_neg (by omega), if_pos hFirst, if_pos (by omega)]
      · rw [if_neg hFirst]
        by_cases hBehind : start + 1 ≤ j ∧ j < start + 1 + count
        · rw [if_pos hBehind, if_pos (by omega)]
        · rw [if_neg hBehind, if_neg (by omega)]

/-- The fillers of one row show in the columns passed over, and nowhere else. -/
theorem cell?_coverFillers (s : Layout) (y start count x r : Nat) :
    (d.coverFillers y start count s).grid.cell? x r =
      if r = y ∧ start ≤ x ∧ x < start + count then d.fill (s.filler? x) (s.grid.cell? x r)
      else s.grid.cell? x r := by
  have hStep : ∀ (g : Grid) (i j : Nat), (d.coverFiller s g i y).cell? j r =
      if j = i then (if r = y then d.fill (s.filler? j) (g.cell? j r) else g.cell? j r)
      else g.cell? j r := by
    intro g i j
    rw [cell?_coverFiller]
    grind
  have hRun := foldl_range'_view (fun x (g : Grid) => g.cell? x r)
    (fun x slot => if r = y then d.fill (s.filler? x) slot else slot) hStep start count x s.grid
  show ((List.range' start count).foldl (fun g x => d.coverFiller s g x y) s.grid).cell? x r = _
  rw [hRun]
  grind

/-- What a cell laid over a column from row `y` on makes of a slot in row `r`. -/
def layOver (d : Document) (cell : Element) (y r : Nat) (slot : Option Element) : Option Element :=
  if d.rowSpan cell = 0 then if r = y then some cell else slot
  else if y ≤ r ∧ r < y + d.rowSpan cell then d.cover cell slot else slot

theorem layOver_above {cell : Element} {y r : Nat} {slot : Option Element} (h : r < y) :
    d.layOver cell y r slot = slot := by
  unfold layOver
  by_cases hFull : d.rowSpan cell = 0
  · rw [if_pos hFull, if_neg (Nat.ne_of_lt h)]
  · rw [if_neg hFull, if_neg (by omega)]

theorem layOver_self {cell : Element} {y : Nat} {slot : Option Element} :
    d.layOver cell y y slot = if d.rowSpan cell = 0 then some cell else d.cover cell slot := by
  unfold layOver
  by_cases hFull : d.rowSpan cell = 0
  · rw [if_pos hFull, if_pos hFull, if_pos rfl]
  · rw [if_neg hFull, if_neg hFull, if_pos (by omega)]

theorem layOver_below {cell : Element} {y r : Nat} {slot : Option Element} (h : y < r) :
    d.layOver cell y r slot = if r < y + d.rowSpan cell then d.cover cell slot else slot := by
  unfold layOver
  by_cases hFull : d.rowSpan cell = 0
  · rw [if_pos hFull, if_neg (Nat.ne_of_gt h), if_neg (by omega)]
  · rw [if_neg hFull]
    by_cases hIn : r < y + d.rowSpan cell
    · rw [if_pos ⟨Nat.le_of_lt h, hIn⟩, if_pos hIn]
    · rw [if_neg (fun hBoth => hIn hBoth.2), if_neg hIn]

theorem cell?_layColumn (cell : Element) (s : Layout) (y x x' r : Nat) :
    (d.layColumn cell (d.rowSpan cell) y s x).grid.cell? x' r =
      if x' = x then d.layOver cell y r (s.grid.cell? x' r) else s.grid.cell? x' r := by
  unfold layColumn layOver
  by_cases hFull : d.rowSpan cell = 0
  · rw [if_pos hFull, if_pos hFull, Grid.cell?_setCell]
    grind
  · have hStep : ∀ (g : Grid) (i j : Nat), (d.coverSlot cell g x i).cell? x' j =
        if j = i then (if x' = x then d.cover cell (g.cell? x' j) else g.cell? x' j)
        else g.cell? x' j := by
      intro g i j
      rw [cell?_coverSlot]
      grind
    have hRun := foldl_range'_view (fun r (g : Grid) => g.cell? x' r)
      (fun _ slot => if x' = x then d.cover cell slot else slot) hStep y (d.rowSpan cell) r s.grid
    rw [if_neg hFull, if_neg hFull, hRun]
    grind

theorem filler?_layColumn (cell : Element) (s : Layout) (y x x' : Nat) :
    (d.layColumn cell (d.rowSpan cell) y s x).filler? x' =
      if x' = x then (if d.rowSpan cell = 0 then some cell else s.filler? x')
      else s.filler? x' := by
  unfold layColumn Layout.filler?
  by_cases hFull : d.rowSpan cell = 0
  · rw [if_pos hFull, if_pos hFull, Array.getElem?_setIfInBounds]
    have hSize : x < (padTo (x + 1) none s.full).size := by
      simp only [padTo_eq, Array.size_append, Array.size_replicate]
      omega
    by_cases hx : x' = x
    · rw [if_pos hx.symm, if_pos hx, if_pos hSize]
      rfl
    · rw [if_neg (Ne.symm hx), if_neg hx, getElem?_padTo]
      by_cases hOld : x' < s.full.size
      · rw [if_pos hOld]
      · rw [if_neg hOld, Array.getElem?_eq_none (Nat.le_of_not_lt hOld)]
        split <;> rfl
  · rw [if_neg hFull, if_neg hFull, ite_self]

/-- A layout with a cell laid over `width` columns from column `x` on. -/
def layColumns (d : Document) (cell : Element) (y x width : Nat) (s : Layout) : Layout :=
  (List.range' x width).foldl (d.layColumn cell (d.rowSpan cell) y) s

theorem cell?_layColumns (cell : Element) (y x width : Nat) (s : Layout) (x' r : Nat) :
    (d.layColumns cell y x width s).grid.cell? x' r =
      if x ≤ x' ∧ x' < x + width then d.layOver cell y r (s.grid.cell? x' r)
      else s.grid.cell? x' r :=
  foldl_range'_view (fun x (s : Layout) => s.grid.cell? x r) (fun _ => d.layOver cell y r)
    (fun s i j => cell?_layColumn cell s y i j r) x width x' s

theorem filler?_layColumns (cell : Element) (y x width : Nat) (s : Layout) (x' : Nat) :
    (d.layColumns cell y x width s).filler? x' =
      if x ≤ x' ∧ x' < x + width then (if d.rowSpan cell = 0 then some cell else s.filler? x')
      else s.filler? x' :=
  foldl_range'_view (fun x (s : Layout) => s.filler? x)
    (fun _ filler => if d.rowSpan cell = 0 then some cell else filler)
    (fun s i j => filler?_layColumn cell s y i j) x width x' s

theorem origins_layColumns (cell : Element) (y x width : Nat) (s : Layout) :
    (d.layColumns cell y x width s).origins = s.origins := by
  unfold layColumns
  induction width generalizing x s with
  | zero => rfl
  | succ width ih =>
      rw [List.range'_succ, List.foldl_cons, ih]
      unfold layColumn
      split <;> rfl

/-! ## Where a cell starts -/

/-- Behind the slots of a row and the full columns, nothing is taken. -/
theorem isTaken_of_behind {s : Layout} {x y : Nat}
    (hRow : (s.grid.rows[y]?.map Array.size).getD 0 ≤ x) (hFull : s.full.size ≤ x) :
    s.isTaken x y = false := by
  have hSlot : s.grid.cell? x y = none := by
    unfold Grid.cell?
    cases hRows : s.grid.rows[y]? with
    | none => rfl
    | some row =>
        rw [hRows] at hRow
        show row[x]?.getD none = none
        rw [Array.getElem?_eq_none hRow]
        rfl
  have hFiller : s.filler? x = none := by
    unfold Layout.filler?
    rw [Array.getElem?_eq_none hFull]
    rfl
  unfold Layout.isTaken
  rw [hSlot, hFiller]
  rfl

/-- The first free column lies no further left than the search starts, and is free. -/
theorem freeColumn_spec (s : Layout) (y start : Nat) :
    start ≤ s.freeColumn y start ∧ s.isTaken (s.freeColumn y start) y = false := by
  unfold Layout.freeColumn
  generalize hBound : max ((s.grid.rows[y]?.map Array.size).getD 0) s.full.size = bound
  show start ≤ Option.getD _ _ ∧ s.isTaken (Option.getD _ _) y = false
  cases hFind : (List.range' start (bound - start)).find? fun x => !s.isTaken x y with
  | none =>
      rw [Option.getD_none]
      exact ⟨Nat.le_max_left .., isTaken_of_behind (by omega) (by omega)⟩
  | some x =>
      rw [Option.getD_some]
      have hFree := List.find?_some hFind
      exact ⟨(List.mem_range'_1.mp (List.mem_of_find?_eq_some hFind)).1, by simpa using hFree⟩

theorem isTaken_eq_false {s : Layout} {x y : Nat} :
    s.isTaken x y = false ↔ s.grid.cell? x y = none ∧ s.filler? x = none := by
  unfold Layout.isTaken
  rw [Bool.or_eq_false_iff, Option.isSome_eq_false_iff, Option.isSome_eq_false_iff,
    Option.isNone_iff_eq_none, Option.isNone_iff_eq_none]

/-! ## The state of a layout -/

/-- The cell that has been laid over column `x` in row `y`. -/
def cellOver? (d : Document) (s : Layout) (x y : Nat) : Option Element :=
  (s.origins.find? fun p => p.2.2 == y && decide (p.2.1 ≤ x ∧ x < p.2.1 + d.columnSpan p.1)).map
    (·.1)

/-- A cell has been laid into row `y`, over column `x`. -/
def LaidOver (d : Document) (s : Layout) (cell : Element) (x y : Nat) : Prop :=
  ∃ start, (cell, start, y) ∈ s.origins ∧ start ≤ x ∧ x < start + d.columnSpan cell

/-- The layout `s` has laid its rows up to row `y`, and row `y` up to column `next`. -/
structure Laid (d : Document) (y next : Nat) (s : Layout) : Prop where
  /-- No cell starts in a later row, and those of row `y` end in front of `next`. -/
  above : ∀ p ∈ s.origins, p.2.2 < y ∨ p.2.2 = y ∧ p.2.1 + d.columnSpan p.1 ≤ next
  /-- In each row, a cell starts behind those laid before it. -/
  ordered : s.origins.Pairwise fun later earlier =>
    later.2.2 = earlier.2.2 → earlier.2.1 + d.columnSpan earlier.1 ≤ later.2.1
  /-- A cell starts where neither a span nor a full column reached. -/
  free : ∀ p ∈ s.origins, d.spanned? (d.cellOver? s p.2.1) p.2.2 p.2.2 = none ∧
    d.fullAbove? (d.cellOver? s p.2.1) p.2.2 = none
  /-- The full columns are those of the cells laid over them. -/
  filler : ∀ x, s.filler? x = d.fullAbove? (d.cellOver? s x) (y + 1)
  /-- A slot shows what the cells over its column make of it, as far as the rows have come. -/
  slots : ∀ x r, s.grid.cell? x r =
    if r < y ∨ r = y ∧ x < next then d.shown? (d.cellOver? s x) r
    else d.spanned? (d.cellOver? s x) r (y + 1)

theorem laid_empty : d.Laid 0 0 Layout.empty where
  above := by simp [Layout.empty]
  ordered := List.Pairwise.nil
  free := by simp [Layout.empty]
  filler x := rfl
  slots x r := by
    rw [if_neg (by omega)]
    rfl

/-- Of two different members of a list, one stands before the other. -/
theorem eq_of_pairwise {α : Type} {R : α → α → Prop} {l : List α} (h : l.Pairwise R) {a b : α}
    (ha : a ∈ l) (hb : b ∈ l) (hab : ¬ R a b) (hba : ¬ R b a) : a = b := by
  obtain ⟨i, hi, rfl⟩ := List.getElem_of_mem ha
  obtain ⟨j, hj, rfl⟩ := List.getElem_of_mem hb
  have hIndexed := List.pairwise_iff_getElem.mp h
  rcases Nat.lt_trichotomy i j with hlt | rfl | hgt
  · exact absurd (hIndexed i j hi hj hlt) hab
  · rfl
  · exact absurd (hIndexed j i hj hi hgt) hba

section Laid

variable {y next : Nat} {s : Layout}

/-- Two cells of one row are laid over different columns. -/
theorem Laid.eq_of_shared (h : d.Laid y next s) {x : Nat} {p q : Element × Nat × Nat}
    (hp : p ∈ s.origins) (hq : q ∈ s.origins) (hRow : p.2.2 = q.2.2)
    (hpx : p.2.1 ≤ x ∧ x < p.2.1 + d.columnSpan p.1)
    (hqx : q.2.1 ≤ x ∧ x < q.2.1 + d.columnSpan q.1) : p = q := by
  refine eq_of_pairwise h.ordered hp hq ?_ ?_
  · intro hBehind
    have := hBehind hRow
    omega
  · intro hBehind
    have := hBehind hRow.symm
    omega

theorem Laid.cellOver?_eq_some (h : d.Laid y next s) {x r : Nat} {cell : Element} :
    d.cellOver? s x r = some cell ↔ d.LaidOver s cell x r := by
  unfold cellOver? LaidOver
  constructor
  · intro hOver
    obtain ⟨p, hFind, rfl⟩ := Option.map_eq_some_iff.mp hOver
    have hTest := List.find?_some hFind
    rw [Bool.and_eq_true, beq_iff_eq, decide_eq_true_iff] at hTest
    have hMem := List.mem_of_find?_eq_some hFind
    rw [← hTest.1]
    exact ⟨p.2.1, hMem, hTest.2⟩
  · intro hOver
    obtain ⟨start, hMem, hx⟩ := hOver
    cases hFind : s.origins.find? fun p =>
        p.2.2 == r && decide (p.2.1 ≤ x ∧ x < p.2.1 + d.columnSpan p.1) with
    | none =>
        have hNot := List.find?_eq_none.mp hFind _ hMem
        simp [hx] at hNot
    | some p =>
        have hTest := List.find?_some hFind
        rw [Bool.and_eq_true, beq_iff_eq, decide_eq_true_iff] at hTest
        have hSame := h.eq_of_shared (List.mem_of_find?_eq_some hFind) hMem hTest.1 hTest.2 hx
        rw [hSame]
        rfl

/-- Nothing has been laid yet over what is to come. -/
theorem Laid.cellOver?_eq_none (h : d.Laid y next s) {x r : Nat} (hr : y < r ∨ r = y ∧ next ≤ x) :
    d.cellOver? s x r = none := by
  rw [Option.eq_none_iff_forall_ne_some]
  intro cell hOver
  obtain ⟨start, hMem, hx⟩ := h.cellOver?_eq_some.mp hOver
  have hAbove := h.above _ hMem
  simp only at hAbove
  omega

end Laid

/-! ## One cell -/

/-- From `s`, with row `y` laid up to column `next`, a cell has been laid from column `start` on. -/
structure LaysCell (d : Document) (y next : Nat) (s : Layout) (cell : Element) (start : Nat)
    (s' : Layout) : Prop where
  /-- It starts behind what the row has so far. -/
  behind : next ≤ start
  /-- It starts in a free slot. -/
  slot_free : s.grid.cell? start y = none
  /-- It starts in a column that is not full. -/
  column_free : s.filler? start = none
  /-- It is the next cell to be laid. -/
  origins : s'.origins = (cell, start, y) :: s.origins
  /-- Its columns are full if its row span is zero. -/
  filler : ∀ x, s'.filler? x =
    if start ≤ x ∧ x < start + d.columnSpan cell then
      (if d.rowSpan cell = 0 then some cell else s.filler? x)
    else s.filler? x
  /-- Its columns hold it, and the full columns passed over show. -/
  slots : ∀ x r, s'.grid.cell? x r =
    if start ≤ x ∧ x < start + d.columnSpan cell then d.layOver cell y r (s.grid.cell? x r)
    else if r = y ∧ next ≤ x ∧ x < start then d.fill (s.filler? x) (s.grid.cell? x r)
    else s.grid.cell? x r

theorem layCell_laysCell (s : Layout) (y next : Nat) (cell : Element) :
    ∃ start s', d.layCell y (s, next) cell = (s', start + d.columnSpan cell) ∧
      d.LaysCell y next s cell start s' := by
  obtain ⟨hLe, hFree⟩ := freeColumn_spec s y next
  obtain ⟨hSlot, hColumn⟩ := isTaken_eq_false.mp hFree
  generalize hStart : s.freeColumn y next = start at hLe hSlot hColumn
  let passed := d.coverFillers y next (start - next) s
  let laid := d.layColumns cell y start (d.columnSpan cell) passed
  refine ⟨start, { laid with origins := (cell, start, y) :: laid.origins }, ?_,
    hLe, hSlot, hColumn, ?_, ?_, ?_⟩
  · subst hStart
    rfl
  · show (cell, start, y) :: laid.origins = _
    rw [origins_layColumns]
    rfl
  · intro x
    show laid.filler? x = _
    rw [filler?_layColumns]
    rfl
  · intro x r
    show laid.grid.cell? x r = _
    rw [cell?_layColumns, cell?_coverFillers]
    by_cases hIn : start ≤ x ∧ x < start + d.columnSpan cell
    · rw [if_pos hIn, if_pos hIn, if_neg (by omega)]
    · rw [if_neg hIn, if_neg hIn]
      by_cases hPassed : r = y ∧ next ≤ x ∧ x < start
      · rw [if_pos hPassed, if_pos (by omega)]
      · rw [if_neg hPassed, if_neg (by omega)]

section LaysCell

variable {y next start : Nat} {s s' : Layout} {cell : Element}

theorem LaysCell.cellOver?_eq (hStep : d.LaysCell y next s cell start s') (x r : Nat) :
    d.cellOver? s' x r =
      if r = y ∧ start ≤ x ∧ x < start + d.columnSpan cell then some cell else d.cellOver? s x r := by
  unfold cellOver?
  rw [hStep.origins, List.find?_cons]
  by_cases hHere : r = y ∧ start ≤ x ∧ x < start + d.columnSpan cell
  · rw [if_pos hHere, hHere.1]
    simp [hHere.2]
  · rw [if_neg hHere]
    have hTest : (y == r && decide (start ≤ x ∧ x < start + d.columnSpan cell)) = false := by
      rw [Bool.and_eq_false_iff, beq_eq_false_iff_ne, decide_eq_false_iff_not]
      omega
    simp only [hTest]

/-- The rows above are as they were. -/
theorem LaysCell.cellOver?_above (hStep : d.LaysCell y next s cell start s') {x r : Nat} (hr : r < y) :
    d.cellOver? s' x r = d.cellOver? s x r := by
  rw [hStep.cellOver?_eq, if_neg (by omega)]

/-- The columns that the cell does not cover are as they were. -/
theorem LaysCell.cellOver?_beside (hStep : d.LaysCell y next s cell start s') {x : Nat}
    (hx : ¬ (start ≤ x ∧ x < start + d.columnSpan cell)) : d.cellOver? s' x = d.cellOver? s x := by
  funext r
  rw [hStep.cellOver?_eq, if_neg (by omega)]

theorem LaysCell.spanned?_above (hStep : d.LaysCell y next s cell start s') {x r y' : Nat}
    (hy : y' ≤ y) : d.spanned? (d.cellOver? s' x) r y' = d.spanned? (d.cellOver? s x) r y' :=
  spanned?_congr fun _ h => hStep.cellOver?_above (Nat.lt_of_lt_of_le h hy)

theorem LaysCell.fullAbove?_above (hStep : d.LaysCell y next s cell start s') {x y' : Nat}
    (hy : y' ≤ y) : d.fullAbove? (d.cellOver? s' x) y' = d.fullAbove? (d.cellOver? s x) y' :=
  fullAbove?_congr fun _ h => hStep.cellOver?_above (Nat.lt_of_lt_of_le h hy)

/-- Where the row has not come to, a slot shows what the rows above have put there. -/
theorem Laid.slot_ahead (h : d.Laid y next s) {x r : Nat} (hx : next ≤ x) (hr : y ≤ r) :
    s.grid.cell? x r = d.spanned? (d.cellOver? s x) r y := by
  rw [h.slots, if_neg (by omega), spanned?_succ_of_none (h.cellOver?_eq_none (Or.inr ⟨rfl, hx⟩))]

theorem Laid.filler_ahead (h : d.Laid y next s) {x : Nat} (hx : next ≤ x) :
    s.filler? x = d.fullAbove? (d.cellOver? s x) y := by
  rw [h.filler, fullAbove?_succ_of_none (h.cellOver?_eq_none (Or.inr ⟨rfl, hx⟩))]

theorem LaysCell.free (hStep : d.LaysCell y next s cell start s') (h : d.Laid y next s) :
    ∀ p ∈ s'.origins, d.spanned? (d.cellOver? s' p.2.1) p.2.2 p.2.2 = none ∧
      d.fullAbove? (d.cellOver? s' p.2.1) p.2.2 = none := by
  intro p hp
  rw [hStep.origins] at hp
  rcases List.mem_cons.mp hp with rfl | hp
  · show d.spanned? (d.cellOver? s' start) y y = none ∧ d.fullAbove? (d.cellOver? s' start) y = none
    rw [hStep.spanned?_above (Nat.le_refl y), hStep.fullAbove?_above (Nat.le_refl y),
      ← h.slot_ahead hStep.behind (Nat.le_refl y), ← h.filler_ahead hStep.behind]
    exact ⟨hStep.slot_free, hStep.column_free⟩
  · have hRow : p.2.2 ≤ y := by
      have := h.above p hp
      omega
    rw [hStep.spanned?_above hRow, hStep.fullAbove?_above hRow]
    exact h.free p hp

theorem LaysCell.filler_laid (hStep : d.LaysCell y next s cell start s') (h : d.Laid y next s)
    (x : Nat) : s'.filler? x = d.fullAbove? (d.cellOver? s' x) (y + 1) := by
  rw [hStep.filler]
  by_cases hx : start ≤ x ∧ x < start + d.columnSpan cell
  · have hOver : d.cellOver? s' x y = some cell := by rw [hStep.cellOver?_eq, if_pos ⟨rfl, hx⟩]
    rw [if_pos hx, fullAbove?_succ_of_some hOver, hStep.fullAbove?_above (Nat.le_refl y),
      h.filler_ahead (Nat.le_trans hStep.behind hx.1)]
  · rw [if_neg hx, hStep.cellOver?_beside hx]
    exact h.filler x

theorem LaysCell.slots_laid (hStep : d.LaysCell y next s cell start s') (h : d.Laid y next s)
    (x r : Nat) : s'.grid.cell? x r =
      if r < y ∨ r = y ∧ x < start + d.columnSpan cell then d.shown? (d.cellOver? s' x) r
      else d.spanned? (d.cellOver? s' x) r (y + 1) := by
  rw [hStep.slots]
  by_cases hx : start ≤ x ∧ x < start + d.columnSpan cell
  · have hOver : d.cellOver? s' x y = some cell := by rw [hStep.cellOver?_eq, if_pos ⟨rfl, hx⟩]
    have hNext : next ≤ x := Nat.le_trans hStep.behind hx.1
    rw [if_pos hx]
    rcases Nat.lt_trichotomy r y with hlt | rfl | hgt
    · rw [if_pos (Or.inl hlt), layOver_above hlt, h.slots, if_pos (Or.inl hlt)]
      exact shown?_congr fun r' hr => (hStep.cellOver?_above (Nat.lt_of_le_of_lt hr hlt)).symm
    · rw [if_pos (Or.inr ⟨rfl, hx.2⟩), h.slot_ahead hNext (Nat.le_refl r), shown?_of_some hOver,
        hStep.spanned?_above (Nat.le_refl r)]
      exact layOver_self
    · rw [if_neg (by omega), h.slot_ahead hNext (Nat.le_of_lt hgt), spanned?_succ_of_some hOver,
        hStep.spanned?_above (Nat.le_refl y)]
      exact layOver_below hgt
  · rw [if_neg hx, hStep.cellOver?_beside hx]
    by_cases hPassed : r = y ∧ next ≤ x ∧ x < start
    · obtain ⟨rfl, hNext, hStart⟩ := hPassed
      have hNone : d.cellOver? s x r = none := h.cellOver?_eq_none (Or.inr ⟨rfl, hNext⟩)
      rw [if_pos ⟨rfl, hNext, hStart⟩, if_pos (by omega), h.filler_ahead hNext,
        h.slot_ahead hNext (Nat.le_refl r), shown?_of_none hNone]
    · rw [if_neg hPassed, h.slots]
      have := hStep.behind
      by_cases hDone : r < y ∨ r = y ∧ x < next
      · rw [if_pos hDone, if_pos (by omega)]
      · rw [if_neg hDone, if_neg (by omega)]

/-- Laying a cell keeps the state of a layout. -/
theorem LaysCell.laid (hStep : d.LaysCell y next s cell start s') (h : d.Laid y next s) :
    d.Laid y (start + d.columnSpan cell) s' where
  above p hp := by
    rw [hStep.origins] at hp
    rcases List.mem_cons.mp hp with rfl | hp
    · exact Or.inr ⟨rfl, Nat.le_refl _⟩
    · have hAbove := h.above p hp
      have hBehind := hStep.behind
      omega
  ordered := by
    rw [hStep.origins]
    refine List.pairwise_cons.mpr ⟨?_, h.ordered⟩
    intro p hp hRow
    have hAbove := h.above p hp
    have hBehind := hStep.behind
    simp only at hRow ⊢
    omega
  free := hStep.free h
  filler := hStep.filler_laid h
  slots := hStep.slots_laid h

end LaysCell

/-! ## One row -/

theorem foldl_layCell_laid {y next : Nat} {s : Layout} (h : d.Laid y next s)
    (cells : List Element) :
    d.Laid y (cells.foldl (d.layCell y) (s, next)).2 (cells.foldl (d.layCell y) (s, next)).1 := by
  induction cells generalizing s next with
  | nil => exact h
  | cons cell cells ih =>
      obtain ⟨start, s', hEq, hStep⟩ := layCell_laysCell s y next cell
      rw [List.foldl_cons, hEq]
      exact ih (hStep.laid h)

/-- A full column starts in a row that shows it. -/
theorem Laid.lt_width_of_filler? {y next : Nat} {s : Layout} (h : d.Laid y next s) {x : Nat}
    {cell : Element} (hx : next ≤ x) (hFull : s.filler? x = some cell) : x < s.grid.width := by
  rw [h.filler_ahead hx] at hFull
  obtain ⟨y', hy', hOver, hSpan, -⟩ := fullAbove?_eq_some hFull
  have hShown : s.grid.cell? x y' = some cell := by
    rw [h.slots, if_pos (Or.inl hy'), shown?_of_some hOver, if_pos hSpan]
  exact Grid.lt_width_of_cell? hShown

/-- The row is done once the full columns behind its last cell show. -/
theorem Laid.endRow {y next : Nat} {s : Layout} (h : d.Laid y next s) :
    d.Laid (y + 1) 0 (d.coverFillers y next (s.grid.width - next) s) := by
  have hNone : ∀ x, d.cellOver? s x (y + 1) = none := fun x =>
    h.cellOver?_eq_none (Or.inl (Nat.lt_succ_self y))
  refine ⟨?_, h.ordered, h.free, ?_, ?_⟩
  · intro p hp
    have hp : p ∈ s.origins := hp
    have hAbove := h.above p hp
    omega
  · intro x
    show s.filler? x = d.fullAbove? (d.cellOver? s x) (y + 1 + 1)
    rw [h.filler, fullAbove?_succ_of_none (hNone x)]
  · intro x r
    show _ = if r < y + 1 ∨ r = y + 1 ∧ x < 0 then d.shown? (d.cellOver? s x) r
      else d.spanned? (d.cellOver? s x) r (y + 1 + 1)
    rw [cell?_coverFillers, spanned?_succ_of_none (hNone x)]
    by_cases hBehind : r = y ∧ next ≤ x
    · obtain ⟨rfl, hx⟩ := hBehind
      have hOver : d.cellOver? s x r = none := h.cellOver?_eq_none (Or.inr ⟨rfl, hx⟩)
      rw [if_pos (Or.inl (Nat.lt_succ_self r)), shown?_of_none hOver, ← h.filler_ahead hx,
        ← h.slot_ahead hx (Nat.le_refl r)]
      by_cases hWidth : x < s.grid.width
      · rw [if_pos (by omega)]
      · rw [if_neg (by omega)]
        cases hFull : s.filler? x with
        | none => rfl
        | some cell => exact absurd (h.lt_width_of_filler? hx hFull) hWidth
    · rw [if_neg (by omega), h.slots]
      by_cases hDone : r < y ∨ r = y ∧ x < next
      · rw [if_pos hDone, if_pos (by omega)]
      · rw [if_neg hDone, if_neg (by omega)]

/-- Laying out a row keeps the state of a layout. -/
theorem layRow_laid {y : Nat} {s : Layout} (h : d.Laid y 0 s) (row : Element) :
    d.Laid (y + 1) 0 (d.layRow y s row) :=
  (foldl_layCell_laid h (d.cellsOf row)).endRow

/-! ## All rows -/

theorem layRows_laid {y : Nat} {s : Layout} (h : d.Laid y 0 s) (rows : List Element) :
    d.Laid (y + rows.length) 0 (d.layRows y s rows) := by
  induction rows generalizing y s with
  | nil => exact h
  | cons row rows ih =>
      have hRest := ih (layRow_laid h row)
      rw [List.length_cons, show y + (rows.length + 1) = y + 1 + rows.length by omega]
      exact hRest

theorem layOut_laid (d : Document) (rows : List Element) :
    d.Laid rows.length 0 (d.layOut rows) := by
  have h := layRows_laid (laid_empty (d := d)) rows
  rw [Nat.zero_add] at h
  exact h

/-- What a slot of a finished grid holds. -/
theorem cell?_gridOfRows (rows : List Element) (x r : Nat) :
    (d.gridOfRows rows).cell? x r =
      if r < rows.length then d.shown? (d.cellOver? (d.layOut rows) x) r
      else d.spanned? (d.cellOver? (d.layOut rows) x) r rows.length := by
  have h := layOut_laid d rows
  show (d.layOut rows).grid.cell? x r = _
  rw [h.slots]
  by_cases hr : r < rows.length
  · rw [if_pos (Or.inl hr), if_pos hr]
  · rw [if_neg (by omega), if_neg hr,
      spanned?_succ_of_none (h.cellOver?_eq_none (Or.inr ⟨rfl, Nat.zero_le x⟩))]

end Document

end AriaLocator

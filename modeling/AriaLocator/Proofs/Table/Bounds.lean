import AriaLocator.Table.Grid

/-!
# The rectangle of an element

The slots that hold an element need not form a rectangle, nor even hang together: where cells
overlap, a later cell takes slots out of an earlier one.  What a grid reports of an element is the
rectangle around its slots.  It is gathered row by row, from the first and the last slot that hold
the element in each row, and rows without the element lie in between.

A rectangle bounds a set of slots if it contains them all and has one of them on each of its four
sides.  A set has one such rectangle at most, and the rectangle of an element is the one that bounds
its slots.

## Main results

* `bounds_rectangle?`: the rectangle of an element bounds the slots that hold it.
* `rectangle?_isSome_iff`: an element has a rectangle exactly if some slot holds it.
* `Rectangle.Bounds.eq_of_contains`: a rectangle all of whose slots are held is its own bound.
* `Rectangle.disjoint_iff`: two rectangles share no slot exactly if the larger of their first columns
  or rows lies behind the smaller of their last ones.
-/

namespace AriaLocator

namespace Rectangle

/-- Whether a slot lies in a rectangle. -/
def Contains (r : Rectangle) (x y : Nat) : Prop :=
  (r.minX ≤ x ∧ x ≤ r.maxX) ∧ r.minY ≤ y ∧ y ≤ r.maxY

instance (r : Rectangle) (x y : Nat) : Decidable (r.Contains x y) :=
  inferInstanceAs (Decidable ((r.minX ≤ x ∧ x ≤ r.maxX) ∧ r.minY ≤ y ∧ y ≤ r.maxY))

/-- Two rectangles share no slot. -/
def Disjoint (r s : Rectangle) : Prop := ∀ x y, ¬ (r.Contains x y ∧ s.Contains x y)

/-- What two rectangles share is a rectangle again, and it may be empty. -/
theorem disjoint_iff {r s : Rectangle} :
    r.Disjoint s ↔ min r.maxX s.maxX < max r.minX s.minX ∨ min r.maxY s.maxY < max r.minY s.minY := by
  unfold Disjoint Contains
  constructor
  · intro h
    have hCorner := h (max r.minX s.minX) (max r.minY s.minY)
    omega
  · intro h x y hBoth
    omega

instance (r s : Rectangle) : Decidable (r.Disjoint s) := decidable_of_iff' _ disjoint_iff

/-- The rectangle contains the slots that are held, and one of them is on each side. -/
structure Bounds (r : Rectangle) (held : Nat → Nat → Prop) : Prop where
  /-- No slot lies outside. -/
  contains : ∀ x y, held x y → r.Contains x y
  left : ∃ y, held r.minX y
  top : ∃ x, held x r.minY
  right : ∃ y, held r.maxX y
  bottom : ∃ x, held x r.maxY

/-- Of the rectangles around all slots that are held, the bound is the smallest. -/
theorem Bounds.le {r s : Rectangle} {held : Nat → Nat → Prop} (h : r.Bounds held)
    (hs : ∀ x y, held x y → s.Contains x y) :
    s.minX ≤ r.minX ∧ r.maxX ≤ s.maxX ∧ s.minY ≤ r.minY ∧ r.maxY ≤ s.maxY := by
  obtain ⟨y₁, hLeft⟩ := h.left
  obtain ⟨x₁, hTop⟩ := h.top
  obtain ⟨y₂, hRight⟩ := h.right
  obtain ⟨x₂, hBottom⟩ := h.bottom
  exact ⟨(hs _ _ hLeft).1.1, (hs _ _ hRight).1.2, (hs _ _ hTop).2.1, (hs _ _ hBottom).2.2⟩

/-- A rectangle all of whose slots are held, and no others, is the bound of them. -/
theorem Bounds.eq_of_contains {r s : Rectangle} {held : Nat → Nat → Prop} (h : r.Bounds held)
    (hX : s.minX ≤ s.maxX) (hY : s.minY ≤ s.maxY) (hs : ∀ x y, held x y ↔ s.Contains x y) :
    r = s := by
  have hOuter := h.le fun x y hxy => (hs x y).mp hxy
  have hFirst := h.contains s.minX s.minY
    ((hs _ _).mpr ⟨⟨Nat.le_refl _, hX⟩, Nat.le_refl _, hY⟩)
  have hLast := h.contains s.maxX s.maxY
    ((hs _ _).mpr ⟨⟨hX, Nat.le_refl _⟩, hY, Nat.le_refl _⟩)
  obtain ⟨minX, minY, maxX, maxY⟩ := r
  obtain ⟨minX', minY', maxX', maxY'⟩ := s
  simp only [Contains] at hFirst hLast
  simp only at hOuter
  rw [Rectangle.mk.injEq]
  omega

end Rectangle

namespace Grid

/-- What has been gathered so far bounds the slots that are held, if any is. -/
def Gathers (r : Option Rectangle) (held : Nat → Nat → Prop) : Prop :=
  match r with
  | none => ∀ x y, ¬ held x y
  | some r => r.Bounds held

/-! ## One row -/

theorem mem_columnsOf {row : Array (Option Element)} {e : Element} {x : Nat} :
    x ∈ columnsOf row e ↔ row[x]?.getD none = some e := by
  have hTest : ∀ slot : Option Element, slot.any (· == e) = true ↔ slot = some e := by
    intro slot
    cases slot with
    | none => simp
    | some other => simp
  unfold columnsOf
  by_cases hAny : row.any (·.any (· == e)) = true
  · rw [if_pos hAny, List.mem_filter, List.mem_range, hTest]
    constructor
    · intro h
      exact h.2
    · intro h
      refine ⟨Nat.lt_of_not_le fun hle => ?_, h⟩
      simp [Array.getElem?_eq_none hle] at h
  · rw [if_neg hAny]
    constructor
    · intro h
      exact absurd h List.not_mem_nil
    · intro h
      cases hSlot : row[x]? with
      | none => simp [hSlot] at h
      | some slot =>
          rw [hSlot, Option.getD_some] at h
          obtain ⟨hx, hGet⟩ := Array.getElem?_eq_some_iff.mp hSlot
          refine absurd (Array.any_eq_true.mpr ⟨x, hx, ?_⟩) hAny
          rw [hGet, hTest]
          exact h

theorem pairwise_columnsOf (row : Array (Option Element)) (e : Element) :
    (columnsOf row e).Pairwise (· < ·) := by
  unfold columnsOf
  split
  · exact List.pairwise_lt_range.filter _
  · exact List.Pairwise.nil

/-- The numbers of an ascending list lie between the first and the last. -/
theorem between_of_ascending {first : Nat} {more : List Nat}
    (h : (first :: more).Pairwise (· < ·)) :
    more.getLastD first ∈ first :: more ∧
      ∀ x ∈ first :: more, first ≤ x ∧ x ≤ more.getLastD first := by
  induction more generalizing first with
  | nil => simp
  | cons second more ih =>
      obtain ⟨hFirst, hMore⟩ := List.pairwise_cons.mp h
      obtain ⟨hLast, hBetween⟩ := ih hMore
      rw [List.getLastD_cons]
      refine ⟨List.mem_cons_of_mem _ hLast, ?_⟩
      intro x hx
      rcases List.mem_cons.mp hx with rfl | hx
      · exact ⟨Nat.le_refl x, Nat.le_of_lt (hFirst _ hLast)⟩
      · exact ⟨Nat.le_of_lt (hFirst x hx), (hBetween x hx).2⟩

/-- The rectangle takes in a row below what it has so far. -/
theorem Gathers.extend {r : Option Rectangle} {held : Nat → Nat → Prop} (h : Gathers r held)
    {y first last : Nat} {inRow : Nat → Prop} (hAbove : ∀ x y', held x y' → y' < y)
    (hFirst : inRow first) (hLast : inRow last) (hRow : ∀ x, inRow x → first ≤ x ∧ x ≤ last) :
    (Rectangle.extend r y first last).Bounds fun x y' => held x y' ∨ y' = y ∧ inRow x := by
  cases r with
  | none =>
      have hNone : ∀ x y', ¬ held x y' := h
      refine ⟨?_, ⟨y, Or.inr ⟨rfl, hFirst⟩⟩, ⟨first, Or.inr ⟨rfl, hFirst⟩⟩,
        ⟨y, Or.inr ⟨rfl, hLast⟩⟩, ⟨first, Or.inr ⟨rfl, hFirst⟩⟩⟩
      intro x y' hHeld
      obtain ⟨rfl, hx⟩ := hHeld.resolve_left (hNone x y')
      exact ⟨hRow x hx, Nat.le_refl _, Nat.le_refl _⟩
  | some r =>
      have hBounds : r.Bounds held := h
      obtain ⟨xTop, hTop⟩ := hBounds.top
      obtain ⟨yLeft, hLeft⟩ := hBounds.left
      obtain ⟨yRight, hRight⟩ := hBounds.right
      have hBelow := hAbove _ _ hTop
      have hWide := hRow first hFirst
      refine ⟨?_, ?_, ⟨xTop, Or.inl hTop⟩, ?_, ⟨first, Or.inr ⟨rfl, hFirst⟩⟩⟩
      · intro x y' hHeld
        show (min r.minX first ≤ x ∧ x ≤ max r.maxX last) ∧ r.minY ≤ y' ∧ y' ≤ y
        rcases hHeld with hHeld | ⟨rfl, hx⟩
        · have hIn := hBounds.contains x y' hHeld
          have hLess := hAbove x y' hHeld
          unfold Rectangle.Contains at hIn
          omega
        · have hIn := hRow x hx
          omega
      · show ∃ y', held (min r.minX first) y' ∨ y' = y ∧ inRow (min r.minX first)
        by_cases hMin : r.minX ≤ first
        · rw [Nat.min_eq_left hMin]
          exact ⟨yLeft, Or.inl hLeft⟩
        · rw [Nat.min_eq_right (by omega)]
          exact ⟨y, Or.inr ⟨rfl, hFirst⟩⟩
      · show ∃ y', held (max r.maxX last) y' ∨ y' = y ∧ inRow (max r.maxX last)
        by_cases hMax : last ≤ r.maxX
        · rw [Nat.max_eq_left hMax]
          exact ⟨yRight, Or.inl hRight⟩
        · rw [Nat.max_eq_right (by omega)]
          exact ⟨y, Or.inr ⟨rfl, hLast⟩⟩

/-! ## All rows -/

/-- An element is held in column `x` of row `y`, the rows being numbered from `start` on. -/
def HeldFrom (rows : List (Array (Option Element))) (e : Element) (start x y : Nat) : Prop :=
  ∃ i row, rows[i]? = some row ∧ y = start + i ∧ x ∈ columnsOf row e

theorem heldFrom_cons {row : Array (Option Element)} {rows : List (Array (Option Element))}
    {e : Element} {start x y : Nat} :
    HeldFrom (row :: rows) e start x y ↔
      (y = start ∧ x ∈ columnsOf row e) ∨ HeldFrom rows e (start + 1) x y := by
  constructor
  · intro h
    obtain ⟨i, found, hRow, hy, hx⟩ := h
    cases i with
    | zero =>
        rw [List.getElem?_cons_zero, Option.some.injEq] at hRow
        exact Or.inl ⟨hy, hRow ▸ hx⟩
    | succ i =>
        rw [List.getElem?_cons_succ] at hRow
        exact Or.inr ⟨i, found, hRow, by omega, hx⟩
  · intro h
    rcases h with ⟨hy, hx⟩ | ⟨i, found, hRow, hy, hx⟩
    · exact ⟨0, row, rfl, hy, hx⟩
    · exact ⟨i + 1, found, hRow, by omega, hx⟩

/-- What is gathered from the rows, one after the other, bounds what they hold. -/
theorem rectangleFrom_gathers {e : Element} {rows : List (Array (Option Element))} {y : Nat}
    {r : Option Rectangle} {held : Nat → Nat → Prop} (h : Gathers r held)
    (hAbove : ∀ x y', held x y' → y' < y) :
    Gathers (rectangleFrom e y r rows) fun x y' => held x y' ∨ HeldFrom rows e y x y' := by
  induction rows generalizing y r held with
  | nil =>
      have hSame : (fun x y' => held x y' ∨ HeldFrom [] e y x y') = held := by
        funext x y'
        simp [HeldFrom]
      rw [hSame]
      exact h
  | cons row rows ih =>
      -- The slots of the first row join those held above it.
      have hSplit : (fun x y' => held x y' ∨ HeldFrom (row :: rows) e y x y') = fun x y' =>
          (held x y' ∨ y' = y ∧ x ∈ columnsOf row e) ∨ HeldFrom rows e (y + 1) x y' := by
        funext x y'
        rw [heldFrom_cons, or_assoc]
      have hNext : ∀ x y', held x y' ∨ y' = y ∧ x ∈ columnsOf row e → y' < y + 1 := by
        intro x y' hHeld
        rcases hHeld with hHeld | ⟨rfl, -⟩
        · exact Nat.lt_succ_of_lt (hAbove x y' hHeld)
        · exact Nat.lt_succ_self y'
      rw [hSplit, rectangleFrom]
      have hAscending := pairwise_columnsOf row e
      cases hColumns : columnsOf row e with
      | nil =>
          rw [hColumns] at hNext
          refine ih ?_ hNext
          have hSame : (fun x y' => held x y' ∨ y' = y ∧ x ∈ []) = held := by
            funext x y'
            simp
          rw [hSame]
          exact h
      | cons first more =>
          rw [hColumns] at hNext hAscending
          obtain ⟨hLast, hBetween⟩ := between_of_ascending hAscending
          exact ih (h.extend hAbove List.mem_cons_self hLast hBetween) hNext

variable {g : Grid} {e : Element}

/-- What is gathered from a grid bounds the slots that hold the element. -/
theorem rectangle?_gathers (g : Grid) (e : Element) :
    Gathers (g.rectangle? e) fun x y => g.cell? x y = some e := by
  have hHeld : (fun x y => g.cell? x y = some e) =
      fun x y => False ∨ HeldFrom g.rows.toList e 0 x y := by
    funext x y
    rw [false_or, eq_iff_iff]
    unfold cell? HeldFrom
    constructor
    · intro h
      cases hRow : g.rows[y]? with
      | none => simp [hRow] at h
      | some row =>
          rw [hRow] at h
          exact ⟨y, row, by rw [Array.getElem?_toList, hRow], (Nat.zero_add y).symm,
            mem_columnsOf.mpr h⟩
    · intro h
      obtain ⟨i, row, hRow, hy, hx⟩ := h
      rw [Nat.zero_add] at hy
      rw [Array.getElem?_toList] at hRow
      rw [hy, hRow]
      exact mem_columnsOf.mp hx
  have hNothing : Gathers none fun _ _ => False := fun _ _ => id
  rw [hHeld]
  exact rectangleFrom_gathers hNothing fun _ _ => False.elim

/-- The rectangle of an element bounds the slots that hold it. -/
theorem bounds_rectangle? {r : Rectangle} (h : g.rectangle? e = some r) :
    r.Bounds fun x y => g.cell? x y = some e := by
  have hGathers := rectangle?_gathers g e
  rw [h] at hGathers
  exact hGathers

theorem rectangle?_isSome_iff :
    (g.rectangle? e).isSome = true ↔ ∃ x y, g.cell? x y = some e := by
  have hGathers := rectangle?_gathers g e
  cases hRectangle : g.rectangle? e with
  | none =>
      rw [hRectangle] at hGathers
      have hNone : ∀ x y, g.cell? x y ≠ some e := hGathers
      simp [hNone]
  | some r =>
      obtain ⟨y, hLeft⟩ := (bounds_rectangle? hRectangle).left
      simp only [Option.isSome_some, true_iff]
      exact ⟨r.minX, y, hLeft⟩

end Grid

end AriaLocator

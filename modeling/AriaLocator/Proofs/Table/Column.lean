import AriaLocator.Table.Layout

/-!
# A column of a layout on its own

A layout writes into its grid at four places: the span of a cell, a cell that covers the rest of its
group, the columns passed over on the way to a free one, and the columns behind the last cell of a
row.  Seen from one column, this is a single rule.  All that a row does to a column depends on the
cell that the row has laid over it, if there is one.  In the slot of its own row that cell comes
last; without it, the latest cell that covers the rest of the group shows through; and into the rows
below the cell reaches as far as its row span says.

So the slots of a column are computed, row by row, from the cells laid over it, and the columns
never meet.  Here is the rule, and what it makes a slot show; `Laying` shows that a layout follows
it.

## Main results

* `shown?_eq_some`: a slot shows a cell over its column that comes down to it.
* `isSome_shown?`: a slot that some cell over its column comes down to is not empty.
* `fullAbove?_eq_some`: of the cells above that cover the rest of the group, the last one counts.
-/

namespace AriaLocator

namespace Document

variable {d : Document}

/-! ## The rule for one column -/

/-- A slot with a cell laid over it: a data cell stays. -/
def cover (d : Document) (cell : Element) (slot : Option Element) : Option Element :=
  if d.isData slot then slot else some cell

/-- A slot in which the cell of a full column shows, if there is one. -/
def fill (d : Document) (filler slot : Option Element) : Option Element :=
  match filler with
  | none => slot
  | some cell => d.cover cell slot

/-- A slot of row `r` once row `y` above it has a cell laid over the column, or none. -/
def reach (d : Document) (r y : Nat) (laid slot : Option Element) : Option Element :=
  match laid with
  | none => slot
  | some cell => if r < y + d.rowSpan cell then d.cover cell slot else slot

/-- What the cells of the rows above `y` leave in row `r` of a column by their row spans, from the
cells that lie over the column. -/
def spanned? (d : Document) (cells : Nat → Option Element) (r : Nat) : Nat → Option Element
  | 0 => none
  | y + 1 => d.reach r y (cells y) (d.spanned? cells r y)

/-- The latest cell above row `y` that covers the column to the end of the group. -/
def fullAbove? (d : Document) (cells : Nat → Option Element) : Nat → Option Element
  | 0 => none
  | y + 1 => ((cells y).filter (d.rowSpan · == 0)).or (d.fullAbove? cells y)

/-- What row `r` of a column shows once the row has been laid out. -/
def shown? (d : Document) (cells : Nat → Option Element) (r : Nat) : Option Element :=
  match cells r with
  | none => d.fill (d.fullAbove? cells r) (d.spanned? cells r r)
  | some cell => if d.rowSpan cell = 0 then some cell else d.cover cell (d.spanned? cells r r)

theorem cover_eq_some {cell c : Element} {slot : Option Element}
    (h : d.cover cell slot = some c) : slot = some c ∨ c = cell := by
  unfold cover at h
  split at h
  · exact Or.inl h
  · exact Or.inr (Option.some.inj h).symm

@[simp] theorem isSome_cover (cell : Element) (slot : Option Element) :
    (d.cover cell slot).isSome = true := by
  unfold cover
  split
  · next hData =>
      cases slot with
      | none => exact absurd hData Bool.false_ne_true
      | some c => rfl
  · rfl

theorem spanned?_congr {cells cells' : Nat → Option Element} {r y : Nat}
    (h : ∀ y' < y, cells y' = cells' y') : d.spanned? cells r y = d.spanned? cells' r y := by
  induction y with
  | zero => rfl
  | succ y ih =>
      show d.reach r y (cells y) _ = d.reach r y (cells' y) _
      rw [h y (Nat.lt_succ_self y), ih fun y' hy => h y' (Nat.lt_succ_of_lt hy)]

theorem fullAbove?_congr {cells cells' : Nat → Option Element} {y : Nat}
    (h : ∀ y' < y, cells y' = cells' y') : d.fullAbove? cells y = d.fullAbove? cells' y := by
  induction y with
  | zero => rfl
  | succ y ih =>
      show Option.or _ _ = Option.or _ _
      rw [h y (Nat.lt_succ_self y), ih fun y' hy => h y' (Nat.lt_succ_of_lt hy)]

theorem shown?_congr {cells cells' : Nat → Option Element} {r : Nat}
    (h : ∀ y ≤ r, cells y = cells' y) : d.shown? cells r = d.shown? cells' r := by
  have hAbove : ∀ y < r, cells y = cells' y := fun y hy => h y (Nat.le_of_lt hy)
  rw [shown?, shown?, h r (Nat.le_refl r), spanned?_congr hAbove, fullAbove?_congr hAbove]

/-- A row that has laid nothing over the column leaves the rows below as they are. -/
theorem spanned?_succ_of_none {cells : Nat → Option Element} {r y : Nat} (h : cells y = none) :
    d.spanned? cells r (y + 1) = d.spanned? cells r y := by
  rw [spanned?, h, reach]

theorem fullAbove?_succ_of_none {cells : Nat → Option Element} {y : Nat} (h : cells y = none) :
    d.fullAbove? cells (y + 1) = d.fullAbove? cells y := by
  rw [fullAbove?, h, Option.filter_none, Option.none_or]

theorem spanned?_succ_of_some {cells : Nat → Option Element} {r y : Nat} {cell : Element}
    (h : cells y = some cell) :
    d.spanned? cells r (y + 1) =
      if r < y + d.rowSpan cell then d.cover cell (d.spanned? cells r y)
      else d.spanned? cells r y := by
  rw [spanned?, h, reach]

theorem fullAbove?_succ_of_some {cells : Nat → Option Element} {y : Nat} {cell : Element}
    (h : cells y = some cell) :
    d.fullAbove? cells (y + 1) =
      if d.rowSpan cell = 0 then some cell else d.fullAbove? cells y := by
  rw [fullAbove?, h, Option.filter_some]
  by_cases hFull : d.rowSpan cell = 0
  · rw [if_pos hFull, if_pos (beq_iff_eq.mpr hFull), Option.some_or]
  · rw [if_neg hFull, if_neg (by simpa using hFull), Option.none_or]

theorem shown?_of_none {cells : Nat → Option Element} {r : Nat} (h : cells r = none) :
    d.shown? cells r = d.fill (d.fullAbove? cells r) (d.spanned? cells r r) := by
  rw [shown?, h]

theorem shown?_of_some {cells : Nat → Option Element} {r : Nat} {cell : Element}
    (h : cells r = some cell) :
    d.shown? cells r =
      if d.rowSpan cell = 0 then some cell else d.cover cell (d.spanned? cells r r) := by
  rw [shown?, h]

theorem fullAbove?_eq_some {cells : Nat → Option Element} {y : Nat} {cell : Element}
    (h : d.fullAbove? cells y = some cell) :
    ∃ y' < y, cells y' = some cell ∧ d.rowSpan cell = 0 ∧
      ∀ between c, y' < between → between < y → cells between = some c → d.rowSpan c ≠ 0 := by
  induction y with
  | zero => exact absurd h (by simp [fullAbove?])
  | succ y ih =>
      rw [fullAbove?] at h
      rcases Option.or_eq_some_iff.mp h with hHere | ⟨hHere, hAbove⟩
      · obtain ⟨hOver, hFull⟩ := Option.filter_eq_some_iff.mp hHere
        refine ⟨y, Nat.lt_succ_self y, hOver, by simpa using hFull, ?_⟩
        intro between c hAfter hBefore
        omega
      · obtain ⟨y', hy', hOver, hFull, hBetween⟩ := ih hAbove
        refine ⟨y', Nat.lt_succ_of_lt hy', hOver, hFull, ?_⟩
        intro between c hAfter hBefore hc
        by_cases hLast : between = y
        · have hNot := Option.filter_eq_none_iff.mp hHere c (hLast ▸ hc)
          simpa using hNot
        · exact hBetween between c hAfter (by omega) hc

theorem fullAbove?_of_last {cells : Nat → Option Element} {y' y : Nat} {cell : Element} (hy : y' < y)
    (hOver : cells y' = some cell) (hFull : d.rowSpan cell = 0)
    (hLast : ∀ between c, y' < between → between < y → cells between = some c → d.rowSpan c ≠ 0) :
    d.fullAbove? cells y = some cell := by
  induction y with
  | zero => exact absurd hy (Nat.not_lt_zero y')
  | succ y ih =>
      by_cases hHere : y' = y
      · subst hHere
        rw [fullAbove?_succ_of_some hOver, if_pos hFull]
      · have hAbove : d.fullAbove? cells y = some cell := by
          refine ih (by omega) ?_
          intro between c hAfter hBefore
          exact hLast between c hAfter (Nat.lt_succ_of_lt hBefore)
        cases hRow : cells y with
        | none => rw [fullAbove?_succ_of_none hRow, hAbove]
        | some c =>
            rw [fullAbove?_succ_of_some hRow, if_neg (hLast y c (by omega) (Nat.lt_succ_self y) hRow),
              hAbove]

/-! ## What a column shows -/

theorem spanned?_eq_some {cells : Nat → Option Element} {r y : Nat} {cell : Element}
    (h : d.spanned? cells r y = some cell) :
    ∃ y' < y, cells y' = some cell ∧ r < y' + d.rowSpan cell := by
  induction y with
  | zero => exact absurd h (by simp [spanned?])
  | succ y ih =>
      have hAbove : d.spanned? cells r y = some cell →
          ∃ y' < y + 1, cells y' = some cell ∧ r < y' + d.rowSpan cell := by
        intro hSlot
        obtain ⟨y', hy', hReach⟩ := ih hSlot
        exact ⟨y', Nat.lt_succ_of_lt hy', hReach⟩
      cases hOver : cells y with
      | none =>
          rw [spanned?_succ_of_none hOver] at h
          exact hAbove h
      | some c =>
          rw [spanned?_succ_of_some hOver] at h
          by_cases hReach : r < y + d.rowSpan c
          · rw [if_pos hReach] at h
            rcases cover_eq_some h with hSlot | rfl
            · exact hAbove hSlot
            · exact ⟨y, Nat.lt_succ_self y, hOver, hReach⟩
          · rw [if_neg hReach] at h
            exact hAbove h

/-- What covering a slot with a cell of some kind brings about, and covering it again leaves, holds of
a slot in the rows below exactly if a cell of the kind comes down to it. -/
theorem spanned?_iff_of_cover (holds : Option Element → Prop) (kind : Element → Prop)
    (hNone : ¬ holds none)
    (hCover : ∀ cell slot, holds (d.cover cell slot) ↔ holds slot ∨ kind cell)
    {cells : Nat → Option Element} {r y : Nat} :
    holds (d.spanned? cells r y) ↔
      ∃ y' < y, ∃ cell, cells y' = some cell ∧ kind cell ∧ r < y' + d.rowSpan cell := by
  induction y with
  | zero => simp [spanned?, hNone]
  | succ y ih =>
      rw [Nat.exists_lt_succ_right, ← ih]
      cases hOver : cells y with
      | none =>
          rw [spanned?_succ_of_none hOver]
          simp
      | some cell =>
          rw [spanned?_succ_of_some hOver]
          by_cases hReach : r < y + d.rowSpan cell
          · rw [if_pos hReach, hCover]
            simp [hReach]
          · rw [if_neg hReach]
            simp [hReach]

theorem isSome_spanned?_iff {cells : Nat → Option Element} {r y : Nat} :
    (d.spanned? cells r y).isSome = true ↔
      ∃ y' < y, ∃ cell, cells y' = some cell ∧ True ∧ r < y' + d.rowSpan cell :=
  spanned?_iff_of_cover (·.isSome = true) (fun _ => True) Bool.false_ne_true fun cell slot =>
    ⟨fun _ => Or.inr trivial, fun _ => isSome_cover cell slot⟩

/-- A column is full from the row of the first cell on that covers the rest of the group. -/
theorem isSome_fullAbove?_iff {cells : Nat → Option Element} {y : Nat} :
    (d.fullAbove? cells y).isSome = true ↔
      ∃ y' < y, ∃ cell, cells y' = some cell ∧ d.rowSpan cell = 0 := by
  induction y with
  | zero => simp [fullAbove?]
  | succ y ih =>
      rw [Nat.exists_lt_succ_right, ← ih]
      cases hOver : cells y with
      | none =>
          rw [fullAbove?_succ_of_none hOver]
          simp
      | some cell =>
          rw [fullAbove?_succ_of_some hOver]
          by_cases hFull : d.rowSpan cell = 0
          · rw [if_pos hFull]
            simp [hFull]
          · rw [if_neg hFull]
            simp [hFull]

/-- A slot shows a cell over its column that comes down to it. -/
theorem shown?_eq_some {cells : Nat → Option Element} {r : Nat} {cell : Element}
    (h : d.shown? cells r = some cell) :
    ∃ y ≤ r, cells y = some cell ∧ (d.rowSpan cell = 0 ∨ r < y + d.rowSpan cell) := by
  have hAbove : d.spanned? cells r r = some cell →
      ∃ y ≤ r, cells y = some cell ∧ (d.rowSpan cell = 0 ∨ r < y + d.rowSpan cell) := by
    intro hSlot
    obtain ⟨y, hy, hOver, hReach⟩ := spanned?_eq_some hSlot
    exact ⟨y, Nat.le_of_lt hy, hOver, Or.inr hReach⟩
  cases hOver : cells r with
  | none =>
      rw [shown?_of_none hOver] at h
      cases hFull : d.fullAbove? cells r with
      | none =>
          rw [hFull] at h
          exact hAbove h
      | some c =>
          rw [hFull] at h
          rcases cover_eq_some h with hSlot | rfl
          · exact hAbove hSlot
          · obtain ⟨y, hy, hOver', hSpan, -⟩ := fullAbove?_eq_some hFull
            exact ⟨y, Nat.le_of_lt hy, hOver', Or.inl hSpan⟩
  | some c =>
      rw [shown?_of_some hOver] at h
      by_cases hSpan : d.rowSpan c = 0
      · rw [if_pos hSpan, Option.some.injEq] at h
        subst h
        exact ⟨r, Nat.le_refl r, hOver, Or.inl hSpan⟩
      · rw [if_neg hSpan] at h
        rcases cover_eq_some h with hSlot | rfl
        · exact hAbove hSlot
        · exact ⟨r, Nat.le_refl r, hOver, Or.inr (by omega)⟩

/-- A slot that a cell over its column comes down to is not empty. -/
theorem isSome_shown? {cells : Nat → Option Element} {r y : Nat} {cell : Element} (hy : y ≤ r)
    (hOver : cells y = some cell) (hReach : d.rowSpan cell = 0 ∨ r < y + d.rowSpan cell) :
    (d.shown? cells r).isSome = true := by
  cases hHere : cells r with
  | none =>
      have hLt : y < r := by
        refine Nat.lt_of_le_of_ne hy fun hSame => ?_
        rw [hSame, hHere] at hOver
        simp at hOver
      rw [shown?_of_none hHere]
      cases hFull : d.fullAbove? cells r with
      | none =>
          have hSpan : d.rowSpan cell ≠ 0 := by
            intro hRest
            have hSome := isSome_fullAbove?_iff.mpr ⟨y, hLt, cell, hOver, hRest⟩
            rw [hFull] at hSome
            exact Bool.false_ne_true hSome
          exact isSome_spanned?_iff.mpr ⟨y, hLt, cell, hOver, trivial, hReach.resolve_left hSpan⟩
      | some c => exact isSome_cover c _
  | some c =>
      rw [shown?_of_some hHere]
      split
      · rfl
      · exact isSome_cover c _

end Document

end AriaLocator

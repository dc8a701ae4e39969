import AriaLocator.Proofs.Table.Extent

/-!
# Where data gives way to a header

Where cells overlap, a data cell is to keep its slots, since all that a table is asked for is whether
there is data beside a header.  The rule is kept by every write but one: the first row of a cell that
covers the rest of its group is written without a look at what is there.  And it is kept for slots
only that have been written: a data cell that covers the rest of its group is not in the grid below
its first row until the row comes to it, and so a header laid over its column comes first, or takes
the column over.

So the data cells that can lose a slot are known, and so are the ways in which they lose it.  A data
cell with an ordinary row span loses a slot only to a header with a row span of zero that starts in
the row of the slot.  A data cell with a row span of zero loses a slot below its first row also to
any header laid over the column in that row, and to a later header with a row span of zero, unless
some other data cell comes down to the slot by its row span.

## Main results

* `isData_spanned?_iff`: in the rows below, a data cell with an ordinary row span keeps its slots.
* `data_shown_iff`: a slot of a data cell shows data unless it is lost in one of these ways.
-/

namespace AriaLocator

namespace Document

variable {d : Document}

/-- Some data cell over column `x` comes down to row `r` by its row span. -/
def DataComesDown (d : Document) (s : Layout) (x r : Nat) : Prop :=
  ∃ cell y, d.LaidOver s cell x y ∧ d.tag cell = "td" ∧ y ≤ r ∧ r < y + d.rowSpan cell

/-- The ways in which the slot in column `x` of row `r` is lost to a header, although the data cell
`cell`, which starts in row `y`, asks for it. -/
inductive GivesWay (d : Document) (s : Layout) (cell : Element) (y x r : Nat) : Prop where
  /-- A header that covers the rest of the group starts in the row of the slot. -/
  | taken {header : Element} (laid : d.LaidOver s header x r) (isHeader : d.tag header = "th")
      (full : d.rowSpan header = 0)
  /-- The data cell covers the rest of the group, and in the row of the slot a header lies over its
  column, where no data cell comes down. -/
  | hidden {header : Element} (rest : d.rowSpan cell = 0) (alone : ¬ d.DataComesDown s x r)
      (laid : d.LaidOver s header x r) (isHeader : d.tag header = "th")
  /-- The data cell covers the rest of the group, until a header starts below it that does so in its
  place; the row of the slot has no cell there, and no data cell comes down. -/
  | replaced {header : Element} {y' : Nat} (rest : d.rowSpan cell = 0)
      (alone : ¬ d.DataComesDown s x r) (gap : ∀ other, ¬ d.LaidOver s other x r)
      (laid : d.LaidOver s header x y') (isHeader : d.tag header = "th")
      (full : d.rowSpan header = 0) (below : y < y') (above : y' < r)
      (last : ∀ other between, y' < between → between < r → d.LaidOver s other x between →
        d.rowSpan other ≠ 0)

/-! ## Data in a column -/

@[simp] theorem isData_some {cell : Element} : d.isData (some cell) = true ↔ d.tag cell = "td" := by
  unfold isData
  rw [Option.any_some, beq_iff_eq]

@[simp] theorem isData_cover {cell : Element} {slot : Option Element} :
    d.isData (d.cover cell slot) = true ↔ d.isData slot = true ∨ d.tag cell = "td" := by
  unfold cover
  by_cases hData : d.isData slot = true
  · rw [if_pos hData]
    exact ⟨Or.inl, fun _ => hData⟩
  · rw [if_neg hData, isData_some]
    exact ⟨Or.inr, fun h => h.resolve_left hData⟩

/-- What comes down to a slot is data exactly if a data cell comes down to it, whatever else does. -/
theorem isData_spanned?_iff {cells : Nat → Option Element} {r y : Nat} :
    d.isData (d.spanned? cells r y) = true ↔
      ∃ y' < y, ∃ cell, cells y' = some cell ∧ d.tag cell = "td" ∧ r < y' + d.rowSpan cell :=
  spanned?_iff_of_cover (d.isData · = true) (d.tag · = "td") Bool.false_ne_true fun _ _ =>
    isData_cover

/-! ## Data in a slot -/

section Slot

variable {height next x y r : Nat} {s : Layout} {cell : Element}

theorem dataComesDown_iff (h : d.Laid height next s) :
    d.DataComesDown s x r ↔ ∃ y ≤ r, ∃ cell, d.cellOver? s x y = some cell ∧ d.tag cell = "td" ∧
      r < y + d.rowSpan cell := by
  unfold DataComesDown
  constructor
  · intro hDown
    obtain ⟨cell, y, hOver, hData, hy, hReach⟩ := hDown
    exact ⟨y, hy, cell, h.cellOver?_eq_some.mpr hOver, hData, hReach⟩
  · intro hDown
    obtain ⟨y, hy, cell, hOver, hData, hReach⟩ := hDown
    exact ⟨cell, y, h.cellOver?_eq_some.mp hOver, hData, hy, hReach⟩

/-- Data comes down to a slot from a row above, or it is the cell of the row itself. -/
theorem dataComesDown_iff_spanned (h : d.Laid height next s) :
    d.DataComesDown s x r ↔ d.isData (d.spanned? (d.cellOver? s x) r (r + 1)) = true := by
  rw [dataComesDown_iff h, isData_spanned?_iff]
  simp only [Nat.lt_succ_iff]

theorem isData_shown?_of_full (hOver : d.cellOver? s x r = some cell) (hFull : d.rowSpan cell = 0) :
    d.isData (d.shown? (d.cellOver? s x) r) = true ↔ d.tag cell = "td" := by
  rw [shown?_of_some hOver, if_pos hFull, isData_some]

theorem isData_shown?_of_span (h : d.Laid height next s) (hOver : d.cellOver? s x r = some cell)
    (hSpan : d.rowSpan cell ≠ 0) :
    d.isData (d.shown? (d.cellOver? s x) r) = true ↔ d.DataComesDown s x r := by
  rw [dataComesDown_iff_spanned h, shown?_of_some hOver, if_neg hSpan, spanned?_succ_of_some hOver,
    if_pos (by omega)]

theorem isData_shown?_of_gap (h : d.Laid height next s) (hOver : d.cellOver? s x r = none) :
    d.isData (d.shown? (d.cellOver? s x) r) = true ↔ d.DataComesDown s x r ∨
      ∃ full, d.fullAbove? (d.cellOver? s x) r = some full ∧ d.tag full = "td" := by
  rw [dataComesDown_iff_spanned h, shown?_of_none hOver, spanned?_succ_of_none hOver]
  cases hFull : d.fullAbove? (d.cellOver? s x) r with
  | none => simp [fill]
  | some full => simp [fill]

/-! ## Slots that are lost -/

/-- A data cell `cell`, laid into row `y` over column `x`, asks for the slot in row `r`. -/
structure AsksFor (d : Document) (s : Layout) (cell : Element) (y x r : Nat) : Prop where
  laid : d.LaidOver s cell x y
  isData : d.tag cell = "td"
  below : y ≤ r
  reaches : d.rowSpan cell = 0 ∨ r < y + d.rowSpan cell

/-- If no data cell comes down to the slot, the one that asks for it covers the rest of the group. -/
theorem AsksFor.rest (hAsks : d.AsksFor s cell y x r) (hAlone : ¬ d.DataComesDown s x r) :
    d.rowSpan cell = 0 := by
  refine hAsks.reaches.resolve_right fun hReach => hAlone ?_
  exact ⟨cell, y, hAsks.laid, hAsks.isData, hAsks.below, hReach⟩

/-- One cell lies over a column in a row. -/
theorem Laid.over_unique (h : d.Laid height next s) {a b : Element} (ha : d.cellOver? s x r = some a)
    (hb : d.LaidOver s b x r) : b = a :=
  Option.some.inj ((h.cellOver?_eq_some.mpr hb).symm.trans ha)

theorem tag_ne_td_of_th {header : Element} (h : d.tag header = "th") : d.tag header ≠ "td" := by
  rw [h]
  decide

theorem givesWay_iff_of_full (h : d.Laid height next s) {top : Element}
    (hOver : d.cellOver? s x r = some top) (hFull : d.rowSpan top = 0) :
    d.GivesWay s cell y x r ↔ d.tag top = "th" := by
  constructor
  · intro hLost
    cases hLost with
    | taken laid isHeader => exact h.over_unique hOver laid ▸ isHeader
    | hidden _ _ laid isHeader => exact h.over_unique hOver laid ▸ isHeader
    | replaced _ _ gap => exact absurd (h.cellOver?_eq_some.mp hOver) (gap top)
  · intro hHeader
    exact .taken (h.cellOver?_eq_some.mp hOver) hHeader hFull

theorem givesWay_iff_of_span (h : d.Laid height next s) (hAsks : d.AsksFor s cell y x r)
    {top : Element} (hKind : d.tag top = "td" ∨ d.tag top = "th")
    (hOver : d.cellOver? s x r = some top) (hSpan : d.rowSpan top ≠ 0) :
    d.GivesWay s cell y x r ↔ ¬ d.DataComesDown s x r := by
  have hTop := h.cellOver?_eq_some.mp hOver
  constructor
  · intro hLost
    cases hLost with
    | taken laid _ full => exact absurd (h.over_unique hOver laid ▸ full) hSpan
    | hidden _ alone => exact alone
    | replaced _ alone => exact alone
  · intro hAlone
    have hHeader : d.tag top = "th" := by
      refine hKind.resolve_left fun hData => hAlone ?_
      exact ⟨top, r, hTop, hData, Nat.le_refl r, by omega⟩
    exact .hidden (hAsks.rest hAlone) hAlone hTop hHeader

/-- Where the row has no cell, the slot is lost if no data cell comes down to it and the column has
been taken over. -/
theorem givesWay_iff_of_gap (h : d.Laid height next s) (hAsks : d.AsksFor s cell y x r)
    (hKinds : ∀ other y', d.LaidOver s other x y' → d.tag other = "td" ∨ d.tag other = "th")
    (hOver : d.cellOver? s x r = none) :
    d.GivesWay s cell y x r ↔ ¬ d.DataComesDown s x r ∧
      ∀ full, d.fullAbove? (d.cellOver? s x) r = some full → d.tag full ≠ "td" := by
  have hGap : ∀ other, ¬ d.LaidOver s other x r := by
    intro other hOther
    rw [h.cellOver?_eq_some.mpr hOther] at hOver
    simp at hOver
  have hCell := h.cellOver?_eq_some.mpr hAsks.laid
  have hAbove : y < r := by
    refine Nat.lt_of_le_of_ne hAsks.below fun hSame => ?_
    exact hGap cell (hSame ▸ hAsks.laid)
  constructor
  · intro hLost
    cases hLost with
    | taken laid => exact absurd laid (hGap _)
    | hidden _ _ laid => exact absurd laid (hGap _)
    | @replaced header y' _ alone _ laid isHeader full _ above last =>
        refine ⟨alone, ?_⟩
        have hFull : d.fullAbove? (d.cellOver? s x) r = some header := by
          refine fullAbove?_of_last above (h.cellOver?_eq_some.mpr laid) full ?_
          intro between c hAfter hBefore hOver
          exact last c between hAfter hBefore (h.cellOver?_eq_some.mp hOver)
        intro filler hFiller
        rw [hFull, Option.some.injEq] at hFiller
        exact hFiller ▸ tag_ne_td_of_th isHeader
  · intro hLost
    obtain ⟨hAlone, hFiller⟩ := hLost
    have hRest := hAsks.rest hAlone
    obtain ⟨filler, hFull⟩ := Option.isSome_iff_exists.mp
      (isSome_fullAbove?_iff.mpr ⟨y, hAbove, cell, hCell, hRest⟩)
    obtain ⟨z, hz, hOverZ, hFullZ, hBetween⟩ := fullAbove?_eq_some hFull
    have hOver' := h.cellOver?_eq_some.mp hOverZ
    have hHeader : d.tag filler = "th" := (hKinds filler z hOver').resolve_left (hFiller filler hFull)
    have hBelow : y < z := by
      rcases Nat.lt_trichotomy y z with hlt | heq | hgt
      · exact hlt
      · rw [← heq, hCell, Option.some.injEq] at hOverZ
        exact absurd (hOverZ ▸ hAsks.isData) (hFiller filler hFull)
      · exact absurd hRest (hBetween y cell hgt hAbove hCell)
    refine .replaced hRest hAlone hGap hOver' hHeader hFullZ hBelow hz ?_
    intro other between hAfter hBefore hOther
    exact hBetween between other hAfter hBefore (h.cellOver?_eq_some.mpr hOther)

/-- In a row of the group, a slot that a data cell asks for shows data unless it is lost. -/
theorem isData_shown?_iff (h : d.Laid height next s) (hAsks : d.AsksFor s cell y x r)
    (hKinds : ∀ other y', d.LaidOver s other x y' → d.tag other = "td" ∨ d.tag other = "th") :
    d.isData (d.shown? (d.cellOver? s x) r) = true ↔ ¬ d.GivesWay s cell y x r := by
  cases hOver : d.cellOver? s x r with
  | none =>
      rw [isData_shown?_of_gap h hOver, givesWay_iff_of_gap h hAsks hKinds hOver]
      grind
  | some top =>
      have hKind := hKinds top r (h.cellOver?_eq_some.mp hOver)
      by_cases hFull : d.rowSpan top = 0
      · rw [isData_shown?_of_full hOver hFull, givesWay_iff_of_full h hOver hFull]
        grind
      · rw [isData_shown?_of_span h hOver hFull, givesWay_iff_of_span h hAsks hKind hOver hFull,
          not_not]

end Slot

/-- Data wins: a slot that a data cell asks for shows a data cell in the end, whatever headers lie
over it, except where it is lost in one of the ways of `GivesWay`. -/
theorem data_shown_iff (d : Document) (rows : List Element) {cell : Element} {start y x r : Nat}
    (hData : d.tag cell = "td") (hOrigin : (cell, start, y) ∈ (d.layOut rows).origins)
    (hSlot : (d.extent rows.length (cell, start, y)).Contains x r) :
    d.isData ((d.gridOfRows rows).cell? x r) = true ↔ ¬ d.GivesWay (d.layOut rows) cell y x r := by
  have h := layOut_laid d rows
  obtain ⟨hx, hy, hReach⟩ := (contains_extent (row_lt_of_origin hOrigin)).mp hSlot
  have hOver : d.LaidOver (d.layOut rows) cell x y := ⟨start, hOrigin, hx⟩
  rw [cell?_gridOfRows]
  by_cases hr : r < rows.length
  · have hAsks : d.AsksFor (d.layOut rows) cell y x r := by
      refine ⟨hOver, hData, hy, ?_⟩
      by_cases hFull : d.rowSpan cell = 0
      · exact Or.inl hFull
      · rw [if_neg hFull] at hReach
        exact Or.inr hReach
    have hKinds : ∀ other y', d.LaidOver (d.layOut rows) other x y' →
        d.tag other = "td" ∨ d.tag other = "th" := by
      intro other y' hOther
      obtain ⟨start', hOrigin', -⟩ := hOther
      obtain ⟨row, -, hCell⟩ := mem_origins_iff.mp ⟨start', hOrigin'⟩
      exact (mem_cellsOf.mp hCell).2
    rw [if_pos hr]
    exact isData_shown?_iff h hAsks hKinds
  · -- Behind the last row, only ordinary row spans are left, and no header starts there.
    have hSpan : d.rowSpan cell ≠ 0 := by
      intro hFull
      rw [if_pos hFull] at hReach
      exact hr hReach
    rw [if_neg hSpan] at hReach
    have hShown : d.isData (d.spanned? (d.cellOver? (d.layOut rows) x) r rows.length) = true :=
      isData_spanned?_iff.mpr
        ⟨y, row_lt_of_origin hOrigin, cell, h.cellOver?_eq_some.mpr hOver, hData, hReach⟩
    have hKept : ¬ d.GivesWay (d.layOut rows) cell y x r := by
      intro hLost
      cases hLost with
      | taken laid =>
          obtain ⟨start', hOrigin', -⟩ := laid
          exact hr (row_lt_of_origin hOrigin')
      | hidden rest => exact hSpan rest
      | replaced rest => exact hSpan rest
    rw [if_neg hr]
    exact ⟨fun _ => hKept, fun _ => hShown⟩

/-- A header of two columns lies over the lower slot of a data cell, and the slot still shows data. -/
theorem data_shown_under_header :
    let d := ofElement "table" []
      [.element "tr" [] [.element "th" [] [], .element "td" [("rowspan", "2")] []],
        .element "tr" [] [.element "th" [("colspan", "2")] []]]
    let s := d.layOut [1, 4]
    (d.tag 3 = "td" ∧ (3, 1, 0) ∈ s.origins ∧ (d.extent 2 (3, 1, 0)).Contains 1 1) ∧
      d.LaidOver s 5 1 1 ∧ d.tag 5 = "th" ∧ ¬ d.GivesWay s 3 0 1 1 := by
  intro d s
  have hData : d.tag 3 = "td" := by decide +kernel
  have hOrigin : (3, 1, 0) ∈ s.origins := by decide +kernel
  have hSlot : (d.extent 2 (3, 1, 0)).Contains 1 1 := by decide +kernel
  have hHeader : (5, 0, 1) ∈ s.origins ∧ 0 ≤ 1 ∧ 1 < 0 + d.columnSpan 5 := by decide +kernel
  have hShown : d.isData ((d.gridOfRows [1, 4]).cell? 1 1) = true := by decide +kernel
  exact ⟨⟨hData, hOrigin, hSlot⟩, ⟨0, hHeader⟩, by decide +kernel,
    (data_shown_iff d [1, 4] hData hOrigin hSlot).mp hShown⟩

/-- If that header has a row span of zero, it takes the slot from the data cell. -/
theorem data_lost_to_full_header :
    let d := ofElement "table" []
      [.element "tr" [] [.element "th" [] [], .element "td" [("rowspan", "2")] []],
        .element "tr" [] [.element "th" [("colspan", "2"), ("rowspan", "0")] []]]
    (d.tag 3 = "td" ∧ (3, 1, 0) ∈ (d.layOut [1, 4]).origins ∧
      (d.extent 2 (3, 1, 0)).Contains 1 1) ∧
      d.isData ((d.gridOfRows [1, 4]).cell? 1 1) = false := by
  decide +kernel

end Document

end AriaLocator

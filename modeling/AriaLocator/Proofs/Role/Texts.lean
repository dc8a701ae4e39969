import AriaLocator.Proofs.Document.Texts
import AriaLocator.Proofs.Role.Overlap

/-!
# Roles do not depend on texts

The conditions of the role table look at attributes, ancestors, the state of controls, selectors and
the cells of a table.  None of these reads a text, not even the layout of a table: a data cell is
one by its tag, whether or not there is anything in it.  So an element has one role in all documents
that differ in their texts alone, by induction on its number, since a condition asks for the role of
an ancestor at most.

## Main results

* `gridOfTable_eq`: a table has the same grid.
* `role?_eq`: an element has the same role.
-/

namespace AriaLocator

namespace Document

namespace SameButTexts

variable {d d' : Document}

/-! ## Tables -/

theorem columnSpan_eq (h : SameButTexts d d') : d.columnSpan = d'.columnSpan := by
  funext cell
  rw [columnSpan, columnSpan, size?, size?, h.attribute?_eq]

theorem rowSpan_eq (h : SameButTexts d d') : d.rowSpan = d'.rowSpan := by
  funext cell
  rw [rowSpan, rowSpan, size?, size?, h.attribute?_eq]

theorem isData_eq (h : SameButTexts d d') : d.isData = d'.isData := by
  funext slot
  rw [isData, isData, h.tag_eq]

theorem coverSlot_eq (h : SameButTexts d d') : d.coverSlot = d'.coverSlot := by
  funext cell g x y
  rw [coverSlot, coverSlot, h.isData_eq]

theorem coverFillers_eq (h : SameButTexts d d') : d.coverFillers = d'.coverFillers := by
  funext y start count state
  simp only [coverFillers, coverFiller, h.coverSlot_eq]

theorem layColumn_eq (h : SameButTexts d d') : d.layColumn = d'.layColumn := by
  funext cell span y state x
  rw [layColumn, layColumn, h.coverSlot_eq]

theorem layCell_eq (h : SameButTexts d d') : d.layCell = d'.layCell := by
  funext y progress cell
  simp only [layCell, h.coverFillers_eq, h.layColumn_eq, h.columnSpan_eq, h.rowSpan_eq]

theorem layRow_eq (h : SameButTexts d d') : d.layRow = d'.layRow := by
  funext y state row
  simp only [layRow, cellsOf, h.childElements_eq, h.tag_eq, h.layCell_eq, h.coverFillers_eq]

theorem layRows_eq (h : SameButTexts d d') : d.layRows = d'.layRows := by
  funext y state rows
  induction rows generalizing y state with
  | nil => rfl
  | cons row rest ih => rw [layRows, layRows, h.layRow_eq, ih]

/-- A table has the same grid. -/
theorem gridOfTable_eq (h : SameButTexts d d') : d.gridOfTable = d'.gridOfTable := by
  funext table
  simp only [gridOfTable, rowGroups, gridOfRows, layOut, childrenWithTag, h.childWithTag?_eq,
    h.childElements_eq, h.tag_eq, h.layRows_eq]

theorem hasDataInRow_eq (h : SameButTexts d d') : d.hasDataInRow = d'.hasDataInRow := by
  have hRows : d.rowsHoldData = d'.rowsHoldData := by
    funext g r
    simp only [rowsHoldData, h.isData_eq]
  funext table cell
  simp only [hasDataInRow, h.gridOfTable_eq, hRows]

theorem hasDataInColumn_eq (h : SameButTexts d d') : d.hasDataInColumn = d'.hasDataInColumn := by
  have hColumns : d.columnsHoldData = d'.columnsHoldData := by
    funext g r
    simp only [columnsHoldData, h.isData_eq]
  funext table cell
  simp only [hasDataInColumn, h.gridOfTable_eq, hColumns]

/-! ## Roles -/

theorem explicitRole?_eq (h : SameButTexts d d') : d.explicitRole? = d'.explicitRole? := by
  funext e
  rw [explicitRole?, explicitRole?, h.attribute?_eq]

/-- A condition holds alike, if the elements before have the same roles. -/
theorem holds_eq (h : SameButTexts d d') {e : Element} (hBefore : ∀ a < e, d.role? a = d'.role? a)
    (condition : Condition) : d.holds e condition = d'.holds e condition := by
  cases condition with
  | ancestorTagHasRole tag role =>
      rw [Bool.eq_iff_iff, holds_ancestorTagHasRole, holds_ancestorTagHasRole, h.ancestors_eq, h.tag_eq]
      refine exists_congr fun a => and_congr_right fun hFound => ?_
      rw [hBefore a (ancestors_lt (List.mem_of_find?_eq_some hFound))]
  | attributeAbove name bound => simp only [holds, holdsGiven, h.attribute?_eq]
  | attributeBelow name bound => simp only [holds, holdsGiven, h.attribute?_eq]
  | labelled =>
      simp only [holds, holdsGiven, h.hasAttribute_eq, h.attribute?_eq, h.elementById?_eq]
  | notWithin pattern => simp only [holds, holdsGiven, h.closest?_eq]
  | flag flag value => simp only [holds, holdsGiven, h.flag_eq]
  | typeAmong types => simp only [holds, holdsGiven, h.controlType?_eq]
  | dataInRow value => simp only [holds, holdsGiven, h.closestTag?_eq, h.hasDataInRow_eq]
  | dataInColumn value => simp only [holds, holdsGiven, h.closestTag?_eq, h.hasDataInColumn_eq]

/-- An element has the same role. -/
theorem role?_eq (h : SameButTexts d d') : d.role? = d'.role? := by
  funext e
  induction e using Nat.strongRecOn with
  | _ e ih =>
      have hHolds : d.holds e = d'.holds e := funext (h.holds_eq ih)
      have hFits : d.fitsRole e = d'.fitsRole e := by
        funext role
        have hEntry (entry : RoleEntry) : d.fits e entry = d'.fits e entry := by
          show (entry.certain?.any (d.matchesSelector · e) ||
              entry.rules.any fun rule =>
                d.matchesSelector rule.pattern e && rule.conditions.all (d.holds e)) = _
          rw [h.matchesSelector_eq, hHolds]
          rfl
        rw [fitsRole, fitsRole, funext hEntry]
      rw [Document.role?_eq, Document.role?_eq, h.explicitRole?_eq, h.tag_eq, hFits]

end SameButTexts

end Document

end AriaLocator

import AriaLocator.Proofs.Role.Overlap
import AriaLocator.Proofs.Text.WholeNumber

/-!
# The role of a `select`

A `select` is a list box if it takes several values or shows more than one row, and a combo box
otherwise.  What decides about the rows is the attribute `size`, which is read in two ways.  The state
of the options goes by the number of rows that are shown: a natural number, and one row if the
attribute is anything else.  The role goes by the attribute as a double, compared with two for a combo
box and with one for a list box.

Where more than one row is shown, both ways of reading agree.  They part where no natural number is
written.  A number such as `2.5` or `1e3` makes a list box that shows one row, and a text that is no
number at all compares with nothing, so that the `select` has no role.

## Main results

* `two_le_sizeNumber`: a `select` that shows more than one row has a `size` of at least two.
* `select_role_iff`: when a `select` takes each role, when it takes none, and when its role is the one
  that goes with the rows that it shows.
-/

namespace AriaLocator

namespace Document

variable {d : Document} {e : Element}

/-- The role that goes with the values that a `select` takes and the rows that it shows. -/
def roleShown (d : Document) (e : Element) : Role :=
  if d.hasAttribute e "multiple" = true ∨ 1 < d.displaySize e then .listbox else .combobox

/-- A number of rows above one has been read from `size`, and read as a double it is the same. -/
theorem two_le_sizeNumber (h : 1 < d.displaySize e) : ∃ size ∈ d.sizeNumber? e, 2.0 ≤ size := by
  unfold displaySize at h
  cases hSize : d.attribute? e "size" with
  | none =>
      rw [hSize] at h
      exact absurd h (Nat.lt_irrefl 1)
  | some text =>
      rw [hSize, Option.bind_some] at h
      cases hRead : Text.readNat? (Text.largestWord 32) (Text.trimChars text.toList) with
      | none =>
          rw [hRead] at h
          exact absurd h (Nat.lt_irrefl 1)
      | some rows =>
          have hTwo : 2 ≤ rows := by
            rw [hRead, Option.filter_some] at h
            split at h
            · exact h
            · exact absurd h (Nat.lt_irrefl 1)
          refine ⟨Text.number text, ?_, Text.two_le_number (by decide) hRead hTwo⟩
          rw [sizeNumber?, hSize]
          rfl

theorem not_fitsRole_combobox (hTag : d.tag e = "select") {size : Float}
    (hSize : d.sizeNumber? e = some size) (h : ¬ size < 2.0) :
    ¬ d.fitsRole e .combobox = true := by
  intro hFits
  exact h (((fitsRole_combobox hTag).mp hFits).2 size hSize)

section Select

variable (hTag : d.tag e = "select") (hImplicit : d.explicitRole? e = none)

include hTag hImplicit

theorem role_select_of_combobox (h : d.fitsRole e .combobox = true) :
    d.role? e = some .combobox := by
  rw [role_select hTag hImplicit, List.find?_cons_of_pos h]

theorem role_select_of_listbox (h : ¬ d.fitsRole e .combobox = true)
    (hList : d.fitsRole e .listbox = true) : d.role? e = some .listbox := by
  rw [role_select hTag hImplicit, List.find?_cons_of_neg h, List.find?_cons_of_pos hList]

theorem role_select_of_neither (h : ¬ d.fitsRole e .combobox = true)
    (hList : ¬ d.fitsRole e .listbox = true) : d.role? e = none := by
  rw [role_select hTag hImplicit, List.find?_cons_of_neg h, List.find?_cons_of_neg hList,
    List.find?_nil]

/-- With `multiple`, a `select` is a list box whatever its `size`. -/
theorem role_of_multiple (hMultiple : d.hasAttribute e "multiple" = true) :
    d.role? e = some .listbox := by
  have hNot : ¬ d.fitsRole e .combobox = true := by
    rw [fitsRole_combobox hTag, hMultiple]
    simp
  exact role_select_of_listbox hTag hImplicit hNot ((fitsRole_listbox hTag).mpr (Or.inl hMultiple))

theorem role_of_one_lt {size : Float} (hSize : d.sizeNumber? e = some size) (h : ¬ size < 2.0)
    (hOne : 1.0 < size) : d.role? e = some .listbox :=
  role_select_of_listbox hTag hImplicit (not_fitsRole_combobox hTag hSize h)
    ((fitsRole_listbox hTag).mpr (Or.inr ⟨size, hSize, hOne⟩))

section Single

variable (hSingle : d.hasAttribute e "multiple" = false)

include hSingle

theorem role_of_no_size (hSize : d.sizeNumber? e = none) : d.role? e = some .combobox := by
  refine role_select_of_combobox hTag hImplicit ((fitsRole_combobox hTag).mpr ⟨hSingle, ?_⟩)
  rw [hSize]
  simp

variable {size : Float} (hSize : d.sizeNumber? e = some size)

include hSize

theorem role_of_lt_two (h : size < 2.0) : d.role? e = some .combobox := by
  refine role_select_of_combobox hTag hImplicit ((fitsRole_combobox hTag).mpr ⟨hSingle, ?_⟩)
  rw [hSize]
  simpa using h

theorem role_of_not_one_lt (h : ¬ size < 2.0) (hOne : ¬ 1.0 < size) : d.role? e = none := by
  refine role_select_of_neither hTag hImplicit
    (not_fitsRole_combobox hTag hSize h) ?_
  rw [fitsRole_listbox hTag, hSingle, hSize]
  simpa using hOne

end Single

/-- A `select` that shows more than one row is a list box. -/
theorem role_of_rows (h : 1 < d.displaySize e) : d.role? e = some .listbox := by
  cases hMultiple : d.hasAttribute e "multiple" with
  | true => exact role_of_multiple hTag hImplicit hMultiple
  | false =>
      obtain ⟨size, hSize, hTwo⟩ := two_le_sizeNumber h
      cases Text.comparesWithTwo size with
      | below _ hLe _ => exact absurd hTwo hLe
      | atLeast hLt _ hOne _ => exact role_of_one_lt hTag hImplicit hSize hLt hOne
      | notANumber _ hLe _ _ => exact absurd hTwo hLe

end Select

/--
A `select` without `multiple` is a combo box if it has no `size` or a number below two, a list box
from two on, and has no role if its `size` is not a number.  This is the role that goes with the rows
that it shows if it shows more than one, or if its `size` is below two, and in no other case.
-/
theorem select_role_iff (d : Document) {e : Element} (hTag : d.tag e = "select")
    (hImplicit : d.explicitRole? e = none) :
    (d.role? e = some .combobox ↔
        d.hasAttribute e "multiple" = false ∧ ∀ size ∈ d.sizeNumber? e, size < 2.0) ∧
      (d.role? e = some .listbox ↔
        d.hasAttribute e "multiple" = true ∨ ∃ size ∈ d.sizeNumber? e, 2.0 ≤ size) ∧
      (d.role? e = none ↔
        d.hasAttribute e "multiple" = false ∧ ∃ size ∈ d.sizeNumber? e, size.isNaN = true) ∧
      (d.role? e = some (d.roleShown e) ↔
        d.hasAttribute e "multiple" = true ∨ 1 < d.displaySize e ∨
          ∀ size ∈ d.sizeNumber? e, size < 2.0) := by
  cases hMultiple : d.hasAttribute e "multiple" with
  | true =>
      rw [role_of_multiple hTag hImplicit hMultiple]
      simp [roleShown, hMultiple]
  | false =>
      by_cases hRows : 1 < d.displaySize e
      · obtain ⟨size, hSize, hTwo⟩ := two_le_sizeNumber hRows
        rw [role_of_rows hTag hImplicit hRows]
        cases Text.comparesWithTwo size with
        | below _ hLe _ => exact absurd hTwo hLe
        | atLeast hLt _ _ hNumber => simp_all [roleShown]
        | notANumber _ hLe _ _ => exact absurd hTwo hLe
      · cases hSize : d.sizeNumber? e with
        | none =>
            rw [role_of_no_size hTag hImplicit hMultiple hSize]
            simp [roleShown, hMultiple, hRows]
        | some size =>
            cases Text.comparesWithTwo size with
            | below hLt hLe hNumber =>
                rw [role_of_lt_two hTag hImplicit hMultiple hSize hLt]
                simp only [Option.mem_def, Option.some.injEq, forall_eq', exists_eq_left', hLt, hLe,
                  hNumber]
                simp [roleShown, hMultiple, hRows]
            | atLeast hLt hLe hOne hNumber =>
                rw [role_of_one_lt hTag hImplicit hSize hLt hOne]
                simp only [Option.mem_def, Option.some.injEq, forall_eq', exists_eq_left', hLt, hLe,
                  hNumber]
                simp [roleShown, hMultiple, hRows]
            | notANumber hLt hLe hOne hNumber =>
                rw [role_of_not_one_lt hTag hImplicit hMultiple hSize hLt hOne]
                simp only [Option.mem_def, Option.some.injEq, forall_eq', exists_eq_left', hLt, hLe,
                  hNumber]
                simp [roleShown, hMultiple, hRows]

/-- With a `size` of ` +12 `, a `select` shows twelve rows and is a list box. -/
theorem select_role_iff_twelve :
    let d := ofElement "html" [] [.element "select" [("size", " +12 ")] []]
    (d.tag 1 = "select" ∧ d.explicitRole? 1 = none) ∧ d.displaySize 1 = 12 ∧
      d.role? 1 = some (d.roleShown 1) ∧ d.roleShown 1 = .listbox := by
  intro d
  have hTag : d.tag 1 = "select" := by decide
  have hImplicit : d.explicitRole? 1 = none := by decide
  have hRows : d.displaySize 1 = 12 := by decide +kernel
  have hMany : 1 < d.displaySize 1 := by rw [hRows]; decide
  refine ⟨⟨hTag, hImplicit⟩, hRows, ?_, by decide +kernel⟩
  exact (select_role_iff d hTag hImplicit).2.2.2.mpr (Or.inr (Or.inl hMany))

/-- With a `size` that is no number a `select` shows one row, and has no role.  With a `size` of 2.5 it
shows one row, and is a list box. -/
theorem select_role_off_rows :
    let words := ofElement "html" [] [.element "select" [("size", "many")] []]
    let fraction := ofElement "html" [] [.element "select" [("size", "2.5")] []]
    (words.displaySize 1 = 1 ∧ words.roleShown 1 = .combobox ∧ words.role? 1 = none) ∧
      fraction.displaySize 1 = 1 ∧ fraction.roleShown 1 = .combobox ∧
        fraction.role? 1 = some .listbox := by
  decide +kernel

end Document

end AriaLocator

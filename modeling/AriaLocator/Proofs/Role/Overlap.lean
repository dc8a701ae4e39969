import AriaLocator.Proofs.Role.Presentational

/-!
# One role for each element

An element takes the first role of the table that it fits, but a search for a role looks at the
entry of that role alone. Both agree on an element that fits one entry at most, and so whether they
agree at all depends on the table: any two ways to take different roles have to rule each other
out, for whatever attributes an element has and wherever it stands.

What the ways ask for is brought down to traits, and most pairs have traits that exclude each other:
different tags, an attribute that is there and is not, different types of a control, tables of
different roles around a cell, or data beside the cell and none. This is read off the whole table
at once. The exception is `select`, whose two roles are told apart by numbers. A `size` less than
two makes a combo box and a `size` greater than one a list box, which rule each other out for whole
numbers only: with a `size` of 1.5 a `select` is taken for a combo box, and found under both.

## Main results

* `ways_exclude`: off `select`, two ways to take different roles have traits that exclude each
  other.
* `hasRole_iff`: an element has the role that it takes, and no other except for a `select` with a
  `size` between one and two.
-/

namespace AriaLocator

open Css

/-! ## Traits -/

/-- What one way to take a role asks for, and another may rule out. -/
inductive Trait where
  /-- The element has the tag. -/
  | tag (name : String)
  /-- The attribute is there, or is not. -/
  | attribute (name : String) (present : Bool)
  /-- The type of the control is one of these. -/
  | typeAmong (types : List String)
  /-- The nearest ancestor with the tag has the role. -/
  | ancestorTagHasRole (tag : String) (role : Role)
  /-- Whether there are data cells in the rows of this cell. -/
  | dataInRow (value : Bool)
  /-- Whether there are data cells in the columns of this cell. -/
  | dataInColumn (value : Bool)

/-- Whether no element shows both traits. -/
def Trait.excludes : Trait → Trait → Bool
  | .tag a, .tag b => a != b
  | .attribute a present, .attribute b present' => a == b && present != present'
  | .typeAmong types, .typeAmong others => types.all fun type => !others.contains type
  | .ancestorTagHasRole a role, .ancestorTagHasRole b role' => a == b && role != role'
  | .dataInRow value, .dataInRow value' => value != value'
  | .dataInColumn value, .dataInColumn value' => value != value'
  | _, _ => false

/-- One way to take a role: what an element has to fit, and what else has to hold of it. -/
structure Way where
  /-- What the element has to fit. -/
  member : Chain
  /-- What else has to hold of it. -/
  conditions : List Condition

/-- All ways to take the role of an entry. -/
def RoleEntry.ways (entry : RoleEntry) : List Way :=
  (entry.certain?.toList.flatMap fun pattern => pattern.members.map (⟨·, []⟩)) ++
    entry.rules.flatMap fun rule => rule.pattern.members.map (⟨·, rule.conditions⟩)

namespace Document

variable {d : Document} {e : Element}

/-- Whether an element has a trait. -/
def Shows (d : Document) (e : Element) : Trait → Prop
  | .tag name => d.tag e = name
  | .attribute name present => d.hasAttribute e name = present
  | .typeAmong types => ∃ type ∈ types, d.controlType? e = some type
  | .ancestorTagHasRole tag role => d.holds e (.ancestorTagHasRole tag role) = true
  | .dataInRow value => d.holds e (.dataInRow value) = true
  | .dataInColumn value => d.holds e (.dataInColumn value) = true

theorem holds_ancestorTagHasRole {tag : String} {role : Role} :
    d.holds e (.ancestorTagHasRole tag role) = true ↔
      ∃ a, (d.ancestors e).find? (fun a => d.tag a == tag) = some a ∧ d.role? a = some role := by
  simp only [holds, holdsGiven]
  split
  · next hNone => simp [hNone]
  · next a hFound => simp [hFound]

theorem holds_dataInRow {value : Bool} (h : d.holds e (.dataInRow value) = true) :
    ∃ table, d.closestTag? e "table" = some table ∧ d.hasDataInRow table e = value := by
  simp only [holds, holdsGiven] at h
  cases hTable : d.closestTag? e "table" with
  | none => simp [hTable] at h
  | some table => exact ⟨table, rfl, by simpa [hTable] using h⟩

theorem holds_dataInColumn {value : Bool} (h : d.holds e (.dataInColumn value) = true) :
    ∃ table, d.closestTag? e "table" = some table ∧ d.hasDataInColumn table e = value := by
  simp only [holds, holdsGiven] at h
  cases hTable : d.closestTag? e "table" with
  | none => simp [hTable] at h
  | some table => exact ⟨table, rfl, by simpa [hTable] using h⟩

/-- No element shows two traits that exclude each other. -/
theorem not_shows_of_excludes {trait other : Trait} (h : trait.excludes other = true)
    (hTrait : d.Shows e trait) : ¬ d.Shows e other := by
  intro hOther
  unfold Trait.excludes at h
  split at h
  · have hSame := Eq.trans (Eq.symm hTrait) hOther
    simp [hSame] at h
  · rw [Bool.and_eq_true, beq_iff_eq] at h
    obtain ⟨rfl, hDiffer⟩ := h
    have hSame := Eq.trans (Eq.symm hTrait) hOther
    simp [hSame] at hDiffer
  · next types others =>
    obtain ⟨type, hType, hControl⟩ := hTrait
    obtain ⟨type', hType', hControl'⟩ := hOther
    obtain rfl : type = type' := Option.some.inj (hControl.symm.trans hControl')
    have hNone := List.all_eq_true.mp h type hType
    simp [hType'] at hNone
  · rw [Bool.and_eq_true, beq_iff_eq] at h
    obtain ⟨rfl, hDiffer⟩ := h
    obtain ⟨a, hFound, hRole⟩ := holds_ancestorTagHasRole.mp hTrait
    obtain ⟨b, hFound', hRole'⟩ := holds_ancestorTagHasRole.mp hOther
    obtain rfl : a = b := Option.some.inj (hFound.symm.trans hFound')
    have hSame := Option.some.inj (hRole.symm.trans hRole')
    simp [hSame] at hDiffer
  · obtain ⟨table, hTable, hData⟩ := holds_dataInRow hTrait
    obtain ⟨table', hTable', hData'⟩ := holds_dataInRow hOther
    obtain rfl : table = table' := Option.some.inj (hTable.symm.trans hTable')
    have hSame := hData.symm.trans hData'
    simp [hSame] at h
  · obtain ⟨table, hTable, hData⟩ := holds_dataInColumn hTrait
    obtain ⟨table', hTable', hData'⟩ := holds_dataInColumn hOther
    obtain rfl : table = table' := Option.some.inj (hTable.symm.trans hTable')
    have hSame := hData.symm.trans hData'
    simp [hSame] at h
  · exact absurd h Bool.false_ne_true

/-! ## The traits of a way -/

/-- The traits that an element passing a test has. -/
def traitsOfTest : Simple → List Trait
  | .type name => [.tag name]
  | .hasAttribute name => [.attribute name true]
  | .not [.hasAttribute name] => [.attribute name false]
  | _ => []

/-- The traits that a condition asks for. -/
def traitsOfCondition : Condition → List Trait
  | .flag .multiple value => [.attribute "multiple" value]
  | .typeAmong types => [.typeAmong types]
  | .ancestorTagHasRole tag role => [.ancestorTagHasRole tag role]
  | .dataInRow value => [.dataInRow value]
  | .dataInColumn value => [.dataInColumn value]
  | _ => []

/-- The traits of the elements that fit a chain: what its last compound asks for, and the type of a
control where a test on its attribute settles that. -/
def traitsOfMember (member : Chain) : List Trait :=
  member.subject.flatMap traitsOfTest ++
    ((typeOfPattern? member).filter inputTypes.contains).toList.map fun type => .typeAmong [type]

/-- All traits that a way to take a role asks for. -/
def traitsOfWay (way : Way) : List Trait :=
  traitsOfMember way.member ++ way.conditions.flatMap traitsOfCondition

/-- Whether an element takes a role in this way, if no earlier role is taken. -/
structure Takes (d : Document) (e : Element) (way : Way) : Prop where
  /-- It fits what the way asks for. -/
  fits : d.Fits way.member e
  /-- All further conditions hold. -/
  holds : ∀ condition ∈ way.conditions, d.holds e condition = true

theorem shows_of_passes {test : Simple} (h : d.passes e test = true) {trait : Trait}
    (hTrait : trait ∈ traitsOfTest test) : d.Shows e trait := by
  unfold traitsOfTest at hTrait
  split at hTrait
  · rw [List.mem_singleton.mp hTrait]
    show d.tag e = _
    simpa [passes] using h
  · rw [List.mem_singleton.mp hTrait]
    show d.hasAttribute e _ = true
    simpa [passes] using h
  · rw [List.mem_singleton.mp hTrait]
    show d.hasAttribute e _ = false
    simpa [passes, passesAll] using h
  · simp at hTrait

theorem shows_of_holds {condition : Condition} (h : d.holds e condition = true) {trait : Trait}
    (hTrait : trait ∈ traitsOfCondition condition) : d.Shows e trait := by
  unfold traitsOfCondition at hTrait
  split at hTrait
  · rw [List.mem_singleton.mp hTrait]
    show d.hasAttribute e "multiple" = _
    simpa [holds, holdsGiven, flag] using h
  · next types =>
    rw [List.mem_singleton.mp hTrait]
    show ∃ type ∈ types, d.controlType? e = some type
    simp only [holds, holdsGiven] at h
    cases hControl : d.controlType? e with
    | none => simp [hControl] at h
    | some type => exact ⟨type, by simpa [hControl] using h, rfl⟩
  · rw [List.mem_singleton.mp hTrait]
    exact h
  · rw [List.mem_singleton.mp hTrait]
    exact h
  · rw [List.mem_singleton.mp hTrait]
    exact h
  · simp at hTrait

theorem passesAll_subject_of_fits {member : Chain} (h : d.Fits member e) :
    d.passesAll e member.subject = true := by
  cases member with
  | only subject => exact fits_only.mp h
  | combined left relation subject => exact (fits_combined.mp h).1

theorem shows_of_fits {member : Chain} (h : d.Fits member e) {trait : Trait}
    (hTrait : trait ∈ traitsOfMember member) : d.Shows e trait := by
  rcases List.mem_append.mp hTrait with hTest | hType
  · obtain ⟨test, hMem, hTest⟩ := List.mem_flatMap.mp hTest
    exact shows_of_passes (passes_of_mem (passesAll_subject_of_fits h) hMem) hTest
  · obtain ⟨type, hMem, rfl⟩ := List.mem_map.mp hType
    obtain ⟨hPattern, hKnown⟩ := Option.filter_eq_some_iff.mp (Option.mem_toList.mp hMem)
    have hControl : d.controlType? e = some type :=
      controlType_of_fits_typeOfPattern hPattern (by simpa using hKnown) h
    exact ⟨type, List.mem_singleton_self type, hControl⟩

/-- An element that takes a role in some way has all the traits that the way asks for. -/
theorem Takes.shows {way : Way} (h : d.Takes e way) {trait : Trait}
    (hTrait : trait ∈ traitsOfWay way) : d.Shows e trait := by
  rcases List.mem_append.mp hTrait with hMember | hCondition
  · exact shows_of_fits h.fits hMember
  · obtain ⟨condition, hMem, hCondition⟩ := List.mem_flatMap.mp hCondition
    exact shows_of_holds (h.holds condition hMem) hCondition

/-- An element fits an entry if there is a way in which it takes the role. -/
theorem fits_iff_takes {entry : RoleEntry} :
    d.fits e entry = true ↔ ∃ way ∈ entry.ways, d.Takes e way := by
  rw [fits_iff]
  constructor
  · rintro (⟨pattern, hPattern, hMatch⟩ | ⟨rule, hRule, hMatch, hHolds⟩)
    · obtain ⟨member, hMember, hFits⟩ := matchesSelector_iff.mp hMatch
      refine ⟨⟨member, []⟩, List.mem_append_left _ ?_, hFits, by simp⟩
      exact List.mem_flatMap.mpr
        ⟨pattern, Option.mem_toList.mpr hPattern, List.mem_map_of_mem hMember⟩
    · obtain ⟨member, hMember, hFits⟩ := matchesSelector_iff.mp hMatch
      refine ⟨⟨member, rule.conditions⟩, List.mem_append_right _ ?_, hFits, hHolds⟩
      exact List.mem_flatMap.mpr ⟨rule, hRule, List.mem_map_of_mem hMember⟩
  · rintro ⟨way, hWay, hTakes⟩
    rcases List.mem_append.mp hWay with hCertain | hRules
    · obtain ⟨pattern, hPattern, hMap⟩ := List.mem_flatMap.mp hCertain
      obtain ⟨member, hMember, rfl⟩ := List.mem_map.mp hMap
      exact Or.inl ⟨pattern, Option.mem_toList.mp hPattern,
        matchesSelector_iff.mpr ⟨member, hMember, hTakes.fits⟩⟩
    · obtain ⟨rule, hRule, hMap⟩ := List.mem_flatMap.mp hRules
      obtain ⟨member, hMember, rfl⟩ := List.mem_map.mp hMap
      exact Or.inr ⟨rule, hRule, matchesSelector_iff.mpr ⟨member, hMember, hTakes.fits⟩,
        hTakes.holds⟩

/-! ## Two roles -/

/-- Off `select`, two ways to take different roles have traits that exclude each other. -/
theorem ways_exclude :
    ∀ entry ∈ roleTable, ∀ other ∈ roleTable, entry.role ≠ other.role →
      ∀ way ∈ entry.ways, ∀ way' ∈ other.ways,
        ((traitsOfWay way).any fun trait => (traitsOfWay way').any trait.excludes) = true ∨
          Compound.tag? way.member.subject = some "select" := by
  decide +kernel

/-- Only a `select` fits two roles. -/
theorem fitsRole_unique (hTag : d.tag e ≠ "select") {role other : Role}
    (h : d.fitsRole e role = true) (hOther : d.fitsRole e other = true) : role = other := by
  obtain ⟨entry, hEntry, rfl, hFits⟩ := exists_entry_of_fitsRole h
  obtain ⟨entry', hEntry', rfl, hFits'⟩ := exists_entry_of_fitsRole hOther
  obtain ⟨way, hWay, hTakes⟩ := fits_iff_takes.mp hFits
  obtain ⟨way', hWay', hTakes'⟩ := fits_iff_takes.mp hFits'
  by_cases hSame : entry.role = entry'.role
  · exact hSame
  · rcases ways_exclude entry hEntry entry' hEntry' hSame way hWay way' hWay' with
      hExclude | hSelect
    · obtain ⟨trait, hTrait, hExclude⟩ := List.any_eq_true.mp hExclude
      obtain ⟨trait', hTrait', hExclude⟩ := List.any_eq_true.mp hExclude
      exact absurd (hTakes'.shows hTrait') (not_shows_of_excludes hExclude (hTakes.shows hTrait))
    · exact absurd (tag_of_fits hTakes.fits hSelect) hTag

/-! ## `select` -/

/-- What the `size` of an element is as a number, if it has one. -/
def sizeNumber? (d : Document) (e : Element) : Option Float :=
  (d.attribute? e "size").map Text.number

theorem rolesForTag_select : rolesForTag "select" = [.combobox, .listbox] := by
  decide

section Select

variable (hTag : d.tag e = "select")

include hTag

theorem fitsRole_combobox :
    d.fitsRole e .combobox = true ↔
      d.hasAttribute e "multiple" = false ∧ ∀ size ∈ d.sizeNumber? e, size < 2.0 := by
  have hFits : d.fitsRole e .combobox = true ↔
      (d.hasAttribute e "multiple" = false ∧ d.hasAttribute e "size" = false) ∨
        (d.hasAttribute e "size" = true ∧ d.hasAttribute e "multiple" = false ∧
          d.holds e (.attributeBelow "size" 2.0) = true) := by
    simp [fitsRole, roleEntryOf?_eq, roleTable, RoleEntry.exactly, RolePattern.tagged,
      RolePattern.sizedSelect, fits, fitsGiven, matchesSelector, mismatch?, passesAll, passes,
      holds, holdsGiven, flag, hTag]
  rw [hFits]
  cases hSize : d.attribute? e "size" with
  | none => simp [sizeNumber?, hasAttribute, hSize]
  | some value => simp [sizeNumber?, hasAttribute, holds, holdsGiven, hSize]

theorem fitsRole_listbox :
    d.fitsRole e .listbox = true ↔
      d.hasAttribute e "multiple" = true ∨ ∃ size ∈ d.sizeNumber? e, 1.0 < size := by
  have hFits : d.fitsRole e .listbox = true ↔
      d.hasAttribute e "multiple" = true ∨
        (d.hasAttribute e "size" = true ∧ d.holds e (.attributeAbove "size" 1.0) = true) := by
    simp [fitsRole, roleEntryOf?_eq, roleTable, RoleEntry.exactly, RolePattern.tagged,
      RolePattern.sizedSelect, fits, fitsGiven, matchesSelector, mismatch?, passesAll, passes,
      holds, holdsGiven, hTag]
  rw [hFits]
  cases hSize : d.attribute? e "size" with
  | none => simp [sizeNumber?, hasAttribute, hSize]
  | some value => simp [sizeNumber?, hasAttribute, holds, holdsGiven, hSize]

/-- A `select` is a combo box if it fits, and else a list box if it fits that. -/
theorem role_select (hImplicit : d.explicitRole? e = none) :
    d.role? e = [Role.combobox, Role.listbox].find? (d.fitsRole e) := by
  rw [role?_eq, hImplicit, hTag, rolesForTag_select]

end Select

/-- Whether an element takes one role and fits another: a `select` that shows more than one row, but
less than two. -/
structure IsBetweenRoles (d : Document) (e : Element) : Prop where
  /-- No `role` attribute settles its role. -/
  implicit : d.explicitRole? e = none
  /-- It is a `select`. -/
  tag : d.tag e = "select"
  /-- It takes one value. -/
  single : d.hasAttribute e "multiple" = false
  /-- Its `size` lies between the bounds. -/
  size : ∃ size ∈ d.sizeNumber? e, 1.0 < size ∧ size < 2.0

theorem IsBetweenRoles.fitsCombobox (h : d.IsBetweenRoles e) :
    d.fitsRole e .combobox = true := by
  obtain ⟨size, hSize, -, hBelow⟩ := h.size
  refine (fitsRole_combobox h.tag).mpr ⟨h.single, ?_⟩
  intro other hOther
  rw [Option.some.inj (hOther.symm.trans hSize)]
  exact hBelow

theorem IsBetweenRoles.fitsListbox (h : d.IsBetweenRoles e) : d.fitsRole e .listbox = true := by
  obtain ⟨size, hSize, hAbove, -⟩ := h.size
  exact (fitsRole_listbox h.tag).mpr (Or.inr ⟨size, hSize, hAbove⟩)

/-- Such a `select` is taken for a combo box. -/
theorem IsBetweenRoles.role (h : d.IsBetweenRoles e) : d.role? e = some .combobox := by
  rw [role_select h.tag h.implicit, List.find?_cons_of_pos h.fitsCombobox]

theorem hasRole_of_fitsRole (hImplicit : d.explicitRole? e = none) {role : Role}
    (hTag : role ∈ rolesForTag (d.tag e)) (hFits : d.fitsRole e role = true) :
    d.hasRole e role = true := by
  unfold hasRole
  rw [hImplicit]
  exact Bool.and_eq_true_iff.mpr ⟨mayTake_iff.mpr hTag, hFits⟩

/-- A `select` has the role that it takes, and the other one only if it is between the two. -/
theorem role_of_fitsRole_select (hTag : d.tag e = "select") (hImplicit : d.explicitRole? e = none)
    {role : Role} (hRole : role ∈ rolesForTag (d.tag e)) (hFits : d.fitsRole e role = true) :
    d.role? e = some role ∨ (role = .listbox ∧ d.IsBetweenRoles e) := by
  have hEither : role = .combobox ∨ role = .listbox := by
    rw [hTag, rolesForTag_select] at hRole
    simpa using hRole
  rw [role_select hTag hImplicit]
  rcases hEither with rfl | rfl
  · exact Or.inl (List.find?_cons_of_pos hFits)
  · by_cases hCombobox : d.fitsRole e .combobox = true
    · obtain ⟨hSingle, hBelow⟩ := (fitsRole_combobox hTag).mp hCombobox
      rcases (fitsRole_listbox hTag).mp hFits with hMultiple | ⟨size, hSize, hAbove⟩
      · rw [hSingle] at hMultiple
        exact absurd hMultiple Bool.false_ne_true
      · exact Or.inr
          ⟨rfl, hImplicit, hTag, hSingle, size, hSize, hAbove, hBelow size hSize⟩
    · rw [List.find?_cons_of_neg hCombobox]
      exact Or.inl (List.find?_cons_of_pos hFits)

/-! ## The two directions -/

/--
The role that an element takes is the one role that it has, except for a `select` without `multiple`
whose `size` lies between one and two: it takes the role of a combo box, and has that of a list box
as well.
-/
theorem hasRole_iff (d : Document) (e : Element) (role : Role) :
    d.hasRole e role = true ↔
      d.role? e = some role ∨
        (role = .listbox ∧ d.role? e = some .combobox ∧ d.IsBetweenRoles e) := by
  constructor
  · intro h
    unfold hasRole at h
    cases hExplicit : d.explicitRole? e with
    | some name =>
        rw [hExplicit] at h
        have hName : name = role.name := beq_iff_eq.mp h
        exact Or.inl (role_of_explicit (hName ▸ hExplicit))
    | none =>
        rw [hExplicit] at h
        obtain ⟨hMay, hFits⟩ := Bool.and_eq_true_iff.mp h
        have hRole : role ∈ rolesForTag (d.tag e) := mayTake_iff.mp hMay
        by_cases hTag : d.tag e = "select"
        · rcases role_of_fitsRole_select hTag hExplicit hRole hFits with hTaken | ⟨hList, hBetween⟩
          · exact Or.inl hTaken
          · exact Or.inr ⟨hList, hBetween.role, hBetween⟩
        · obtain ⟨taken, hTaken, -, hTakenFits⟩ := exists_role_of_fits hExplicit hRole hFits
          rw [fitsRole_unique hTag hFits hTakenFits]
          exact Or.inl hTaken
  · rintro (hTaken | ⟨rfl, -, hBetween⟩)
    · exact hasRole_of_role hTaken
    · refine hasRole_of_fitsRole hBetween.implicit ?_ hBetween.fitsListbox
      rw [hBetween.tag, rolesForTag_select]
      exact List.mem_cons_of_mem _ List.mem_cons_self

/-- A `select` with a `size` of 1.5 takes the role of a combo box, and is found among the list
boxes as well. -/
theorem hasRole_twice :
    let d := ofElement "html" [] [.element "select" [("size", "1.5")] []]
    d.role? 1 = some .combobox ∧ d.hasRole 1 .listbox = true ∧
      d.findByRole .listbox 0 {} = [1] := by
  decide +kernel

end Document

end AriaLocator

import AriaLocator.Proofs.Role.Ancestry

/-!
# The role of a header cell

A `th` heads a column if there is no data in its row.  Otherwise it heads a row if there is no data in
its column.  If there is data both ways it heads nothing, and is a cell like any other.  All this goes
for a table that has the role of a table, of a grid or of a tree grid.  The table of roles spreads it
over three entries, with one rule for each kind of table in two of them.

The entries rule each other out, and leave nothing out but one case.  Of the cells that head nothing,
the entry of plain tables takes in a `th` as well as a `td`.  That of grids asks for a `td`, so that
in a grid or a tree grid a `th` which heads nothing has no role at all.

## Main results

* `fits_headerRules`: one rule for each kind of table asks for any kind, and for what else it asks for.
* `fitsRole_cell`, `fitsRole_columnHeader`, `fitsRole_rowHeader`: when a `th` fits each of its roles.
* `headerCell_role_iff`: when a `th` takes each of its roles, and when it takes none.
-/

namespace AriaLocator

open Css

/-- The roles of a `table` whose cells have roles. -/
def tableRoles : List Role := [.table, .grid, .treeGrid]

/-! ## The table -/

theorem rolesForTag_th : rolesForTag "th" = [.cell, .columnHeader, .rowHeader] := by
  decide

theorem roleEntryOf?_cell :
    roleEntryOf? .cell = some ⟨.cell, none,
      [⟨RolePattern.anyTag ["td"], [inTable .table]⟩,
        ⟨RolePattern.anyTag ["th"], [inTable .table, .dataInRow true, .dataInColumn true]⟩]⟩ := rfl

theorem roleEntryOf?_columnHeader :
    roleEntryOf? .columnHeader = some ⟨.columnHeader, none, headerRules false []⟩ := rfl

theorem roleEntryOf?_rowHeader :
    roleEntryOf? .rowHeader =
      some ⟨.rowHeader, none, headerRules true [.dataInColumn false]⟩ := rfl

namespace Document

variable {d : Document} {e table : Element} {kind : Role}

theorem matches_anyTag_iff {names : List String} :
    d.matchesSelector (RolePattern.anyTag names) e = true ↔ d.tag e ∈ names := by
  rw [matchesSelector_iff]
  constructor
  · intro h
    obtain ⟨member, hMember, hFits⟩ := h
    obtain ⟨name, hName, rfl⟩ := List.mem_map.mp hMember
    have hTag : d.tag e = name := tag_of_fits hFits rfl
    exact hTag ▸ hName
  · intro hName
    have hPasses : d.passesAll e [.type (d.tag e)] = true := by simp [passesAll, passes]
    exact ⟨_, List.mem_map_of_mem hName, fits_only.mpr hPasses⟩

/-- Without an exact pattern, the rules alone decide. -/
theorem fits_rules {role : Role} {rules : List Rule} :
    d.fits e ⟨role, none, rules⟩ =
      rules.any fun rule => d.matchesSelector rule.pattern e && rule.conditions.all (d.holds e) :=
  rfl

/-- A `th` whose role is not settled by an attribute, in a `table` that has a role. -/
structure IsHeaderCell (d : Document) (e table : Element) (kind : Role) : Prop where
  /-- It is a `th`. -/
  tag : d.tag e = "th"
  /-- No `role` attribute settles its role. -/
  implicit : d.explicitRole? e = none
  /-- The table is its nearest ancestor of this tag. -/
  nearest : d.IsNearest (d.ancestors e) (fun a => d.tag a == "table") table
  /-- The role of the table. -/
  role : d.role? table = some kind

namespace IsHeaderCell

variable (h : d.IsHeaderCell e table kind)

include h

theorem find?_table : (d.ancestors e).find? (fun a => d.tag a == "table") = some table :=
  (find?_eq_some_iff_isNearest (d.pairwise_ancestors e)).mpr h.nearest

/-! ## Conditions -/

theorem closestTag?_table : d.closestTag? e "table" = some table := by
  have hOther : ¬ (d.tag e == "table") = true := by
    rw [h.tag]
    decide
  have hAbove : (e :: d.ancestors e).find? (fun a => d.tag a == "table") =
      (d.ancestors e).find? (fun a => d.tag a == "table") := List.find?_cons_of_neg hOther
  rw [closestTag?, lineage_eq, hAbove, h.find?_table]

theorem holds_inTable {role : Role} : d.holds e (inTable role) = true ↔ role = kind := by
  rw [inTable, holds_ancestorTagHasRole, h.find?_table]
  constructor
  · intro hFound
    obtain ⟨a, hSame, hRole⟩ := hFound
    rw [← Option.some.inj hSame, h.role] at hRole
    exact (Option.some.inj hRole).symm
  · intro hSame
    exact ⟨table, rfl, hSame ▸ h.role⟩

theorem holds_dataInRow_eq {value : Bool} :
    d.holds e (.dataInRow value) = (d.hasDataInRow table e == value) := by
  simp only [holds, holdsGiven, h.closestTag?_table]

theorem holds_dataInColumn_eq {value : Bool} :
    d.holds e (.dataInColumn value) = (d.hasDataInColumn table e == value) := by
  simp only [holds, holdsGiven, h.closestTag?_table]

theorem matches_th : d.matchesSelector (RolePattern.anyTag ["th"]) e = true := by
  rw [matches_anyTag_iff, h.tag]
  decide

theorem not_matches_td : d.matchesSelector (RolePattern.anyTag ["td"]) e = false := by
  rw [← Bool.not_eq_true, matches_anyTag_iff, h.tag]
  decide

/-! ## Entries -/

/-- One rule for each kind of table asks for any kind, and for what else it asks for. -/
theorem fits_headerRules {role : Role} {row : Bool} {column : List Condition} :
    d.fits e ⟨role, none, headerRules row column⟩ = true ↔
      kind ∈ tableRoles ∧ d.hasDataInRow table e = row ∧
        ∀ condition ∈ column, d.holds e condition = true := by
  have hRule (tableRole : Role) : (d.matchesSelector (RolePattern.anyTag ["th"]) e &&
      ([inTable tableRole, .dataInRow row] ++ column).all (d.holds e)) = true ↔
        tableRole = kind ∧ d.hasDataInRow table e = row ∧
          ∀ condition ∈ column, d.holds e condition = true := by
    rw [h.matches_th, Bool.true_and, List.all_append, List.all_cons, List.all_cons, List.all_nil,
      Bool.and_true, Bool.and_eq_true, Bool.and_eq_true, h.holds_inTable, h.holds_dataInRow_eq,
      beq_iff_eq, List.all_eq_true, and_assoc]
  rw [fits_rules, headerRules, List.any_map, List.any_eq_true]
  constructor
  · intro hSome
    obtain ⟨tableRole, hMem, hHolds⟩ := hSome
    obtain ⟨hSame, hRest⟩ := (hRule tableRole).mp hHolds
    exact ⟨hSame ▸ hMem, hRest⟩
  · intro hAll
    exact ⟨kind, hAll.1, (hRule kind).mpr ⟨rfl, hAll.2⟩⟩

theorem fitsRole_cell :
    d.fitsRole e .cell = true ↔
      kind = .table ∧ d.hasDataInRow table e = true ∧ d.hasDataInColumn table e = true := by
  have hFits : d.fitsRole e .cell = (d.holds e (inTable .table) &&
      (d.holds e (.dataInRow true) && d.holds e (.dataInColumn true))) := by
    rw [fitsRole, roleEntryOf?_cell, Option.any_some, fits_rules]
    simp only [List.any_cons, List.any_nil, h.not_matches_td, h.matches_th, List.all_cons,
      List.all_nil, Bool.false_and, Bool.false_or, Bool.true_and, Bool.and_true, Bool.or_false]
  rw [hFits, Bool.and_eq_true, Bool.and_eq_true, h.holds_inTable, h.holds_dataInRow_eq,
    h.holds_dataInColumn_eq, beq_iff_eq, beq_iff_eq, eq_comm]

theorem fitsRole_columnHeader :
    d.fitsRole e .columnHeader = true ↔ kind ∈ tableRoles ∧ d.hasDataInRow table e = false := by
  unfold fitsRole
  rw [roleEntryOf?_columnHeader, Option.any_some, h.fits_headerRules]
  simp only [List.not_mem_nil, false_implies, implies_true, and_true]

theorem fitsRole_rowHeader :
    d.fitsRole e .rowHeader = true ↔
      kind ∈ tableRoles ∧ d.hasDataInRow table e = true ∧ d.hasDataInColumn table e = false := by
  unfold fitsRole
  rw [roleEntryOf?_rowHeader, Option.any_some, h.fits_headerRules]
  simp only [List.forall_mem_singleton, h.holds_dataInColumn_eq, beq_iff_eq]

/-! ## Roles -/

/-- The roles of a `th` are tried in the order of the table. -/
theorem role?_eq_find? :
    d.role? e = [Role.cell, .columnHeader, .rowHeader].find? (d.fitsRole e) := by
  rw [role?_eq, h.implicit, h.tag, rolesForTag_th]

section Kind

variable (hKind : kind ∈ tableRoles)

include hKind

theorem role_of_no_data_in_row (hRow : d.hasDataInRow table e = false) :
    d.role? e = some .columnHeader := by
  have hCell : ¬ d.fitsRole e .cell = true := by
    rw [h.fitsRole_cell, hRow]
    simp
  have hColumn : d.fitsRole e .columnHeader = true := h.fitsRole_columnHeader.mpr ⟨hKind, hRow⟩
  rw [h.role?_eq_find?, List.find?_cons_of_neg hCell, List.find?_cons_of_pos hColumn]

theorem role_of_no_data_in_column (hRow : d.hasDataInRow table e = true)
    (hColumn : d.hasDataInColumn table e = false) : d.role? e = some .rowHeader := by
  have hCell : ¬ d.fitsRole e .cell = true := by
    rw [h.fitsRole_cell, hColumn]
    simp
  have hNoColumn : ¬ d.fitsRole e .columnHeader = true := by
    rw [h.fitsRole_columnHeader, hRow]
    simp
  have hRowHeader : d.fitsRole e .rowHeader = true :=
    h.fitsRole_rowHeader.mpr ⟨hKind, hRow, hColumn⟩
  rw [h.role?_eq_find?, List.find?_cons_of_neg hCell, List.find?_cons_of_neg hNoColumn,
    List.find?_cons_of_pos hRowHeader]

end Kind

theorem role_of_data_both_ways (hRow : d.hasDataInRow table e = true)
    (hColumn : d.hasDataInColumn table e = true) :
    d.role? e = if kind = .table then some .cell else none := by
  have hNoColumn : ¬ d.fitsRole e .columnHeader = true := by
    rw [h.fitsRole_columnHeader, hRow]
    simp
  have hNoRow : ¬ d.fitsRole e .rowHeader = true := by
    rw [h.fitsRole_rowHeader, hColumn]
    simp
  rw [h.role?_eq_find?]
  split
  · next hTable =>
    exact List.find?_cons_of_pos (h.fitsRole_cell.mpr ⟨hTable, hRow, hColumn⟩)
  · next hTable =>
    have hCell : ¬ d.fitsRole e .cell = true := fun hFits => hTable (h.fitsRole_cell.mp hFits).1
    rw [List.find?_cons_of_neg hCell, List.find?_cons_of_neg hNoColumn,
      List.find?_cons_of_neg hNoRow, List.find?_nil]

end IsHeaderCell

/-- In a table, grid or tree grid, a `th` heads a column exactly if there is no data in its row, and a
row exactly if there is data in its row and none in its column.  With data both ways it is a cell in a
table, and has no role in a grid or tree grid. -/
theorem headerCell_role_iff (d : Document) {e table : Element} {kind : Role}
    (h : d.IsHeaderCell e table kind) (hKind : kind ∈ tableRoles) :
    (d.role? e = some .columnHeader ↔ d.hasDataInRow table e = false) ∧
      (d.role? e = some .rowHeader ↔
        d.hasDataInRow table e = true ∧ d.hasDataInColumn table e = false) ∧
      (d.role? e = some .cell ↔
        kind = .table ∧ d.hasDataInRow table e = true ∧ d.hasDataInColumn table e = true) ∧
      (d.role? e = none ↔
        kind ≠ .table ∧ d.hasDataInRow table e = true ∧ d.hasDataInColumn table e = true) := by
  cases hRow : d.hasDataInRow table e with
  | false =>
      rw [h.role_of_no_data_in_row hKind hRow]
      simp
  | true =>
      cases hColumn : d.hasDataInColumn table e with
      | false =>
          rw [h.role_of_no_data_in_column hKind hRow hColumn]
          simp
      | true =>
          rw [h.role_of_data_both_ways hRow hColumn]
          by_cases hTable : kind = .table
          · rw [if_pos hTable]
            simp [hTable]
          · rw [if_neg hTable]
            simp [hTable]

/-- In a tree grid, a `th` beside a data cell, with nothing but another `th` below it, heads a row. -/
theorem headerCell_role_iff_in_treegrid :
    let d := Document.ofElement "table" [("role", "treegrid")]
      [.element "tr" [] [.element "th" [] [], .element "td" [] []],
        .element "tr" [] [.element "th" [] []]]
    (d.IsHeaderCell 2 0 .treeGrid ∧ Role.treeGrid ∈ tableRoles) ∧
      (d.hasDataInRow 0 2 = true ∧ d.hasDataInColumn 0 2 = false) ∧
      d.role? 2 = some .rowHeader := by
  intro d
  have hCell : d.IsHeaderCell 2 0 .treeGrid :=
    ⟨by decide +kernel, by decide +kernel, by decide +kernel, by decide +kernel⟩
  have hKind : Role.treeGrid ∈ tableRoles := by decide
  have hData : d.hasDataInRow 0 2 = true ∧ d.hasDataInColumn 0 2 = false := by decide +kernel
  exact ⟨⟨hCell, hKind⟩, hData, (headerCell_role_iff d hCell hKind).2.1.mpr hData⟩

/-- In a grid, a `th` beside a data cell and above another one has no role. -/
theorem headerCell_without_role :
    let d := Document.ofElement "table" [("role", "grid")]
      [.element "tr" [] [.element "th" [] [], .element "td" [] []],
        .element "tr" [] [.element "td" [] []]]
    (d.tag 2 = "th" ∧ d.explicitRole? 2 = none ∧
      d.IsNearest (d.ancestors 2) (fun a => d.tag a == "table") 0 ∧ d.role? 0 = some .grid) ∧
      (d.hasDataInRow 0 2 = true ∧ d.hasDataInColumn 0 2 = true) ∧ d.role? 2 = none := by
  decide +kernel

end Document

end AriaLocator

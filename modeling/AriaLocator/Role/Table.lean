import AriaLocator.Css.Selector
import AriaLocator.Property
import AriaLocator.Role.Basic

/-!
# The role table

HTML gives many elements a role of their own. The table lists, for each role that it gives, an
exact pattern, whose matches always take the role, and rules, whose matches take it under
conditions. A role without an entry can only be taken through a `role` attribute.

The order of the table matters: an element takes the first role that fits. An index by tag saves
most of the matching.

## Main results

* `mem_rolesForTag`, `mayTake_iff`: the index holds exactly the roles whose patterns name a tag.
* `patterns_name_tags`: every pattern names a tag.
-/

namespace AriaLocator

open Css

/-- A side condition of a rule. -/
inductive Condition where
  /-- The attribute is present and its number is greater than the bound. -/
  | attributeAbove (name : String) (bound : Float)
  /-- The attribute is present and its number is less than the bound. -/
  | attributeBelow (name : String) (bound : Float)
  /-- The element is labelled by `aria-label` or `aria-labelledby`. -/
  | labelled
  /-- Neither the element nor an ancestor matches the pattern. -/
  | notWithin (pattern : Selector)
  /-- A property has the given value. -/
  | flag (flag : Flag) (value : Bool)
  /-- The type of the control is one of these. -/
  | typeAmong (types : List String)
  /-- The nearest ancestor with the tag has the role. -/
  | ancestorTagHasRole (tag : String) (role : Role)
  /-- Whether there are data cells in the rows of this cell. -/
  | dataInRow (value : Bool)
  /-- Whether there are data cells in the columns of this cell. -/
  | dataInColumn (value : Bool)

/-- A pattern whose matches take a role if all conditions hold. -/
structure Rule where
  /-- What the element has to match. -/
  pattern : Selector
  /-- What else has to hold of it. -/
  conditions : List Condition

/-- What gives elements one role. -/
structure RoleEntry where
  /-- The role. -/
  role : Role
  /-- A pattern whose matches always take the role. -/
  certain? : Option Selector
  /-- Further ways to take it. -/
  rules : List Rule

namespace RoleEntry

/-- All patterns of an entry. -/
def patterns (entry : RoleEntry) : List Selector :=
  entry.certain?.toList ++ entry.rules.map Rule.pattern

/-- The tags that the patterns of an entry name. -/
def tags (entry : RoleEntry) : List String := entry.patterns.flatMap Selector.subjectTags

end RoleEntry

/-! ## Patterns -/

namespace RolePattern

/-- A compound that asks for a tag and further tests. -/
def tagged (tag : String) (tests : List Simple) : Chain := .only (.type tag :: tests)

/-- The elements with one of these tags. -/
def anyTag (names : List String) : Selector := ⟨names.map fun name => tagged name []⟩

/-- An `input` of a type. -/
def inputOfType (type : String) : Chain := tagged "input" [.hasValue "type" .equals type]

/-- An element that takes a role by its `role` attribute. -/
def withRole (name : String) : Chain := .only [.hasValue "role" .equals name]

/-- The sections of a page in which a header or footer does not belong to the page. -/
def landmarkScopes : Selector :=
  ⟨(["article", "aside", "main", "nav", "section"].map fun name => tagged name []) ++
    ["article", "complementary", "main", "navigation", "region"].map withRole⟩

/-- An `input` without a list of suggestions. -/
def plainInput : Selector := ⟨[tagged "input" [.not [.hasAttribute "list"]]]⟩

/-- A `select` with a `size`. -/
def sizedSelect : Selector := ⟨[tagged "select" [.hasAttribute "size"]]⟩

end RolePattern

open RolePattern

/-- The types of `input` that make a text box. -/
def textboxTypes : List String := ["email", "tel", "text", "url"]

/-- The types of `input` that make a combo box when the input has a list. -/
def comboboxTypes : List String := ["email", "search", "tel", "text", "url"]

/-- A role with nothing but an exact pattern. -/
def RoleEntry.exactly (role : Role) (pattern : Selector) : RoleEntry := ⟨role, some pattern, []⟩

/-- The condition of a cell in a table of this role. -/
def inTable (role : Role) : Condition := .ancestorTagHasRole "table" role

/-- Header cells: one rule for each role that a table can have. -/
def headerRules (row : Bool) (column : List Condition) : List Rule :=
  [Role.table, Role.grid, Role.treeGrid].map fun role =>
    ⟨anyTag ["th"], [inTable role, .dataInRow row] ++ column⟩

/-! ## The table -/

/-- The roles that HTML gives, in the order in which they are tried. -/
def roleTable : List RoleEntry :=
  [ .exactly .article (anyTag ["article"]),
    ⟨.banner, none, [⟨anyTag ["header"], [.notWithin landmarkScopes]⟩]⟩,
    .exactly .button
      ⟨[tagged "button" [], inputOfType "button", inputOfType "image", inputOfType "reset",
        inputOfType "submit", tagged "summary" []]⟩,
    ⟨.cell, none,
      [⟨anyTag ["td"], [inTable .table]⟩,
        ⟨anyTag ["th"], [inTable .table, .dataInRow true, .dataInColumn true]⟩]⟩,
    .exactly .checkbox ⟨[inputOfType "checkbox"]⟩,
    ⟨.columnHeader, none, headerRules false []⟩,
    ⟨.combobox,
      some ⟨[tagged "select" [.not [.hasAttribute "multiple"], .not [.hasAttribute "size"]]]⟩,
      [⟨sizedSelect, [.flag .multiple false, .attributeBelow "size" 2.0]⟩,
        ⟨⟨[tagged "input" [.hasAttribute "list"]]⟩, [.typeAmong comboboxTypes]⟩]⟩,
    .exactly .complementary (anyTag ["aside"]),
    ⟨.contentInfo, none, [⟨anyTag ["footer"], [.notWithin landmarkScopes]⟩]⟩,
    .exactly .definition (anyTag ["dd"]),
    .exactly .dialog (anyTag ["dialog"]),
    .exactly .document (anyTag ["body"]),
    .exactly .figure (anyTag ["figure"]),
    ⟨.form, none, [⟨anyTag ["form"], [.labelled]⟩]⟩,
    ⟨.gridCell, none, [⟨anyTag ["td"], [inTable .grid]⟩, ⟨anyTag ["td"], [inTable .treeGrid]⟩]⟩,
    .exactly .group (anyTag ["details", "fieldset", "optgroup"]),
    .exactly .heading (anyTag ["h1", "h2", "h3", "h4", "h5", "h6"]),
    .exactly .img
      ⟨[tagged "img" [.hasAttribute "alt", .not [.hasValue "alt" .equals ""]],
        tagged "img" [.not [.hasAttribute "alt"]]]⟩,
    .exactly .link ⟨[tagged "a" [.hasAttribute "href"], tagged "area" [.hasAttribute "href"]]⟩,
    .exactly .list (anyTag ["menu", "ol", "ul"]),
    ⟨.listbox, some ⟨[tagged "datalist" [], tagged "select" [.hasAttribute "multiple"]]⟩,
      [⟨sizedSelect, [.attributeAbove "size" 1.0]⟩]⟩,
    .exactly .listItem (anyTag ["li"]),
    .exactly .main (anyTag ["main"]),
    .exactly .math (anyTag ["math"]),
    .exactly .navigation (anyTag ["nav"]),
    .exactly .option
      ⟨[.combined (tagged "select" []) .child [.type "option"],
        .combined (.combined (tagged "select" []) .child [.type "optgroup"]) .child
          [.type "option"],
        .combined (tagged "datalist" []) .child [.type "option"]]⟩,
    .exactly .progressBar (anyTag ["progress"]),
    .exactly .radio ⟨[inputOfType "radio"]⟩,
    ⟨.region, none, [⟨anyTag ["section"], [.labelled]⟩]⟩,
    .exactly .row (anyTag ["tr"]),
    .exactly .rowGroup (anyTag ["tbody", "tfoot", "thead"]),
    ⟨.rowHeader, none, headerRules true [.dataInColumn false]⟩,
    ⟨.searchbox, none, [⟨plainInput, [.typeAmong ["search"]]⟩]⟩,
    .exactly .separator (anyTag ["hr"]),
    .exactly .slider ⟨[inputOfType "range"]⟩,
    .exactly .spinButton ⟨[inputOfType "number"]⟩,
    .exactly .status (anyTag ["output"]),
    .exactly .table (anyTag ["table"]),
    .exactly .term (anyTag ["dfn", "dt"]),
    ⟨.textbox, some (anyTag ["textarea"]), [⟨plainInput, [.typeAmong textboxTypes]⟩]⟩ ]

/-- The entries by role, for every role. -/
def roleEntries : Array (Option RoleEntry) :=
  (Role.all.map fun role => roleTable.find? fun entry => entry.role == role).toArray

/-- The entry of a role, if HTML gives the role to anything. -/
def roleEntryOf? (role : Role) : Option RoleEntry := roleEntries[role.ctorIdx]?.join

/-- The entry of a role is the one that the table lists under it. -/
theorem roleEntryOf?_eq (role : Role) :
    roleEntryOf? role = roleTable.find? fun entry => entry.role == role := by
  cases role <;> rfl

/-- The tags of every entry, worked out once. -/
def tagIndex : List (Role × List String) := roleTable.map fun entry => (entry.role, entry.tags)

/-- The tags by role, for every role. -/
def roleTags : Array (List String) :=
  (Role.all.map fun role => (tagIndex.lookup role).getD []).toArray

/-- The roles that an element with this tag may take, in the order of the table. -/
def rolesForTag (tag : String) : List Role :=
  (tagIndex.filter fun entry => entry.2.contains tag).map (·.1)

/-- The index holds exactly the roles whose patterns name a tag. -/
theorem mem_rolesForTag {tag : String} {role : Role} :
    role ∈ rolesForTag tag ↔ ∃ entry ∈ roleTable, entry.role = role ∧ tag ∈ entry.tags := by
  simp only [rolesForTag, tagIndex, List.mem_map, List.mem_filter, List.contains_eq_mem,
    decide_eq_true_eq]
  constructor
  · rintro ⟨_, ⟨⟨entry, hEntry, rfl⟩, hTag⟩, rfl⟩
    exact ⟨entry, hEntry, rfl, hTag⟩
  · rintro ⟨entry, hEntry, rfl, hTag⟩
    exact ⟨_, ⟨⟨entry, hEntry, rfl⟩, hTag⟩, rfl⟩

/-- Whether a pattern of a role names a tag, which saves looking at the patterns of other roles. -/
def mayTake (tag : String) (role : Role) : Bool := (roleTags[role.ctorIdx]?.getD []).contains tag

private theorem lookup_of_mem {entries : List (Role × List String)} {role : Role}
    {tags : List String} (hDistinct : (entries.map (·.1)).Nodup) (h : (role, tags) ∈ entries) :
    entries.lookup role = some tags := by
  induction entries with
  | nil => simp at h
  | cons entry entries ih =>
    rw [List.map_cons, List.nodup_cons] at hDistinct
    rcases List.mem_cons.mp h with rfl | h
    · simp
    · have hne : role ≠ entry.1 := fun heq =>
        hDistinct.1 (heq ▸ List.mem_map_of_mem (f := (·.1)) h)
      rw [List.lookup_cons, beq_false_of_ne hne]
      exact ih hDistinct.2 h

theorem mayTake_iff {tag : String} {role : Role} :
    mayTake tag role = true ↔ role ∈ rolesForTag tag := by
  have hTags : roleTags[role.ctorIdx]?.getD [] = (tagIndex.lookup role).getD [] := by
    cases role <;> rfl
  have hDistinct : (tagIndex.map (·.1)).Nodup := by decide
  simp only [mayTake, hTags, List.contains_eq_mem, decide_eq_true_eq, rolesForTag, List.mem_map,
    List.mem_filter]
  constructor
  · intro h
    cases hLookup : tagIndex.lookup role with
    | none => simp [hLookup] at h
    | some tags =>
      obtain ⟨before, behind, hSplit, -⟩ := List.lookup_eq_some_iff.mp hLookup
      refine ⟨(role, tags), ⟨by simp [hSplit], ?_⟩, rfl⟩
      simpa [hLookup] using h
  · rintro ⟨⟨_, tags⟩, ⟨hMem, hTag⟩, rfl⟩
    rwa [lookup_of_mem hDistinct hMem, Option.getD_some]

/-- Every pattern of the table names a tag, so that the index misses none of its matches. -/
theorem patterns_name_tags :
    ∀ entry ∈ roleTable, ∀ pattern ∈ entry.patterns, ∀ member ∈ pattern.members,
      (Compound.tag? member.subject).isSome := by
  decide

/-- The elements whose descendants have no semantics because of their own tag and attributes: the
exact patterns of the roles with presentational children. -/
def presentationalParents : Selector :=
  ⟨Role.withPresentationalChildren.flatMap fun role =>
    (((roleEntryOf? role).bind RoleEntry.certain?).map Selector.members).getD []⟩

/-- The tags that these patterns name, each once. -/
def presentationalTags : List String := presentationalParents.subjectTags.eraseDups

theorem presentationalParents_name_tags :
    ∀ member ∈ presentationalParents.members, (Compound.tag? member.subject).isSome := by
  decide

end AriaLocator

import AriaLocator.Css.Query
import AriaLocator.Document.Order
import AriaLocator.Lookup.Options
import AriaLocator.Role.Table
import AriaLocator.Style
import AriaLocator.Table.Layout
import AriaLocator.Text.Decimal

/-!
# The role of an element

A non-empty `role` attribute settles the role of an element: a known name gives that role, any
other name gives none. Without one, the element takes the first role of the role table that it fits.
Some conditions of the table ask for the role of an ancestor; the recursion ends because ancestors
have smaller numbers.

## Main results

* `role?_eq`: the role of an element in terms of the roles of its ancestors.
* `fits_iff`: the ways in which an element fits an entry of the role table.
* `hasRole_of_explicit`: with a `role` attribute, an element has the role that it names.
* `hasRole_of_implicit`: without one, the entry of a role decides, and the index leaves nothing out.
-/

namespace AriaLocator

namespace Document

/-- The `role` attribute of an element, unless it is empty. -/
def explicitRole? (d : Document) (e : Element) : Option String :=
  (d.attribute? e "role").filter (· != "")

/-- Whether a condition holds of an element, given the roles of the elements before it. -/
def holdsGiven (d : Document) (e : Element) (roleOf : (a : Element) → a < e → Option Role) :
    Condition → Bool
  | .attributeAbove name bound =>
    match d.attribute? e name with
    | none => false
    | some value => Text.number value > bound
  | .attributeBelow name bound =>
    match d.attribute? e name with
    | none => false
    | some value => Text.number value < bound
  | .labelled =>
    d.hasAttribute e "aria-label" ||
      match d.attribute? e "aria-labelledby" with
      | none => false
      | some ids => (Text.asciiWords ids).any fun id => (d.elementById? id).isSome
  | .notWithin pattern => (d.closest? pattern e).isNone
  | .flag flag value => d.flag e flag == value
  | .typeAmong types =>
    match d.controlType? e with
    | none => false
    | some type => types.contains type
  | .ancestorTagHasRole tag role =>
    match h : (d.ancestors e).find? (fun a => d.tag a == tag) with
    | none => false
    | some a => roleOf a (ancestors_lt (List.mem_of_find?_eq_some h)) == some role
  | .dataInRow value =>
    match d.closestTag? e "table" with
    | none => false
    | some table => d.hasDataInRow table e == value
  | .dataInColumn value =>
    match d.closestTag? e "table" with
    | none => false
    | some table => d.hasDataInColumn table e == value

/-- Whether an element fits an entry of the role table, given the roles of the elements before it. -/
def fitsGiven (d : Document) (e : Element) (roleOf : (a : Element) → a < e → Option Role)
    (entry : RoleEntry) : Bool :=
  entry.certain?.any (d.matchesSelector · e) ||
    entry.rules.any fun rule =>
      d.matchesSelector rule.pattern e && rule.conditions.all (d.holdsGiven e roleOf)

/-- The role of an element. -/
def role? (d : Document) (e : Element) : Option Role :=
  match d.explicitRole? e with
  | some name => if Role.ignoredNames.contains name then none else Role.ofName? name
  | none =>
    (rolesForTag (d.tag e)).find? fun role =>
      (roleEntryOf? role).any (d.fitsGiven e fun a (_ : a < e) => d.role? a)
termination_by e

/-- Whether a condition holds of an element. -/
def holds (d : Document) (e : Element) (condition : Condition) : Bool :=
  d.holdsGiven e (fun a _ => d.role? a) condition

/-- Whether an element fits an entry of the role table. -/
def fits (d : Document) (e : Element) (entry : RoleEntry) : Bool :=
  d.fitsGiven e (fun a _ => d.role? a) entry

/-- Whether an element fits the entry of a role. -/
def fitsRole (d : Document) (e : Element) (role : Role) : Bool := (roleEntryOf? role).any (d.fits e)

theorem role?_eq (d : Document) (e : Element) :
    d.role? e =
      match d.explicitRole? e with
      | some name => if Role.ignoredNames.contains name then none else Role.ofName? name
      | none => (rolesForTag (d.tag e)).find? (d.fitsRole e) := by
  rw [role?]; rfl

/-- A role is fitted through its entry in the table. -/
theorem exists_entry_of_fitsRole {d : Document} {e : Element} {role : Role}
    (h : d.fitsRole e role = true) :
    ∃ entry ∈ roleTable, entry.role = role ∧ d.fits e entry = true := by
  unfold fitsRole at h
  cases hEntry : roleEntryOf? role with
  | none => simp [hEntry] at h
  | some entry =>
      have hFound := roleEntryOf?_eq role ▸ hEntry
      refine ⟨entry, List.mem_of_find?_eq_some hFound, ?_, by simpa [hEntry] using h⟩
      simpa using List.find?_some hFound

/-- An element fits an entry through the exact pattern, or through a rule whose conditions hold. -/
theorem fits_iff {d : Document} {e : Element} {entry : RoleEntry} :
    d.fits e entry = true ↔
      (∃ pattern, entry.certain? = some pattern ∧ d.matchesSelector pattern e = true) ∨
        ∃ rule ∈ entry.rules, d.matchesSelector rule.pattern e = true ∧
          ∀ condition ∈ rule.conditions, d.holds e condition = true := by
  show (entry.certain?.any (d.matchesSelector · e) || entry.rules.any fun rule =>
    d.matchesSelector rule.pattern e && rule.conditions.all (d.holds e)) = true ↔ _
  simp only [Bool.or_eq_true, Option.any_eq_true, List.any_eq_true, Bool.and_eq_true,
    List.all_eq_true]

/-- What fits an entry matches one of its patterns. -/
theorem exists_pattern_of_fits {d : Document} {e : Element} {entry : RoleEntry}
    (h : d.fits e entry = true) :
    ∃ pattern ∈ entry.patterns, d.matchesSelector pattern e = true := by
  rcases fits_iff.mp h with ⟨pattern, hCertain, hMatch⟩ | ⟨rule, hRule, hMatch, -⟩
  · exact ⟨pattern, List.mem_append_left _ (Option.mem_toList.mpr hCertain), hMatch⟩
  · exact ⟨rule.pattern, List.mem_append_right _ (List.mem_map_of_mem hRule), hMatch⟩

/-- What fits an entry has a tag that the entry names. -/
theorem tag_mem_tags_of_fits {d : Document} {e : Element} {entry : RoleEntry}
    (hEntry : entry ∈ roleTable) (h : d.fits e entry = true) : d.tag e ∈ entry.tags := by
  obtain ⟨pattern, hPattern, hMatch⟩ := exists_pattern_of_fits h
  have hTag : d.tag e ∈ pattern.subjectTags :=
    tag_mem_subjectTags (patterns_name_tags entry hEntry pattern hPattern) hMatch
  exact List.mem_flatMap.mpr ⟨pattern, hPattern, hTag⟩

/-- The index is complete: an element fits only roles that are listed under its tag. -/
theorem mem_rolesForTag_of_fitsRole {d : Document} {e : Element} {role : Role}
    (h : d.fitsRole e role = true) : role ∈ rolesForTag (d.tag e) := by
  obtain ⟨entry, hEntry, hRole, hFits⟩ := exists_entry_of_fitsRole h
  exact mem_rolesForTag.mpr ⟨entry, hEntry, hRole, tag_mem_tags_of_fits hEntry hFits⟩

/-- Whether an element has a role, whether or not it would take another one first. -/
def hasRole (d : Document) (e : Element) (role : Role) : Bool :=
  match d.explicitRole? e with
  | some name => name == role.name
  | none => mayTake (d.tag e) role && d.fitsRole e role

theorem hasRole_of_explicit {d : Document} {e : Element} {name : String}
    (h : d.explicitRole? e = some name) (role : Role) :
    d.hasRole e role = true ↔ name = role.name := by
  simp [hasRole, h]

/-- Without a `role` attribute the entry of the role alone decides. -/
theorem hasRole_of_implicit {d : Document} {e : Element} (h : d.explicitRole? e = none)
    (role : Role) : d.hasRole e role = d.fitsRole e role := by
  simp only [hasRole, h]
  cases hFits : d.fitsRole e role with
  | false => rw [Bool.and_false]
  | true => rw [mayTake_iff.mpr (mem_rolesForTag_of_fitsRole hFits), Bool.true_and]

/-! ## Presentational children -/

/-- Whether the descendants of an element have no semantics, by its attribute or its pattern. -/
def hasPresentationalChildren (d : Document) (e : Element) : Bool :=
  match d.explicitRole? e with
  | some name => (Role.ofName? name).any Role.hasPresentationalChildren
  | none => presentationalTags.contains (d.tag e) && d.matchesSelector presentationalParents e

/-- Without a `role` attribute the patterns alone decide. -/
theorem hasPresentationalChildren_of_implicit {d : Document} {e : Element}
    (h : d.explicitRole? e = none) :
    d.hasPresentationalChildren e = d.matchesSelector presentationalParents e := by
  simp only [hasPresentationalChildren, h]
  cases hMatch : d.matchesSelector presentationalParents e with
  | false => simp
  | true =>
    simpa [presentationalTags, List.mem_eraseDups] using
      tag_mem_subjectTags presentationalParents_name_tags hMatch

/-- The nearest ancestor whose descendants have no semantics. -/
def presentationalAncestor? (d : Document) (e : Element) : Option Element :=
  (d.ancestors e).find? d.hasPresentationalChildren

/-! ## Elements by role -/

/-- Whether a search with these options takes an element in. -/
def isWithinReach (d : Document) (options : SearchOptions) (e : Element) : Bool :=
  (options.includeHidden || !d.isHidden e) &&
    (options.includePresentational || (d.presentationalAncestor? e).isNone)

/-- The elements below `root` with a role that a search takes in, in document order. -/
def findByRole (d : Document) (role : Role) (root : Element) (options : SearchOptions) :
    List Element :=
  (d.descendants root).filter fun e => d.hasRole e role && d.isWithinReach options e

/-- The nearest member of an element's lineage with a role, by its attribute or the exact pattern of
the role. Conditions of the role are not looked at. -/
def closestWithRole? (d : Document) (e : Element) (role : Role) : Option Element :=
  let certain? := (roleEntryOf? role).bind RoleEntry.certain?
  (d.lineage e).find? fun a =>
    match d.explicitRole? a with
    | some name => name == role.name
    | none => certain?.any (d.matchesSelector · a)

/-- The elements of a set: those below `owner` with one of the roles that have no nearer ancestor
with the role of the owner. -/
def membersOf (d : Document) (owner : Element) (ownerRole : Role) (roles : List Role) :
    List Element :=
  d.sorted <| (roles.flatMap fun role => d.findByRole role owner {}).filter fun e =>
    ((d.parent? e).bind fun p => d.closestWithRole? p ownerRole) == some owner

/-- The position of an element, from one, in the set that its nearest ancestor with `ownerRole` owns
among elements with these roles. -/
def positionWithin? (d : Document) (e : Element) (ownerRole : Role) (roles : List Role) :
    Option Nat :=
  ((d.parent? e).bind fun p => d.closestWithRole? p ownerRole).bind fun owner =>
    ((d.membersOf owner ownerRole roles).idxOf? e).map (· + 1)

end Document

end AriaLocator

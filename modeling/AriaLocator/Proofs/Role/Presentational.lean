import AriaLocator.Proofs.Document.Outermost
import AriaLocator.Role.Resolve

/-!
# Two ways to see that children are presentational

Whether the descendants of an element have no semantics is asked in two places.  A search looks for
an ancestor whose own tag and attributes match an exact pattern of such a role.  The generator
works out the role of the ancestor and asks the role.  The two agree, though neither way is the
other: the element takes the first role of the table that it fits, and one of its other roles may
have an exact pattern too.

They agree because of how the table is made.  Roles with presentational children have exact
patterns only.  Of the tags that these patterns name, all but `input` belong to such roles alone,
and an `input` whose type makes it one of them fits no role that asks for another type.

## Main results

* `fitsRole_of_isUnconditional`: its exact pattern is the only way to fit a role without conditions.
* `hasPresentationalChildren_iff_role`: the two ways agree on every element.
* `role_isSome_of_hasRole`: an element that has some role takes one.
-/

namespace AriaLocator

open Css

/-! ## Keywords -/

theorem isBlank_toLower {c : Char} (h : Text.isBlank c = true) : Text.isBlank c.toLower = true := by
  have hCapital : ¬ (c.val ≥ 'A'.val ∧ c.val ≤ 'Z'.val) := by
    rintro ⟨hLow, hHigh⟩
    have hLow : 65 ≤ c.toNat := hLow
    have hHigh : c.toNat ≤ 90 := hHigh
    simp only [Text.isBlank, Bool.or_eq_true, beq_iff_eq, Bool.and_eq_true,
      decide_eq_true_eq] at h
    omega
  have hSame : c.toLower = c := by
    unfold Char.toLower
    rw [dif_neg hCapital]
  rw [hSame]
  exact h

/-- A value without blanks is trimmed already. -/
theorem trim_of_no_blank {s : String} (h : ∀ c ∈ s.toList, Text.isBlank c = false) :
    Text.trim s = s := by
  have hDrop (cs : List Char) (hNone : ∀ c ∈ cs, Text.isBlank c = false) :
      cs.dropWhile Text.isBlank = cs := by
    cases cs with
    | nil => rfl
    | cons c cs => rw [List.dropWhile_cons, hNone c List.mem_cons_self, if_neg Bool.false_ne_true]
  have hReverse : ∀ c ∈ s.toList.reverse, Text.isBlank c = false := fun c hc =>
    h c (List.mem_reverse.mp hc)
  rw [Text.trim, Text.trimChars, hDrop _ h, Text.dropEndWhile, hDrop _ hReverse,
    List.reverse_reverse, String.ofList_toList]

/-- Trimming makes no difference to a value that is a keyword but for the case of its letters. -/
theorem lower_trim_of_lower {value keyword : String} (h : Text.lower value = keyword)
    (hNone : ∀ c ∈ keyword.toList, Text.isBlank c = false) :
    Text.lower (Text.trim value) = keyword := by
  have hValue : ∀ c ∈ value.toList, Text.isBlank c = false := by
    intro c hc
    cases hBlank : Text.isBlank c with
    | false => rfl
    | true =>
        have hMem : c.toLower ∈ keyword.toList := by
          rw [← h, Text.lower, String.toList_ofList]
          exact List.mem_map_of_mem hc
        have hLower := isBlank_toLower hBlank
        rw [hNone _ hMem] at hLower
        exact absurd hLower Bool.false_ne_true
  rw [trim_of_no_blank hValue, h]

/-! ## The table -/

/-- The types of `input` that make a role with presentational children. -/
def presentationalTypes : List String :=
  ["button", "checkbox", "image", "radio", "range", "reset", "submit"]

/-- Whether no rule with conditions gives the role: the table has an exact pattern for it alone, or
does not list it. -/
def Role.isUnconditional (role : Role) : Bool :=
  (roleEntryOf? role).all fun entry => entry.rules.isEmpty

theorem isUnconditional_of_presentational {role : Role}
    (h : role.hasPresentationalChildren = true) : role.isUnconditional = true := by
  have hAll : ∀ role ∈ Role.withPresentationalChildren, role.isUnconditional = true := by decide
  exact hAll role (by simpa [Role.hasPresentationalChildren] using h)

/-- All tags of these patterns but one belong to roles with presentational children alone. -/
theorem presentational_of_rolesForTag {tag : String} (hTag : tag ∈ presentationalTags)
    (hInput : tag ≠ "input") {role : Role} (hRole : role ∈ rolesForTag tag) :
    role.hasPresentationalChildren = true := by
  have hAll : ∀ tag ∈ presentationalTags, tag ≠ "input" →
      ∀ role ∈ rolesForTag tag, role.hasPresentationalChildren = true := by decide
  exact hAll tag hTag hInput role hRole

theorem mem_presentationalParents {role : Role} (hRole : role ∈ Role.withPresentationalChildren)
    {entry : RoleEntry} (hEntry : roleEntryOf? role = some entry) {pattern : Selector}
    (hCertain : entry.certain? = some pattern) {member : Chain} (h : member ∈ pattern.members) :
    member ∈ presentationalParents.members := by
  refine List.mem_flatMap.mpr ⟨role, hRole, ?_⟩
  rw [hEntry, Option.bind_some, hCertain]
  exact h

namespace Document

variable {d : Document} {e : Element}

/-- The exact pattern is the only way to fit a role without conditions. -/
theorem fitsRole_of_isUnconditional {role : Role} (h : role.isUnconditional = true) :
    d.fitsRole e role =
      ((roleEntryOf? role).bind RoleEntry.certain?).any (d.matchesSelector · e) := by
  unfold Role.isUnconditional at h
  unfold fitsRole
  cases hEntry : roleEntryOf? role with
  | none => rfl
  | some entry =>
      rw [hEntry, Option.all_some, List.isEmpty_iff] at h
      rw [Option.any_some, Option.bind_some, fits, fitsGiven, h, List.any_nil, Bool.or_false]

/-- An exact pattern of a role with presentational children. -/
theorem exists_pattern_of_presentational
    (h : d.matchesSelector presentationalParents e = true) :
    ∃ role ∈ Role.withPresentationalChildren, ∃ entry pattern,
      roleEntryOf? role = some entry ∧ entry.certain? = some pattern ∧
        d.matchesSelector pattern e = true := by
  obtain ⟨member, hMember, hFits⟩ := matchesSelector_iff.mp h
  obtain ⟨role, hRole, hMember⟩ := List.mem_flatMap.mp hMember
  cases hPattern : (roleEntryOf? role).bind RoleEntry.certain? with
  | none => simp [hPattern] at hMember
  | some pattern =>
      obtain ⟨entry, hEntry, hCertain⟩ := Option.bind_eq_some_iff.mp hPattern
      rw [hPattern] at hMember
      exact ⟨role, hRole, entry, pattern, hEntry, hCertain,
        matchesSelector_iff.mpr ⟨member, hMember, hFits⟩⟩

theorem matches_of_pattern {role : Role} (hRole : role ∈ Role.withPresentationalChildren)
    {entry : RoleEntry} (hEntry : roleEntryOf? role = some entry) {pattern : Selector}
    (hCertain : entry.certain? = some pattern) (h : d.matchesSelector pattern e = true) :
    d.matchesSelector presentationalParents e = true := by
  obtain ⟨member, hMember, hFits⟩ := matchesSelector_iff.mp h
  have hParent := mem_presentationalParents hRole hEntry hCertain hMember
  exact matchesSelector_iff.mpr ⟨member, hParent, hFits⟩

/-! ## Inputs -/

/-- The type that a pattern for one type of `input` asks for. -/
def typeOfPattern? : Chain → Option String
  | .only [.type "input", .hasValue "type" .equals type] => some type
  | _ => none

/-- Of these patterns, those for an `input` ask for its type and nothing else. -/
theorem typeOfPattern_presentational :
    ∀ member ∈ presentationalParents.members, Compound.tag? member.subject = some "input" →
      (typeOfPattern? member).any presentationalTypes.contains = true := by
  decide

/-- An element that fits such a pattern is an `input` with the type as its attribute. -/
theorem attribute_of_fits_typeOfPattern {member : Chain} {type : String}
    (h : typeOfPattern? member = some type) (hFits : d.Fits member e) :
    d.tag e = "input" ∧
      ∃ value, d.attribute? e "type" = some value ∧ Text.lower value = Text.lower type := by
  unfold typeOfPattern? at h
  split at h
  · obtain rfl := Option.some.inj h
    have hPasses := fits_only.mp hFits
    simp only [passesAll, passes, Bool.and_true, Bool.and_eq_true, beq_iff_eq] at hPasses
    cases hValue : d.attribute? e "type" with
    | none => simp [hValue] at hPasses
    | some value =>
        have hHolds := hPasses.2
        rw [hValue] at hHolds
        have hFolded : foldedAttributes.contains "type" = true := by simp [foldedAttributes]
        simp only [attributeHolds, hFolded, if_true, Operator.holds, beq_iff_eq] at hHolds
        exact ⟨hPasses.1, value, rfl, hHolds⟩
  · simp at h

/-- The known types are in small letters and hold no blanks. -/
theorem lower_of_inputTypes {type : String} (h : type ∈ inputTypes) :
    Text.lower type = type ∧ ∀ c ∈ type.toList, Text.isBlank c = false := by
  have hTypes : ∀ type ∈ inputTypes, Text.lower type = type ∧
      (type.toList.all fun c => !Text.isBlank c) = true := by decide
  obtain ⟨hSmall, hFilled⟩ := hTypes type h
  refine ⟨hSmall, ?_⟩
  intro c hc
  simpa using List.all_eq_true.mp hFilled c hc

/-- An element that fits a pattern for a known type is a control of this type. -/
theorem controlType_of_fits_typeOfPattern {member : Chain} {type : String}
    (h : typeOfPattern? member = some type) (hKnown : type ∈ inputTypes)
    (hFits : d.Fits member e) : d.controlType? e = some type := by
  obtain ⟨hTag, value, hValue, hLower⟩ := attribute_of_fits_typeOfPattern h hFits
  obtain ⟨hSmall, hFilled⟩ := lower_of_inputTypes hKnown
  rw [hSmall] at hLower
  have hKeyword : d.keyword? e "type" = some type := by
    rw [keyword?, hValue, Option.map_some, lower_trim_of_lower hLower hFilled]
  have hContains : inputTypes.contains type = true := by simpa using hKnown
  rw [controlType?, hTag]
  simp only [hKeyword]
  rw [Option.filter_some, if_pos hContains, Option.getD_some]

/-- An `input` that one of these patterns matches is a control of one of their types. -/
theorem type_of_presentational_input (hTag : d.tag e = "input")
    (h : d.matchesSelector presentationalParents e = true) :
    ∃ type ∈ presentationalTypes, d.controlType? e = some type ∧
      ∃ value, d.attribute? e "type" = some value ∧ Text.lower value = type := by
  obtain ⟨member, hMember, hFits⟩ := matchesSelector_iff.mp h
  obtain ⟨name, hName⟩ := Option.isSome_iff_exists.mp
    (presentationalParents_name_tags member hMember)
  obtain rfl : name = "input" := (tag_of_fits hFits hName).symm.trans hTag
  have hAny := typeOfPattern_presentational member hMember hName
  cases hType : typeOfPattern? member with
  | none => simp [hType] at hAny
  | some type =>
      have hMem : type ∈ presentationalTypes := by simpa [hType] using hAny
      have hKnown : type ∈ inputTypes := by
        have hAll : presentationalTypes ⊆ inputTypes := by simp [presentationalTypes, inputTypes]
        exact hAll hMem
      obtain ⟨-, value, hValue, hLower⟩ := attribute_of_fits_typeOfPattern hType hFits
      rw [(lower_of_inputTypes hKnown).1] at hLower
      exact ⟨type, hMem, controlType_of_fits_typeOfPattern hType hKnown hFits, value, hValue,
        hLower⟩

/-- Whether a pattern matches no `input` of such a type: it names another tag or another type. -/
def passesOver (member : Chain) : Bool :=
  match typeOfPattern? member with
  | some type => Text.lower type == type && !presentationalTypes.contains type
  | none => (Compound.tag? member.subject).any (· != "input")

/-- Whether a condition fails for every control of such a type. -/
def asksForOtherType : Condition → Bool
  | .typeAmong types => types.all fun type => !presentationalTypes.contains type
  | _ => false

/-- Whether the exact pattern and the rules of an entry leave out every `input` of such a type. -/
def leavesOut (entry : RoleEntry) : Bool :=
  entry.certain?.all (fun pattern => pattern.members.all passesOver) &&
    entry.rules.all fun rule =>
      rule.pattern.members.all passesOver || rule.conditions.any asksForOtherType

/-- The roles that an `input` may take have presentational children, or leave out such types. -/
theorem leavesOut_input :
    ∀ role ∈ rolesForTag "input", role.hasPresentationalChildren = true ∨
      (roleEntryOf? role).all leavesOut = true := by
  decide

section Input

variable {type value : String}

theorem matchesSelector_of_passesOver (hTag : d.tag e = "input")
    (hType : type ∈ presentationalTypes) (hValue : d.attribute? e "type" = some value)
    (hLower : Text.lower value = type) {pattern : Selector}
    (h : pattern.members.all passesOver = true) : d.matchesSelector pattern e = false := by
  cases hMatch : d.matchesSelector pattern e with
  | false => rfl
  | true =>
      obtain ⟨member, hMember, hFits⟩ := matchesSelector_iff.mp hMatch
      have hOver := List.all_eq_true.mp h member hMember
      unfold passesOver at hOver
      cases hPattern : typeOfPattern? member with
      | some other =>
          obtain ⟨-, value', hValue', hLower'⟩ := attribute_of_fits_typeOfPattern hPattern hFits
          rw [hPattern, Bool.and_eq_true, beq_iff_eq, Bool.not_eq_true'] at hOver
          obtain rfl := Option.some.inj (hValue.symm.trans hValue')
          have hSame : other = type := hOver.1.symm.trans (hLower'.symm.trans hLower)
          rw [hSame] at hOver
          simp [hType] at hOver
      | none =>
          rw [hPattern] at hOver
          cases hName : Compound.tag? member.subject with
          | none => simp [hName] at hOver
          | some name =>
              have hSame : name = "input" := (tag_of_fits hFits hName).symm.trans hTag
              simp [hName, hSame] at hOver

theorem not_holds_of_asksForOtherType (hType : type ∈ presentationalTypes)
    (hControl : d.controlType? e = some type) {condition : Condition}
    (h : asksForOtherType condition = true) : d.holds e condition = false := by
  unfold asksForOtherType at h
  split at h
  · next types =>
    have hNone := List.all_eq_true.mp h type
    simp only [holds, holdsGiven, hControl]
    cases hMem : types.contains type with
    | false => rfl
    | true =>
        have hOther := hNone (by simpa using hMem)
        simp [hType] at hOther
  · simp at h

/-- An `input` of such a type fits no entry that leaves it out. -/
theorem not_fits_of_leavesOut (hTag : d.tag e = "input") (hType : type ∈ presentationalTypes)
    (hControl : d.controlType? e = some type) (hValue : d.attribute? e "type" = some value)
    (hLower : Text.lower value = type) {entry : RoleEntry} (h : leavesOut entry = true) :
    d.fits e entry = false := by
  obtain ⟨hCertain, hRules⟩ := Bool.and_eq_true_iff.mp h
  have hPattern (pattern : Selector) (hOver : pattern.members.all passesOver = true) :
      d.matchesSelector pattern e = false :=
    matchesSelector_of_passesOver hTag hType hValue hLower hOver
  have hNoPattern : entry.certain?.any (d.matchesSelector · e) = false := by
    cases hSome : entry.certain? with
    | none => rfl
    | some pattern =>
        rw [hSome] at hCertain
        exact hPattern pattern hCertain
  have hNoRule : (entry.rules.any fun rule =>
      d.matchesSelector rule.pattern e && rule.conditions.all (d.holds e)) = false := by
    refine List.any_eq_false.mpr ?_
    intro rule hRule
    rw [Bool.not_eq_true]
    rcases Bool.or_eq_true_iff.mp (List.all_eq_true.mp hRules rule hRule) with hOver | hOther
    · rw [hPattern rule.pattern hOver, Bool.false_and]
    · obtain ⟨condition, hCondition, hAsks⟩ := List.any_eq_true.mp hOther
      have hFails := not_holds_of_asksForOtherType hType hControl hAsks
      have hNotAll : rule.conditions.all (d.holds e) = false :=
        List.all_eq_false.mpr ⟨condition, hCondition, by simp [hFails]⟩
      rw [hNotAll, Bool.and_false]
  show (entry.certain?.any (d.matchesSelector · e) || entry.rules.any fun rule =>
    d.matchesSelector rule.pattern e && rule.conditions.all (d.holds e)) = false
  rw [hNoPattern, hNoRule, Bool.or_false]

end Input

/-! ## The two ways -/

/-- An element without a `role` attribute takes a role as soon as it fits one. -/
theorem exists_role_of_fits (hImplicit : d.explicitRole? e = none) {role : Role}
    (hTag : role ∈ rolesForTag (d.tag e)) (hFits : d.fitsRole e role = true) :
    ∃ taken, d.role? e = some taken ∧ taken ∈ rolesForTag (d.tag e) ∧
      d.fitsRole e taken = true := by
  have hRole : d.role? e = (rolesForTag (d.tag e)).find? (d.fitsRole e) := by
    rw [role?_eq, hImplicit]
  rw [hRole]
  cases hFind : (rolesForTag (d.tag e)).find? (d.fitsRole e) with
  | none => exact absurd hFits (List.find?_eq_none.mp hFind role hTag)
  | some taken => exact ⟨taken, rfl, List.mem_of_find?_eq_some hFind, List.find?_some hFind⟩

/-- No role has one of the names that take an element's role away. -/
theorem not_ignored_of_ofName {name : String} {role : Role} (h : Role.ofName? name = some role) :
    Role.ignoredNames.contains name = false := by
  have hAll : ∀ role ∈ Role.all, Role.ignoredNames.contains role.name = false := by decide
  rw [← Role.name_of_ofName? h]
  exact hAll role (Role.mem_all role)

/-- An element takes the role that its attribute names. -/
theorem role_of_explicit {role : Role} (h : d.explicitRole? e = some role.name) :
    d.role? e = some role := by
  have hOfName : Role.ofName? role.name = some role := Role.ofName?_name role
  rw [role?_eq, h]
  simp only
  rw [if_neg (by rw [not_ignored_of_ofName hOfName]; exact Bool.false_ne_true), hOfName]

/-- An element that has some role takes one. -/
theorem role_isSome_of_hasRole {role : Role} (h : d.hasRole e role = true) :
    (d.role? e).isSome = true := by
  cases hExplicit : d.explicitRole? e with
  | some name =>
      have hName : name = role.name := (hasRole_of_explicit hExplicit role).mp h
      rw [role_of_explicit (hName ▸ hExplicit)]
      rfl
  | none =>
      have hFits : d.fitsRole e role = true := hasRole_of_implicit hExplicit role ▸ h
      obtain ⟨taken, hTaken, -⟩ :=
        exists_role_of_fits hExplicit (mem_rolesForTag_of_fitsRole hFits) hFits
      rw [hTaken]
      rfl

/-- An element has the role that it takes. -/
theorem hasRole_of_role {role : Role} (h : d.role? e = some role) : d.hasRole e role = true := by
  rw [role?_eq] at h
  cases hExplicit : d.explicitRole? e with
  | some name =>
      rw [hExplicit] at h
      simp only at h
      split at h
      · cases h
      · exact (hasRole_of_explicit hExplicit role).mpr (Role.name_of_ofName? h).symm
  | none =>
      rw [hExplicit] at h
      rw [hasRole_of_implicit hExplicit]
      exact List.find?_some h

/-- Below an element that has a role with presentational children there are no semantics, whichever
role it takes. -/
theorem hasPresentationalChildren_of_hasRole {role : Role} (h : d.hasRole e role = true)
    (hChildren : role.hasPresentationalChildren = true) : d.hasPresentationalChildren e = true := by
  cases hExplicit : d.explicitRole? e with
  | some name =>
      have hName : name = role.name := (hasRole_of_explicit hExplicit role).mp h
      rw [hasPresentationalChildren, hExplicit]
      simp only
      rw [hName, Role.ofName?_name, Option.any_some, hChildren]
  | none =>
      have hFits : d.fitsRole e role = true := hasRole_of_implicit hExplicit role ▸ h
      rw [fitsRole_of_isUnconditional (isUnconditional_of_presentational hChildren),
        Option.any_eq_true] at hFits
      obtain ⟨pattern, hPattern, hMatch⟩ := hFits
      obtain ⟨entry, hEntry, hCertain⟩ := Option.bind_eq_some_iff.mp hPattern
      have hMem : role ∈ Role.withPresentationalChildren := by
        simpa [Role.hasPresentationalChildren] using hChildren
      rw [hasPresentationalChildren_of_implicit hExplicit]
      exact matches_of_pattern hMem hEntry hCertain hMatch

theorem hasPresentationalChildren_of_role {role : Role} (h : d.role? e = some role)
    (hChildren : role.hasPresentationalChildren = true) : d.hasPresentationalChildren e = true :=
  hasPresentationalChildren_of_hasRole (hasRole_of_role h) hChildren

/-- An element that one of the patterns matches fits the role of the pattern, and its tag allows
the role. -/
theorem exists_role_of_pattern (h : d.matchesSelector presentationalParents e = true) :
    ∃ role ∈ rolesForTag (d.tag e), d.fitsRole e role = true := by
  obtain ⟨role, -, entry, pattern, hEntry, hCertain, hMatch⟩ := exists_pattern_of_presentational h
  have hFits : d.fitsRole e role = true := by
    rw [fitsRole, hEntry, Option.any_some, fits, fitsGiven, hCertain, Option.any_some, hMatch,
      Bool.true_or]
  exact ⟨role, mem_rolesForTag_of_fitsRole hFits, hFits⟩

/-- Whatever role such an element fits besides has presentational children too. -/
theorem presentational_of_fits (h : d.matchesSelector presentationalParents e = true) {taken : Role}
    (hTag : taken ∈ rolesForTag (d.tag e)) (hFits : d.fitsRole e taken = true) :
    taken.hasPresentationalChildren = true := by
  by_cases hInput : d.tag e = "input"
  · rw [hInput] at hTag
    rcases leavesOut_input taken hTag with hChildren | hLeaves
    · exact hChildren
    · obtain ⟨type, hType, hControl, value, hValue, hLower⟩ := type_of_presentational_input hInput h
      unfold fitsRole at hFits
      cases hEntry : roleEntryOf? taken with
      | none => simp [hEntry] at hFits
      | some entry =>
          rw [hEntry] at hLeaves hFits
          have hNot := not_fits_of_leavesOut hInput hType hControl hValue hLower hLeaves
          rw [Option.any_some, hNot] at hFits
          exact absurd hFits Bool.false_ne_true
  · have hPresentational : d.tag e ∈ presentationalTags := by
      simpa [presentationalTags, List.mem_eraseDups] using
        tag_mem_subjectTags presentationalParents_name_tags h
    exact presentational_of_rolesForTag hPresentational hInput hTag

/-- An element below which there are no semantics takes a role with presentational children. -/
theorem role_of_hasPresentationalChildren (h : d.hasPresentationalChildren e = true) :
    ∃ role, d.role? e = some role ∧ role.hasPresentationalChildren = true := by
  cases hExplicit : d.explicitRole? e with
  | some name =>
      rw [hasPresentationalChildren, hExplicit] at h
      cases hName : Role.ofName? name with
      | none => simp [hName] at h
      | some role =>
          have hOwn : name = role.name := (Role.name_of_ofName? hName).symm
          exact ⟨role, role_of_explicit (hOwn ▸ hExplicit), by simpa [hName] using h⟩
  | none =>
      rw [hasPresentationalChildren_of_implicit hExplicit] at h
      obtain ⟨role, hTag, hFits⟩ := exists_role_of_pattern h
      obtain ⟨taken, hTaken, hTakenTag, hTakenFits⟩ := exists_role_of_fits hExplicit hTag hFits
      exact ⟨taken, hTaken, presentational_of_fits h hTakenTag hTakenFits⟩

/-- The two ways agree on every element. -/
theorem hasPresentationalChildren_iff_role :
    d.hasPresentationalChildren e = true ↔
      (d.role? e).any Role.hasPresentationalChildren = true := by
  constructor
  · intro h
    obtain ⟨role, hRole, hChildren⟩ := role_of_hasPresentationalChildren h
    rw [hRole, Option.any_some, hChildren]
  · intro h
    cases hRole : d.role? e with
    | none => simp [hRole] at h
    | some role =>
        rw [hRole, Option.any_some] at h
        exact hasPresentationalChildren_of_role hRole h

/-! ## Below presentational children -/

theorem not_presentational_above (h : d.presentationalAncestor? e = none) {a : Element}
    (ha : a ∈ d.ancestors e) : d.hasPresentationalChildren a = false :=
  Bool.not_eq_true _ ▸ List.find?_eq_none.mp h a ha

/-- So nothing above that has either. -/
theorem presentationalAncestor?_eq_none_above (h : d.presentationalAncestor? e = none)
    {a : Element} (ha : a ∈ d.ancestors e) : d.presentationalAncestor? a = none := by
  refine List.find?_eq_none.mpr fun b hb => ?_
  rw [Bool.not_eq_true]
  exact not_presentational_above h (ancestors_of_contains (contains_of_ancestors hb) ha)

end Document

end AriaLocator

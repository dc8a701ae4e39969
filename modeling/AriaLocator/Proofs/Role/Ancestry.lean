import AriaLocator.Proofs.Role.Overlap

/-!
# The nearest element with a role

Two searches go up from an element and look at the roles of what is around it.  Neither works a role
out in full.  The search for an element with a given role compares the `role` attribute, or else the
exact pattern of that role, and asks no index by tag and no condition.  The search for presentational
children compares the `role` attribute, or else the exact patterns of all such roles together, and
leaves open which of them it is.

Both find what a search by full roles finds.  For the first this holds of the roles that no rule with
conditions gives: the index is complete, so that passing it over loses nothing.  For the second it is
a fact about the whole table, and needs no condition.  What is found is told without the search: it is
an element around the given one that passes, and every other such element is around it.

## Main results

* `find?_eq_some_iff_isNearest`: a walk upwards ends at the nearest element that passes.
* `hasRole_iff_role`: of these roles, an element has the one that it takes and no other.
* `closestWithRole?_nearest`: for roles without conditions, the search by exact pattern finds the
  nearest element with the role.
* `presentationalAncestor?_nearest`: the search for presentational children finds the nearest
  ancestor that takes such a role.
-/

namespace AriaLocator

namespace Document

variable {d : Document} {e : Element}

/-! ## Nearest elements -/

/-- On a walk upwards, `a` passes a test, and everything else that passes is around it. -/
structure IsNearest (d : Document) (walk : List Element) (test : Element → Bool) (a : Element) :
    Prop where
  /-- It is on the walk. -/
  mem : a ∈ walk
  /-- It passes. -/
  passes : test a = true
  /-- What else passes on the walk is around it. -/
  around : ∀ b ∈ walk, test b = true → d.contains b a = true

instance (d : Document) (walk : List Element) (test : Element → Bool) (a : Element) :
    Decidable (d.IsNearest walk test a) :=
  decidable_of_iff
    (a ∈ walk ∧ test a = true ∧ ∀ b ∈ walk, test b = true → d.contains b a = true)
    ⟨fun ⟨mem, passes, around⟩ => ⟨mem, passes, around⟩,
      fun h => ⟨h.mem, h.passes, h.around⟩⟩

section Walk

variable {walk : List Element} {test : Element → Bool} {a b : Element}

theorem isNearest_cons_of_pos (hUp : (b :: walk).Pairwise fun a b => b ∈ d.ancestors a)
    (hTest : test b = true) : d.IsNearest (b :: walk) test a ↔ b = a := by
  have hAbove := (List.pairwise_cons.mp hUp).1
  constructor
  · intro h
    have hle : b ≤ a := le_of_contains (h.around b List.mem_cons_self hTest)
    cases List.mem_cons.mp h.mem with
    | inl hSame => exact hSame.symm
    | inr hMem => exact absurd hle (Nat.not_le_of_lt (ancestors_lt (hAbove a hMem)))
  · intro h
    subst h
    refine ⟨List.mem_cons_self, hTest, ?_⟩
    intro c hc hPasses
    cases List.mem_cons.mp hc with
    | inl hSame => exact hSame ▸ contains_self d b
    | inr hMem => exact contains_of_ancestors (hAbove c hMem)

theorem isNearest_cons_of_neg (hTest : ¬ test b = true) :
    d.IsNearest (b :: walk) test a ↔ d.IsNearest walk test a := by
  constructor
  · intro h
    refine ⟨?_, h.passes, fun c hc => h.around c (List.mem_cons_of_mem b hc)⟩
    cases List.mem_cons.mp h.mem with
    | inl hSame => exact absurd (hSame ▸ h.passes) hTest
    | inr hMem => exact hMem
  · intro h
    refine ⟨List.mem_cons_of_mem b h.mem, h.passes, ?_⟩
    intro c hc hPasses
    cases List.mem_cons.mp hc with
    | inl hSame => exact absurd (hSame ▸ hPasses) hTest
    | inr hMem => exact h.around c hMem hPasses

/-- A walk upwards ends at the nearest element that passes. -/
theorem find?_eq_some_iff_isNearest (hUp : walk.Pairwise fun a b => b ∈ d.ancestors a) :
    walk.find? test = some a ↔ d.IsNearest walk test a := by
  induction walk with
  | nil =>
      constructor
      · intro h
        cases h
      · intro h
        cases h.mem
  | cons b walk ih =>
      by_cases hTest : test b = true
      · rw [List.find?_cons_of_pos hTest, isNearest_cons_of_pos hUp hTest, Option.some.injEq]
      · rw [List.find?_cons_of_neg hTest, isNearest_cons_of_neg hTest]
        exact ih (List.pairwise_cons.mp hUp).2

end Walk

/-! ## Roles without conditions -/

section Unconditional

variable {role : Role} (h : role.isUnconditional = true)

include h

/-- Of these roles, an element has the one that it takes and no other. -/
theorem hasRole_iff_role : d.hasRole e role = true ↔ d.role? e = some role := by
  constructor
  · intro hHas
    cases hExplicit : d.explicitRole? e with
    | some name =>
        have hName : name = role.name := (hasRole_of_explicit hExplicit role).mp hHas
        exact role_of_explicit (hName ▸ hExplicit)
    | none =>
        have hFits : d.fitsRole e role = true := hasRole_of_implicit hExplicit role ▸ hHas
        have hMem : role ∈ rolesForTag (d.tag e) := mem_rolesForTag_of_fitsRole hFits
        -- Only a `select` fits two roles, and both of them have conditions.
        have hTag : d.tag e ≠ "select" := by
          intro hSelect
          have hNone : ∀ role ∈ [Role.combobox, .listbox], ¬ role.isUnconditional = true := by decide
          rw [hSelect, rolesForTag_select] at hMem
          exact hNone role hMem h
        obtain ⟨taken, hTaken, -, hTakenFits⟩ := exists_role_of_fits hExplicit hMem hFits
        rw [hTaken, fitsRole_unique hTag hFits hTakenFits]
  · exact hasRole_of_role

/-- The search by exact pattern is a search by full roles. -/
theorem closestWithRole?_eq :
    d.closestWithRole? e role = (d.lineage e).find? (d.hasRole · role) := by
  unfold closestWithRole?
  dsimp only
  congr 1
  funext a
  cases hExplicit : d.explicitRole? a with
  | some name => rw [hasRole, hExplicit]
  | none => rw [hasRole_of_implicit hExplicit, fitsRole_of_isUnconditional h]

end Unconditional

/-- For a role without conditions, the search by exact pattern finds the nearest element with the
role, the given one included, and fails only if there is none. -/
theorem closestWithRole?_nearest (d : Document) {role : Role} (h : role.isUnconditional = true)
    (e : Element) :
    (∀ a, d.closestWithRole? e role = some a ↔ d.IsNearest (d.lineage e) (d.hasRole · role) a) ∧
      (d.closestWithRole? e role = none ↔ ∀ a ∈ d.lineage e, d.hasRole a role = false) := by
  rw [closestWithRole?_eq h]
  constructor
  · intro a
    exact find?_eq_some_iff_isNearest (d.pairwise_lineage e)
  · simp only [List.find?_eq_none, Bool.not_eq_true]

/-- Above a paragraph in two lists, the inner list is passed over because its attribute makes it a
menu, and around both a `div` is found by its attribute for a role that the table does not list. -/
theorem closestWithRole?_nearest_menu :
    let inner := Markup.element "ul" [("role", "menu")] [.element "p" [] []]
    let d := Document.ofElement "div" [("role", "tree")]
      [.element "ol" [] [.element "li" [] [inner]]]
    (Role.list.isUnconditional = true ∧ Role.tree.isUnconditional = true) ∧
      d.IsNearest (d.lineage 4) (d.hasRole · .list) 1 ∧
      d.IsNearest (d.lineage 4) (d.hasRole · .tree) 0 ∧
      ∀ a ∈ d.lineage 0, d.hasRole a .list = false := by
  intro inner d
  have hList : Role.list.isUnconditional = true := by decide
  have hTree : Role.tree.isUnconditional = true := by decide
  have hOuter : d.closestWithRole? 4 .list = some 1 := by decide +kernel
  have hRoot : d.closestWithRole? 4 .tree = some 0 := by decide +kernel
  have hNone : d.closestWithRole? 0 .list = none := by decide +kernel
  exact ⟨⟨hList, hTree⟩, ((closestWithRole?_nearest d hList 4).1 1).mp hOuter,
    ((closestWithRole?_nearest d hTree 4).1 0).mp hRoot,
    (closestWithRole?_nearest d hList 0).2.mp hNone⟩

/-! ## Presentational children -/

/-- Whether an element takes a role with presentational children. -/
def takesPresentational (d : Document) (e : Element) : Bool :=
  (d.role? e).any Role.hasPresentationalChildren

theorem hasPresentationalChildren_eq (d : Document) (e : Element) :
    d.hasPresentationalChildren e = d.takesPresentational e :=
  Bool.eq_iff_iff.mpr hasPresentationalChildren_iff_role

/-- The search for presentational children finds the nearest ancestor that takes a role with
presentational children, whatever the table tries first for its tag, and fails only if there is
none. -/
theorem presentationalAncestor?_nearest (d : Document) (e : Element) :
    (∀ a, d.presentationalAncestor? e = some a ↔
      d.IsNearest (d.ancestors e) d.takesPresentational a) ∧
      (d.presentationalAncestor? e = none ↔
        ∀ a ∈ d.ancestors e, d.takesPresentational a = false) := by
  have hSearch : d.presentationalAncestor? e = (d.ancestors e).find? d.takesPresentational := by
    unfold presentationalAncestor?
    congr 1
    funext a
    exact hasPresentationalChildren_eq d a
  rw [hSearch]
  constructor
  · intro a
    exact find?_eq_some_iff_isNearest (d.pairwise_ancestors e)
  · simp only [List.find?_eq_none, Bool.not_eq_true]

end Document

end AriaLocator

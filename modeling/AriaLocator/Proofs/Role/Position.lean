import AriaLocator.Proofs.Role.Ancestry
import Mathlib.Data.List.Sort

/-!
# Positions in a set

An item of a list, a row of a table or a cell of a row has a position among its kind.  The set that
it belongs to is that of its nearest ancestor with the role of such an owner; items of an owner
further inside belong to that one.

Members are gathered role by role, so that they come out of order, and an element with two of the
roles comes twice.  Sorting puts this right.  What is left is the list of the members in document
order, each once, and the position of a member is its place in it.  Whether an element is the owner
of another is asked from both ends: for the element whose position is wanted and for every other
candidate.  Both times the answer is the nearest ancestor, so that an element belongs to at most one
set, and has a position exactly if it belongs to one.

## Main results

* `membersOf_eq`: the members of a set are what its owner owns, in document order.
* `positionWithin?_eq`: a position is a place in the set of the nearest owner.
* `owned_numbered`: the positions of a set are one, two and so on, and nothing else has a position.
-/

namespace AriaLocator

namespace Document

/-- Whether an element takes a role. -/
def takes (d : Document) (role : Role) (e : Element) : Bool := d.role? e == some role

/-- One element owns another: a search below it finds the other under one of the roles, and nothing
in between takes the role of an owner. -/
structure Owns (d : Document) (ownerRole : Role) (roles : List Role) (owner e : Element) : Prop where
  /-- A search below the owner finds it under one of the roles. -/
  found : ∃ role ∈ roles, e ∈ d.findByRole role owner {}
  /-- The owner is its nearest ancestor that takes the role of an owner. -/
  nearest : d.IsNearest (d.ancestors e) (d.takes ownerRole) owner

instance (d : Document) (ownerRole : Role) (roles : List Role) (owner e : Element) :
    Decidable (d.Owns ownerRole roles owner e) :=
  decidable_of_iff
    ((∃ role ∈ roles, e ∈ d.findByRole role owner {}) ∧
      d.IsNearest (d.ancestors e) (d.takes ownerRole) owner)
    ⟨fun ⟨found, nearest⟩ => ⟨found, nearest⟩, fun h => ⟨h.found, h.nearest⟩⟩

/-- The elements that `owner` owns, in document order. -/
def owned (d : Document) (ownerRole : Role) (roles : List Role) (owner : Element) : List Element :=
  (d.descendants owner).filter fun e => d.Owns ownerRole roles owner e

variable {d : Document} {ownerRole : Role} {roles : List Role} {owner e : Element}

theorem mem_owned : e ∈ d.owned ownerRole roles owner ↔ d.Owns ownerRole roles owner e := by
  unfold owned
  rw [List.mem_filter, decide_eq_true_iff]
  constructor
  · exact And.right
  · intro h
    have hAbove : owner ∈ d.ancestors e := h.nearest.mem
    exact ⟨mem_descendants.mpr ⟨ancestors_subset_holders hAbove, lt_size_of_ancestors hAbove⟩, h⟩

theorem pairwise_owned (d : Document) (ownerRole : Role) (roles : List Role) (owner : Element) :
    (d.owned ownerRole roles owner).Pairwise (· < ·) :=
  (pairwise_descendants d owner).filter _

/-- What lies below one element can be sorted. -/
theorem sortable_of_holders {es : List Element} (h : ∀ e ∈ es, owner ∈ d.holders e) :
    d.Sortable es :=
  .inr ⟨owner, fun e he => mem_tree_lineage.mpr (Or.inr (h e he))⟩

/-- The place of an element in a list in document order is its number in the list. -/
theorem idxOf?_getElem_of_pairwise {es : List Element} (h : es.Pairwise (· < ·)) {i : Nat}
    (hi : i < es.length) : es.idxOf? es[i] = some i := by
  rw [List.idxOf?_eq_some_iff]
  refine ⟨hi, rfl, ?_⟩
  intro j hj
  exact Nat.ne_of_lt (List.pairwise_iff_getElem.mp h j i (Nat.lt_trans hj hi) hi hj)

section Unconditional

variable (h : ownerRole.isUnconditional = true)

include h

/-- The search for an owner is a walk up from the parent. -/
theorem closestAbove_eq :
    ((d.parent? e).bind fun p => d.closestWithRole? p ownerRole) =
      (d.ancestors e).find? (d.takes ownerRole) := by
  have hTakes (a : Element) : d.hasRole a ownerRole = d.takes ownerRole a := by
    rw [Bool.eq_iff_iff, hasRole_iff_role h, takes, beq_iff_eq]
  cases hParent : d.parent? e with
  | none =>
      have hNone : d.ancestors e = [] := Forest.ancestors_of_root hParent
      rw [hNone]
      rfl
  | some p =>
      rw [Option.bind_some, closestWithRole?_eq h, ancestors_of_parent hParent]
      congr 1
      funext a
      exact hTakes a

theorem mem_membersOf :
    e ∈ d.membersOf owner ownerRole roles ↔ d.Owns ownerRole roles owner e := by
  unfold membersOf
  rw [mem_sorted, List.mem_filter, List.mem_flatMap, beq_iff_eq, closestAbove_eq h,
    find?_eq_some_iff_isNearest (d.pairwise_ancestors e)]
  constructor
  · intro hBoth
    exact ⟨hBoth.1, hBoth.2⟩
  · intro hOwns
    exact ⟨hOwns.found, hOwns.nearest⟩

/-- The members of a set are what its owner owns, in document order and each once. -/
theorem membersOf_eq : d.membersOf owner ownerRole roles = d.owned ownerRole roles owner := by
  have hSorted : (d.membersOf owner ownerRole roles).Pairwise (· < ·) := by
    apply pairwise_sorted
    apply @sortable_of_holders d owner
    intro e he
    obtain ⟨role, -, hFound⟩ := List.mem_flatMap.mp (List.mem_filter.mp he).1
    exact (mem_descendants.mp (List.mem_filter.mp hFound).1).1
  refine hSorted.eq_of_mem_iff (d.pairwise_owned ownerRole roles owner) ?_
  intro e
  rw [mem_membersOf h, mem_owned]

/-- A position is a place, from one, in the set of the nearest owner. -/
theorem positionWithin?_eq :
    d.positionWithin? e ownerRole roles =
      ((d.ancestors e).find? (d.takes ownerRole)).bind fun owner =>
        ((d.owned ownerRole roles owner).idxOf? e).map (· + 1) := by
  unfold positionWithin?
  rw [closestAbove_eq h]
  congr 1
  funext owner
  rw [membersOf_eq h]

theorem positionWithin?_of_owned {i : Nat} (hi : i < (d.owned ownerRole roles owner).length) :
    d.positionWithin? (d.owned ownerRole roles owner)[i] ownerRole roles = some (i + 1) := by
  have hOwns : d.Owns ownerRole roles owner (d.owned ownerRole roles owner)[i] :=
    mem_owned.mp (List.getElem_mem hi)
  have hOwner := (find?_eq_some_iff_isNearest (d.pairwise_ancestors _)).mpr hOwns.nearest
  rw [positionWithin?_eq h, hOwner, Option.bind_some,
    idxOf?_getElem_of_pairwise (d.pairwise_owned ownerRole roles owner) hi, Option.map_some]

/-- Only what is owned has a position. -/
theorem positionWithin?_eq_none (hNone : ∀ owner, ¬ d.Owns ownerRole roles owner e) :
    d.positionWithin? e ownerRole roles = none := by
  rw [positionWithin?_eq h]
  cases hOwner : (d.ancestors e).find? (d.takes ownerRole) with
  | none => rfl
  | some owner =>
      have hOut : e ∉ d.owned ownerRole roles owner := fun hMem => hNone owner (mem_owned.mp hMem)
      rw [Option.bind_some, List.idxOf?_eq_none_iff.mpr hOut, Option.map_none]

end Unconditional

/-- Below each element with the role of an owner, the positions of what it owns are one, two and so
on, in document order.  What no such element owns has no position. -/
theorem owned_numbered (d : Document) {ownerRole : Role} (h : ownerRole.isUnconditional = true)
    (roles : List Role) :
    (∀ owner, d.role? owner = some ownerRole →
      let members := d.owned ownerRole roles owner
      (∀ e, e ∈ members ↔ d.Owns ownerRole roles owner e) ∧
        members.Pairwise (fun a b => d.order a b = .lt) ∧
        members.map (d.positionWithin? · ownerRole roles) =
          (List.range' 1 members.length).map some) ∧
      ∀ e, (∀ owner, d.role? owner = some ownerRole → ¬ d.Owns ownerRole roles owner e) →
        d.positionWithin? e ownerRole roles = none := by
  constructor
  · intro owner _ members
    refine ⟨fun e => mem_owned, ?_, ?_⟩
    · have hBelow : ∀ e ∈ members, owner ∈ d.holders e := fun e he =>
        ancestors_subset_holders (mem_owned.mp he).nearest.mem
      exact (sortable_of_holders hBelow).pairwise_order (d.pairwise_owned ownerRole roles owner)
    · apply List.ext_getElem
      · rw [List.length_map, List.length_map, List.length_range']
      · intro i hi _
        rw [List.length_map] at hi
        rw [List.getElem_map, List.getElem_map, List.getElem_range', positionWithin?_of_owned h hi]
        congr 1
        omega
  · intro e hNone
    refine positionWithin?_eq_none h ?_
    intro owner hOwns
    exact hNone owner (beq_iff_eq.mp hOwns.nearest.passes) hOwns

/-- In a group, the first `select` is found under two roles and counts once.  The one in a group
further inside counts there, and a hidden one does not count. -/
theorem owned_numbered_select :
    let choice (attributes : Attributes) := Markup.element "select" attributes []
    let d := Document.ofElement "fieldset" []
      [choice [("size", "1.5")], .element "fieldset" [] [choice []],
        choice [("style", "display:none")], choice []]
    let position (e : Element) := d.positionWithin? e .group [.combobox, .listbox]
    (Role.group.isUnconditional = true ∧ d.role? 0 = some .group ∧ d.role? 2 = some .group) ∧
      (d.hasRole 1 .combobox = true ∧ d.hasRole 1 .listbox = true) ∧
      [1, 5].map position = [some 1, some 2] ∧ [3].map position = [some 1] ∧
      position 4 = none := by
  intro choice d position
  have hGroup : Role.group.isUnconditional = true := by decide
  have hOuter : d.role? 0 = some .group := by decide +kernel
  have hInner : d.role? 2 = some .group := by decide +kernel
  have hNumbered := owned_numbered d hGroup [.combobox, .listbox]
  have hFirst : d.owned .group [.combobox, .listbox] 0 = [1, 5] := by decide +kernel
  have hSecond : d.owned .group [.combobox, .listbox] 2 = [3] := by decide +kernel
  have hHidden : d.isWithinReach {} 4 = false := by decide +kernel
  have hOuterPositions := (hNumbered.1 0 hOuter).2.2
  have hInnerPositions := (hNumbered.1 2 hInner).2.2
  rw [hFirst] at hOuterPositions
  rw [hSecond] at hInnerPositions
  refine ⟨⟨hGroup, hOuter, hInner⟩, by decide +kernel, hOuterPositions, hInnerPositions,
    hNumbered.2 4 ?_⟩
  intro owner _ hOwns
  obtain ⟨role, -, hFound⟩ := hOwns.found
  have hReach := (Bool.and_eq_true_iff.mp (List.mem_filter.mp hFound).2).2
  rw [hHidden] at hReach
  exact Bool.false_ne_true hReach

end Document

end AriaLocator

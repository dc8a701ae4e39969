import AriaLocator.Document.Forest

/-!
# Markup and its numbering

`Markup` is a document as it is given: elements with attributes, texts and comments, nested in any
way. A document is kept as a table instead, one `Slot` for each element in document order, so that
an element can be named by its number. Texts are kept beside the element they follow: `lead` holds
those at the start of an element, `tail` those right behind it. Comments leave no trace.

The contents of a `template` are no children of it: they hang in a fragment, a node of its own whose
parent is the template. The table has no row for a fragment; the slot of the element above says that
there is one.

## Main results

* `slots_preorder`: the table of an element is one tree in document order.
-/

namespace AriaLocator

/-- An attribute list: names with their values. -/
abbrev Attributes := List (String × String)

/-- A node of a document as it is given. -/
inductive Markup where
  /-- Characters. -/
  | text (content : String)
  /-- A comment, which nothing in this library looks at. -/
  | comment (content : String)
  /-- An element with the nodes below it in order, which are its children or hang in a fragment. -/
  | element (tag : String) (attributes : Attributes) (children : List Markup)
      (inFragment : Bool := false)

/-- What the table of a document says about one element, apart from its attributes. -/
structure Slot where
  /-- The tag name, in small letters. -/
  tag : String
  /-- The element that this one stands right below, as its child or in its fragment. -/
  parent : Option Nat
  /-- Whether what stands below the element hangs in a fragment. -/
  holdsFragment : Bool
  /-- The texts inside the element before its first child element. -/
  lead : List String
  /-- The texts that follow the element in its parent, up to the next element. -/
  tail : List String
deriving DecidableEq, Repr

namespace Markup

/-- A template, whose contents hang in a fragment. -/
def template (attributes : Attributes) (contents : List Markup) : Markup :=
  .element "template" attributes contents true

/-- The texts at the start of a list of nodes, before the first element. -/
def leadingTexts : List Markup → List String
  | [] => []
  | .text content :: rest => content :: leadingTexts rest
  | .comment _ :: rest => leadingTexts rest
  | .element .. :: _ => []

mutual

/-- The rows of a node that is numbered from `start` on: a slot and attributes for each element. The
node stands before the nodes `following`. -/
def rows (parent : Option Nat) (start : Nat) (following : List Markup) :
    Markup → List (Slot × Attributes)
  | .element tag attributes children inFragment =>
    (⟨tag, parent, inFragment, leadingTexts children, leadingTexts following⟩, attributes) ::
      rowsOfAll start (start + 1) children
  | .text _ => []
  | .comment _ => []

/-- The rows of the children of `parent`, numbered from `start` on. -/
def rowsOfAll (parent start : Nat) : List Markup → List (Slot × Attributes)
  | [] => []
  | node :: rest =>
    let own := rows (some parent) start rest node
    own ++ rowsOfAll parent (start + own.length) rest

end

end Markup

/-- The parent that a table gives to a number, if it is a smaller one. -/
def slotParent? (slots : Array Slot) (e : Nat) : Option Nat :=
  (slots[e]?.bind Slot.parent).filter (· < e)

/-- The forest of a table. -/
def slotForest (slots : Array Slot) : Forest where
  parent? := slotParent? slots
  parent_lt := by
    intro e p h
    simpa using (Option.filter_eq_some_iff.mp h).2

/-! ## Document order -/

/-- Number `e` hangs below the number before it or below an ancestor of that one. -/
private def Hangs (slots : Array Slot) (e : Nat) : Prop :=
  ∃ p, slotParent? slots e = some p ∧ p ∈ (slotForest slots).lineage (e - 1)

/-- The rows `rows` stand in the table from `start` on. -/
private def StandsAt (slots : Array Slot) (start : Nat) (rows : List (Slot × Attributes)) : Prop :=
  ∀ i (h : i < rows.length), slots[start + i]? = some rows[i].1

private theorem StandsAt.append {slots : Array Slot} {start : Nat}
    {own rest : List (Slot × Attributes)} (h : StandsAt slots start (own ++ rest)) :
    StandsAt slots start own ∧ StandsAt slots (start + own.length) rest := by
  constructor
  · intro i hi
    have := h i (by simp only [List.length_append]; omega)
    rwa [List.getElem_append_left hi] at this
  · intro i hi
    have := h (own.length + i) (by simp only [List.length_append]; omega)
    rw [List.getElem_append_right (by omega)] at this
    simpa [Nat.add_assoc] using this

private theorem StandsAt.cons {slots : Array Slot} {start : Nat} {row : Slot × Attributes}
    {rest : List (Slot × Attributes)} (h : StandsAt slots start (row :: rest)) :
    slots[start]? = some row.1 ∧ StandsAt slots (start + 1) rest := by
  have h' : StandsAt slots start ([row] ++ rest) := h
  have ⟨h0, h1⟩ := h'.append
  exact ⟨by simpa using h0 0 (by simp), h1⟩

open Markup in
mutual

/--
A node numbered from `start` below `p`, which is open just before it, hangs together, and its last
number still has `start` above it.
-/
private theorem rows_hang {slots : Array Slot} {p start : Nat} {following : List Markup}
    (hp : p < start) (hOpen : p ∈ (slotForest slots).lineage (start - 1)) :
    ∀ node : Markup, StandsAt slots start (rows (some p) start following node) →
      (∀ e, start ≤ e → e < start + (rows (some p) start following node).length → Hangs slots e) ∧
        p ∈ (slotForest slots).lineage (start + (rows (some p) start following node).length - 1)
  | .text _ => by
    intro _
    exact ⟨fun e h₁ h₂ => by simp only [rows, List.length_nil] at h₂; omega, by simpa [rows]⟩
  | .comment _ => by
    intro _
    exact ⟨fun e h₁ h₂ => by simp only [rows, List.length_nil] at h₂; omega, by simpa [rows]⟩
  | .element tag attributes children inFragment => by
    intro hStands
    rw [rows] at hStands ⊢
    have ⟨hHead, hRest⟩ := hStands.cons
    have hParent : slotParent? slots start = some p := by simp [slotParent?, hHead, hp]
    have ⟨hAll, hLast⟩ := rowsOfAll_hang (Nat.lt_add_one start)
      ((slotForest slots).mem_lineage_self start) children hRest
    refine ⟨fun e h₁ h₂ => ?_, ?_⟩
    · rcases Nat.eq_or_lt_of_le h₁ with rfl | hlt
      · exact ⟨p, hParent, hOpen⟩
      · exact hAll e hlt (by simp only [List.length_cons] at h₂; omega)
    · have hUp : p ∈ (slotForest slots).lineage start :=
        Forest.mem_lineage_of_parent (f := slotForest slots) hParent
          ((slotForest slots).mem_lineage_self p)
      have hEnd := Forest.mem_lineage_trans hUp hLast
      have hNat : start + 1 + (rowsOfAll start (start + 1) children).length - 1 =
          start + ((⟨tag, some p, inFragment, leadingTexts children, leadingTexts following⟩,
            attributes) :: rowsOfAll start (start + 1) children).length - 1 := by
        simp only [List.length_cons]; omega
      rwa [hNat] at hEnd

/-- The children of `p` numbered from `start` hang together, and `p` is still open at the end. -/
private theorem rowsOfAll_hang {slots : Array Slot} {p start : Nat}
    (hp : p < start) (hOpen : p ∈ (slotForest slots).lineage (start - 1)) :
    ∀ nodes : List Markup, StandsAt slots start (rowsOfAll p start nodes) →
      (∀ e, start ≤ e → e < start + (rowsOfAll p start nodes).length → Hangs slots e) ∧
        p ∈ (slotForest slots).lineage (start + (rowsOfAll p start nodes).length - 1)
  | [] => by
    intro _
    exact ⟨fun e h₁ h₂ => by simp only [rowsOfAll, List.length_nil] at h₂; omega,
      by simpa [rowsOfAll]⟩
  | node :: rest => by
    intro hStands
    rw [rowsOfAll] at hStands ⊢
    have ⟨hOwn, hRest⟩ := hStands.append
    have ⟨hOwnAll, hOwnLast⟩ := rows_hang hp hOpen node hOwn
    have ⟨hRestAll, hRestLast⟩ := rowsOfAll_hang (by omega) hOwnLast rest hRest
    refine ⟨fun e h₁ h₂ => ?_, ?_⟩
    · by_cases he : e < start + (rows (some p) start rest node).length
      · exact hOwnAll e h₁ he
      · exact hRestAll e (by omega) (by simp only [List.length_append] at h₂; omega)
    · simpa [Nat.add_assoc] using hRestLast

end

/-- The table of an element is one tree in document order. -/
theorem slots_preorder (tag : String) (attributes : Attributes) (children : List Markup) :
    (slotForest (((Markup.element tag attributes children).rows none 0 []).map (·.1)).toArray).Preorder
      ((Markup.element tag attributes children).rows none 0 []).length := by
  generalize hSlots :
    (((Markup.element tag attributes children).rows none 0 []).map (·.1)).toArray = slots
  have hStands : StandsAt slots 0 ((Markup.element tag attributes children).rows none 0 []) := by
    intro i hi
    subst hSlots
    simp [hi]
  rw [Markup.rows] at hStands ⊢
  have ⟨hAll, _⟩ := rowsOfAll_hang (Nat.lt_add_one 0)
    ((slotForest slots).mem_lineage_self 0) children hStands.cons.2
  intro e h₁ h₂
  exact hAll e h₁ (by simp only [List.length_cons] at h₂; omega)

end AriaLocator

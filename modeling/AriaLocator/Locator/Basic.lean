import AriaLocator.Attribute.Basic
import AriaLocator.Error
import AriaLocator.Role.Basic

/-!
# Locators

A locator is a chain of nodes. A node asks for a role, and possibly for an accessible name and for
values of attributes. Each node is looked for below what the nodes before it match. The nodes after
the word `outer` count only where no other match of them lies around.

Elements below one with presentational children have no semantics, so only the last node of a chain
may have a role of that kind. `Locator.make` checks this, and that there is a node at all.

A locator has one written form for each choice of the quotes around names. Values of attributes are
always written with the quotes that suit them.

## Main results

* `make_eq_ok_iff`: a locator is made exactly from a chain that is not empty and has no role with
  presentational children before its end.
-/

namespace AriaLocator

/-- One step of a locator. -/
structure Node where
  /-- The role that an element has to have. -/
  role : Role
  /-- The attributes that it has to have, in the order in which they are looked at. -/
  constraints : List Constraint
  /-- The pattern for its accessible name. -/
  name? : Option String
deriving DecidableEq, Repr

namespace Node

/-- A node that asks for a role alone. -/
def ofRole (role : Role) : Node := ⟨role, [], none⟩

/-- Asks for a name; an empty name asks for nothing. -/
def withName (n : Node) (name : String) : Node :=
  { n with name? := if name = "" then none else some name }

/-- Asks for one more attribute. -/
def withConstraint (n : Node) (c : Constraint) : Node :=
  { n with constraints := n.constraints ++ [c] }

/-- The name that a node asks for, unless it is empty. -/
def filledName? (n : Node) : Option String := n.name?.filter (· != "")

/-- How the name of a node is written, behind a space. -/
def nameChars (mark : Option QuoteMark) : Option String → List Char
  | none => []
  | some name =>
    ' ' :: Text.quoteChars (mark.getD (QuoteMark.preferredFor name)).char name.toList

/-- How the attributes of a node are written, each behind a space. -/
def constraintChars (constraints : List Constraint) : List Char :=
  constraints.flatMap fun c => ' ' :: c.chars

/-- How a node is written. -/
def chars (mark : Option QuoteMark) (n : Node) : List Char :=
  '{' :: (n.role.name.toList ++ nameChars mark n.filledName? ++
    constraintChars n.constraints ++ ['}'])

/-- The written form of a node. -/
def text (n : Node) (mark : Option QuoteMark) : String := String.ofList (n.chars mark)

end Node

/-- Texts with single spaces between them. -/
def spaced : List (List Char) → List Char
  | [] => []
  | [part] => part
  | part :: rest => part ++ ' ' :: spaced rest

/-- The written form of several nodes in a row. -/
def nodesText (nodes : List Node) : String :=
  String.ofList (spaced (nodes.map (Node.chars none)))

/-- A locator. -/
structure Locator where
  /-- The nodes before `outer`, or all nodes. -/
  preOuter : List Node
  /-- The nodes after `outer`. -/
  postOuter : List Node
deriving DecidableEq, Repr

/-- The word between the two parts of a locator. -/
def outerWord : List Char := "outer".toList

namespace Locator

/-- All nodes in order. -/
def nodes (l : Locator) : List Node := l.preOuter ++ l.postOuter

/-- Whether there are no nodes. -/
def isEmpty (l : Locator) : Bool := l.preOuter.isEmpty && l.postOuter.isEmpty

/-- How a locator is written. -/
def chars (mark : Option QuoteMark) (l : Locator) : List Char :=
  spaced (l.preOuter.map (Node.chars mark) ++
    if l.postOuter.isEmpty then [] else outerWord :: l.postOuter.map (Node.chars mark))

/-- The written form of a locator. -/
def text (l : Locator) (mark : Option QuoteMark) : String := String.ofList (l.chars mark)

/-- The written form with the quotes that suit each name, which tells locators apart. -/
def canonical (l : Locator) : String := l.text none

end Locator

/-! ## Well-formed locators -/

/-- What the reader of a locator waits for. -/
inductive Expectation where
  | node
  | role
  | closingBraceOrAttribute
  | colon
  | attributeValue
  | closingQuote (mark : QuoteMark)
  | nodeOuterOrEnd
  | nodeOrEnd
deriving DecidableEq, Repr

/-- How an expectation is put into words. -/
def Expectation.text : Expectation → String
  | node => "\"\x7b\""
  | role => "role"
  | closingBraceOrAttribute => "\"\x7d\" or attribute"
  | colon => "\":\""
  | attributeValue => "attribute value"
  | closingQuote mark => "closing " ++ mark.char.toString
  | nodeOuterOrEnd => "\"\x7b\", \"outer\" or end of input"
  | nodeOrEnd => "\"\x7b\" or end of input"

/-- Why something is no locator. -/
inductive Malformed where
  /-- There are no nodes. -/
  | empty
  /-- At a position of the text, something else should have stood. -/
  | unexpected (text : String) (expected : Expectation) (position : Nat)
  /-- A word is no role. -/
  | unknownRole (word : String)
  /-- A word is no attribute. -/
  | unsupportedAttribute (word : String)
  /-- A role with presentational children comes before the last node. -/
  | presentational (locator : Locator) (role : Role)
deriving DecidableEq, Repr

namespace Malformed

/-- What is wrong, in words. -/
def message : Malformed → String
  | empty => "Locator is empty"
  | unexpected text expected position =>
    "Failed to parse semantic locator \"" ++ text ++ "\". Error message: Expected " ++
      expected.text ++ " at position " ++ toString position
  | unknownRole word =>
    "Unknown role: " ++ word ++ ". Please check the ARIA specification " ++
      "(https://www.w3.org/TR/wai-aria-1.1/#role_definitions) for valid roles."
  | unsupportedAttribute word =>
    "Unsupported attribute: " ++ word ++ ". Supported attributes: " ++
      AriaAttribute.supportedList
  | presentational locator role =>
    "Semantic locator " ++ locator.canonical ++ " contains a role with presentational children (" ++
      role.name ++ ") before the final node; descendants of such roles cannot be located."

/-- The error that a malformed locator leads to. -/
def error (m : Malformed) : Error := .invalidLocator m.message

end Malformed

namespace Locator

/-- The first node before the last whose role has presentational children. -/
def presentationalNode? (l : Locator) : Option Node :=
  l.nodes.dropLast.find? fun n => n.role.hasPresentationalChildren

/-- Makes a locator from its two parts. -/
def make (preOuter postOuter : List Node) : Except Malformed Locator :=
  let l : Locator := ⟨preOuter, postOuter⟩
  if l.isEmpty then .error .empty
  else
    match l.presentationalNode? with
    | some n => .error (.presentational l n.role)
    | none => .ok l

/-- The chains that locators are made from. -/
structure IsWellFormed (l : Locator) : Prop where
  /-- There is a node. -/
  nodes_ne_nil : l.nodes ≠ []
  /-- Only the last node may have a role with presentational children. -/
  init_not_presentational : ∀ n ∈ l.nodes.dropLast, n.role.hasPresentationalChildren = false

theorem isEmpty_iff {l : Locator} : l.isEmpty = true ↔ l.nodes = [] := by
  simp [isEmpty, nodes]

/-- A locator is made exactly from its own parts, if they are well-formed. -/
theorem make_eq_ok_iff {preOuter postOuter : List Node} {l : Locator} :
    make preOuter postOuter = .ok l ↔ l = ⟨preOuter, postOuter⟩ ∧ l.IsWellFormed := by
  simp only [make]
  split
  · next h =>
    rw [isEmpty_iff] at h
    constructor
    · simp
    · rintro ⟨rfl, hWell⟩
      exact absurd h hWell.nodes_ne_nil
  · next h =>
    rw [isEmpty_iff] at h
    split
    · next n hn =>
      constructor
      · simp
      · rintro ⟨rfl, hWell⟩
        have := hWell.init_not_presentational n (List.mem_of_find?_eq_some hn)
        have := List.find?_some hn
        simp_all
    · next hn =>
      have hNone : ∀ n ∈ (Locator.mk preOuter postOuter).nodes.dropLast,
          n.role.hasPresentationalChildren = false := by
        simpa [presentationalNode?] using hn
      constructor
      · intro hEq
        cases hEq
        exact ⟨rfl, h, hNone⟩
      · rintro ⟨rfl, -⟩
        rfl

theorem make_of_presentational {l : Locator} {n : Node} (hNodes : l.nodes ≠ [])
    (h : l.presentationalNode? = some n) :
    make l.preOuter l.postOuter = .error (.presentational l n.role) := by
  simp only [make]
  rw [if_neg fun hEmpty => hNodes (isEmpty_iff.mp hEmpty), h]

end Locator

end AriaLocator

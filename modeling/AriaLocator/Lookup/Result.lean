import AriaLocator.Document.Order
import AriaLocator.Locator.Basic

/-!
# Results of a lookup

A lookup finds elements, or it misses. A miss says how far the lookup got: the nodes that matched,
the part of the next node that matched behind them, the elements that both leave, and the condition
that none of these meets.

Below `outer`, a lookup can miss on several branches. The branches that got furthest tell the most:
their elements are put together, and the rest of the report is that of the first of them. How far a
branch got is one number: the nodes that matched, and a fiftieth for each condition of the next.
-/

namespace AriaLocator

/-- One condition of a node. -/
inductive NodeField where
  | role (role : Role)
  | constraint (c : Constraint)
  | name (name : String)
deriving DecidableEq, Repr

/-- A node with some of its conditions: its role, and constraints from the front. -/
structure PartialNode where
  role : Role
  constraints : List Constraint
deriving DecidableEq, Repr

/-- The number of conditions of a partial node. -/
def PartialNode.conditionCount (p : PartialNode) : Nat := 1 + p.constraints.length

/-- Why a lookup found nothing. -/
structure Miss where
  /-- The longest chain of nodes from the front that has matches. -/
  closestFind : List Node
  /-- The part of the next node that has matches behind that chain. -/
  partialFind? : Option PartialNode
  /-- The elements that are left by both. -/
  elementsFound : List Element
  /-- The condition that none of them meets. -/
  notFound : NodeField
deriving DecidableEq, Repr

/-- What a lookup comes to. -/
inductive LookupResult where
  /-- The elements that match. -/
  | found (elements : List Element)
  /-- Nothing. -/
  | missed (miss : Miss)
deriving DecidableEq, Repr

namespace LookupResult

/-- The elements found. -/
def elements : LookupResult → List Element
  | found elements => elements
  | missed _ => []

/-- The miss, if it is one. -/
def miss? : LookupResult → Option Miss
  | found _ => none
  | missed miss => some miss

end LookupResult

/-- The number of conditions of the partial node that a lookup got to, zero if it got to none. -/
def Miss.partialCount (miss : Miss) : Nat := (miss.partialFind?.map PartialNode.conditionCount).getD 0

/-- How far a lookup got before it missed. -/
def Miss.specificity (miss : Miss) : Float :=
  Float.ofNat miss.closestFind.length + Float.ofNat miss.partialCount / 50.0

/-- The larger of two numbers, neither of which is a NaN. -/
def largerFloat (a b : Float) : Float := if a < b then b else a

/-- The greatest specificity among misses. -/
def greatestSpecificity (misses : List Miss) : Float :=
  (misses.map Miss.specificity).foldl largerFloat (-1.0 / 0.0)

/-- One report for misses on several branches, from those that got furthest. -/
def Miss.mostSpecific? (d : Document) (misses : List Miss) : Option Miss :=
  let greatest := greatestSpecificity misses
  match misses.filter fun miss => miss.specificity == greatest with
  | [] => none
  | first :: others =>
    some { first with
      elementsFound :=
        d.sorted (first.elementsFound ++ others.flatMap Miss.elementsFound) }

end AriaLocator

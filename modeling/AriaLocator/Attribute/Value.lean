import AriaLocator.Attribute.Basic
import AriaLocator.Role.Resolve

/-!
# The values of ARIA attributes

An `aria-*` attribute that is present gives its value as it stands. Where it is absent, HTML gives a
value to some elements: the state of a form control, the level of a heading, the position of a cell
or an item among its kind. An attribute that does not apply to an element has no value.
-/

namespace AriaLocator

namespace Document

/-- The word for a truth value. -/
def flagText (value : Bool) : String := if value then "true" else "false"

/-- The headings with their levels. -/
def headingLevels : List (String × String) :=
  [("h1", "1"), ("h2", "2"), ("h3", "3"), ("h4", "4"), ("h5", "5"), ("h6", "6")]

/-- The position of an element among the items of the set that it belongs to. -/
def setPosition? (d : Document) (e : Element) : Option Nat :=
  match d.role? e with
  | some .listItem => d.positionWithin? e .list [.listItem]
  | some .treeItem => d.positionWithin? e .tree [.treeItem]
  | _ => none

/-- The value that HTML gives to an attribute which is absent. -/
def nativeAriaValue? (d : Document) (e : Element) : AriaAttribute → Option String
  | .checked =>
    if d.tag e == "input" && [some "checkbox", some "radio"].contains (d.controlType? e) then
      some (flagText (d.flag e .checked))
    else none
  | .current => some "false"
  | .pressed => some "false"
  | .disabled => some (flagText (d.isDisabled e))
  | .selected =>
    if d.tag e == "option" then some (flagText (d.isOptionSelected e)) else none
  | .colIndex => (d.positionWithin? e .row [.columnHeader, .cell]).map toString
  | .rowIndex => (d.positionWithin? e .table [.row]).map toString
  | .level => headingLevels.lookup (d.tag e)
  | .posInSet => (d.setPosition? e).map toString
  | .readOnly =>
    some (flagText ((d.tag e == "input" && d.flag e .readOnly) || d.editing? e == some .off))

/-- The value of an attribute of an element, if the attribute applies to it. -/
def ariaValue? (d : Document) (e : Element) (a : AriaAttribute) : Option String :=
  match d.attribute? e a.ariaName with
  | some written => some written
  | none => d.nativeAriaValue? e a

/-- Whether an element meets a constraint. -/
def meets (d : Document) (e : Element) (c : Constraint) : Bool :=
  d.ariaValue? e c.aria == some c.value

end Document

end AriaLocator

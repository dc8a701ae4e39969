import AriaLocator.Document.Basic
import AriaLocator.Text.Ascii
import AriaLocator.Text.Blank
import AriaLocator.Text.Natural

/-!
# Properties of form controls

The state of a control is not always written on the control. An option is selected by default when
no option of its drop-down asks to be; a control is disabled by a disabled `fieldset` around it,
unless it sits in the first `legend` of that `fieldset`; and the type of an `input` is `text` unless
its attribute names a known one.

## Main results

* `displaySize_pos`: a list shows at least one row.
-/

namespace AriaLocator

/-- A property of an element that is true or false. -/
inductive Flag where
  /-- The text of the element can be edited; inherited. -/
  | isContentEditable
  /-- Several options can be selected. -/
  | multiple
  /-- An input starts out checked. -/
  | checked
  /-- The control does not react. -/
  | disabled
  /-- The option is selected. -/
  | selected
  /-- The control shows its value but does not let it be changed. -/
  | readOnly
deriving DecidableEq, Repr

/-- What a valid `contenteditable` attribute asks for. -/
inductive Editing where
  | on
  | off
  | plaintextOnly
deriving DecidableEq, Repr

/-- The keyword of an editing state. -/
def Editing.keyword : Editing → String
  | on => "true"
  | off => "false"
  | plaintextOnly => "plaintext-only"

/-- The types of `input` that are known. -/
def inputTypes : List String :=
  ["button", "checkbox", "color", "date", "datetime-local", "email", "file", "hidden", "image",
    "month", "number", "password", "radio", "range", "reset", "search", "submit", "tel", "text",
    "time", "url", "week"]

/-- The elements that can be disabled. -/
def disableableTags : List String :=
  ["button", "fieldset", "input", "optgroup", "option", "select", "textarea"]

namespace Document

/-- The keyword that an attribute holds: trimmed and in small letters. -/
def keyword? (d : Document) (e : Element) (name : String) : Option String :=
  (d.attribute? e name).map fun value => Text.lower (Text.trim value)

/-- The type of a control, or nothing for an element that has no type. -/
def controlType? (d : Document) (e : Element) : Option String :=
  let written := d.keyword? e "type"
  match d.tag e with
  | "input" => some ((written.filter inputTypes.contains).getD "text")
  | "button" => some ((written.filter ["submit", "reset", "button"].contains).getD "submit")
  | "select" => some (if d.hasAttribute e "multiple" then "select-multiple" else "select-one")
  | "textarea" => some "textarea"
  | "output" => some "output"
  | "fieldset" => some "fieldset"
  | _ => none

/-- What an element's own `contenteditable` attribute asks for, if it is valid. -/
def editing? (d : Document) (e : Element) : Option Editing :=
  match d.keyword? e "contenteditable" with
  | some "" => some .on
  | some "true" => some .on
  | some "false" => some .off
  | some "plaintext-only" => some .plaintextOnly
  | _ => none

/-- Whether the nearest valid `contenteditable` around an element allows editing. -/
def isContentEditable (d : Document) (e : Element) : Bool :=
  match (d.lineage e).findSome? d.editing? with
  | none => false
  | some state => state != .off

/-- Whether a control is disabled. -/
def isDisabled (d : Document) (e : Element) : Bool :=
  if !disableableTags.contains (d.tag e) then false
  else if d.hasAttribute e "disabled" then true
  else if d.tag e == "option" then
    match d.parent? e with
    | none => false
    | some p => d.tag p == "optgroup" && d.hasAttribute p "disabled"
  else if d.tag e == "optgroup" then false
  else
    (d.ancestors e).any fun a =>
      d.tag a == "fieldset" && d.hasAttribute a "disabled" &&
        !(d.childWithTag? a "legend").any fun legend => d.contains legend e

/-- The number of rows that a `select` shows: its `size`, or one. -/
def displaySize (d : Document) (e : Element) : Nat :=
  (((d.attribute? e "size").bind fun size =>
    Text.readNat? (Text.largestWord 32) (Text.trimChars size.toList)).filter (0 < ·)).getD 1

theorem displaySize_pos (d : Document) (e : Element) : 0 < d.displaySize e := by
  rw [displaySize]
  cases h : Option.filter _ _ with
  | none => simp
  | some n => simpa using (Option.filter_eq_some_iff.mp h).2

/-- The options below a `select`, in document order. -/
def options (d : Document) (select : Element) : List Element :=
  (d.descendants select).filter fun o => d.tag o == "option"

/--
Whether an option is selected. Without any request, a `select` that shows one row and takes one
value selects its first option that is not disabled.
-/
def isOptionSelected (d : Document) (option : Element) : Bool :=
  if d.hasAttribute option "selected" then true
  else
    match (d.ancestors option).find? fun a => d.tag a == "select" with
    | none => false
    | some select =>
      if d.hasAttribute select "multiple" || 1 < d.displaySize select then false
      else if (d.options select).any fun o => d.hasAttribute o "selected" then false
      else (d.options select).find? (fun o => !d.isDisabled o) == some option

/-- The value of a property. -/
def flag (d : Document) (e : Element) : Flag → Bool
  | .isContentEditable => d.isContentEditable e
  | .multiple => d.hasAttribute e "multiple"
  | .checked => d.tag e == "input" && d.hasAttribute e "checked"
  | .disabled => d.isDisabled e
  | .selected => d.tag e == "option" && d.isOptionSelected e
  | .readOnly => (d.tag e == "input" || d.tag e == "textarea") && d.hasAttribute e "readonly"

end Document

end AriaLocator

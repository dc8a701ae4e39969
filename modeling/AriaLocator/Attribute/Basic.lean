import AriaLocator.Text.Quoted

/-!
# ARIA attributes in locators

The states and properties that a locator can ask for. Each has one written name, which is its HTML
name without the leading `aria-`. A constraint asks for one value of one attribute; its value stands
bare where the grammar of locators allows that, and between the quotes preferred for it elsewhere.

## Main results

* `ofName?_name`, `name_of_ofName?`: a name denotes the one attribute that it is the name of.
-/

namespace AriaLocator

/-- A state or property that a locator can ask for. -/
inductive AriaAttribute where
  | checked
  | current
  | disabled
  | pressed
  | selected
  | colIndex
  | level
  | posInSet
  | readOnly
  | rowIndex
deriving DecidableEq, Repr

namespace AriaAttribute

/-- Every attribute with its name, states first. -/
def names : List (AriaAttribute × String) :=
  [(checked, "checked"), (current, "current"), (disabled, "disabled"), (pressed, "pressed"),
    (selected, "selected"), (colIndex, "colindex"), (level, "level"), (posInSet, "posinset"),
    (readOnly, "readonly"), (rowIndex, "rowindex")]

/-- Every attribute, states first. -/
def all : List AriaAttribute := names.map (·.1)

/-- The name of an attribute in a locator. -/
def name (a : AriaAttribute) : String := (names.lookup a).getD ""

/-- The name of an attribute in HTML. -/
def ariaName (a : AriaAttribute) : String := "aria-" ++ a.name

/-- The attribute with a name. -/
def ofName? (s : String) : Option AriaAttribute :=
  (names.find? fun entry => entry.2 == s).map (·.1)

/-- All names, as an error message lists them. -/
def supportedList : String := ", ".intercalate (names.map (·.2))

theorem ofName?_name (a : AriaAttribute) : ofName? a.name = some a := by
  cases a <;> decide

theorem name_of_ofName? {s : String} {a : AriaAttribute} (h : ofName? s = some a) :
    a.name = s := by
  obtain ⟨⟨found, text⟩, hFind, hFound⟩ := Option.map_eq_some_iff.mp h
  have hText : text = s := by simpa using List.find?_some hFind
  have hAll : ∀ entry ∈ names, entry.1.name = entry.2 := by decide
  rw [← hFound, ← hText]
  exact hAll _ (List.mem_of_find?_eq_some hFind)

end AriaAttribute

/-! ## Constraints -/

/-- An attribute and the value that it has to have. -/
structure Constraint where
  /-- The attribute. -/
  aria : AriaAttribute
  /-- Its value. -/
  value : String
deriving DecidableEq, Repr

namespace Constraint

/-- The characters of a bare value: ASCII letters and digits, the underscore and the hyphen. -/
def isBareChar (c : Char) : Bool := c.isAlphanum || c == '_' || c == '-'

/-- Whether a value can stand without quotes. -/
def isBare (cs : List Char) : Bool := !cs.isEmpty && cs.all isBareChar

/-- How a value is written. -/
def valueChars (value : String) : List Char :=
  if isBare value.toList then value.toList
  else Text.quoteChars (QuoteMark.preferredFor value).char value.toList

/-- How a constraint is written. -/
def chars (c : Constraint) : List Char := c.aria.name.toList ++ ':' :: valueChars c.value

/-- The written form of a constraint. -/
def text (c : Constraint) : String := String.ofList c.chars

end Constraint

end AriaLocator

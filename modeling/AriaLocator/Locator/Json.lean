import AriaLocator.Locator.Basic
import AriaLocator.Text.Json

/-!
# Locators as JSON

A locator can be read from a JSON value. A record is an object, in which members that are not known
are passed over, or an array of all its fields in order. A role or attribute is its name, or an
object with that name for its one key and null for its value. Only the name of a node may be missing
or null. What is read is not checked to be well-formed.
-/

namespace AriaLocator

namespace Json

/-- The text that a value holds. -/
def text? : Json → Option String
  | string value => some value
  | _ => none

/-- The text that a value holds; null holds none. -/
def optionalText? : Json → Option (Option String)
  | null => some none
  | string value => some (some value)
  | _ => none

/-- The name of an alternative without fields. -/
def choice? : Json → Option String
  | string name => some name
  | object [(name, null)] => some name
  | _ => none

/-- The elements of an array, each read by `read`. -/
def listOf? {α : Type} (read : Json → Option α) : Json → Option (List α)
  | array elements => elements.mapM read
  | _ => none

/-- The fields of a record in order: the named members of an object, or the elements of an array
with as many of them. A member that may be missing is given as null. -/
def fields? (names : List (String × Bool)) : Json → Option (List Json)
  | object members =>
    names.mapM fun (name, isRequired) =>
      match member? members name with
      | some value => some value
      | none => if isRequired then none else some null
  | array elements => if elements.length = names.length then some elements else none
  | _ => none

end Json

/-- Reads a role. -/
def Role.ofJson? (value : Json) : Option Role := value.choice?.bind Role.ofName?

/-- Reads an attribute name. -/
def AriaAttribute.ofJson? (value : Json) : Option AriaAttribute :=
  value.choice?.bind AriaAttribute.ofName?

/-- Reads a constraint. -/
def Constraint.ofJson? (value : Json) : Option Constraint :=
  match value.fields? [("name", true), ("value", true)] with
  | some [name, value] => do
    pure ⟨← AriaAttribute.ofJson? name, ← value.text?⟩
  | _ => none

/-- The JSON value of a constraint. -/
def Constraint.toJson (c : Constraint) : Json :=
  .object [("name", .string c.aria.name), ("value", .string c.value)]

/-- Reads a node. -/
def Node.ofJson? (value : Json) : Option Node :=
  match value.fields? [("role", true), ("attributes", true), ("name", false)] with
  | some [role, constraints, name] => do
    pure ⟨← Role.ofJson? role, ← constraints.listOf? Constraint.ofJson?, ← name.optionalText?⟩
  | _ => none

/-- The JSON value of a node. -/
def Node.toJson (n : Node) : Json :=
  .object [("role", .string n.role.name), ("attributes", .array (n.constraints.map Constraint.toJson)),
    ("name", .ofString? n.name?)]

/-- Reads a locator, well-formed or not. -/
def Locator.ofJson? (value : Json) : Option Locator :=
  match value.fields? [("pre_outer", true), ("post_outer", true)] with
  | some [preOuter, postOuter] => do
    pure ⟨← preOuter.listOf? Node.ofJson?, ← postOuter.listOf? Node.ofJson?⟩
  | _ => none

/-- The JSON value of a locator. -/
def Locator.toJson (l : Locator) : Json :=
  .object [("pre_outer", .array (l.preOuter.map Node.toJson)),
    ("post_outer", .array (l.postOuter.map Node.toJson))]

end AriaLocator

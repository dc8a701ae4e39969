import AriaLocator.Attribute.Value
import AriaLocator.Cli.Config
import AriaLocator.Generator.Options
import AriaLocator.Locator.Basic
import AriaLocator.Name.Accessible
import AriaLocator.Text.Escaped
import AriaLocator.Text.Json

/-!
# Reports

What a command finds out, as lines for people or as JSON.
-/

namespace AriaLocator.Cli

/-- What is shown of an element. -/
structure ElementSummary where
  tag : String
  id? : Option String
  role? : Option Role
  name : String
  isHidden : Bool
deriving DecidableEq, Repr

namespace ElementSummary

/-- The summary of an element. -/
def ofElement (d : Document) (e : Element) : ElementSummary where
  tag := d.tag e
  id? := d.attribute? e "id"
  role? := d.role? e
  name := d.accessibleName e
  isHidden := d.isHidden e

/-- The element as a tag, with its identifier if it has one. -/
def label (s : ElementSummary) : String :=
  match s.id? with
  | some id => "<" ++ s.tag ++ "#" ++ id ++ ">"
  | none => "<" ++ s.tag ++ ">"

/-- The JSON value of a summary; an element without an identifier has no member for it. -/
def toJson (s : ElementSummary) : Json :=
  .object
    ([("tag", .string s.tag)] ++ (s.id?.map fun id => ("id", Json.string id)).toList ++
      [("role", .ofString? (s.role?.map Role.name)), ("name", .string s.name),
        ("hidden", .bool s.isHidden)])

end ElementSummary

/-- An element with a locator, if it has one. -/
structure LocatorEntry where
  element : ElementSummary
  locator? : Option String
deriving DecidableEq, Repr

/-- An element with its locator and its attributes, as constraints. -/
structure RoleSummary where
  element : ElementSummary
  locator? : Option String
  attributes : List String
deriving DecidableEq, Repr

/-- What a command finds out. -/
inductive Report where
  /-- The matches of a locator, or why there are none. -/
  | found (locator : String) (matched : List ElementSummary) (explanation? : Option String)
  /-- The locator of an element. -/
  | generated (mode : GeneratorMode) (entry : LocatorEntry)
  /-- The locators of the elements that there was time for, among `total`. -/
  | batch (mode : GeneratorMode) (total : Nat) (entries : List LocatorEntry)
  /-- The roles of elements. -/
  | roles (elements : List RoleSummary)
  /-- The parts of a locator. -/
  | parsed (canonical : String) (locator : Locator)

namespace Report

/-! ## Lines -/

/-- The line for a match. -/
def matchLine (s : ElementSummary) : String :=
  s.label ++ " " ++ ((s.role?.map Role.name).getD "-") ++ " " ++ Text.escaped s.name

/-- The line for the roles of an element. -/
def roleLine (entry : RoleSummary) : String :=
  " ".intercalate
    ([entry.element.label, entry.locator?.getD "(no role)"] ++ entry.attributes ++
      if entry.element.isHidden then ["(hidden)"] else [])

/-- A report as lines for people. -/
def lines : Report → List String
  | found _ matched _ => matched.map matchLine
  | generated mode entry =>
    [entry.locator?.getD ("No " ++ mode.name ++ " locator for " ++ entry.element.label)]
  | batch _ _ entries =>
    entries.map fun entry => entry.element.label ++ " " ++ entry.locator?.getD "-"
  | roles elements => elements.map roleLine
  | parsed canonical _ => [canonical]

/-! ## JSON -/

/-- The members that describe an element and its locator. -/
def entryMembers (element : ElementSummary) (locator? : Option String) : List (String × Json) :=
  [("element", element.toJson), ("locator", .ofString? locator?)]

/-- The JSON value of a node. -/
def nodeJson (n : Node) : Json :=
  .object
    [("role", .string n.role.name), ("name", .ofString? n.name?),
      ("attributes", .strings (n.constraints.map Constraint.text))]

/-- A report as a JSON value. -/
def toJson : Report → Json
  | found locator matched explanation? =>
    .object
      ([("locator", .string locator), ("matches", .array (matched.map ElementSummary.toJson))] ++
        (explanation?.map fun text => ("explanation", Json.string text)).toList)
  | generated mode entry =>
    .object (("mode", .string mode.name) :: entryMembers entry.element entry.locator?)
  | batch mode total entries =>
    .object
      [("mode", .string mode.name), ("total", .natural total),
        ("entries",
          .array (entries.map fun entry => .object (entryMembers entry.element entry.locator?)))]
  | roles elements =>
    .object
      [("elements",
        .array (elements.map fun entry =>
          .object (entryMembers entry.element entry.locator? ++
            [("attributes", .strings entry.attributes)])))]
  | parsed canonical locator =>
    .object
      [("canonical", .string canonical),
        ("pre_outer", .array (locator.preOuter.map nodeJson)),
        ("post_outer", .array (locator.postOuter.map nodeJson))]

/-- What is written of a report. -/
def render (format : OutputFormat) (report : Report) : String :=
  match format with
  | .json => report.toJson.pretty
  | .text => "\n".intercalate report.lines

/-! ## Warnings -/

/-- What a report warns of: that nothing matches, or that time has run out. -/
def warning? : Report → Option String
  | found _ _ explanation? => explanation?
  | batch _ total entries =>
    if entries.length < total then
      some ("Timed out after " ++ toString entries.length ++ " of " ++ toString total ++ " elements")
    else none
  | _ => none

end Report

end AriaLocator.Cli

import AriaLocator.Attribute.Value
import AriaLocator.Lookup.Result
import AriaLocator.Name.Accessible
import AriaLocator.Text.Json

/-!
# Messages about lookups that found nothing

The message names the locator, says how far the lookup got, and lists what the last elements had
instead of what was asked for. Two hints follow where they apply: that hidden elements would have
matched, or elements below one with presentational children.
-/

namespace AriaLocator

/-- A condition in words. -/
def NodeField.explain : NodeField → String
  | .role asked => "an ARIA role of " ++ asked.name
  | .constraint asked => asked.aria.ariaName ++ " = " ++ asked.value
  | .name asked => "an accessible name of \"" ++ asked ++ "\""

/-- Texts as a list with an "and" before the last. -/
def listed : List String → String
  | [] => ""
  | [only] => only
  | first :: rest =>
    ", ".intercalate (first :: rest.dropLast) ++ ", and " ++ rest.getLastD ""

/-- The conditions of a partial node in words. -/
def PartialNode.explain (p : PartialNode) : String :=
  listed ((NodeField.role p.role).explain ::
    p.constraints.map fun c => (NodeField.constraint c).explain)

/-- The ending of a counted noun. -/
def pluralEnding (count : Nat) : String := if 1 < count then "s" else ""

/-- What the elements had instead of a condition, each value once. -/
def Document.valuesInstead (d : Document) (elements : List Element) : NodeField → String
  | .role _ =>
    "Roles found: " ++
      (Json.strings (elements.filterMap fun e => (d.role? e).map Role.name).eraseDups).compact
  | .constraint c =>
    "Values found for " ++ c.aria.ariaName ++ ": " ++
      (Json.array
        ((elements.map fun e => d.ariaValue? e c.aria).eraseDups.map Json.ofString?)).compact
  | .name _ =>
    match ((elements.map d.accessibleName).filter (· != "")).eraseDups with
    | [] => "No matching elements had an accessible name"
    | names => "Accessible names found: " ++ (Json.strings names).compact

/-- A miss in words. -/
def Document.explainMiss (d : Document) (miss : Miss) : String :=
  let count := miss.elementsFound.length
  let noun (word : String) := toString count ++ " " ++ word ++ pluralEnding count
  let noneHad := if 1 < count then "none had" else "it didn't have"
  let missing := miss.notFound.explain
  let instead := d.valuesInstead miss.elementsFound miss.notFound
  match miss.closestFind, miss.partialFind? with
  | [], none => "No elements have " ++ missing ++ "."
  | [], some found =>
    noun "element" ++ " with " ++ found.explain ++ " were found. However " ++ noneHad ++ " " ++
      missing ++ ". " ++ instead ++ "."
  | closest, none =>
    noun "element" ++ " matched the locator " ++ nodesText closest ++ ", but " ++ noneHad ++
      " a descendant with " ++ missing ++ "."
  | closest, some found =>
    noun "descendant" ++ " of " ++ nodesText closest ++ " with " ++ found.explain ++
      " were found. However " ++ noneHad ++ " " ++ missing ++ ". " ++ instead ++ "."

/-- The hint that hidden elements would have matched. -/
def hiddenHint (count : Nat) : String :=
  if count = 0 then ""
  else
    " " ++ toString count ++ " hidden element" ++ pluralEnding count ++
      " matched the locator. To match these elements, ensure they're not hidden (aria-hidden is " ++
      "false and they're not hidden by css)."

/-- The hint that elements without semantics would have matched. -/
def presentationalHint (count : Nat) : String :=
  if count = 0 then ""
  else
    " " ++ toString count ++ " element" ++ pluralEnding count ++
      " would have matched the locator, but " ++ (if 1 < count then "have" else "it has") ++
      " an ancestor with presentational children " ++
      "(https://www.w3.org/TR/wai-aria-practices/#children_presentational), erasing its semantics."

/-- The message for a miss, given what the locator matches when hidden elements, or elements below
one with presentational children, are taken in. -/
def Document.missMessage (d : Document) (l : Locator) (miss : Miss)
    (hidden presentational : List Element) : String :=
  "Didn't find any elements matching semantic locator " ++ l.canonical ++ ". " ++
    d.explainMiss miss ++ hiddenHint hidden.length ++ presentationalHint presentational.length

end AriaLocator

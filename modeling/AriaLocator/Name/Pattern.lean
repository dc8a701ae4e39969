import AriaLocator.Error
import AriaLocator.Text.Ascii

/-!
# Name patterns

The name in a locator is a pattern. An asterisk at its start stands for any beginning and one at its
end for any ending; everywhere else it is an ordinary character. A lone asterisk would accept every
name, which a locator expresses by leaving the name out, so it is refused.

## Main results

* `exactly_accepts`, `containing_accepts`: what the patterns accept, as statements on characters.
-/

namespace AriaLocator

/-- What a name has to look like. -/
inductive NamePattern where
  /-- The whole name. -/
  | exactly (name : String)
  /-- Its beginning. -/
  | beginning (part : String)
  /-- Its end. -/
  | ending (part : String)
  /-- Any part of it. -/
  | containing (part : String)
deriving DecidableEq, Repr

namespace NamePattern

/-- Drops an asterisk from the end, if there is one. -/
def dropStar? (cs : List Char) : Option (List Char) :=
  if cs.getLast? = some '*' then some cs.dropLast else none

/-- The pattern that a text stands for; a lone asterisk is none. -/
def ofText? (s : String) : Option NamePattern :=
  match s.toList with
  | ['*'] => none
  | '*' :: rest =>
    match dropStar? rest with
    | some inner => some (containing (String.ofList inner))
    | none => some (ending (String.ofList rest))
  | cs =>
    match dropStar? cs with
    | some part => some (beginning (String.ofList part))
    | none => some (exactly s)

/-- Whether a name fits a pattern. -/
def accepts (actual : String) : NamePattern → Bool
  | exactly name => actual == name
  | beginning part => Text.startsWith actual part
  | ending part => Text.endsWith actual part
  | containing part => Text.contains actual part

theorem exactly_accepts {name actual : String} :
    (exactly name).accepts actual = true ↔ actual = name := by
  simp [accepts]

theorem containing_accepts {part actual : String} :
    (containing part).accepts actual = true ↔ part.toList <:+: actual.toList := by
  simp [accepts, Text.contains, Text.occursIn_iff]

end NamePattern

/-- What is wrong with a lone asterisk. -/
def loneStarMessage : String :=
  "* is invalid as an accessible name. To match any accessible name omit it from the locator " ++
    "e.g. \x7bbutton\x7d."

/-- Whether a name fits the pattern that a text stands for. -/
def nameMatches (expected actual : String) : Except Error Bool :=
  match NamePattern.ofText? expected with
  | none => throw (.value loneStarMessage)
  | some pattern => pure (pattern.accepts actual)

end AriaLocator

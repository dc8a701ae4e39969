import AriaLocator.Role.Resolve

/-!
# Accessible names

The accessible name of an element is found by asking, in this order: the elements that
`aria-labelledby` refers to, the element's `aria-label`, what HTML has for a label (`label`, `alt`,
`legend`, `caption`, `figcaption`, the value of a button), the content of the element if its role
takes its name from there, and last its `title`. The first answer that is not blank counts.

Finding a name can lead from element to element, back to one that is being looked at. Each element
is therefore looked at once: a second visit finds nothing. So no chain of visits is longer than the
number of elements, and `depth` counts down from there.

## Main results

* `visitAt_succ`: a visit at some depth in terms of the visits one level deeper.
-/

namespace AriaLocator

/-- How the search for a name has come to an element. -/
inductive Approach where
  /-- Its name is asked for. -/
  | root
  /-- An `aria-labelledby` refers to it. -/
  | labelledBy
  /-- It is part of the content of another element. -/
  | content
deriving DecidableEq, Repr

/-- A step of the search, which knows the elements that have been looked at. -/
abbrev NameSearch := StateM (List Element)

/-- A way to look at an element. -/
abbrev NameVisit := Approach → Element → NameSearch String

/-! ## Tables -/

/-- The roles that take their name from the content of the element. -/
def Role.namedFromContent : List Role :=
  [.button, .cell, .checkbox, .columnHeader, .gridCell, .heading, .link, .menuItem,
    .menuItemCheckbox, .menuItemRadio, .option, .radio, .row, .rowHeader, .switch, .tab, .tooltip,
    .treeItem]

/-- The elements whose text stands apart from the text around them. -/
def blockTags : List String :=
  ["address", "article", "aside", "blockquote", "br", "dd", "div", "dl", "dt", "fieldset",
    "figcaption", "figure", "footer", "form", "h1", "h2", "h3", "h4", "h5", "h6", "header", "hr",
    "li", "main", "nav", "ol", "p", "pre", "section", "table", "td", "th", "tr", "ul"]

/-- The elements that a `label` can belong to. -/
def labelableTags : List String :=
  ["button", "input", "meter", "output", "progress", "select", "textarea"]

namespace Document

/-! ## Parts of a name -/

/-- A text that is not blank. -/
def unlessBlank (text : String) : Option String :=
  if Text.isBlankText text then none else some text

/-- An attribute that is not blank. -/
def filledAttribute? (d : Document) (e : Element) (name : String) : Option String :=
  (d.attribute? e name).bind unlessBlank

/-- The characters and the child elements of an element, put together. -/
def nameFromContent (d : Document) (visit : NameVisit) (e : Element) : NameSearch String := do
  let parts ← (d.children e).mapM fun child =>
    match child with
    | .text content => pure content
    | .element c => do
      let text ← visit .content c
      pure (if blockTags.contains (d.tag c) then " " ++ text ++ " " else text)
  pure (String.join parts)

/-- The content of the first child element with a tag. -/
def nameFromChild (d : Document) (visit : NameVisit) (e : Element) (tag : String) :
    NameSearch (Option String) := do
  match d.childWithTag? e tag with
  | none => pure none
  | some child => pure (some (← d.nameFromContent visit child))

/-- The labels of an element: those whose `for` names it, and the nearest one around it. -/
def labelsOf (d : Document) (e : Element) : List Element :=
  let naming :=
    match d.attribute? e "id" with
    | none => []
    | some id =>
      d.elements.filter fun l =>
        d.isAttached l && d.tag l == "label" && d.attribute? l "for" == some id
  let around := (d.ancestors e).find? fun a => d.tag a == "label"
  d.sorted (naming ++ around.toList)

/-- The contents of the labels of an element. -/
def nameFromLabels (d : Document) (visit : NameVisit) (e : Element) :
    NameSearch (Option String) := do
  match d.labelsOf e with
  | [] => pure none
  | labels =>
    let parts ← labels.mapM (d.nameFromContent visit)
    pure (some (" ".intercalate (parts.filterMap unlessBlank)))

/-- What HTML has for a label of an element. -/
def nativeName (d : Document) (visit : NameVisit) (e : Element) : NameSearch (Option String) :=
  match d.tag e with
  | "input" =>
    match (d.controlType? e).getD "" with
    | "hidden" => pure none
    | "button" => pure (d.filledAttribute? e "value")
    | "submit" => pure (some ((d.filledAttribute? e "value").getD "Submit"))
    | "reset" => pure (some ((d.filledAttribute? e "value").getD "Reset"))
    | "image" =>
      pure (some (((["alt", "value", "title"].findSome? (d.filledAttribute? e)).getD
        "Submit Query")))
    | _ => d.nameFromLabels visit e
  | "img" => pure (d.attribute? e "alt")
  | "area" => pure (d.attribute? e "alt")
  | "fieldset" => d.nameFromChild visit e "legend"
  | "table" => d.nameFromChild visit e "caption"
  | "figure" => d.nameFromChild visit e "figcaption"
  | tag => if labelableTags.contains tag then d.nameFromLabels visit e else pure none

/-- The value of a control that stands inside the content or the label of another element. -/
def embeddedValue? (d : Document) (e : Element) : Option String :=
  match d.role? e with
  | some .textbox | some .searchbox =>
    if d.tag e == "input" then some ((d.attribute? e "value").getD "") else none
  | some .combobox | some .listbox =>
    if d.tag e == "select" then
      let selected := (d.options e).filter d.isOptionSelected
      some (" ".intercalate (selected.map fun o => Text.collapse (d.textContent o)))
    else none
  | some .slider | some .spinButton =>
    ["aria-valuetext", "aria-valuenow", "value"].findSome? (d.attribute? e)
  | _ => none

/-! ## The search -/

/-- Whether an element is left out of the content that it is part of: it is hidden, but not because
of an element around it. -/
def isSkippedContent (d : Document) (e : Element) : Bool :=
  d.isHidden e && (d.parent? e).any fun p => !d.isHidden p

/-- The contents of the elements that `aria-labelledby` refers to. -/
def nameFromReferences (d : Document) (visit : NameVisit) (e : Element) :
    NameSearch (Option String) := do
  match d.attribute? e "aria-labelledby" with
  | none => pure none
  | some ids =>
    let parts ← ((Text.asciiWords ids).filterMap d.elementById?).mapM (visit .labelledBy)
    match parts.filterMap unlessBlank with
    | [] => pure none
    | filled => pure (some (" ".intercalate filled))

/-- Whether the content of an element is searched for its name. -/
def takesContent (d : Document) (approach : Approach) (e : Element) : Bool :=
  approach != .root || (d.role? e).any Role.namedFromContent.contains

/-- What is found once references, embedded values and `aria-label` have given nothing. -/
def nameFromMarkup (d : Document) (visit : NameVisit) (approach : Approach) (e : Element) :
    NameSearch String := do
  match (← d.nativeName visit e).bind unlessBlank with
  | some native => pure native
  | none =>
    let content ← if d.takesContent approach e then d.nameFromContent visit e else pure ""
    pure ((unlessBlank content).getD ((d.attribute? e "title").getD ""))

/-- Looks at an element that has not been looked at before. -/
def nameOfNew (d : Document) (visit : NameVisit) (approach : Approach) (e : Element) :
    NameSearch String := do
  if approach == .content && d.isSkippedContent e then pure ""
  else
    let referenced ←
      if approach == .labelledBy then pure none else d.nameFromReferences visit e
    match referenced with
    | some name => pure name
    | none =>
      match if approach == .content then d.embeddedValue? e else none with
      | some value => pure value
      | none =>
        match d.filledAttribute? e "aria-label" with
        | some label => pure label
        | none => d.nameFromMarkup visit approach e

/-- Looks at an element, with at most `depth` elements in the chain of visits. -/
def visitAt (d : Document) : Nat → NameVisit
  | 0, _, _ => pure ""
  | depth + 1, approach, e => do
    if (← get).contains e then pure ""
    else
      modify (e :: ·)
      d.nameOfNew (d.visitAt depth) approach e

theorem visitAt_succ (d : Document) (depth : Nat) (approach : Approach) (e : Element) :
    d.visitAt (depth + 1) approach e = (do
      if (← get).contains e then pure ""
      else
        modify (e :: ·)
        d.nameOfNew (d.visitAt depth) approach e) := rfl

/-- The accessible name of an element, with single spaces between its words. -/
def accessibleName (d : Document) (e : Element) : String :=
  Text.collapse (d.visitAt (d.size + 1) .root e []).1

end Document

end AriaLocator

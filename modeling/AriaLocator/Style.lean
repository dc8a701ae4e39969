import AriaLocator.Document.Basic
import AriaLocator.Text.Ascii
import AriaLocator.Text.Blank

/-!
# Inline style and hidden elements

The style of an element is what its `style` attribute declares, plus what user agents do to
attributes and tags on their own. A `style` attribute is a list of declarations separated by
semicolons; one that is malformed is passed over, and of several for one property the last counts.

An element is *hidden* when its visibility is hidden, or when it or an ancestor is not displayed or
carries `aria-hidden="true"`. Visibility is inherited from the nearest element that declares any.
-/

namespace AriaLocator

namespace Style

/-- The characters of a property name: ASCII letters, the two characters that fold to one of them
(long s and the Kelvin sign), and the hyphen. -/
def isNameChar (c : Char) : Bool :=
  c.isAlpha || c == '-' || c == '\u017f' || c == '\u212a'

/-- One declaration `name : value`; the value is everything after the colon. -/
def declaration? (cs : List Char) : Option (String × List Char) :=
  let start := cs.dropWhile Text.isBlank
  let name := start.takeWhile isNameChar
  match (start.dropWhile isNameChar).dropWhile Text.isBlank with
  | ':' :: value => if name.isEmpty then none else some (String.ofList name, value)
  | _ => none

/-- The declarations of a `style` attribute, in order. -/
def declarations (style : String) : List (String × List Char) :=
  (Text.fields (· == ';') style.toList).filterMap declaration?

/-- The priority mark of a declaration, spelled backwards. -/
def importantReversed : List Char := "tnatropmi!".toList

/-- Drops every repetition of `part` from the front. -/
def dropRepeated (part cs : List Char) : List Char :=
  if h : part.isPrefixOf cs = true ∧ cs.length - part.length < cs.length then
    have := h.2
    dropRepeated part (cs.drop part.length)
  else cs
termination_by cs.length
decreasing_by
  rw [List.length_drop]
  assumption

/-- A declared value without blanks and priority marks around it, in small letters. -/
def cleanValue (value : List Char) : String :=
  let unmarked := (dropRepeated importantReversed (Text.trimChars value).reverse).reverse
  Text.lower (String.ofList (Text.trimChars unmarked))

/-- The value that a `style` attribute gives to a property: that of its last declaration. -/
def value? (style property : String) : Option String :=
  ((declarations style).filter fun (name, _) => Text.eqIgnoringCase name property).getLast?.map
    fun (_, value) => cleanValue value

/-- Elements that no user agent renders. -/
def undisplayedTags : List String :=
  ["area", "base", "datalist", "head", "link", "meta", "noscript", "param", "rp", "script",
    "source", "style", "template", "title", "track"]

end Style

namespace Document

/-- The value that an element's own `style` attribute gives to a property. -/
def inlineStyle? (d : Document) (e : Element) (property : String) : Option String :=
  (d.attribute? e "style").bind fun style => Style.value? style property

/-- Whether an element itself is not displayed. A declared `display` settles it; otherwise the
`hidden` attribute and the tag do. -/
def isDisplayNone (d : Document) (e : Element) : Bool :=
  match d.inlineStyle? e "display" with
  | some display => display == "none"
  | none => d.hasAttribute e "hidden" || Style.undisplayedTags.contains (d.tag e)

/-- Whether the nearest element of the lineage that declares a visibility declares it hidden. -/
def isVisibilityHidden (d : Document) (e : Element) : Bool :=
  (d.lineage e).findSome? (fun a => d.inlineStyle? a "visibility") == some "hidden"

/-- Whether an element is out of the accessibility tree. -/
def isHidden (d : Document) (e : Element) : Bool :=
  d.isVisibilityHidden e ||
    (d.lineage e).any fun a => d.attribute? a "aria-hidden" == some "true" || d.isDisplayNone a

end Document

end AriaLocator

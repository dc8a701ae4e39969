import AriaLocator.Css.Query
import AriaLocator.Property
import AriaLocator.Style

/-!
# Documents that differ in their texts

Texts are read by the search for names and by nothing else.  Whatever is asked of an element's tag,
attributes, place, style, state and match with a selector has one answer in all documents that
differ in their texts alone.

Two such documents have the same table up to its texts.  The links of both kinds are equal, so that
walks up and down are, and from there on each function is equal because those that it uses are.  The
equations are between functions, so that they rewrite a function wherever it stands, also where it
is handed to a search through a list.

## Main results

* `SameButTexts`: two documents have the same tags, links, ids, attributes and detached elements.
* `tree_eq`, `forest_eq`, `childElements_eq`, `descendants_eq`: the tree is the same.
* `isHidden_eq`: the same elements are hidden.
* `isOptionSelected_eq`, `flag_eq`: the same controls are in the same state.
* `matchesSelector_eq`: the same elements match a selector.
-/

namespace AriaLocator

/-- A row of a table without its texts. -/
def Slot.withoutTexts (slot : Slot) : Slot := { slot with lead := [], tail := [] }

namespace Document

/-- Two documents differ in their texts alone. -/
structure SameButTexts (d d' : Document) : Prop where
  /-- The tables have the same tags and links. -/
  slots : d.slots.map Slot.withoutTexts = d'.slots.map Slot.withoutTexts
  /-- The node ids are the same. -/
  ids : d.ids = d'.ids
  /-- The attributes are the same. -/
  attributes : d.attributes = d'.attributes
  /-- The same elements have been detached. -/
  detached : d.detached = d'.detached

namespace SameButTexts

variable {d d' : Document}

/-! ## The tree -/

theorem slots_size_eq (h : SameButTexts d d') : d.slots.size = d'.slots.size := by
  simpa using congrArg Array.size h.slots

/-- A row gives the same tag and the same parent. -/
theorem map_slot_eq (h : SameButTexts d d') {α : Type} (read : Slot → α)
    (hRead : ∀ slot, read slot.withoutTexts = read slot) (e : Element) :
    d.slots[e]?.map read = d'.slots[e]?.map read := by
  have hRow : d.slots[e]?.map Slot.withoutTexts = d'.slots[e]?.map Slot.withoutTexts := by
    rw [← Array.getElem?_map, ← Array.getElem?_map, h.slots]
  have hBoth := congrArg (Option.map read) hRow
  simpa [Option.map_map, Function.comp_def, hRead] using hBoth

theorem size_eq (h : SameButTexts d d') : d.size = d'.size := h.slots_size_eq

theorem elements_eq (h : SameButTexts d d') : d.elements = d'.elements := by
  rw [elements, elements, h.size_eq]

theorem tag_eq (h : SameButTexts d d') : d.tag = d'.tag := by
  funext e
  rw [tag, tag, h.map_slot_eq Slot.tag fun _ => rfl]

theorem attribute?_eq (h : SameButTexts d d') : d.attribute? = d'.attribute? := by
  funext e name
  rw [attribute?, attribute?, h.attributes]

theorem hasAttribute_eq (h : SameButTexts d d') : d.hasAttribute = d'.hasAttribute := by
  funext e name
  rw [hasAttribute, hasAttribute, h.attribute?_eq]

theorem slotParent?_eq (h : SameButTexts d d') : slotParent? d.slots = slotParent? d'.slots := by
  have hBind (slot? : Option Slot) : slot?.bind Slot.parent = (slot?.map Slot.parent).join := by
    cases slot? <;> rfl
  funext e
  rw [slotParent?, slotParent?, hBind, hBind, h.map_slot_eq Slot.parent fun _ => rfl]

theorem hasParentNode_eq (h : SameButTexts d d') : d.hasParentNode = d'.hasParentNode := by
  funext e
  rw [hasParentNode, hasParentNode, h.detached]

theorem holdsFragment_eq (h : SameButTexts d d') : d.holdsFragment = d'.holdsFragment := by
  funext p
  rw [holdsFragment, holdsFragment, h.map_slot_eq Slot.holdsFragment fun _ => rfl]

theorem tree_eq (h : SameButTexts d d') : d.tree = d'.tree := by
  have hTable : slotForest d.slots = slotForest d'.slots := by
    simp only [slotForest, h.slotParent?_eq]
  rw [tree, tree, hTable, h.hasParentNode_eq]

theorem forest_eq (h : SameButTexts d d') : d.forest = d'.forest := by
  rw [forest, forest, h.tree_eq, h.holdsFragment_eq]

theorem parent?_eq (h : SameButTexts d d') : d.parent? = d'.parent? := by
  funext e
  rw [parent?, parent?, h.forest_eq]

theorem lineage_eq (h : SameButTexts d d') : d.lineage = d'.lineage := by
  funext e
  rw [lineage, lineage, h.forest_eq]

theorem ancestors_eq (h : SameButTexts d d') : d.ancestors = d'.ancestors := by
  funext e
  rw [ancestors, ancestors, h.forest_eq]

theorem holders_eq (h : SameButTexts d d') : d.holders = d'.holders := by
  funext e
  rw [holders, holders, h.tree_eq]

theorem contains_eq (h : SameButTexts d d') : d.contains = d'.contains := by
  funext a e
  rw [contains, contains, h.lineage_eq]

theorem isAttached_eq (h : SameButTexts d d') : d.isAttached = d'.isAttached := by
  funext e
  rw [isAttached, isAttached, h.tree_eq, h.hasParentNode_eq]

theorem held_eq (h : SameButTexts d d') : d.held = d'.held := by
  funext p
  have hKids : d.kids = d'.kids := by
    refine Array.ext_getElem? fun e => ?_
    rw [d.kids_eq, d'.kids_eq, getElem?_kidTable, getElem?_kidTable, slotChildren, slotChildren,
      h.slots_size_eq, h.slotParent?_eq]
  rw [held, held, hKids, h.hasParentNode_eq]

theorem childElements_eq (h : SameButTexts d d') : d.childElements = d'.childElements := by
  funext p
  rw [childElements, childElements, h.holdsFragment_eq, h.held_eq]

theorem childWithTag?_eq (h : SameButTexts d d') : d.childWithTag? = d'.childWithTag? := by
  funext e tag
  rw [childWithTag?, childWithTag?, h.childElements_eq, h.tag_eq]

theorem closestTag?_eq (h : SameButTexts d d') : d.closestTag? = d'.closestTag? := by
  funext e tag
  rw [closestTag?, closestTag?, h.lineage_eq, h.tag_eq]

theorem descendants_eq (h : SameButTexts d d') : d.descendants = d'.descendants := by
  funext e
  rw [Document.descendants_eq, Document.descendants_eq, h.elements_eq, h.holders_eq]

theorem elementById?_eq (h : SameButTexts d d') : d.elementById? = d'.elementById? := by
  funext id
  rw [elementById?, elementById?, h.elements_eq, h.attribute?_eq, h.isAttached_eq]

/-! ## Style -/

theorem inlineStyle?_eq (h : SameButTexts d d') : d.inlineStyle? = d'.inlineStyle? := by
  funext e property
  rw [inlineStyle?, inlineStyle?, h.attribute?_eq]

theorem isDisplayNone_eq (h : SameButTexts d d') : d.isDisplayNone = d'.isDisplayNone := by
  funext e
  rw [isDisplayNone, isDisplayNone, h.inlineStyle?_eq, h.hasAttribute_eq, h.tag_eq]

theorem isVisibilityHidden_eq (h : SameButTexts d d') :
    d.isVisibilityHidden = d'.isVisibilityHidden := by
  funext e
  rw [isVisibilityHidden, isVisibilityHidden, h.lineage_eq, h.inlineStyle?_eq]

/-- The same elements are hidden. -/
theorem isHidden_eq (h : SameButTexts d d') : d.isHidden = d'.isHidden := by
  funext e
  rw [isHidden, isHidden, h.isVisibilityHidden_eq, h.lineage_eq, h.attribute?_eq,
    h.isDisplayNone_eq]

/-! ## The state of controls -/

theorem keyword?_eq (h : SameButTexts d d') : d.keyword? = d'.keyword? := by
  funext e name
  rw [keyword?, keyword?, h.attribute?_eq]

theorem controlType?_eq (h : SameButTexts d d') : d.controlType? = d'.controlType? := by
  funext e
  simp only [controlType?, h.keyword?_eq, h.tag_eq, h.hasAttribute_eq]

theorem editing?_eq (h : SameButTexts d d') : d.editing? = d'.editing? := by
  funext e
  simp only [editing?, h.keyword?_eq]

theorem isContentEditable_eq (h : SameButTexts d d') :
    d.isContentEditable = d'.isContentEditable := by
  funext e
  simp only [isContentEditable, h.lineage_eq, h.editing?_eq]

theorem isDisabled_eq (h : SameButTexts d d') : d.isDisabled = d'.isDisabled := by
  funext e
  simp only [isDisabled, h.tag_eq, h.hasAttribute_eq, h.parent?_eq, h.ancestors_eq,
    h.childWithTag?_eq, h.contains_eq]

theorem displaySize_eq (h : SameButTexts d d') : d.displaySize = d'.displaySize := by
  funext e
  rw [displaySize, displaySize, h.attribute?_eq]

theorem options_eq (h : SameButTexts d d') : d.options = d'.options := by
  funext select
  rw [options, options, h.descendants_eq, h.tag_eq]

theorem isOptionSelected_eq (h : SameButTexts d d') :
    d.isOptionSelected = d'.isOptionSelected := by
  funext option
  simp only [isOptionSelected, h.hasAttribute_eq, h.ancestors_eq, h.tag_eq, h.displaySize_eq,
    h.options_eq, h.isDisabled_eq]

theorem flag_eq (h : SameButTexts d d') : d.flag = d'.flag := by
  funext e flag
  cases flag <;>
    simp only [Document.flag, h.isContentEditable_eq, h.hasAttribute_eq, h.tag_eq, h.isDisabled_eq,
      h.isOptionSelected_eq]

/-! ## Selectors -/

mutual

theorem passes_eq (h : SameButTexts d d') (e : Element) :
    ∀ test : Css.Simple, d.passes e test = d'.passes e test
  | .universal => rfl
  | .type name => by rw [passes, passes, h.tag_eq]
  | .id name => by rw [passes, passes, h.attribute?_eq]
  | .hasClass name => by rw [passes, passes, h.attribute?_eq]
  | .hasAttribute name => by rw [passes, passes, h.hasAttribute_eq]
  | .hasValue name operator value => by rw [passes, passes, h.attribute?_eq]
  | .not tests => by rw [passes, passes, h.passesAll_eq e tests]

theorem passesAll_eq (h : SameButTexts d d') (e : Element) :
    ∀ tests : Css.Compound, d.passesAll e tests = d'.passesAll e tests
  | [] => rfl
  | test :: rest => by rw [passesAll, passesAll, h.passes_eq e test, h.passesAll_eq e rest]

end

theorem related_eq (h : SameButTexts d d') : d.related = d'.related := by
  funext relation e
  cases relation with
  | descendant => rw [related, related, h.ancestors_eq]
  | child => rw [related, related, h.parent?_eq]
  | next => rw [related, related, previousSibling?, previousSibling?, h.tree_eq]
  | later => rw [related, related, earlierSiblings, earlierSiblings, h.tree_eq, h.held_eq]

theorem mismatch?_eq (h : SameButTexts d d') (chain : Css.Chain) :
    d.mismatch? chain = d'.mismatch? chain := by
  funext e
  induction chain generalizing e with
  | only subject => rw [mismatch?, mismatch?, h.passesAll_eq]
  | combined left relation subject ih =>
      rw [mismatch?, mismatch?, h.passesAll_eq, h.related_eq, funext ih]

/-- The same elements match a selector. -/
theorem matchesSelector_eq (h : SameButTexts d d') : d.matchesSelector = d'.matchesSelector := by
  funext selector e
  simp only [matchesSelector, h.mismatch?_eq]

theorem closest?_eq (h : SameButTexts d d') : d.closest? = d'.closest? := by
  funext selector e
  rw [closest?, closest?, h.lineage_eq, h.matchesSelector_eq]

end SameButTexts

end Document

end AriaLocator

import AriaLocator.Document.Slots

/-!
# Documents

A document is a table of elements, numbered from zero, the document element, by their places in the
tree as it was built. The table never changes; what changes over a document's life are its attribute
lists and the set of elements that have been detached. A detached element keeps its number and its
subtree, and is the top of a tree of its own.

Elements also have node ids, which are handed out as elements are created. That need not be the order
of their places, since elements can be put in front of older ones while a document is built.

There are two kinds of links. The tree of nodes goes through fragments: `tree` has a link from all
that hangs in the fragment of a template to the template. The parent element is looked for without:
`forest` has no such links, so that walks upwards end at a fragment while walks downwards pass it.

An `Element` is a number, and every function on it is total: a number outside the document has no
tag, no attributes, no parent and no children.

## Main results

* `mem_childElements`, `mem_descendants`: children and descendants are read off the links.
* `descendants_eq`: the elements below an element, in the order of their places.
* `childElements_pairwise`: children stand in the order of their places.
* `ancestors_subset`, `ancestors_eq_of_append`: what stands above an ancestor stands above it.
* `ancestors_subset_holders`, `mem_lineage_of_holders`: how the two kinds of links go together.
* `contains_iff`: an element contains the elements in whose lineage it stands.
* `Document.preorder` (a field): the table is one tree in the order of its places.
-/

namespace AriaLocator

/-- An element of a document: its place in the tree as it was built. -/
abbrev Element := Nat

/-- A child of an element. -/
inductive Child where
  /-- Characters. -/
  | text (content : String)
  /-- An element. -/
  | element (e : Element)
deriving DecidableEq, Repr

/-- A document: a fixed table of elements, and the state of its attributes and links. -/
structure Document where
  /-- The elements by their places in the tree as it was built. -/
  slots : Array Slot
  /-- They are one tree, in which parents come before their children and subtrees stand together. -/
  preorder : (slotForest slots).Preorder slots.size
  /-- The node ids, in the order in which the elements were created. -/
  ids : Element → Nat
  /-- No two elements have the same node id. -/
  ids_injective : ∀ {a b : Element}, ids a = ids b → a = b
  /-- The children of every element, kept so that they need not be searched for. -/
  kids : Array (List Nat)
  /-- They are the children that the table gives. -/
  kids_eq : kids = kidTable slots
  /-- The attributes of every element as they are now. -/
  attributes : Array Attributes
  /-- The elements that have been cut off from their parents. -/
  detached : List Element

/-- A change of a document. -/
inductive Change where
  | setAttribute (e : Element) (name value : String)
  | removeAttribute (e : Element) (name : String)
  | detach (e : Element)

namespace Document

/-! ## Construction and change -/

/-- The document whose document element is given, with nothing detached. Its elements are created in
the order in which they are given. -/
def ofElement (tag : String) (attributes : Attributes) (children : List Markup) : Document where
  slots := (((Markup.element tag attributes children).rows none 0 []).map (·.1)).toArray
  preorder := by
    simpa using slots_preorder tag attributes children
  ids := id
  ids_injective := id
  kids := _
  kids_eq := rfl
  attributes := (((Markup.element tag attributes children).rows none 0 []).map (·.2)).toArray
  detached := []

/-- Sets an attribute of an element, replacing the value it had. -/
def setAttribute (d : Document) (e : Element) (name value : String) : Document :=
  { d with
    attributes := d.attributes.modify e fun own => own.filter (·.1 != name) ++ [(name, value)] }

/-- Removes an attribute of an element. -/
def removeAttribute (d : Document) (e : Element) (name : String) : Document :=
  { d with attributes := d.attributes.modify e fun own => own.filter (·.1 != name) }

/-- Cuts an element off from its parent, together with its subtree. -/
def detach (d : Document) (e : Element) : Document :=
  { d with detached := e :: d.detached }

/-- The document after a change. -/
def after (d : Document) : Change → Document
  | .setAttribute e name value => d.setAttribute e name value
  | .removeAttribute e name => d.removeAttribute e name
  | .detach e => d.detach e

/-- The document after changes, one after the other. -/
def afterAll (d : Document) (changes : List Change) : Document := changes.foldl after d

/-! ## Elements -/

/-- The number of elements. -/
def size (d : Document) : Nat := d.slots.size

/-- All elements, attached or not, in the order of their places. -/
def elements (d : Document) : List Element := List.range d.size

/-- The tag name of an element. -/
def tag (d : Document) (e : Element) : String := (d.slots[e]?.map Slot.tag).getD ""

/-- The value of an attribute, if the element has it. -/
def attribute? (d : Document) (e : Element) (name : String) : Option String :=
  (d.attributes[e]?.getD []).lookup name

/-- Whether an element has an attribute. -/
def hasAttribute (d : Document) (e : Element) (name : String) : Bool :=
  (d.attribute? e name).isSome

/-! ## Links -/

/-- Whether what stands below an element hangs in a fragment. -/
def holdsFragment (d : Document) (p : Element) : Bool :=
  (d.slots[p]?.map Slot.holdsFragment).getD false

/-- Whether an element has a parent node; that of the document element is the document itself. -/
def hasParentNode (d : Document) (e : Element) : Bool := !d.detached.contains e

/-- The links of the tree of nodes as they are now, fragments being passed. -/
def tree (d : Document) : Forest := (slotForest d.slots).restrict fun e _ => d.hasParentNode e

/-- The links to parent elements as they are now. -/
def forest (d : Document) : Forest := d.tree.restrict fun _ p => !d.holdsFragment p

/-! ## Ancestors -/

/-- The parent of an element, if it is an element. -/
def parent? (d : Document) (e : Element) : Option Element := d.forest.parent? e

/-- An element and its ancestors, nearest first. -/
def lineage (d : Document) (e : Element) : List Element := d.forest.lineage e

/-- The ancestors of an element without itself, nearest first. -/
def ancestors (d : Document) (e : Element) : List Element := d.forest.ancestors e

/-- The elements that an element stands below in the tree of nodes, nearest first. -/
def holders (d : Document) (e : Element) : List Element := d.tree.ancestors e

/-- Whether `a` is `e` or an ancestor of `e`. -/
def contains (d : Document) (a e : Element) : Bool := (d.lineage e).contains a

/-- Whether an element can be reached from the document. -/
def isAttached (d : Document) (e : Element) : Bool :=
  (d.tree.lineage e).contains 0 && d.hasParentNode 0

theorem contains_iff {d : Document} {a e : Element} :
    d.contains a e = true ↔ a ∈ d.lineage e := by
  simp [contains]

theorem contains_self (d : Document) (e : Element) : d.contains e e = true :=
  contains_iff.mpr (d.forest.mem_lineage_self e)

theorem contains_trans {d : Document} {a b c : Element} (hab : d.contains a b = true)
    (hbc : d.contains b c = true) : d.contains a c = true :=
  contains_iff.mpr (Forest.mem_lineage_trans (contains_iff.mp hab) (contains_iff.mp hbc))

theorem lineage_eq (d : Document) (e : Element) : d.lineage e = e :: d.ancestors e :=
  d.forest.lineage_eq e

theorem ancestors_lt {d : Document} {a e : Element} (h : a ∈ d.ancestors e) : a < e :=
  Forest.ancestors_lt h

theorem ancestors_of_parent {d : Document} {e p : Element} (h : d.parent? e = some p) :
    d.ancestors e = d.lineage p := Forest.ancestors_of_parent h

theorem ancestors_congr {d : Document} {a b : Element} (h : d.parent? a = d.parent? b) :
    d.ancestors a = d.ancestors b := by
  have h : d.forest.parent? a = d.forest.parent? b := h
  simp only [ancestors, Forest.ancestors, h]

/-- The ancestors of an ancestor are ancestors. -/
theorem ancestors_subset {d : Document} {a e : Element} (h : a ∈ d.lineage e) :
    d.ancestors a ⊆ d.ancestors e := by
  intro b hb
  have hmem := Forest.mem_lineage_trans (Forest.mem_lineage_iff.mpr (Or.inr hb)) h
  rcases Forest.mem_lineage_iff.mp hmem with rfl | hmem
  · exact absurd (ancestors_lt hb) (Nat.not_lt.mpr (Forest.lineage_le h))
  · exact hmem

/-- Behind an ancestor stand its own ancestors. -/
theorem ancestors_eq_of_append {d : Document} {a e : Element} {near far : List Element}
    (h : d.ancestors e = near ++ a :: far) : far = d.ancestors a :=
  Forest.ancestors_eq_of_append h

theorem parent_lt {d : Document} {e p : Element} (h : d.parent? e = some p) : p < e :=
  d.forest.parent_lt h

/-! ## Ancestors in the tree of nodes -/

/-- The parent element is right above in the tree of nodes, and no fragment stands in between. -/
theorem parent_eq_some {d : Document} {e p : Element} :
    d.parent? e = some p ↔ d.tree.parent? e = some p ∧ d.holdsFragment p = false := by
  rw [parent?, forest, Forest.restrict_parent_eq_some, Bool.not_eq_true']

theorem parent?_congr {d : Document} {a b : Element} (h : d.tree.parent? a = d.tree.parent? b) :
    d.parent? a = d.parent? b := by
  refine Option.ext fun p => ?_
  rw [parent_eq_some, parent_eq_some, h]

theorem tree_parent_eq_some {d : Document} {e p : Element} :
    d.tree.parent? e = some p ↔ slotParent? d.slots e = some p ∧ d.hasParentNode e = true :=
  Forest.restrict_parent_eq_some

theorem holders_lt {d : Document} {a e : Element} (h : a ∈ d.holders e) : a < e :=
  Forest.ancestors_lt h

/-- What an element is in is itself or stands above it. -/
theorem mem_tree_lineage {d : Document} {a e : Element} :
    a ∈ d.tree.lineage e ↔ a = e ∨ a ∈ d.holders e := Forest.mem_lineage_iff

/-- Whatever contains an element is above it in the tree of nodes, or it is the element. -/
theorem tree_lineage_of_lineage {d : Document} {a e : Element} (h : a ∈ d.lineage e) :
    a ∈ d.tree.lineage e := Forest.mem_lineage_of_restrict h

theorem ancestors_subset_holders {d : Document} {e : Element} : d.ancestors e ⊆ d.holders e := by
  intro a ha
  have h := tree_lineage_of_lineage (Forest.mem_lineage_iff.mpr (Or.inr ha))
  rcases mem_tree_lineage.mp h with rfl | h
  · exact absurd (ancestors_lt ha) (Nat.lt_irrefl _)
  · exact h

theorem holders_trans {d : Document} {a b e : Element} (hab : a ∈ d.holders b)
    (hbe : b ∈ d.tree.lineage e) : a ∈ d.holders e := by
  have h := Forest.mem_lineage_trans (mem_tree_lineage.mpr (Or.inr hab)) hbe
  rcases mem_tree_lineage.mp h with rfl | h
  · exact absurd (holders_lt hab) (Nat.not_lt.mpr (Forest.lineage_le hbe))
  · exact h

theorem lt_size_of_tree_parent {d : Document} {e p : Element} (h : d.tree.parent? e = some p) :
    e < d.size := by
  have hSlot := (tree_parent_eq_some.mp h).1
  refine Nat.lt_of_not_le fun hle => ?_
  simp [slotParent?, Array.getElem?_eq_none hle] at hSlot

/-- Up to an ancestor, what an element stands below in the tree of nodes is an ancestor too. -/
theorem mem_lineage_of_holders {d : Document} {top a e : Element} (hTop : top ∈ d.lineage e)
    (ha : a ∈ d.tree.lineage e) (hle : top ≤ a) : a ∈ d.lineage e :=
  Forest.mem_lineage_restrict_of_top hTop ha hle

/-! ## Children and descendants -/

/-- The elements right below an element in the tree of nodes, in order. -/
def held (d : Document) (p : Element) : List Element :=
  (d.kids[p]?.getD []).filter d.hasParentNode

/-- The child elements of an element, in order. -/
def childElements (d : Document) (p : Element) : List Element :=
  if d.holdsFragment p then [] else d.held p

/-- What stands right below an element, in order: leading texts, then each element with its tail. -/
def contents (d : Document) (p : Element) : List Child :=
  ((d.slots[p]?.map Slot.lead).getD []).map Child.text ++
    (d.kids[p]?.getD []).flatMap fun e =>
      (if d.hasParentNode e then [Child.element e] else []) ++
        ((d.slots[e]?.map Slot.tail).getD []).map Child.text

/-- The children of an element, in order. -/
def children (d : Document) (p : Element) : List Child :=
  if d.holdsFragment p then [] else d.contents p

/-- The elements below an element in the tree of nodes, in the order of their places. -/
def descendants (d : Document) (a : Element) : List Element :=
  d.tree.descendantsAmong a (subtreeSize d.slots a)

theorem mem_kids {d : Document} {p e : Element} :
    e ∈ d.kids[p]?.getD [] ↔ slotParent? d.slots e = some p ∧ e < d.size := by
  rw [d.kids_eq]
  by_cases hp : p < d.slots.size
  · simp [getElem?_kidTable, slotChildren, hp, size, and_comm]
  · simp only [getElem?_kidTable, hp, if_false, Option.getD_none, List.not_mem_nil, false_iff,
      not_and]
    intro h he
    exact hp (Nat.lt_trans ((slotForest d.slots).parent_lt h) he)

theorem mem_held {d : Document} {p e : Element} :
    e ∈ d.held p ↔ d.tree.parent? e = some p ∧ e < d.size := by
  rw [held, List.mem_filter, mem_kids, tree_parent_eq_some]
  exact and_right_comm

theorem mem_childElements {d : Document} {p e : Element} :
    e ∈ d.childElements p ↔ d.parent? e = some p ∧ e < d.size := by
  rw [childElements, parent_eq_some]
  cases hp : d.holdsFragment p with
  | false => simp [mem_held]
  | true => simp

/-- What stands right below an element is listed by place, each once. -/
theorem held_pairwise (d : Document) (p : Element) : (d.held p).Pairwise (· < ·) := by
  refine List.Pairwise.filter _ ?_
  rw [d.kids_eq]
  by_cases hp : p < d.slots.size
  · simpa [getElem?_kidTable, slotChildren, hp] using List.Pairwise.filter _ List.pairwise_lt_range
  · simp [getElem?_kidTable, hp]

/-- Children are listed by place, each once. -/
theorem childElements_pairwise (d : Document) (p : Element) :
    (d.childElements p).Pairwise (· < ·) := by
  unfold childElements
  split
  · exact List.Pairwise.nil
  · exact held_pairwise d p

theorem element_mem_contents {d : Document} {p e : Element} :
    Child.element e ∈ d.contents p ↔ e ∈ d.held p := by
  simp only [contents, List.mem_append, List.mem_map, reduceCtorEq, and_false, exists_false,
    false_or, List.mem_flatMap, or_false, held, List.mem_filter]
  constructor
  · rintro ⟨c, hc, h⟩
    split at h
    · simp_all
    · simp at h
  · rintro ⟨h, hp⟩
    exact ⟨e, h, by simp [hp]⟩

theorem element_mem_children {d : Document} {p e : Element} :
    Child.element e ∈ d.children p ↔ e ∈ d.childElements p := by
  unfold children childElements
  split
  · simp
  · exact element_mem_contents

theorem held_gt {d : Document} {p e : Element} (h : e ∈ d.held p) : p < e ∧ e < d.size :=
  ⟨d.tree.parent_lt (mem_held.mp h).1, (mem_held.mp h).2⟩

theorem childElements_gt {d : Document} {p e : Element} (h : e ∈ d.childElements p) :
    p < e ∧ e < d.size :=
  ⟨parent_lt (mem_childElements.mp h).1, (mem_childElements.mp h).2⟩

theorem descendants_eq (d : Document) (a : Element) :
    d.descendants a = d.elements.filter fun e => (d.holders e).contains a := by
  rw [descendants, Forest.descendantsAmong_eq]
  refine filter_subtree (fun e he => ?_) fun e he hSize => ?_
  · rw [List.contains_eq_mem, decide_eq_false_iff_not]
    exact fun hmem => absurd (Forest.ancestors_lt hmem) (Nat.not_lt.mpr he)
  · rw [List.contains_eq_mem, decide_eq_false_iff_not]
    exact fun hmem => not_mem_lineage_of_behind d.preorder hSize he
      (Forest.mem_lineage_of_restrict (Forest.mem_lineage_iff.mpr (Or.inr hmem)))

theorem mem_descendants {d : Document} {a e : Element} :
    e ∈ d.descendants a ↔ a ∈ d.holders e ∧ e < d.size := by
  simp [descendants_eq, elements, and_comm]

/-- All characters below an element in the tree of nodes, in order. -/
def textContent (d : Document) (e : Element) : String :=
  String.join <| (d.contents e).attach.map fun ⟨child, h⟩ =>
    match child, h with
    | .text content, _ => content
    | .element c, h =>
      have : d.size - c < d.size - e :=
        have ⟨hAbove, hSize⟩ := held_gt (element_mem_contents.mp h)
        Nat.sub_lt_sub_left (Nat.lt_trans hAbove hSize) hAbove
      d.textContent c
termination_by d.size - e

/-! ## Landmarks of a document -/

/-- The first element with the given `id` that can be reached from the document. -/
def elementById? (d : Document) (id : String) : Option Element :=
  d.elements.find? fun e => d.attribute? e "id" == some id && d.isAttached e

/-- The nearest member of an element's lineage with the given tag. -/
def closestTag? (d : Document) (e : Element) (tag : String) : Option Element :=
  (d.lineage e).find? fun a => d.tag a == tag

/-- The first child element with the given tag. -/
def childWithTag? (d : Document) (e : Element) (tag : String) : Option Element :=
  (d.childElements e).find? fun c => d.tag c == tag

/-- The `body` of the document, if it has one. -/
def body? (d : Document) : Option Element := d.childWithTag? 0 "body"

/--
Where a search from `e` starts by default: the `body` of its document, or the document element if
there is none. An element whose document has lost its document element stands in for it.
-/
def defaultRootOf (d : Document) (e : Element) : Element :=
  let top := if d.hasParentNode 0 then 0 else e
  (d.childWithTag? top "body").getD top

/-- Where a search starts by default: the `body`, or the document element if there is none. -/
def defaultRoot (d : Document) : Element := d.defaultRootOf 0

end Document

end AriaLocator

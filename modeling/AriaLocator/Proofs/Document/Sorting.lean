import Mathlib.Data.List.Sort
import AriaLocator.Proofs.Document.Order

/-!
# One list for each set of elements

Sorting drops an element only if it repeats the one right before it.  That no element is left twice,
and that the order of the input and its repetitions leave no trace, rests on the comparison: it has to
be one total order of the elements, in which only an element itself is equal to it.  Were two elements
equal there, they would stay in the order in which they were given; and were three of them compared in
a circle, copies of one element could end up apart.

Inside one tree of nodes the comparison is such an order.  Between trees that have been cut apart it
looks at node ids, and goes on to be one if the ids are in the order of the places, before and after
any change.  So each set of elements has exactly one list in document order there, and sorting finds
it from any list of the set.  Ids in another order can make the comparison go round in a circle.

## Main results

* `Sortable.increasing_iff`: a list is in strict document order exactly if its places increase.
* `eq_of_increasing`: each set of elements has one list in document order at most.
* `sorted_canonical`: sorting a list gives that of its set.
* `sortable_after_changes`: this goes for all elements of a document whose ids are in order.
* `order_circular`: a document whose ids are not, in which three elements go round in a circle.
-/

namespace AriaLocator

namespace Document

variable {d : Document} {es fs : List Element}

/-- Every element of the list comes before all that are listed behind it. -/
def Increasing (d : Document) (es : List Element) : Prop := es.Pairwise fun a b => d.order a b = .lt

theorem Sortable.increasing_iff (h : d.Sortable es) : d.Increasing es ↔ es.Pairwise (· < ·) := by
  refine List.Pairwise.iff_of_mem fun {a b} ha hb => ?_
  rw [h.order_eq ha hb, Nat.compare_eq_lt]

/-- Each set of elements has one list in document order at most. -/
theorem eq_of_increasing (h : d.Sortable es) (hes : d.Increasing es) (hfs : d.Increasing fs)
    (hSame : ∀ e, e ∈ fs ↔ e ∈ es) : fs = es := by
  have hOther : d.Sortable fs := h.subset fun e he => (hSame e).mp he
  exact (hOther.increasing_iff.mp hfs).eq_of_mem_iff (h.increasing_iff.mp hes) hSame

theorem Sortable.increasing_sorted (h : d.Sortable es) : d.Increasing (d.sorted es) := by
  have hSorted : d.Sortable (d.sorted es) := h.subset fun e he => mem_sorted.mp he
  exact hSorted.increasing_iff.mpr (pairwise_sorted h)

/-- Sorting elements by document order and dropping repeated neighbours gives the one list in strict
document order that holds the same elements, if they are in one tree or the ids of the document are in
the order of the places.  So the result depends on this set alone. -/
theorem sorted_canonical (h : d.Sortable es) :
    d.Increasing (d.sorted es) ∧ (∀ e, e ∈ d.sorted es ↔ e ∈ es) ∧
      (∀ fs, d.Increasing fs → (∀ e, e ∈ fs ↔ e ∈ es) → fs = d.sorted es) ∧
      ∀ fs, (∀ e, e ∈ fs ↔ e ∈ es) → d.sorted fs = d.sorted es := by
  have hSorted : d.Sortable (d.sorted es) := h.subset fun e he => mem_sorted.mp he
  have hUnique : ∀ fs, d.Increasing fs → (∀ e, e ∈ fs ↔ e ∈ es) → fs = d.sorted es := by
    intro fs hfs hSame
    apply eq_of_increasing hSorted h.increasing_sorted hfs
    intro e
    rw [hSame, mem_sorted]
  refine ⟨h.increasing_sorted, fun _ => mem_sorted, hUnique, ?_⟩
  intro fs hSame
  have hOther : d.Sortable fs := h.subset fun e he => (hSame e).mp he
  apply hUnique (d.sorted fs) hOther.increasing_sorted
  intro e
  rw [mem_sorted, hSame]

/-- However a document has been changed since it was built, with its elements created in the order of
their places, any of its elements can be sorted, attached or not. -/
theorem sortable_after_changes {built : Document} (h : built.IdsInOrder) (changes : List Change)
    (es : List Element) : (built.afterAll changes).Sortable es := .inl (h.afterAll changes)

/-- Two items of a list, the first of which has been detached, and a link inside it that went with it:
the tree that was cut off is sorted into the middle of the other one. -/
example :
    let items := [Markup.element "li" [] [.element "a" [] []], Markup.element "li" [] []]
    let d := (Document.ofElement "body" [] [.element "ul" [] items]).afterAll [.detach 2]
    d.contains 1 3 = false ∧ d.contains 1 4 = true ∧ d.Increasing [1, 2, 3, 4] := by
  intro items d
  unfold Increasing
  decide +kernel

/-! ## Ids that are not in order -/

/-- A document with other node ids. -/
def withIds (d : Document) (ids : Element → Nat) (h : ∀ {a b : Element}, ids a = ids b → a = b) :
    Document :=
  { d with ids := ids, ids_injective := h }

/-- The ids of elements created in the order of their places, except that the one at `place` was
created after all up to `last`. -/
def idsOfMoved (place last : Element) (e : Element) : Nat :=
  if e = place then max place last else if place < e ∧ e ≤ last then e - 1 else e

theorem idsOfMoved_injective {place last a b : Element}
    (h : idsOfMoved place last a = idsOfMoved place last b) : a = b := by
  simp only [idsOfMoved] at h
  split at h <;> split at h <;> grind

/-- An element that is written inside a table, where it cannot stand, is put in front of the table, but
is created after what the table holds.  Once a paragraph has been detached from the table, the element
comes before the table in their tree, the table before the paragraph by id, and the paragraph before
the element by id as well. -/
theorem order_circular :
    let cells := [Markup.element "tr" [] [.element "td" [] [.element "p" [] []]]]
    let built := Document.ofElement "body" [] [.element "div" [] [], .element "table" [] cells]
    let d := (built.withIds (idsOfMoved 1 5) idsOfMoved_injective).afterAll [.detach 5]
    d.order 1 2 = .lt ∧ d.order 2 5 = .lt ∧ d.order 5 1 = .lt := by
  intro cells built d
  decide +kernel

end Document

end AriaLocator

import AriaLocator.Proofs.Lookup.Meaning

/-!
# What fewer nodes match

A chain asks for one descendant after the other, and what lies below a descendant lies below the
base itself.  So a node in front of others can be left out: whatever the chain leads to, the rest
of it leads to as well.  With fewer nodes in front of the last one, or without `outer`, a locator
never matches less.

Where results list every match once, the number of matches goes the same way.  And a locator that
matches no more than one with further nodes matches the very same elements.

## Main results

* `Chain.of_sublist`: nodes before the last can be left out of a chain.
* `length_le_of_subset`, `subset_of_length_le`: counting matches compares sets of matches.
-/

namespace AriaLocator

namespace Document

variable {d : Document} {options : SearchOptions}

/-! ## Leaving out nodes -/

/-- A chain with a node in it can start higher up. -/
theorem Chain.from_above {n : Node} {rest : List Node} {a b e : Element}
    (h : d.Chain options (n :: rest) b e) (hab : a ∈ d.holders b) :
    d.Chain options (n :: rest) a e := by
  obtain ⟨first, hBelow, hSatisfies, hOthers⟩ := chain_cons_iff.mp h
  exact Chain.cons (holders_trans hab (mem_tree_lineage.mpr (Or.inr hBelow))) hSatisfies hOthers

/-- Nodes before the last can be left out of a chain. -/
theorem Chain.of_sublist {few many : List Node} {n : Node} {b e : Element}
    (h : d.Chain options (many ++ [n]) b e) (hSub : few.Sublist many) :
    d.Chain options (few ++ [n]) b e := by
  induction hSub generalizing b with
  | slnil => exact h
  | @cons few many n' _ ih =>
      obtain ⟨first, hBelow, -, hOthers⟩ := chain_cons_iff.mp h
      -- the chain goes on from below its base, so it goes on from the base as well
      have hRest := ih hOthers
      cases few with
      | nil => exact hRest.from_above hBelow
      | cons next few => exact hRest.from_above hBelow
  | cons_cons n' _ ih =>
      obtain ⟨first, hBelow, hSatisfies, hOthers⟩ := chain_cons_iff.mp h
      exact Chain.cons hBelow hSatisfies (ih hOthers)

/-- What a chain leads to, its last node leads to alone. -/
theorem Chain.of_last {front : List Node} {n : Node} {b e : Element}
    (h : d.Chain options (front ++ [n]) b e) : d.Chain options [n] b e :=
  h.of_sublist (List.nil_sublist front)

theorem denotes_chain_iff {nodes : List Node} {root e : Element} :
    d.Denotes options ⟨nodes, []⟩ root e ↔ d.Chain options nodes root e := denotes_iff_of_plain rfl

/-! ## Counting matches -/

section Counting

variable {es fs : List Element}

/-- A list that has each element of another one is at least as long. -/
theorem length_le_of_subset (hOrder : es.Pairwise (· < ·)) (hSub : es ⊆ fs) :
    es.length ≤ fs.length :=
  (List.subperm_of_subset (hOrder.imp Nat.ne_of_lt) hSub).length_le

/-- If it is no longer, it has no other elements. -/
theorem subset_of_length_le (hOrder : es.Pairwise (· < ·)) (hSub : es ⊆ fs)
    (hLength : fs.length ≤ es.length) : fs ⊆ es :=
  ((List.subperm_of_subset (hOrder.imp Nat.ne_of_lt) hSub).perm_of_length_le hLength).symm.subset

end Counting

end Document

end AriaLocator

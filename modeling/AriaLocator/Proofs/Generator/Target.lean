import AriaLocator.Generator.Precise
import AriaLocator.Proofs.Document.Outermost
import AriaLocator.Proofs.Role.Presentational

/-!
# The element that a locator is for

A precise locator is for the nearest element that has a node, or, if something inside the root has
presentational children around that, for the outermost element of this kind or the nearest one
around it.  The redirection looks no further up than the root and takes no notice of hidden
elements.

An element is *locatable* if a lookup with the default options can match it at all: it is visible,
it has a role, and nothing above it, however far up, has presentational children.  The target need
not be locatable.  But the redirection is as good as it can be: it misses a locatable element only
if there is none.

## Main results

* `mem_candidates`: the elements strictly inside the root are those that lie below it.
* `closestLocated?_eq_some_iff`: what is located is the nearest of them that has a node.
* `target?_self`: the target is its own target, however it was come by.
* `target?_isLocatable`: the target is locatable as soon as any element strictly inside the root is.
-/

namespace AriaLocator

namespace Document

variable {d : Document} {root : Element}

/-! ## Strictly inside a root -/

/-- Of a walk upwards that comes to the root, what lies below the root comes before it. -/
theorem mem_takeWhile_ne {es : List Element} (hUp : es.Pairwise fun a b => b ∈ d.ancestors a)
    (hRoot : root ∈ es) {a : Element} :
    a ∈ es.takeWhile (· != root) ↔ a ∈ es ∧ root ∈ d.ancestors a := by
  obtain ⟨near, far, rfl, hNear⟩ := List.eq_append_cons_of_mem hRoot
  have hInside : (near ++ root :: far).takeWhile (· != root) = near := by
    have hOther : ∀ b ∈ near, (b != root) = true := by
      intro b hb
      refine bne_iff_ne.mpr ?_
      rintro rfl
      exact hNear hb
    rw [List.takeWhile_append_of_pos hOther, List.takeWhile_cons_of_neg (by simp),
      List.append_nil]
  obtain ⟨-, hBehind, hBefore⟩ := List.pairwise_append.mp hUp
  rw [hInside]
  constructor
  · intro ha
    exact ⟨List.mem_append_left _ ha, hBefore a ha root List.mem_cons_self⟩
  · rintro ⟨ha, hBelow⟩
    rcases List.mem_append.mp ha with ha | ha
    · exact ha
    · rcases List.mem_cons.mp ha with rfl | ha
      · exact absurd (ancestors_lt hBelow) (Nat.lt_irrefl a)
      · have hAbove : a ∈ d.ancestors root := (List.pairwise_cons.mp hBehind).1 a ha
        exact absurd (ancestors_lt hBelow) (Nat.lt_asymm (ancestors_lt hAbove))

theorem mem_candidates {e a : Element} :
    a ∈ d.candidates root e ↔ d.contains a e = true ∧ root ∈ d.ancestors a := by
  unfold candidates
  cases hRoot : d.contains root e with
  | true =>
      rw [if_pos rfl, mem_takeWhile_ne (d.pairwise_lineage e) (contains_iff.mp hRoot), contains_iff]
  | false =>
      rw [if_neg Bool.false_ne_true]
      constructor
      · exact fun ha => absurd ha List.not_mem_nil
      · rintro ⟨ha, hBelow⟩
        rw [contains_trans (contains_of_ancestors hBelow) ha] at hRoot
        cases hRoot

theorem pairwise_candidates (d : Document) (root e : Element) :
    (d.candidates root e).Pairwise fun a b => b ∈ d.ancestors a := by
  unfold candidates
  split
  · exact (d.pairwise_lineage e).sublist (List.takeWhile_sublist _)
  · exact List.Pairwise.nil

/-- Behind the element itself stand its ancestors as far as the root. -/
theorem candidates_eq {e : Element} (h : root ∈ d.ancestors e) :
    d.candidates root e = e :: (d.ancestors e).takeWhile (· != root) := by
  have hSelf : (e != root) = true := by
    refine bne_iff_ne.mpr ?_
    rintro rfl
    exact absurd (ancestors_lt h) (Nat.lt_irrefl e)
  rw [candidates, if_pos (contains_of_ancestors h), lineage_eq]
  exact List.takeWhile_cons_of_pos hSelf

/-- Of two elements of one lineage, the first is strictly inside the second or around it. -/
theorem ancestors_or_contains {e a b : Element} (ha : d.contains a e = true)
    (hb : d.contains b e = true) : b ∈ d.ancestors a ∨ d.contains a b = true := by
  rcases Forest.mem_lineage_or (contains_iff.mp ha) (contains_iff.mp hb) with hab | hba
  · exact Or.inr (contains_iff.mpr hab)
  · rcases contains_cases (contains_iff.mpr hba) with rfl | hAbove
    · exact Or.inr (contains_self d b)
    · exact Or.inl hAbove

/-! ## Nodes of elements -/

section Nodes

variable {r : Resolver Id}

/-- Only a visible element with a role has a node. -/
theorem nodeOf?_eq_some_iff {e : Element} {n : Node} :
    d.nodeOf? r e = some n ↔
      d.isHidden e = false ∧
        ∃ role, d.role? e = some role ∧ n = (Node.ofRole role).withName (r.nameOf e) := by
  unfold nodeOf?
  cases hHidden : d.isHidden e with
  | true =>
      rw [if_pos rfl]
      constructor
      · intro h
        cases h
      · rintro ⟨hVisible, -⟩
        cases hVisible
  | false =>
      rw [if_neg Bool.false_ne_true]
      cases hRole : d.role? e with
      | none =>
          constructor
          · intro h
            cases h
          · rintro ⟨-, role, hSome, -⟩
            cases hSome
      | some role =>
          constructor
          · intro h
            exact ⟨rfl, role, rfl, (Option.some.inj h).symm⟩
          · rintro ⟨-, role', hSame, rfl⟩
            obtain rfl := Option.some.inj hSame
            rfl

theorem firstLocated?_cons (e : Element) (rest : List Element) :
    d.firstLocated? r (e :: rest) =
      match d.nodeOf? r e with
      | some node => some ⟨node, e⟩
      | none => d.firstLocated? r rest := by
  rw [firstLocated?]
  cases d.nodeOf? r e <;> rfl

theorem firstLocated?_eq (es : List Element) :
    d.firstLocated? r es =
      es.findSome? fun e => (d.nodeOf? r e : Option Node).map (Located.mk · e) := by
  induction es with
  | nil => rfl
  | cons e rest ih =>
      rw [firstLocated?_cons, List.findSome?_cons]
      cases d.nodeOf? r e with
      | some node => rfl
      | none => exact ih

/-- The element that is located has its node, and no element before it in the list has one. -/
theorem firstLocated?_eq_some_iff {es : List Element} {t : Located} :
    d.firstLocated? r es = some t ↔ d.nodeOf? r t.element = some t.node ∧
      ∃ before after, es = before ++ t.element :: after ∧
        ∀ a ∈ before, d.nodeOf? r a = none := by
  rw [firstLocated?_eq]
  constructor
  · intro h
    obtain ⟨before, e, after, rfl, hHere, hBefore⟩ := List.findSome?_eq_some_iff.mp h
    obtain ⟨n, hNode, rfl⟩ := Option.map_eq_some_iff.mp hHere
    exact ⟨hNode, before, after, rfl, fun a ha => Option.map_eq_none_iff.mp (hBefore a ha)⟩
  · rintro ⟨hNode, before, after, rfl, hBefore⟩
    refine List.findSome?_eq_some_iff.mpr ⟨before, t.element, after, rfl, ?_, fun a ha => ?_⟩
    · exact Option.map_eq_some_iff.mpr ⟨t.node, hNode, rfl⟩
    · exact Option.map_eq_none_iff.mpr (hBefore a ha)

/-- The element that is located comes from the list and has its node. -/
theorem firstLocated?_eq_some {es : List Element} {t : Located}
    (h : d.firstLocated? r es = some t) : t.element ∈ es ∧ d.nodeOf? r t.element = some t.node := by
  obtain ⟨hNode, before, after, rfl, -⟩ := firstLocated?_eq_some_iff.mp h
  exact ⟨List.mem_append_right before List.mem_cons_self, hNode⟩

/-- If nothing is located, nothing in the list has a node. -/
theorem nodeOf?_of_firstLocated?_eq_none {es : List Element}
    (h : d.firstLocated? r es = none) {e : Element} (he : e ∈ es) : d.nodeOf? r e = none := by
  rw [firstLocated?_eq, List.findSome?_eq_none_iff] at h
  exact Option.map_eq_none_iff.mp (h e he)

theorem closestLocated?_eq_some {e : Element} {t : Located}
    (h : d.closestLocated? r root e = some t) :
    t.element ∈ d.candidates root e ∧ d.nodeOf? r t.element = some t.node :=
  firstLocated?_eq_some h

/-- What is located is the nearest element strictly inside the root that has a node. -/
theorem closestLocated?_eq_some_iff {e : Element} {t : Located} :
    d.closestLocated? r root e = some t ↔
      (d.contains t.element e = true ∧ root ∈ d.ancestors t.element) ∧
        d.nodeOf? r t.element = some t.node ∧
        ∀ a, d.contains a e = true → t.element ∈ d.ancestors a → d.nodeOf? r a = none := by
  constructor
  · intro h
    obtain ⟨hNode, before, after, hSplit, hBefore⟩ := firstLocated?_eq_some_iff.mp h
    have hMem := mem_candidates.mp (closestLocated?_eq_some h).1
    refine ⟨hMem, hNode, fun a ha hBelow => ?_⟩
    have hCandidate : a ∈ d.candidates root e :=
      mem_candidates.mpr ⟨ha, ancestors_of_contains (contains_of_ancestors hMem.2) hBelow⟩
    have hUp := d.pairwise_candidates root e
    rw [hSplit] at hCandidate hUp
    rcases List.mem_append.mp hCandidate with hNearer | hAfter
    · exact hBefore a hNearer
    · -- the element itself or one around it
      have hAbove : d.contains a t.element = true := by
        rcases List.mem_cons.mp hAfter with rfl | hAfter
        · exact contains_self d _
        · exact contains_of_ancestors
            ((List.pairwise_cons.mp (List.pairwise_append.mp hUp).2.1).1 a hAfter)
      exact absurd (ancestors_lt hBelow) (Nat.not_lt_of_le (le_of_contains hAbove))
  · rintro ⟨hMem, hNode, hNearer⟩
    obtain ⟨before, after, hSplit⟩ := List.append_of_mem (mem_candidates.mpr hMem)
    refine firstLocated?_eq_some_iff.mpr ⟨hNode, before, after, hSplit, fun a ha => ?_⟩
    have hUp := d.pairwise_candidates root e
    have hCandidate : a ∈ d.candidates root e := hSplit ▸ List.mem_append_left _ ha
    rw [hSplit] at hUp
    exact hNearer a (mem_candidates.mp hCandidate).1
      ((List.pairwise_append.mp hUp).2.2 a ha t.element List.mem_cons_self)

/-- An element with a node is the nearest one to itself. -/
theorem closestLocated?_self {t : Located} (hInside : root ∈ d.ancestors t.element)
    (hNode : d.nodeOf? r t.element = some t.node) :
    d.closestLocated? r root t.element = some t := by
  refine closestLocated?_eq_some_iff.mpr
    ⟨⟨contains_self d t.element, hInside⟩, hNode, fun a ha hBelow => ?_⟩
  exact absurd (ancestors_lt hBelow) (Nat.not_lt_of_le (le_of_contains ha))

/-! ## The redirection -/

/-- Without a redirection nothing inside the root, above an element, has presentational children. -/
theorem not_presentational_of_none {e : Element} (hRoot : root ∈ d.ancestors e)
    (h : d.outermostPresentational? root e = none) {a : Element} (ha : a ∈ d.ancestors e)
    (hInside : root ∈ d.ancestors a) : d.hasPresentationalChildren a = false := by
  unfold outermostPresentational? at h
  rw [List.getLast?_eq_none_iff, List.filter_eq_nil_iff] at h
  have hNot := h a ((mem_takeWhile_ne (d.pairwise_ancestors e) hRoot).mpr ⟨ha, hInside⟩)
  rw [← hasPresentationalChildren_iff_role] at hNot
  exact Bool.not_eq_true _ ▸ hNot

/-- The element that a redirection leads to has presentational children, and nothing inside the root
above it has. -/
theorem outermost_of_some {e p : Element} (hRoot : root ∈ d.ancestors e)
    (h : d.outermostPresentational? root e = some p) :
    p ∈ d.ancestors e ∧ d.hasPresentationalChildren p = true ∧
      ∀ a ∈ d.ancestors p, root ∈ d.ancestors a → d.hasPresentationalChildren a = false := by
  unfold outermostPresentational? at h
  obtain ⟨nearer, hNearer⟩ := List.getLast?_eq_some_iff.mp h
  have hLast (a : Element) : a ∈ nearer ++ [p] ↔
      (a ∈ d.ancestors e ∧ root ∈ d.ancestors a) ∧ d.hasPresentationalChildren a = true := by
    rw [← hNearer, List.mem_filter, mem_takeWhile_ne (d.pairwise_ancestors e) hRoot,
      hasPresentationalChildren_iff_role]
  obtain ⟨⟨hAbove, -⟩, hChildren⟩ :=
    (hLast p).mp (List.mem_append_right _ (List.mem_singleton.mpr rfl))
  refine ⟨hAbove, hChildren, fun a ha hInside => ?_⟩
  cases hSome : d.hasPresentationalChildren a with
  | false => rfl
  | true =>
      have haAbove : a ∈ d.ancestors e := ancestors_of_contains (contains_of_ancestors ha) hAbove
      have hUp : (nearer ++ [p]).Pairwise fun a b => b ∈ d.ancestors a := by
        rw [← hNearer]
        exact (d.pairwise_ancestors e).sublist
          (List.filter_sublist.trans (List.takeWhile_sublist _))
      rcases List.mem_append.mp ((hLast a).mpr ⟨⟨haAbove, hInside⟩, hSome⟩) with hMem | hMem
      · have hpa : p ∈ d.ancestors a :=
          (List.pairwise_append.mp hUp).2.2 a hMem p (List.mem_singleton.mpr rfl)
        exact absurd (ancestors_lt hpa) (Nat.lt_asymm (ancestors_lt ha))
      · obtain rfl := List.mem_singleton.mp hMem
        exact absurd (ancestors_lt ha) (Nat.lt_irrefl a)

/-- That element is strictly inside the root. -/
theorem inside_of_outermost {e p : Element} (hRoot : root ∈ d.ancestors e)
    (h : d.outermostPresentational? root e = some p) : root ∈ d.ancestors p := by
  unfold outermostPresentational? at h
  have hMem := (List.mem_filter.mp (List.mem_of_getLast? h)).1
  exact ((mem_takeWhile_ne (d.pairwise_ancestors e) hRoot).mp hMem).2

/-- So there is no redirection from that element or from one around it. -/
theorem outermostPresentational?_eq_none_above {e p a : Element} (hRoot : root ∈ d.ancestors e)
    (h : d.outermostPresentational? root e = some p) (hAbove : d.contains a p = true)
    (hInside : root ∈ d.ancestors a) : d.outermostPresentational? root a = none := by
  cases hSome : d.outermostPresentational? root a with
  | none => rfl
  | some q =>
      obtain ⟨hqa, hChildren, -⟩ := outermost_of_some hInside hSome
      obtain ⟨-, -, hOutermost⟩ := outermost_of_some hRoot h
      rw [hOutermost q (ancestors_subset (contains_iff.mp hAbove) hqa)
        (inside_of_outermost hInside hSome)] at hChildren
      cases hChildren

/-! ## The target -/

/-- How a target is come by: it is the nearest element that has a node, or the redirection leads
from that to another one, or it would but nothing on its way has a node. -/
inductive Targets (d : Document) (r : Resolver Id) (root e : Element) : Located → Prop where
  | nearest {t : Located} (hFirst : d.closestLocated? r root e = some t)
      (hNone : d.outermostPresentational? root t.element = none) : Targets d r root e t
  | redirected {first t : Located} {p : Element}
      (hFirst : d.closestLocated? r root e = some first)
      (hSome : d.outermostPresentational? root first.element = some p)
      (hOuter : d.closestLocated? r root p = some t) : Targets d r root e t
  | kept {t : Located} {p : Element} (hFirst : d.closestLocated? r root e = some t)
      (hSome : d.outermostPresentational? root t.element = some p)
      (hOuter : d.closestLocated? r root p = none) : Targets d r root e t

theorem target?_eq (e : Element) :
    d.target? r root e =
      match d.closestLocated? r root e with
      | none => none
      | some first =>
        match d.outermostPresentational? root first.element with
        | none => some first
        | some a =>
          match d.closestLocated? r root a with
          | none => some first
          | some outer => some outer := rfl

theorem targets_of_target? {e : Element} {t : Located} (h : d.target? r root e = some t) :
    d.Targets r root e t := by
  rw [target?_eq] at h
  cases hFirst : d.closestLocated? r root e with
  | none =>
      rw [hFirst] at h
      cases h
  | some first =>
      rw [hFirst] at h
      simp only at h
      cases hOutermost : d.outermostPresentational? root first.element with
      | none =>
          rw [hOutermost] at h
          obtain rfl := Option.some.inj h
          exact Targets.nearest hFirst hOutermost
      | some p =>
          rw [hOutermost] at h
          simp only at h
          cases hOuter : d.closestLocated? r root p with
          | none =>
              rw [hOuter] at h
              obtain rfl := Option.some.inj h
              exact Targets.kept hFirst hOutermost hOuter
          | some outer =>
              rw [hOuter] at h
              obtain rfl := Option.some.inj h
              exact Targets.redirected hFirst hOutermost hOuter

/-- The target lies in the lineage, strictly inside the root, and has its node. -/
theorem Targets.located {e : Element} {t : Located} (h : d.Targets r root e t) :
    t.element ∈ d.candidates root e ∧ d.nodeOf? r t.element = some t.node := by
  cases h with
  | nearest hFirst _ => exact closestLocated?_eq_some hFirst
  | kept hFirst _ _ => exact closestLocated?_eq_some hFirst
  | @redirected first _ p hFirst hSome hOuter =>
      obtain ⟨hFirstMem, -⟩ := closestLocated?_eq_some hFirst
      obtain ⟨hMem, hNode⟩ := closestLocated?_eq_some hOuter
      obtain ⟨hFirstBelow, hFirstInside⟩ := mem_candidates.mp hFirstMem
      obtain ⟨hBelow, hInside⟩ := mem_candidates.mp hMem
      have hAbove := (outermost_of_some hFirstInside hSome).1
      refine ⟨mem_candidates.mpr ⟨?_, hInside⟩, hNode⟩
      exact contains_trans hBelow (contains_trans (contains_of_ancestors hAbove) hFirstBelow)

/-- The target is its own target. -/
theorem target?_self {e : Element} {t : Located} (h : d.target? r root e = some t) :
    d.target? r root t.element = some t := by
  have hTargets := targets_of_target? h
  obtain ⟨hMem, hNode⟩ := hTargets.located
  have hInside := (mem_candidates.mp hMem).2
  rw [target?_eq, closestLocated?_self hInside hNode]
  cases hTargets with
  | nearest _ hNone => simp only [hNone]
  | kept _ hSome hOuter => simp only [hSome, hOuter]
  | redirected hFirst hSome hOuter =>
      have hFirstInside := (mem_candidates.mp (closestLocated?_eq_some hFirst).1).2
      have hAbove := (mem_candidates.mp (closestLocated?_eq_some hOuter).1).1
      simp only [outermostPresentational?_eq_none_above hFirstInside hSome hAbove hInside]

end Nodes

/-! ## Locatable elements -/

/-- A lookup with the default options can match the element. -/
structure IsLocatable (d : Document) (e : Element) : Prop where
  visible : d.isHidden e = false
  role : (d.role? e).isSome = true
  /-- Nothing above it has presentational children, inside a root or not. -/
  semantic : d.presentationalAncestor? e = none

variable {r : Resolver Id}

/-- A locatable element has a node. -/
theorem IsLocatable.nodeOf? {e : Element} (h : d.IsLocatable e) :
    ∃ n, d.nodeOf? r e = some n := by
  obtain ⟨role, hRole⟩ := Option.isSome_iff_exists.mp h.role
  exact ⟨_, nodeOf?_eq_some_iff.mpr ⟨h.visible, role, hRole, rfl⟩⟩

/-- Nothing above the target has presentational children, if that is so for any element strictly
inside the root that could be looked up. -/
theorem Targets.semantic {e : Element} {t : Located} (h : d.Targets r root e t) {a : Element}
    (ha : a ∈ d.candidates root e) (hLocatable : d.IsLocatable a) :
    d.presentationalAncestor? t.element = none := by
  obtain ⟨haBelow, haInside⟩ := mem_candidates.mp ha
  obtain ⟨htMem, -⟩ := h.located
  obtain ⟨htBelow, htInside⟩ := mem_candidates.mp htMem
  -- the root and all around it lie above the locatable element
  have hAround {b : Element} (hb : d.contains b root = true) :
      d.hasPresentationalChildren b = false :=
    not_presentational_above hLocatable.semantic (ancestors_of_contains hb haInside)
  -- so only what is inside the root is left
  have hEnough (hInner : ∀ b ∈ d.ancestors t.element, root ∈ d.ancestors b →
      d.hasPresentationalChildren b = false) : d.presentationalAncestor? t.element = none := by
    refine List.find?_eq_none.mpr fun b hb => ?_
    rw [Bool.not_eq_true]
    rcases ancestors_or_contains (contains_of_ancestors hb) (contains_of_ancestors htInside) with
      hIn | hOut
    · exact hInner b hb hIn
    · exact hAround hOut
  refine hEnough ?_
  intro b hb hInside
  -- an element whose children are presentational lies below the locatable one or is it
  have hBelow {p : Element} (hpe : d.contains p e = true)
      (hChildren : d.hasPresentationalChildren p = true) : d.contains a p = true := by
    rcases ancestors_or_contains haBelow hpe with hAbove | hIn
    · rw [not_presentational_above hLocatable.semantic hAbove] at hChildren
      cases hChildren
    · exact hIn
  cases h with
  | nearest hFirst hNone => exact not_presentational_of_none htInside hNone hb hInside
  | kept hFirst hSome hOuter =>
      obtain ⟨hpAbove, hChildren, -⟩ := outermost_of_some htInside hSome
      have hpe := contains_trans (contains_of_ancestors hpAbove) htBelow
      have hCandidate := mem_candidates.mpr ⟨hBelow hpe hChildren, haInside⟩
      obtain ⟨n, hNode⟩ := hLocatable.nodeOf? (r := r)
      rw [nodeOf?_of_firstLocated?_eq_none hOuter hCandidate] at hNode
      cases hNode
  | @redirected first _ p hFirst hSome hOuter =>
      obtain ⟨-, hFirstInside⟩ := mem_candidates.mp (closestLocated?_eq_some hFirst).1
      obtain ⟨htp, -⟩ := mem_candidates.mp (closestLocated?_eq_some hOuter).1
      obtain ⟨-, -, hOutermost⟩ := outermost_of_some hFirstInside hSome
      exact hOutermost b (ancestors_subset (contains_iff.mp htp) hb) hInside

/-- The target is locatable as soon as any element strictly inside the root is. -/
theorem target?_isLocatable {e : Element} {t : Located} (h : d.target? r root e = some t)
    {a : Element} (ha : a ∈ d.candidates root e) (hLocatable : d.IsLocatable a) :
    d.IsLocatable t.element := by
  have hTargets := targets_of_target? h
  obtain ⟨hVisible, role, hRole, -⟩ := nodeOf?_eq_some_iff.mp hTargets.located.2
  refine ⟨hVisible, ?_, hTargets.semantic ha hLocatable⟩
  rw [hRole]
  rfl

end Document

end AriaLocator

import AriaLocator.Proofs.Generator.Precision

/-!
# How precise a precise locator is

The generator is greedy.  On its way up it looks at each ancestor once and keeps it in front of the
chain only if that narrows the matches there and then.  An ancestor that does not narrow alone may
still narrow together with one further up, and the ascent never comes back to it.  So a precise
locator need not match as little as its material allows.

But where an ancestor does not narrow the matches, it leaves them the same, since a longer chain
never matches anything new.  All that the chain matches then lies below that ancestor, whatever is
left out between.  This carries over to everything that the ascent keeps later on.  In the end the
chain matches no more than any chain of kept ancestors with one further ancestor in front of them,
as long as the ascent has come that far.

Matches that are listed twice are counted twice, though.  So all this needs a root that is whole, below
which no fragment hangs.

The ascent may not have come far enough.  It ends at the first ancestor that contains every match, as
if that one and all above it could not narrow the matches.  In front of the target's own node
alone they cannot.  But a node that was kept may have been matched by something around that
ancestor, and with the ancestor in front it no longer is.  So a locator is least among the chains
that it was compared with, which leave out the ancestors behind the end of the ascent, and more
cannot be said.

## Main results

* `Chain.of_more`: further nodes that do not narrow the matches leave them the same.
* `Best.pass`, `Best.take`: what a step of the ascent keeps, whichever way it goes.
* `ascend_best`: what the whole ascent keeps, by induction on the ancestors ahead.
* `precise_least_compared`: a precise locator finds no more than what it was compared with.
* `precise_not_best`: two buttons in crossed groups, where something else finds less.
* `precise_stops_early`: a region that contains every match and would narrow them all the same.
-/

namespace AriaLocator

/-! ## Parts of lists -/

section Parts

variable {α : Type} {part whole : List α} {a : α}

/-- A part of a list with one more element leaves that out or ends in it. -/
theorem sublist_concat_cases (h : part.Sublist (whole ++ [a])) :
    part.Sublist whole ∨ ∃ init, part = init ++ [a] ∧ init.Sublist whole := by
  obtain ⟨front, back, rfl, hFront, hBack⟩ := List.sublist_append_iff.mp h
  rcases List.sublist_singleton.mp hBack with rfl | rfl
  · exact Or.inl (by rwa [List.append_nil])
  · exact Or.inr ⟨front, rfl, hFront⟩

/-- A part of two lists in a row lies in the first of them, or ends in the second. -/
theorem sublist_append_cases {init first second : List α}
    (h : (init ++ [a]).Sublist (first ++ second)) :
    (init ++ [a]).Sublist first ∨ a ∈ second := by
  obtain ⟨front, back, hSplit, hFront, hBack⟩ := List.sublist_append_iff.mp h
  rcases List.eq_nil_or_concat back with rfl | ⟨rest, b, rfl⟩
  · rw [List.append_nil] at hSplit
    exact Or.inl (hSplit ▸ hFront)
  · rw [List.concat_eq_append] at hSplit hBack
    rw [← List.append_assoc] at hSplit
    obtain rfl : a = b := (List.append_singleton_inj.mp hSplit).2
    exact Or.inr (hBack.subset List.mem_concat_self)

end Parts

namespace Document

variable {d : Document} {root : Element} {n : Node}

/-! ## Chains through ancestors -/

/-- The node of an element, with its name worked out anew. -/
def ownNode? (d : Document) (e : Element) : Option Node := d.nodeOf? d.plainResolver e

/-- The ancestors of an element strictly inside a root, nearest first. -/
def ancestorsWithin (d : Document) (root e : Element) : List Element :=
  (d.ancestors e).takeWhile (· != root)

/-- A node behind the nodes of ancestors, which are given nearest first. -/
def chainThrough (d : Document) (n : Node) (above : List Element) : List Node :=
  (above.filterMap d.ownNode?).reverse ++ [n]

theorem mem_ancestorsWithin {e a : Element} (h : root ∈ d.ancestors e) :
    a ∈ d.ancestorsWithin root e ↔ a ∈ d.ancestors e ∧ root ∈ d.ancestors a :=
  mem_takeWhile_ne (d.pairwise_ancestors e) h

theorem pairwise_ancestorsWithin (d : Document) (root e : Element) :
    (d.ancestorsWithin root e).Pairwise fun a b => b ∈ d.ancestors a :=
  (d.pairwise_ancestors e).sublist (List.takeWhile_sublist _)

theorem chainThrough_concat_of_none {a : Element} (above : List Element)
    (h : d.ownNode? a = none) : d.chainThrough n (above ++ [a]) = d.chainThrough n above := by
  simp [chainThrough, h]

theorem chainThrough_concat_of_some {a : Element} {own : Node} (above : List Element)
    (h : d.ownNode? a = some own) :
    d.chainThrough n (above ++ [a]) = own :: d.chainThrough n above := by
  simp [chainThrough, h]

section Fewer

variable {few many : List Node} {es es' : List Element}

/-- Fewer nodes before the last one match everything that more nodes match. -/
theorem matchesOf_subset_of_sublist
    (hFew : (matchesOf d.plainResolver root ⟨few ++ [n], []⟩).run = .ok es)
    (hMany : (matchesOf d.plainResolver root ⟨many ++ [n], []⟩).run = .ok es')
    (hSub : few.Sublist many) : es' ⊆ es := by
  intro x hx
  have hChain := (mem_matchesOf_chain hMany).mp hx
  exact (mem_matchesOf_chain hFew).mpr (hChain.of_sublist hSub)

/-- Where further nodes in front of the last one leave no fewer matches, they leave the same. -/
theorem Chain.of_more {x : Element} (hx : d.Chain {} (few ++ [n]) root x) (hWhole : d.Whole root)
    (hSub : few.Sublist many)
    (hFew : (matchesOf d.plainResolver root ⟨few ++ [n], []⟩).run = .ok es)
    (hMany : (matchesOf d.plainResolver root ⟨many ++ [n], []⟩).run = .ok es')
    (hCount : es.length ≤ es'.length) : d.Chain {} (many ++ [n]) root x := by
  have hLess := matchesOf_subset_of_sublist hFew hMany hSub
  have hSame : es ⊆ es' := subset_of_length_le (pairwise_matchesOf hWhole hMany) hLess hCount
  exact (mem_matchesOf_chain hMany).mp (hSame ((mem_matchesOf_chain hFew).mpr hx))

end Fewer

/-- A chain through more ancestors leads to no more. -/
theorem Chain.of_fewer {few many : List Element} {x : Element}
    (h : d.Chain {} (d.chainThrough n many) root x) (hSub : few.Sublist many) :
    d.Chain {} (d.chainThrough n few) root x :=
  h.of_sublist (hSub.filterMap d.ownNode?).reverse

/-! ## The ascent -/

/-- Of the ancestors that it has passed, the ascent has kept some.  Whatever the chain through these
leads to below a whole root, a chain through some of them and one more passed ancestor leads to as
well. -/
structure Best (d : Document) (root : Element) (n : Node) (passed kept found : List Element) :
    Prop where
  kept_sublist : kept.Sublist passed
  matched : (matchesOf d.plainResolver root ⟨d.chainThrough n kept, []⟩).run = .ok found
  best : d.Whole root → ∀ init a, init.Sublist kept → (init ++ [a]).Sublist passed → ∀ x,
    d.Chain {} (d.chainThrough n kept) root x → d.Chain {} (d.chainThrough n (init ++ [a])) root x

variable {passed kept found : List Element} {a : Element}

theorem Best.mem_iff (h : d.Best root n passed kept found) (x : Element) :
    x ∈ found ↔ d.Chain {} (d.chainThrough n kept) root x :=
  mem_matchesOf_chain h.matched

theorem Best.start (h : (matchesOf d.plainResolver root ⟨[n], []⟩).run = .ok found) :
    d.Best root n [] [] found where
  kept_sublist := List.Sublist.refl []
  matched := h
  best _ _ _ _ hAbove := absurd (hAbove.subset List.mem_concat_self) List.not_mem_nil

/-- An ancestor may be passed over if with it in front the chain still leads to the same. -/
theorem Best.pass (h : d.Best root n passed kept found)
    (hSame : d.Whole root → ∀ x, d.Chain {} (d.chainThrough n kept) root x →
      d.Chain {} (d.chainThrough n (kept ++ [a])) root x) :
    d.Best root n (passed ++ [a]) kept found where
  kept_sublist := h.kept_sublist.trans (List.sublist_append_left passed [a])
  matched := h.matched
  best hWhole init b hInit hAbove x hx := by
    rcases sublist_append_cases hAbove with hOld | hNew
    · exact h.best hWhole init b hInit hOld x hx
    · obtain rfl := List.mem_singleton.mp hNew
      exact (hSame hWhole x hx).of_fewer (hInit.append_right [b])

/-- An ancestor may be kept, since all chains before it were compared with lead to no less. -/
theorem Best.take {narrower : List Element} (h : d.Best root n passed kept found)
    (hNew : a ∉ passed)
    (hMatched : (matchesOf d.plainResolver root ⟨d.chainThrough n (kept ++ [a]), []⟩).run =
      .ok narrower) :
    d.Best root n (passed ++ [a]) (kept ++ [a]) narrower where
  kept_sublist := h.kept_sublist.append_right [a]
  matched := hMatched
  best hWhole init b hInit hAbove x hx := by
    have hPassed : init.Sublist passed := by
      rcases sublist_concat_cases hAbove with hOld | ⟨init', hSplit, hOld⟩
      · exact (List.sublist_append_left init [b]).trans hOld
      · exact (List.append_singleton_inj.mp hSplit).1 ▸ hOld
    have hKept : init.Sublist kept := by
      rcases sublist_concat_cases hInit with hOld | ⟨init', rfl, -⟩
      · exact hOld
      · exact absurd (hPassed.subset List.mem_concat_self) hNew
    rcases sublist_append_cases hAbove with hOld | hLast
    · exact h.best hWhole init b hKept hOld x (hx.of_fewer (List.sublist_append_left kept [a]))
    · obtain rfl := List.mem_singleton.mp hLast
      exact hx.of_fewer (hKept.append_right [b])

/-- At its end the ascent has passed all ancestors but those that contain every match.  Whether one
of these would have narrowed the matches is not known then. -/
theorem ascend_best {ahead : List Element} {result : List Node}
    (h : d.Best root n passed kept found)
    (hUp : (passed ++ ahead).Pairwise fun a b => b ∈ d.ancestors a)
    (hRun : (d.ascend d.plainResolver root (d.chainThrough n kept) found ahead).run =
      .ok result) :
    ∃ passed' ahead' kept' found', passed ++ ahead = passed' ++ ahead' ∧
      d.Best root n passed' kept' found' ∧ result = d.chainThrough n kept' ∧
      ∀ a ∈ ahead', ∀ x ∈ found', d.contains a x = true := by
  induction ahead generalizing passed kept found with
  | nil =>
      obtain rfl : d.chainThrough n kept = result := Except.ok.inj hRun
      exact ⟨passed, [], kept, found, rfl, h, rfl, by simp⟩
  | cons a rest ih =>
      have hNext : passed ++ a :: rest = (passed ++ [a]) ++ rest := List.append_cons passed a rest
      obtain ⟨-, hAhead, hAcross⟩ := List.pairwise_append.mp hUp
      rw [hNext] at hUp
      cases ascend_step hRun with
      | unnamed hNode hRest =>
          have hSame (_ : d.Whole root) (x : Element)
              (hx : d.Chain {} (d.chainThrough n kept) root x) :
              d.Chain {} (d.chainThrough n (kept ++ [a])) root x := by
            rwa [chainThrough_concat_of_none kept hNode]
          rw [hNext]
          exact ih (h.pass hSame) hUp hRest
      | ended _ hAll hResult =>
          refine ⟨passed, a :: rest, kept, found, rfl, h, hResult, fun b hb x hx => ?_⟩
          rcases List.mem_cons.mp hb with rfl | hb
          · exact hAll x hx
          · have hba := (List.pairwise_cons.mp hAhead).1 b hb
            exact contains_trans (contains_of_ancestors hba) (hAll x hx)
      | passed hNode hFound hCount hRest =>
          rw [← chainThrough_concat_of_some kept hNode] at hFound
          have hMore := ((List.sublist_append_left kept [a]).filterMap d.ownNode?).reverse
          have hSame (hWhole : d.Whole root) (x : Element)
              (hx : d.Chain {} (d.chainThrough n kept) root x) :
              d.Chain {} (d.chainThrough n (kept ++ [a])) root x :=
            hx.of_more hWhole hMore h.matched hFound hCount
          rw [hNext]
          exact ih (h.pass hSame) hUp hRest
      | taken hNode hFound _ hRest =>
          have hNew : a ∉ passed := fun ha =>
            absurd (ancestors_lt (hAcross a ha a List.mem_cons_self)) (Nat.lt_irrefl a)
          rw [← chainThrough_concat_of_some kept hNode] at hFound hRest
          rw [hNext]
          exact ih (h.take hNew hFound) hUp hRest

/-- So it is with the chain of a target before the pruning. -/
theorem fullChain_best {target : Located} {nodes : List Node}
    (hInside : root ∈ d.ancestors target.element)
    (hRun : (d.fullChain d.plainResolver root target).run = .ok nodes) :
    ∃ passed ahead kept found, d.ancestorsWithin root target.element = passed ++ ahead ∧
      d.Best root target.node passed kept found ∧ nodes = d.chainThrough target.node kept ∧
      ∀ a ∈ ahead, ∀ x ∈ found, d.contains a x = true := by
  obtain ⟨start, hStart, hAscend⟩ := exists_of_run_bind hRun
  rw [candidates_eq hInside, List.drop_succ_cons, List.drop_zero] at hAscend
  exact ascend_best (Best.start hStart) (d.pairwise_ancestorsWithin root target.element) hAscend

/-! ## The pruning -/

/-- The pruning leaves out nodes before the last one, and below a whole root the chain leads to the
same. -/
theorem dropRedundant_same {pinFirst : Bool} {init required : List Node}
    (hFound : (matchesOf d.plainResolver root ⟨init ++ [n], []⟩).run = .ok found)
    (h : (dropRedundant d.plainResolver root pinFirst (init ++ [n])).run = .ok required) :
    ∃ few left, required = few ++ [n] ∧ few.Sublist init ∧
      (matchesOf d.plainResolver root ⟨required, []⟩).run = .ok left ∧
      left.length ≤ found.length ∧
      (d.Whole root → ∀ x, d.Chain {} required root x ↔ d.Chain {} (init ++ [n]) root x) := by
  obtain ⟨few, rfl⟩ : ∃ few, required = few ++ [n] :=
    List.getLast?_eq_some_iff.mp (dropRedundant_getLast? List.getLast?_concat h)
  have hSub : few.Sublist init := by
    have hInit : (few ++ [n]).dropLast.Sublist init := by
      refine dropRedundant_invariant (fun nodes => nodes.dropLast.Sublist init) ?_ ?_ h
      · intro kept n' next rest hNodes
        exact (dropLast_sublist_of_drop kept rest n' next).trans hNodes
      · rw [List.dropLast_concat]
    rwa [List.dropLast_concat] at hInit
  obtain ⟨left, hLeft, hCount⟩ := dropRedundant_length_le hFound h
  exact ⟨few, left, rfl, hSub, hLeft, hCount, fun hWhole x =>
    ⟨fun hx => hx.of_more hWhole hSub hLeft hFound hCount, fun hx => hx.of_sublist hSub⟩⟩

/-! ## What a precise locator is compared with -/

/-- Ancestors that a precise locator was compared with on the way to it, if it kept `kept` of them.
All of them but the outermost one were kept.  The outermost one lies before the end of the ascent: it
was kept itself, or does not contain all that is matched.  Alone it may also contain all of that, if
it is no match itself. -/
structure Compared (d : Document) (inside kept : List Element) (matched : Element → Prop)
    (above : List Element) : Prop where
  inside : above.Sublist inside
  init_kept : above.dropLast.Sublist kept
  outermost : ∀ a ∈ above.getLast?, a ∈ kept ∨ (∃ x, matched x ∧ d.contains a x = false) ∨
    above = [a] ∧ ¬ matched a

/-- What lies below an ancestor, the node behind the ancestor alone matches if it matches that by
itself. -/
theorem Chain.through_ancestor {es : List Element} {x : Element} (hx : d.Chain {} [n] root x)
    (hBelow : a ∈ d.ancestors x) (hInside : root ∈ d.ancestors a)
    (hSemantic : d.presentationalAncestor? a = none)
    (hFound : (matchesOf d.plainResolver root ⟨d.chainThrough n [a], []⟩).run = .ok es) :
    d.Chain {} (d.chainThrough n [a]) root x := by
  rw [← List.nil_append [a]] at hFound ⊢
  cases hNode : d.ownNode? a with
  | none =>
      rw [chainThrough_concat_of_none [] hNode]
      exact hx
  | some own =>
      rw [chainThrough_concat_of_some [] hNode] at hFound ⊢
      have hHolds : root ∈ d.holders a := ancestors_subset_holders hInside
      have hName := name_ne_star_of_matchesOf hHolds (suits_own hNode hSemantic) hFound
      obtain ⟨first, -, hSatisfies, hEnd⟩ := chain_cons_iff.mp hx
      obtain rfl := chain_nil_iff.mp hEnd
      exact Chain.cons hHolds (satisfies_own hNode hSemantic hName)
        (Chain.cons (ancestors_subset_holders hBelow) hSatisfies (Chain.nil x))

/-- No chain that it was compared with matches less than the chain that the ascent comes to. -/
theorem Best.length_le_of_compared {e : Element} {ahead above es : List Element}
    (h : d.Best root n passed kept found) (hWhole : d.Whole root)
    (hSplit : d.ancestorsWithin root e = passed ++ ahead) (hInside : root ∈ d.ancestors e)
    (hSemantic : d.presentationalAncestor? e = none)
    (hAhead : ∀ a ∈ ahead, ∀ x ∈ found, d.contains a x = true)
    (hAbove : d.Compared (d.ancestorsWithin root e) kept
      (d.Chain {} (d.chainThrough n kept) root) above)
    (hFound : (matchesOf d.plainResolver root ⟨d.chainThrough n above, []⟩).run = .ok es) :
    found.length ≤ es.length := by
  refine length_le_of_subset (pairwise_matchesOf hWhole h.matched) fun x hxFound => ?_
  have hx := (h.mem_iff x).mp hxFound
  refine (mem_matchesOf_chain hFound).mpr ?_
  rcases List.eq_nil_or_concat above with rfl | ⟨init, a, rfl⟩
  · exact hx.of_fewer (List.nil_sublist kept)
  rw [List.concat_eq_append] at *
  have hParts := hAbove.inside
  rw [hSplit] at hParts
  rcases sublist_append_cases hParts with hPassed | ha
  · have hKept := hAbove.init_kept
    rw [List.dropLast_concat] at hKept
    exact h.best hWhole init a hKept hPassed x hx
  -- an ancestor that the ascent has not come to contains all matches
  have hAll := hAhead a ha
  obtain ⟨haAbove, haInside⟩ :=
    (mem_ancestorsWithin hInside).mp (hAbove.inside.subset List.mem_concat_self)
  rcases hAbove.outermost a (by rw [List.getLast?_concat]; rfl) with hTaken | hOutside | hAlone
  · have hUp := d.pairwise_ancestorsWithin root e
    rw [hSplit] at hUp
    have hTwice := (List.pairwise_append.mp hUp).2.2 a (h.kept_sublist.subset hTaken) a ha
    exact absurd (ancestors_lt hTwice) (Nat.lt_irrefl a)
  · obtain ⟨y, hy, hNot⟩ := hOutside
    rw [hAll y ((h.mem_iff y).mpr hy)] at hNot
    cases hNot
  · obtain ⟨hSingle, hNoMatch⟩ := hAlone
    obtain rfl : init = [] := List.append_left_eq_self.mp hSingle
    have hBelow : a ∈ d.ancestors x := by
      rcases contains_cases (hAll x hxFound) with rfl | hBelow
      · exact absurd hx hNoMatch
      · exact hBelow
    have hNodeAlone : d.Chain {} [n] root x := hx.of_fewer (List.nil_sublist kept)
    exact hNodeAlone.through_ancestor hBelow haInside
      (presentationalAncestor?_eq_none_above hSemantic haAbove) hFound

/-! ## `outer` -/

/-- Of the nodes with `outer` in front and without, the locator is what matches less. -/
theorem addOuter_least {r : Resolver Id} {nodes : List Node} {plain : List Element}
    {e : Element} {l : Locator} (h : (addOuter r root nodes e).run = .ok l)
    (hFound : (matchesOf r root l).run = .ok found)
    (hPlain : (matchesOf r root ⟨nodes, []⟩).run = .ok plain) :
    l.nodes = nodes ∧ found.length ≤ plain.length ∧
      ∀ outer, (matchesOf r root ⟨[], nodes⟩).run = .ok outer → e ∈ outer →
        found.length ≤ outer.length := by
  obtain ⟨plain', outer, hPlain', hOuter, hCases⟩ := addOuter_cases h
  obtain rfl : plain = plain' := Except.ok.inj (hPlain.symm.trans hPlain')
  have hOnly {outer'} (hOuter' : (matchesOf r root ⟨[], nodes⟩).run = .ok outer') :
      outer = outer' :=
    Except.ok.inj (hOuter.symm.trans hOuter')
  obtain ⟨rfl, -, hLess⟩ | ⟨rfl, hNotLess⟩ := hCases
  · refine ⟨rfl, hOnly hFound ▸ Nat.le_of_lt hLess, fun outer' hOuter' _ => ?_⟩
    rw [← hOnly hFound, hOnly hOuter']
  · obtain rfl : found = plain := Except.ok.inj (hFound.symm.trans hPlain)
    exact ⟨List.append_nil nodes, Nat.le_refl _, fun outer' hOuter' he =>
      hOnly hOuter' ▸ hNotLess (hOnly hOuter' ▸ he)⟩

/-! ## Precise locators -/

/-- A locator finds an element by part of a chain through the ancestors that were kept.  Below a whole
root no chain that it was compared with finds fewer elements.  Below any root, its own nodes with
`outer` in front do not find fewer either, if they find the element. -/
structure LeastCompared (d : Document) (root e : Element) (n : Node) (kept : List Element)
    (l : Locator) (found : List Element) : Prop where
  kept_inside : kept.Sublist (d.ancestorsWithin root e)
  nodes_sublist : l.nodes.Sublist (d.chainThrough n kept)
  lookup : d.lookup l root {} = .ok (.found found)
  mem : e ∈ found
  least : d.Whole root → ∀ above es,
    d.Compared (d.ancestorsWithin root e) kept (d.Chain {} l.nodes root) above →
    d.lookup ⟨d.chainThrough n above, []⟩ root {} = .ok (.found es) → found.length ≤ es.length
  least_outer : ∀ es, d.lookup ⟨[], l.nodes⟩ root {} = .ok (.found es) → e ∈ es →
    found.length ≤ es.length

/-- A precise locator finds its element, and no more elements than any chain that it was compared
with. -/
theorem precise_least_compared (d : Document) (e root : Element) (options : GeneratorOptions)
    (text : String) (hRoot : d.chosenRoot e options.root = .ok root) (hLocatable : d.IsLocatable e)
    (hText : d.generate e .precise options = .ok (some text)) :
    ∃ l n kept found, Locator.parse text = .ok l ∧ d.ownNode? e = some n ∧
      d.LeastCompared root e n kept l found := by
  obtain ⟨l, hLocator, rfl⟩ := (generate_eq_some_iff (Or.inl rfl) hRoot).mp hText
  obtain ⟨target, nodes, required, hTarget, hItself, hNodes, hRequired, hOuter⟩ :=
    preciseLocator?_eq_some_iff.mp hLocator
  obtain ⟨hMem, hNode⟩ := (targets_of_target? hTarget).located
  obtain rfl : target.element = e := hItself rfl
  have hInside := (mem_candidates.mp hMem).2
  obtain ⟨hAccepted, found, t, hFound, ht, -, hSame⟩ :=
    preciseLocator?_finds hLocator hMem hLocatable
  -- the three stages
  obtain ⟨passed, ahead, kept, all, hSplit, hBest, rfl, hAhead⟩ := fullChain_best hInside hNodes
  obtain ⟨few, plain, rfl, hFew, hPlain, hCount, hChain⟩ :=
    dropRedundant_same hBest.matched hRequired
  obtain ⟨hParts, hLeast, hLeastOuter⟩ :=
    addOuter_least hOuter (matchesOf_of_resolved hFound) hPlain
  refine ⟨l, target.node, kept, found, Locator.parse_text hAccepted options.mark, hNode, ?_, ?_, ?_,
    hSame rfl ▸ ht, fun hWhole above es hAbove hEs => ?_, fun es hEs he => ?_⟩
  · exact hSplit ▸ hBest.kept_sublist.trans (List.sublist_append_left passed ahead)
  · exact hParts ▸ hFew.append_right [target.node]
  · exact (lookup_eq_resolved d l root {}).trans hFound
  · rw [lookup_eq_resolved] at hEs
    rw [hParts, funext fun x => propext (hChain hWhole x)] at hAbove
    have hAll := hBest.length_le_of_compared hWhole hSplit hInside hLocatable.semantic hAhead hAbove
      (matchesOf_of_resolved hEs)
    exact Nat.le_trans hLeast (Nat.le_trans hCount hAll)
  · rw [lookup_eq_resolved, hParts] at hEs
    exact hLeastOuter es (matchesOf_of_resolved hEs) he

/-- Of two buttons with one name, the one in a list is found by a chain through its list item, and
no chain that this was compared with finds fewer elements. -/
theorem precise_least_compared_in_list :
    let button := Markup.element "button" [("aria-label", "OK")] []
    let list := Markup.element "ul" [] [.element "li" [] [button]]
    let d := Document.ofElement "body" [] [button, list]
    let text := "\x7blistitem\x7d \x7bbutton 'OK'\x7d"
    d.chosenRoot 4 .standard = .ok 0 ∧ d.IsLocatable 4 ∧
      d.generate 4 .precise {} = .ok (some text) ∧ d.Whole 0 ∧
      ∃ l n kept found, Locator.parse text = .ok l ∧ d.ownNode? 4 = some n ∧
        d.LeastCompared 0 4 n kept l found := by
  intro button list d text
  have hRoot : d.chosenRoot 4 .standard = .ok 0 := by decide +kernel
  have hLocatable : d.IsLocatable 4 :=
    ⟨by decide +kernel, by decide +kernel, by decide +kernel⟩
  have hText : d.generate 4 .precise {} = .ok (some text) := by
    rw [generate_eq_plain]
    decide +kernel
  refine ⟨hRoot, hLocatable, hText, by decide +kernel, ?_⟩
  exact precise_least_compared d 4 0 {} text hRoot hLocatable hText

/-- Two buttons lie in a region and a group, one in that order and one in the other.  Neither the
group alone nor the region alone tells them apart, so both are left out, though together they do. -/
theorem precise_not_best :
    let button := Markup.element "button" [] []
    let group (inner : Markup) := Markup.element "div" [("role", "group")] [inner]
    let region (inner : Markup) := Markup.element "div" [("role", "region")] [inner]
    let d := Document.ofElement "html" []
      [.element "head" [] [], .element "body" [] [region (group button), group (region button)]]
    let n := Node.ofRole .button
    d.chosenRoot 5 .standard = .ok 2 ∧ d.IsLocatable 5 ∧
      d.generate 5 .precise {} = .ok (some "\x7bbutton\x7d") ∧
      d.findElements "\x7bbutton\x7d" 2 = .ok [5, 8] ∧
      d.ownNode? 5 = some n ∧ d.ancestorsWithin 2 5 = [4, 3] ∧
      d.lookup ⟨d.chainThrough n [4, 3], []⟩ 2 {} = .ok (.found [5]) := by
  intro button group region d n
  have hRoot : d.chosenRoot 5 .standard = .ok 2 := by decide +kernel
  refine ⟨hRoot, ⟨by decide +kernel, by decide +kernel, by decide +kernel⟩, ?_, ?_,
    by decide +kernel, by decide +kernel, ?_⟩
  · let target : Located := ⟨n, 5⟩
    have hTarget : @Eq (Option Located) (d.target? d.plainResolver 2 5) (some target) := by
      decide +kernel
    have hChain : @Eq (Except Error (List Node)) (d.fullChain d.plainResolver 2 target).run
        (.ok [n]) := by
      decide +kernel
    have hFound : @Eq (Except Error (List Element))
        (matchesOf d.plainResolver 2 ⟨[n], []⟩).run (.ok [5, 8]) := by
      decide +kernel
    refine (generate_of_one_node {} (Or.inl rfl) hRoot hTarget (fun _ => rfl) hChain
      (by decide +kernel) hFound (by decide +kernel)).trans ?_
    decide +kernel
  · have hRead : Locator.parse "\x7bbutton\x7d" = .ok ⟨[n], []⟩ := by decide +kernel
    rw [findElements_of_parse hRead]
    decide +kernel
  · rw [lookup_eq_resolved]
    decide +kernel

/-- A group in a region in a group, with one button in the inner group, one beside that in the region
and one outside.  With the inner group in front both buttons of the region are left, since the outer
group will do for it.  The region contains the two, and the ascent ends, but in front of the chain it
would leave the first button alone. -/
theorem precise_stops_early :
    let button := Markup.element "button" [] []
    let group (inner : List Markup) := Markup.element "div" [("role", "group")] inner
    let region (inner : List Markup) := Markup.element "div" [("role", "region")] inner
    let d := Document.ofElement "html" []
      [.element "head" [] [],
        .element "body" [] [group [region [group [button], button]], button]]
    let text := "\x7bgroup\x7d \x7bbutton\x7d"
    d.chosenRoot 6 .standard = .ok 2 ∧ d.IsLocatable 6 ∧
      d.generate 6 .precise {} = .ok (some text) ∧ d.findElements text 2 = .ok [6, 7] ∧
      d.ancestorsWithin 2 6 = [5, 4, 3] ∧ d.contains 4 6 ∧ d.contains 4 7 ∧
      d.lookup ⟨d.chainThrough (Node.ofRole .button) [5, 4], []⟩ 2 {} = .ok (.found [6]) := by
  intro button group region d text
  let n := Node.ofRole .button
  let nodes := [Node.ofRole .group, n]
  have hRoot : d.chosenRoot 6 .standard = .ok 2 := by decide +kernel
  refine ⟨hRoot, ⟨by decide +kernel, by decide +kernel, by decide +kernel⟩, ?_, ?_,
    by decide +kernel, by decide +kernel, by decide +kernel, ?_⟩
  · let target : Located := ⟨n, 6⟩
    have hTarget : @Eq (Option Located) (d.target? d.plainResolver 2 6) (some target) := by
      decide +kernel
    have hChain : @Eq (Except Error (List Node)) (d.fullChain d.plainResolver 2 target).run
        (.ok nodes) := by
      decide +kernel
    have hRequired : @Eq (Except Error (List Node))
        (dropRedundant d.plainResolver 2 false nodes).run (.ok nodes) := by
      decide +kernel
    have hFound : @Eq (Except Error (List Element))
        (matchesOf d.plainResolver 2 ⟨nodes, []⟩).run (.ok [6, 7]) := by
      decide +kernel
    have hOuter := @addOuter_of_apart d 2 nodes 6 [6, 7] (by decide +kernel) hFound (by decide +kernel)
    refine (generate_eq_some_iff (Or.inl rfl) hRoot).mpr ⟨⟨nodes, []⟩, ?_, by decide +kernel⟩
    exact preciseLocator?_eq_some_iff.mpr
      ⟨target, nodes, nodes, hTarget, fun _ => rfl, hChain, hRequired, hOuter⟩
  · have hRead : Locator.parse text = .ok ⟨nodes, []⟩ := by decide +kernel
    rw [findElements_of_parse hRead]
    decide +kernel
  · rw [lookup_eq_resolved]
    decide +kernel

end Document

end AriaLocator

import AriaLocator.Proofs.Generator.Greedy
import AriaLocator.Proofs.Generator.Independence

/-!
# Reading what is generated

A locator that is generated is written down without the check that other locators have to pass: no
role with presentational children may stand before the last node.  The redirection is to see to
that.  But it gives up if the element that it leads to is hidden and nothing around that has a node,
and then another element with presentational children may lie in between, with a node of its own.

Whether the ascent takes that node in depends on the matches.  Inside an element with presentational
children nothing can be matched.  So below a root where no fragment hangs, a chain that matches
anything has no such node in front of its last one, and when such a node goes in front of a chain,
nothing is left of the matches.  From there on no ancestor makes a difference, and the pruning drops
everything between.  What is written down are two nodes, and their text is refused.

In all other cases the text reads as the locator that was written down.

## Main results

* `Chain.init_not_presentational`: a chain that leads anywhere below a whole root can be checked.
* `Climbs.ascend`, `ascend_climbs`: the way up, cut at any ancestor that it comes to.
* `Climbs.last_taken`: what took the last matches away.
* `OverstepsAt.nodes`, `not_presentational_or_oversteps`: when the chain of a target cannot be
  checked, and what it is then.
* `preciseLocator?_writtenFor`: all nodes but the last are those of ancestors of the target.
* `generated_reads_iff`: a generated text reads as its locator unless it has a node of an element with
  presentational children in front, and when that is so.
* `generated_refused`: the page of two buttons around an image, where it is refused.
-/

namespace AriaLocator

namespace Document

variable {d : Document} {root : Element}

/-! ## Chains that lead anywhere -/

/-- Where a chain leads below a whole base, no node before its last one has a role with presentational
children. -/
theorem Chain.init_not_presentational {nodes : List Node} {b x : Element}
    (h : d.Chain {} nodes b x) (hWhole : d.Whole b) :
    ∀ n ∈ nodes.dropLast, n.role.hasPresentationalChildren = false := by
  induction h with
  | nil b => exact fun n hn => absurd hn List.not_mem_nil
  | @cons n rest b e last hUnder satisfies others ih =>
      cases rest with
      | nil => exact fun n' hn' => absurd hn' List.not_mem_nil
      | cons next rest =>
          obtain ⟨below, hBelow, hNext, -⟩ := chain_cons_iff.mp others
          have hIn : b ∈ d.tree.lineage e := mem_tree_lineage.mpr (Or.inr hUnder)
          have hChildren : d.hasPresentationalChildren e = false :=
            not_presentational_above hNext.nothing_above (hWhole.mem_ancestors hIn hBelow)
          have hRole : n.role.hasPresentationalChildren = false := by
            by_contra hSome
            rw [Bool.not_eq_false] at hSome
            rw [hasPresentationalChildren_of_hasRole satisfies.role hSome] at hChildren
            cases hChildren
          rw [List.dropLast_cons_cons]
          exact List.forall_mem_cons.mpr ⟨hRole, ih (hWhole.below hIn)⟩

/-- So a chain with such a node before its last one matches nothing. -/
theorem found_eq_nil_of_presentational {nodes : List Node} {found : List Element} {n : Node}
    (hWhole : d.Whole root)
    (hFound : (matchesOf d.plainResolver root ⟨nodes, []⟩).run = .ok found)
    (hn : n ∈ nodes.dropLast) (hRole : n.role.hasPresentationalChildren = true) : found = [] := by
  refine List.eq_nil_iff_forall_not_mem.mpr fun x hx => ?_
  have hChain := (mem_matchesOf_chain hFound).mp hx
  rw [hChain.init_not_presentational hWhole n hn] at hRole
  cases hRole

/-! ## The way up -/

/-- The ascent goes past ancestors without coming to its end.  The chain and its matches change
where a node goes in front. -/
inductive Climbs (d : Document) (r : Resolver Id) (root : Element) :
    List Node → List Element → List Element → List Node → List Element → Prop where
  | here (nodes : List Node) (found : List Element) : Climbs d r root nodes found [] nodes found
  | unnamed {nodes nodes' : List Node} {found found' nearer : List Element} {a : Element}
      (hNode : d.nodeOf? r a = none) (hRest : Climbs d r root nodes found nearer nodes' found') :
      Climbs d r root nodes found (a :: nearer) nodes' found'
  | passed {nodes nodes' : List Node} {found found' nearer narrower : List Element} {a : Element}
      {n : Node} (hNode : d.nodeOf? r a = some n)
      (hOutside : ∃ x ∈ found, d.contains a x = false)
      (hFound : (matchesOf r root ⟨n :: nodes, []⟩).run = .ok narrower)
      (hCount : found.length ≤ narrower.length)
      (hRest : Climbs d r root nodes found nearer nodes' found') :
      Climbs d r root nodes found (a :: nearer) nodes' found'
  | taken {nodes nodes' : List Node} {found found' nearer narrower : List Element} {a : Element}
      {n : Node} (hNode : d.nodeOf? r a = some n)
      (hOutside : ∃ x ∈ found, d.contains a x = false)
      (hFound : (matchesOf r root ⟨n :: nodes, []⟩).run = .ok narrower)
      (hCount : narrower.length < found.length)
      (hRest : Climbs d r root (n :: nodes) narrower nearer nodes' found') :
      Climbs d r root nodes found (a :: nearer) nodes' found'

section Ascent

variable {r : Resolver Id} {nodes nodes' : List Node} {found found' : List Element} {a : Element}
  {rest : List Element}

theorem ascend_unnamed (hNode : d.nodeOf? r a = none) :
    (d.ascend r root nodes found (a :: rest)).run = (d.ascend r root nodes found rest).run := by
  rw [ascend]
  refine (@run_bind_of_ok _ _ _ _ (d.nodeOf? r a) rfl).trans ?_
  rw [hNode]

/-- At an ancestor that does not contain all matches, the numbers of matches decide. -/
theorem ascend_counted {n : Node} {narrower : List Element} (hNode : d.nodeOf? r a = some n)
    (hOutside : ∃ x ∈ found, d.contains a x = false)
    (hFound : (matchesOf r root ⟨n :: nodes, []⟩).run = .ok narrower) :
    (d.ascend r root nodes found (a :: rest)).run =
      if narrower.length < found.length then (d.ascend r root (n :: nodes) narrower rest).run
      else (d.ascend r root nodes found rest).run := by
  have hNotAll : ¬ found.all (d.contains a) = true := by
    simpa using hOutside
  rw [ascend]
  refine (@run_bind_of_ok _ _ _ _ (d.nodeOf? r a) rfl).trans ?_
  rw [hNode]
  simp only
  rw [if_neg hNotAll]
  refine (run_bind_of_ok _ hFound).trans ?_
  by_cases hCount : narrower.length < found.length
  · rw [if_pos hCount, if_pos hCount]
  · rw [if_neg hCount, if_neg hCount]

/-- From where it has come to, the ascent goes on as if it had begun there. -/
theorem Climbs.ascend {nearer : List Element}
    (h : d.Climbs r root nodes found nearer nodes' found') (further : List Element) :
    (d.ascend r root nodes found (nearer ++ further)).run =
      (d.ascend r root nodes' found' further).run := by
  induction h with
  | here nodes found => rfl
  | unnamed hNode _ ih =>
      rw [List.cons_append, ascend_unnamed hNode]
      exact ih
  | passed hNode hOutside hFound hCount _ ih =>
      rw [List.cons_append, ascend_counted hNode hOutside hFound, if_neg (Nat.not_lt.mpr hCount)]
      exact ih
  | taken hNode hOutside hFound hCount _ ih =>
      rw [List.cons_append, ascend_counted hNode hOutside hFound, if_pos hCount]
      exact ih

/-- All that the ascent does is to climb as far as some ancestor. -/
theorem ascend_climbs {ahead : List Element} {result : List Node}
    (h : (d.ascend r root nodes found ahead).run = .ok result) :
    ∃ nearer further found', ahead = nearer ++ further ∧
      d.Climbs r root nodes found nearer result found' := by
  induction ahead generalizing nodes found with
  | nil =>
      obtain rfl : nodes = result := Except.ok.inj h
      exact ⟨[], [], found, rfl, Climbs.here nodes found⟩
  | cons a rest ih =>
      cases ascend_step h with
      | unnamed hNode hRest =>
          obtain ⟨nearer, further, found', rfl, hClimbs⟩ := ih hRest
          exact ⟨a :: nearer, further, found', rfl, Climbs.unnamed hNode hClimbs⟩
      | ended _ _ hResult =>
          obtain rfl : result = nodes := hResult
          exact ⟨[], a :: rest, found, rfl, Climbs.here result found⟩
      | passed hNode hFound hCount hRest hOutside =>
          obtain ⟨nearer, further, found', rfl, hClimbs⟩ := ih hRest
          exact ⟨a :: nearer, further, found', rfl,
            Climbs.passed hNode hOutside hFound hCount hClimbs⟩
      | taken hNode hFound hCount hRest hOutside =>
          obtain ⟨nearer, further, found', rfl, hClimbs⟩ := ih hRest
          exact ⟨a :: nearer, further, found', rfl,
            Climbs.taken hNode hOutside hFound hCount hClimbs⟩

/-- Once nothing is matched, the chain stays as it is. -/
theorem ascend_of_no_matches {ahead : List Element} {result : List Node}
    (h : (d.ascend r root nodes [] ahead).run = .ok result) : result = nodes := by
  induction ahead with
  | nil => exact (Except.ok.inj h).symm
  | cons a rest ih =>
      cases ascend_step h with
      | unnamed _ hRest => exact ih hRest
      | ended _ _ hResult => exact hResult
      | passed _ _ _ _ hOutside =>
          obtain ⟨x, hx, -⟩ := hOutside
          exact absurd hx List.not_mem_nil
      | taken _ _ _ _ hOutside =>
          obtain ⟨x, hx, -⟩ := hOutside
          exact absurd hx List.not_mem_nil

variable {nearer : List Element}

/-- The matches that the ascent has at hand are those of its chain. -/
theorem Climbs.matched (h : d.Climbs r root nodes found nearer nodes' found')
    (hFound : (matchesOf r root ⟨nodes, []⟩).run = .ok found) :
    (matchesOf r root ⟨nodes', []⟩).run = .ok found' := by
  induction h with
  | here nodes found => exact hFound
  | unnamed _ _ ih => exact ih hFound
  | passed _ _ _ _ _ ih => exact ih hFound
  | taken _ _ hNarrower _ _ ih => exact ih hNarrower

/-- If nothing is matched in the end, nothing was matched to begin with, or the last node that went
in front has taken all matches away. -/
theorem Climbs.last_taken (h : d.Climbs r root nodes found nearer nodes' found')
    (hNone : found' = []) :
    (nodes' = nodes ∧ found = []) ∨
      ∃ below b above chain matched n, nearer = below ++ b :: above ∧
        d.Climbs r root nodes found below chain matched ∧ d.nodeOf? r b = some n ∧
        (∃ x ∈ matched, d.contains b x = false) ∧ nodes' = n :: chain := by
  induction h with
  | here nodes found => exact Or.inl ⟨rfl, hNone⟩
  | @unnamed nodes nodes' found found' nearer a hNode _ ih =>
      rcases ih hNone with hStart | ⟨below, b, above, chain, matched, n, rfl, hClimbs, hRest⟩
      · exact Or.inl hStart
      · exact Or.inr ⟨a :: below, b, above, chain, matched, n, rfl, Climbs.unnamed hNode hClimbs,
          hRest⟩
  | @passed nodes nodes' found found' nearer narrower a own hNode hOutside hFound hCount _ ih =>
      rcases ih hNone with ⟨-, hEmpty⟩ | ⟨below, b, above, chain, matched, n, rfl, hClimbs, hRest⟩
      · obtain ⟨x, hx, -⟩ := hOutside
        rw [hEmpty] at hx
        exact absurd hx List.not_mem_nil
      · exact Or.inr ⟨a :: below, b, above, chain, matched, n, rfl,
          Climbs.passed hNode hOutside hFound hCount hClimbs, hRest⟩
  | @taken nodes nodes' found found' nearer narrower a own hNode hOutside hFound hCount _ ih =>
      rcases ih hNone with ⟨hSame, -⟩ | ⟨below, b, above, chain, matched, n, rfl, hClimbs, hRest⟩
      · exact Or.inr ⟨[], a, nearer, nodes, found, own, rfl, Climbs.here nodes found, hNode,
          hOutside, hSame⟩
      · exact Or.inr ⟨a :: below, b, above, chain, matched, n, rfl,
          Climbs.taken hNode hOutside hFound hCount hClimbs, hRest⟩

end Ascent

/-! ## Overstepping -/

/-- On its way up from a target the ascent comes to an ancestor that has a node and presentational
children, while something that the chain matches lies outside that ancestor. -/
structure OverstepsAt (d : Document) (root : Element) (target : Located) (b : Element)
    (own : Node) : Prop where
  /-- The ancestor has a node. -/
  node : d.ownNode? b = some own
  /-- Its role has presentational children. -/
  presentational : own.role.hasPresentationalChildren = true
  /-- The ascent comes to it, and does not end there. -/
  reached : ∃ start nearer further chain found,
    (matchesOf d.plainResolver root ⟨[target.node], []⟩).run = .ok start ∧
      d.ancestorsWithin root target.element = nearer ++ b :: further ∧
      d.Climbs d.plainResolver root [target.node] start nearer chain found ∧
      ∃ x ∈ found, d.contains b x = false

variable {target : Located} {b : Element} {own : Node}

/-- The chain of a target can be checked, or else the ascent has overstepped an ancestor. -/
theorem not_presentational_or_oversteps {nodes : List Node} (hWhole : d.Whole root)
    (hInside : root ∈ d.ancestors target.element)
    (hRun : (d.fullChain d.plainResolver root target).run = .ok nodes) :
    (∀ n ∈ nodes.dropLast, n.role.hasPresentationalChildren = false) ∨
      ∃ b own, d.OverstepsAt root target b own := by
  obtain ⟨start, hStart, hAscend⟩ := exists_of_run_bind hRun
  rw [candidates_eq hInside, List.drop_succ_cons, List.drop_zero] at hAscend
  obtain ⟨passed, ahead, found, hSplit, hClimbs⟩ := ascend_climbs hAscend
  have hFound := hClimbs.matched hStart
  by_cases hNone : found = []
  · rcases hClimbs.last_taken hNone with
      ⟨rfl, -⟩ | ⟨below, b, above, chain, matched, own, rfl, hBelow, hNode, hOutside, rfl⟩
    · exact Or.inl fun n hn => absurd hn List.not_mem_nil
    · cases hRole : own.role.hasPresentationalChildren with
      | true =>
          rw [List.append_assoc, List.cons_append] at hSplit
          exact Or.inr ⟨b, own, hNode, hRole, start, below, above ++ ahead, chain, matched, hStart,
            hSplit, hBelow, hOutside⟩
      | false =>
          -- what was matched before shows that the rest can be checked
          obtain ⟨x, hx, -⟩ := hOutside
          have hChain := (mem_matchesOf_chain (hBelow.matched hStart)).mp hx
          refine Or.inl fun n hn => ?_
          cases chain with
          | nil => exact absurd hn List.not_mem_nil
          | cons next rest =>
              rw [List.dropLast_cons_cons] at hn
              rcases List.mem_cons.mp hn with rfl | hn
              · exact hRole
              · exact hChain.init_not_presentational hWhole n hn
  · obtain ⟨x, hx⟩ := List.exists_mem_of_ne_nil found hNone
    have hChain := (mem_matchesOf_chain hFound).mp hx
    exact Or.inl (hChain.init_not_presentational hWhole)

/-- A node in front of others is one before the last. -/
theorem mem_dropLast_cons {chain : List Node} (h : chain ≠ []) : own ∈ (own :: chain).dropLast := by
  rw [List.dropLast_cons_of_ne_nil h]
  exact List.mem_cons_self

/-- The node of the ancestor goes in front of a chain that has matched something, and stays in
front. -/
theorem OverstepsAt.nodes {nodes : List Node} (h : d.OverstepsAt root target b own)
    (hWhole : d.Whole root) (hInside : root ∈ d.ancestors target.element)
    (hRun : (d.fullChain d.plainResolver root target).run = .ok nodes) :
    ∃ chain found, nodes = own :: chain ∧ chain.getLast? = some target.node ∧
      (matchesOf d.plainResolver root ⟨chain, []⟩).run = .ok found ∧ found ≠ [] := by
  obtain ⟨start, nearer, further, chain, found, hStart, hSplit, hClimbs, hOutside⟩ := h.reached
  obtain ⟨start', hStart', hAscend⟩ := exists_of_run_bind hRun
  obtain rfl : start = start' := Except.ok.inj (hStart.symm.trans hStart')
  have hAhead : (d.candidates root target.element).drop 1 = nearer ++ b :: further := by
    rw [candidates_eq hInside, List.drop_succ_cons, List.drop_zero]
    exact hSplit
  rw [hAhead, hClimbs.ascend] at hAscend
  have hLast : chain.getLast? = some target.node := by
    have hChain := hClimbs.ascend []
    exact ascend_getLast? rfl (hChain.trans rfl)
  have hSome : chain ≠ [] := by
    rintro rfl
    cases hLast
  have hNothing {n : Node} {narrower : List Element} (hNode : d.nodeOf? d.plainResolver b = some n)
      (hNarrower : (matchesOf d.plainResolver root ⟨n :: chain, []⟩).run = .ok narrower) :
      n = own ∧ narrower = [] := by
    obtain rfl : own = n := Option.some.inj (h.node.symm.trans hNode)
    exact ⟨rfl, found_eq_nil_of_presentational hWhole hNarrower (mem_dropLast_cons hSome)
      h.presentational⟩
  obtain ⟨x, hx, hNot⟩ := hOutside
  have hMatched : found ≠ [] := List.ne_nil_of_mem hx
  refine ⟨chain, found, ?_, hLast, hClimbs.matched hStart, hMatched⟩
  cases ascend_step hAscend with
  | unnamed hNode _ =>
      have hOwn : d.nodeOf? d.plainResolver b = some own := h.node
      rw [hNode] at hOwn
      cases hOwn
  | ended _ hAll _ =>
      rw [hAll x hx] at hNot
      cases hNot
  | passed hNode hNarrower hCount _ _ =>
      obtain ⟨-, rfl⟩ := hNothing hNode hNarrower
      exact absurd (List.length_eq_zero_iff.mp (Nat.le_zero.mp hCount)) hMatched
  | taken hNode hNarrower _ hRest _ =>
      obtain ⟨rfl, rfl⟩ := hNothing hNode hNarrower
      exact ascend_of_no_matches hRest

section Presentational

variable {last : Node} {chain required : List Node}
  (hWhole : d.Whole root) (hRole : own.role.hasPresentationalChildren = true)
  (hLast : chain.getLast? = some last)

include hWhole hRole hLast

/-- Behind such a node, the pruning drops everything but the last node. -/
theorem dropRedundantAfter_of_presentational
    (hRun : (dropRedundantAfter d.plainResolver root 0 [own] chain).run = .ok required) :
    required = [own, last] := by
  induction chain with
  | nil => cases hLast
  | cons n rest ih =>
      cases rest with
      | nil =>
          obtain rfl : n = last := Option.some.inj hLast
          exact (Except.ok.inj hRun).symm
      | cons next rest =>
          rw [dropRedundantAfter] at hRun
          obtain ⟨without, hWithout, hNext⟩ := exists_of_run_bind hRun
          have hFront : own ∈ ([own] ++ next :: rest).dropLast :=
            mem_dropLast_cons (List.cons_ne_nil next rest)
          obtain rfl : without = [] := found_eq_nil_of_presentational hWhole hWithout hFront hRole
          rw [List.length_nil, if_neg (Nat.lt_irrefl 0)] at hNext
          rw [List.getLast?_cons_cons] at hLast
          exact ih hLast hNext

/-- In front of a chain that matches something, it stays. -/
theorem dropRedundant_of_presentational {found : List Element}
    (hFound : (matchesOf d.plainResolver root ⟨chain, []⟩).run = .ok found) (hSome : found ≠ [])
    (hRun : (dropRedundant d.plainResolver root false (own :: chain)).run = .ok required) :
    required = [own, last] := by
  cases chain with
  | nil => cases hLast
  | cons next rest =>
      unfold dropRedundant at hRun
      rw [if_neg (by simp)] at hRun
      obtain ⟨all, hAll, hRun⟩ := exists_of_run_bind hRun
      obtain rfl : all = [] :=
        found_eq_nil_of_presentational hWhole hAll (mem_dropLast_cons (List.cons_ne_nil next rest))
          hRole
      have hStep : (dropRedundantAfter d.plainResolver root 0 [] (own :: next :: rest)).run =
          .ok required := hRun
      rw [dropRedundantAfter] at hStep
      obtain ⟨without, hWithout, hNext⟩ := exists_of_run_bind hStep
      obtain rfl : found = without := Except.ok.inj (hFound.symm.trans hWithout)
      rw [if_pos (List.length_pos_iff.mpr hSome)] at hNext
      exact dropRedundantAfter_of_presentational hWhole hRole hLast hNext

end Presentational

/-- Such a chain matches nothing, and with `outer` in front no less. -/
theorem addOuter_of_presentational {last : Node} {e : Element} {l : Locator} (hWhole : d.Whole root)
    (hRole : own.role.hasPresentationalChildren = true)
    (hRun : (addOuter d.plainResolver root [own, last] e).run = .ok l) : l = ⟨[own, last], []⟩ := by
  obtain ⟨plain, outer, hPlain, -, ⟨-, -, hLess⟩ | ⟨hLocator, -⟩⟩ := addOuter_cases hRun
  · obtain rfl : plain = [] :=
      found_eq_nil_of_presentational hWhole hPlain (mem_dropLast_cons (List.cons_ne_nil last [])) hRole
    exact absurd hLess (Nat.not_lt_zero _)
  · exact hLocator

/-! ## The locator of a target -/

theorem constraints_of_nodeOf? {r : Resolver Id} {a : Element} {n : Node}
    (h : d.nodeOf? r a = some n) : n.constraints = [] := by
  obtain ⟨-, role, -, rfl⟩ := nodeOf?_eq_some_iff.mp h
  rfl

/-- A locator is written for a target: it ends in the node of the target, and its other nodes are
those of ancestors. -/
structure WrittenFor (d : Document) (root : Element) (target : Located) (l : Locator) : Prop where
  /-- There are nodes. -/
  nodes_ne_nil : l.nodes ≠ []
  /-- They are built. -/
  built : ∀ n ∈ l.nodes, n.Built
  /-- They ask for no attributes. -/
  plain : ∀ n ∈ l.nodes, n.constraints = []
  /-- All but the last are nodes of ancestors. -/
  above : ∀ n ∈ l.nodes.dropLast, ∃ b ∈ d.ancestorsWithin root target.element, d.ownNode? b = some n

/-- All but the last nodes of the chain of a target are those of ancestors. -/
theorem fullChain_above {nodes : List Node} (hInside : root ∈ d.ancestors target.element)
    (hRun : (d.fullChain d.plainResolver root target).run = .ok nodes) :
    ∀ n ∈ nodes.dropLast, ∃ b ∈ d.ancestorsWithin root target.element, d.ownNode? b = some n := by
  obtain ⟨start, -, hAscend⟩ := exists_of_run_bind hRun
  rw [candidates_eq hInside, List.drop_succ_cons, List.drop_zero] at hAscend
  have hStart : d.ancestorsWithin root target.element ⊆ d.ancestorsWithin root target.element :=
    List.Subset.refl _
  obtain ⟨-, -, hAbove⟩ := ascend_invariant
    (fun ahead nodes => ahead ⊆ d.ancestorsWithin root target.element ∧ ∀ n ∈ nodes.dropLast,
      ∃ b ∈ d.ancestorsWithin root target.element, d.ownNode? b = some n)
    (fun hInv => ⟨fun a ha => hInv.1 (List.mem_cons_of_mem _ ha), hInv.2⟩)
    (fun {a rest nodes n _} hInv hNode _ => by
      refine ⟨fun b hb => hInv.1 (List.mem_cons_of_mem _ hb), fun n' hn' => ?_⟩
      have hMem : n' ∈ n :: nodes.dropLast := by
        cases nodes with
        | nil => exact absurd hn' List.not_mem_nil
        | cons next rest => exact hn'
      rcases List.mem_cons.mp hMem with rfl | hOld
      · exact ⟨a, hInv.1 List.mem_cons_self, hNode⟩
      · exact hInv.2 n' hOld)
    ⟨hStart, fun n hn => absurd hn List.not_mem_nil⟩ hAscend
  exact hAbove

theorem preciseLocator?_writtenFor {e : Element} {onlyItself : Bool} {l : Locator}
    (h : (d.preciseLocator? d.plainResolver root e onlyItself).run = .ok (some l)) :
    ∃ target, d.target? d.plainResolver root e = some target ∧ d.WrittenFor root target l := by
  obtain ⟨target, nodes, required, hTarget, -, hNodes, hRequired, hLocator⟩ :=
    preciseLocator?_eq_some_iff.mp h
  obtain ⟨hMem, hNode⟩ := (targets_of_target? hTarget).located
  have hParts : l.nodes = required := by
    obtain ⟨plain, outer, -, -, ⟨rfl, -, -⟩ | ⟨rfl, -⟩⟩ := addOuter_cases hLocator
    · rfl
    · exact List.append_nil required
  have hLast := dropRedundant_getLast? (fullChain_getLast? hNodes) hRequired
  refine ⟨target, hTarget, ?_, ?_, ?_, ?_⟩
  · rw [hParts]
    rintro rfl
    cases hLast
  · rw [hParts]
    exact dropRedundant_forall
      (fullChain_forall nodeOf?_built (nodeOf?_built hNode) hNodes) hRequired
  · rw [hParts]
    exact dropRedundant_forall
      (fullChain_forall constraints_of_nodeOf? (constraints_of_nodeOf? hNode) hNodes) hRequired
  · rw [hParts]
    refine dropRedundant_invariant
      (fun nodes => ∀ n ∈ nodes.dropLast,
        ∃ b ∈ d.ancestorsWithin root target.element, d.ownNode? b = some n) ?_
      (fullChain_above (mem_candidates.mp hMem).2 hNodes) hRequired
    intro kept n next rest hAll n' hn'
    exact hAll n' ((dropLast_sublist_of_drop kept rest n next).subset hn')

/-- A precise locator can be checked, or else the ascent has overstepped an ancestor and it consists
of the nodes of that and of the target. -/
theorem preciseLocator?_checked {e : Element} {onlyItself : Bool} {l : Locator}
    (hWhole : d.Whole root)
    (h : (d.preciseLocator? d.plainResolver root e onlyItself).run = .ok (some l))
    (hTarget : d.target? d.plainResolver root e = some target) :
    l.IsWellFormed ∧ (∀ b own, ¬ d.OverstepsAt root target b own) ∨
      ∃ b own, d.OverstepsAt root target b own ∧ l = ⟨[own, target.node], []⟩ := by
  obtain ⟨target', hTarget', hWritten⟩ := preciseLocator?_writtenFor h
  obtain rfl : target = target' := Option.some.inj (hTarget.symm.trans hTarget')
  obtain ⟨target', nodes, required, hTarget', -, hNodes, hRequired, hLocator⟩ :=
    preciseLocator?_eq_some_iff.mp h
  obtain rfl : target = target' := Option.some.inj (hTarget.symm.trans hTarget')
  have hInside := (mem_candidates.mp (targets_of_target? hTarget).located.1).2
  have hParts : l.nodes = required := by
    obtain ⟨plain, outer, -, -, ⟨rfl, -, -⟩ | ⟨rfl, -⟩⟩ := addOuter_cases hLocator
    · rfl
    · exact List.append_nil required
  by_cases hOversteps : ∃ b own, d.OverstepsAt root target b own
  · obtain ⟨b, own, hAt⟩ := hOversteps
    obtain ⟨chain, found, rfl, hLast, hFound, hSome⟩ := hAt.nodes hWhole hInside hNodes
    obtain rfl : required = [own, target.node] :=
      dropRedundant_of_presentational hWhole hAt.presentational hLast hFound hSome hRequired
    exact Or.inr ⟨b, own, hAt, addOuter_of_presentational hWhole hAt.presentational hLocator⟩
  · have hInit := (not_presentational_or_oversteps hWhole hInside hNodes).resolve_right hOversteps
    have hRequiredInit : ∀ n ∈ required.dropLast, n.role.hasPresentationalChildren = false := by
      refine dropRedundant_invariant
        (fun nodes => ∀ n ∈ nodes.dropLast, n.role.hasPresentationalChildren = false) ?_ hInit
        hRequired
      intro kept n next rest hAll n' hn'
      exact hAll n' ((dropLast_sublist_of_drop kept rest n next).subset hn')
    refine Or.inl ⟨⟨hWritten.nodes_ne_nil, hParts ▸ hRequiredInit⟩, ?_⟩
    exact fun b own hAt => hOversteps ⟨b, own, hAt⟩

/-! ## What the redirection passes over -/

/-- Where an ancestor of the target has a node and presentational children, a hidden element around
that has presentational children too. -/
theorem Targets.hidden_above {r : Resolver Id} {e : Element} (h : d.Targets r root e target)
    (hb : b ∈ d.ancestors target.element) (hInside : root ∈ d.ancestors b)
    (hNode : d.nodeOf? r b = some own) (hChildren : d.hasPresentationalChildren b = true) :
    ∃ p ∈ d.ancestors b, d.isHidden p = true ∧ d.hasPresentationalChildren p = true := by
  have htInside : root ∈ d.ancestors target.element :=
    ancestors_of_contains (contains_of_ancestors hInside) hb
  cases h with
  | nearest _ hNone =>
      rw [not_presentational_of_none htInside hNone hb hInside] at hChildren
      cases hChildren
  | @redirected first _ p hFirst hSome hOuter =>
      obtain ⟨-, hFirstInside⟩ := mem_candidates.mp (closestLocated?_eq_some hFirst).1
      obtain ⟨htp, -⟩ := mem_candidates.mp (closestLocated?_eq_some hOuter).1
      obtain ⟨-, -, hOutermost⟩ := outermost_of_some hFirstInside hSome
      rw [hOutermost b (ancestors_subset (contains_iff.mp htp) hb) hInside] at hChildren
      cases hChildren
  | @kept _ p _ hSome hOuter =>
      obtain ⟨hpAbove, hpChildren, -⟩ := outermost_of_some htInside hSome
      have hpInside := inside_of_outermost htInside hSome
      -- nothing from this element up to the root has a node
      have hNone {a : Element} (hap : d.contains a p = true) (ha : root ∈ d.ancestors a) :
          d.nodeOf? r a = none :=
        nodeOf?_of_firstLocated?_eq_none hOuter (mem_candidates.mpr ⟨hap, ha⟩)
      have hNotAbove : ¬ d.contains b p = true := by
        intro hbp
        rw [hNone hbp hInside] at hNode
        cases hNode
      have hpb : p ∈ d.ancestors b := by
        rcases ancestors_or_contains (contains_of_ancestors hpAbove) (contains_of_ancestors hb) with
          hbp | hpb
        · exact absurd (contains_of_ancestors hbp) hNotAbove
        · rcases contains_cases hpb with rfl | hpb
          · exact absurd (contains_self d p) hNotAbove
          · exact hpb
      refine ⟨p, hpb, ?_, hpChildren⟩
      obtain ⟨role, hRole, -⟩ := role_of_hasPresentationalChildren hpChildren
      by_contra hVisible
      rw [Bool.not_eq_true] at hVisible
      have hpNode : d.nodeOf? r p = some ((Node.ofRole role).withName (r.nameOf p)) :=
        nodeOf?_eq_some_iff.mpr ⟨hVisible, role, hRole, rfl⟩
      rw [hNone (contains_self d p) hpInside] at hpNode
      cases hpNode

/-- So it is where the node of such an ancestor stands in front. -/
theorem WrittenFor.hidden_above {e : Element} {l : Locator} {n : Node}
    (h : d.WrittenFor root target l) (hTarget : d.target? d.plainResolver root e = some target)
    (hn : n ∈ l.nodes.dropLast) (hRole : n.role.hasPresentationalChildren = true) :
    ∃ p, d.contains p e = true ∧ d.isHidden p = true ∧ d.hasPresentationalChildren p = true := by
  have hTargets := targets_of_target? hTarget
  obtain ⟨htBelow, htInside⟩ := mem_candidates.mp hTargets.located.1
  obtain ⟨b, hMem, hNode⟩ := h.above n hn
  obtain ⟨hb, hInside⟩ := (mem_ancestorsWithin htInside).mp hMem
  have hChildren : d.hasPresentationalChildren b = true := by
    by_contra hNot
    rw [Bool.not_eq_true] at hNot
    rw [not_presentational_own hNode hNot] at hRole
    cases hRole
  obtain ⟨p, hpb, hHidden, hpChildren⟩ := hTargets.hidden_above hb hInside hNode hChildren
  have hbBelow : d.contains b e = true := contains_trans (contains_of_ancestors hb) htBelow
  exact ⟨p, contains_trans (contains_of_ancestors hpb) hbBelow, hHidden, hpChildren⟩

/-- The text of such a locator reads as the locator, or is refused on account of one of its nodes. -/
theorem WrittenFor.parse_cases {l : Locator} (h : d.WrittenFor root target l)
    (mark : Option QuoteMark) :
    Locator.parse (l.text mark) = .ok l ∨
      ∃ n ∈ l.nodes.dropLast, n.role.hasPresentationalChildren = true ∧
        Locator.parse (l.text mark) = .error (.presentational l n.role) := by
  rw [Locator.parse_text_eq_make h.built h.nodes_ne_nil mark]
  cases hFirst : l.presentationalNode? with
  | none =>
      have hWell : l.IsWellFormed := by
        refine ⟨h.nodes_ne_nil, fun n hn => ?_⟩
        have hNot := List.find?_eq_none.mp hFirst n hn
        simpa using hNot
      exact Or.inl (Locator.make_eq_ok_iff.mpr ⟨rfl, hWell⟩)
  | some n =>
      have hMem : n ∈ l.nodes.dropLast := List.mem_of_find?_eq_some hFirst
      have hRole := @List.find?_some _ _ n _ hFirst
      refine Or.inr ⟨n, hMem, hRole, ?_⟩
      exact Locator.make_of_presentational h.nodes_ne_nil hFirst

/-- Where the ascent has overstepped an ancestor, the node of that is refused. -/
theorem WrittenFor.refused (h : d.WrittenFor root target ⟨[own, target.node], []⟩)
    (hAt : d.OverstepsAt root target b own) (mark : Option QuoteMark) :
    Locator.parse ((⟨[own, target.node], []⟩ : Locator).text mark) =
      .error (.presentational ⟨[own, target.node], []⟩ own.role) := by
  have hFirst : (⟨[own, target.node], []⟩ : Locator).presentationalNode? = some own :=
    List.find?_cons_of_pos hAt.presentational
  rw [Locator.parse_text_eq_make h.built h.nodes_ne_nil mark]
  exact Locator.make_of_presentational h.nodes_ne_nil hFirst

/-! ## Generated texts -/

/-- The ways in which a text is generated for an element: alone, as a single node outside any batch,
or together with others. -/
inductive Returns (d : Document) (e : Element) (options : GeneratorOptions) :
    GeneratorMode → String → Prop where
  | alone {mode : GeneratorMode} {text : String}
      (h : d.generate e mode options = .ok (some text)) : Returns d e options mode text
  | simple {text : String} (h : d.simpleLocator? e options.mark = some text) :
      Returns d e options .simple text
  | together {mode : GeneratorMode} {text : String} (es : List Element) (timeLimit : Option Nat)
      {entries : LocatorEntries} (h : d.generateAll es mode options timeLimit = .ok entries)
      (hMem : (e, some text) ∈ entries) : Returns d e options mode text

/-- The ascent of a precise mode oversteps an element with presentational children. -/
def Oversteps (d : Document) (e : Element) (mode : GeneratorMode) (options : GeneratorOptions) :
    Prop :=
  (mode = .precise ∨ mode = .closestPrecise) ∧
    ∃ root target b own, d.chosenRoot e options.root = .ok root ∧
      d.target? d.plainResolver root e = some target ∧ d.OverstepsAt root target b own

section Texts

variable {e : Element} {options : GeneratorOptions} {mode : GeneratorMode} {text : String}

theorem generate_simple (d : Document) (e : Element) (options : GeneratorOptions) :
    d.generate e .simple options = .ok (d.simpleLocator? e options.mark) := by
  rw [generate_eq_plain, plainGenerate, simpleLocator?_eq]
  rfl

/-- An entry holds what is generated for its element alone. -/
theorem generate_of_mem_generateAll {es : List Element} {timeLimit : Option Nat}
    {entries : LocatorEntries} (h : d.generateAll es mode options timeLimit = .ok entries)
    (hMem : (e, some text) ∈ entries) : d.generate e mode options = .ok (some text) := by
  have hLimit : d.generateAll es mode options timeLimit =
      d.generateAll (if timeLimit = some 0 then [] else es) mode options none := rfl
  rw [hLimit, generateAll_eq] at h
  obtain rfl := Except.ok.inj h
  obtain ⟨a, -, hEntry⟩ := List.mem_map.mp hMem
  obtain ⟨rfl, hText⟩ := Prod.mk.inj hEntry
  unfold locatorAlone? at hText
  split at hText
  · next hGenerate => rw [hGenerate, hText]
  · cases hText

theorem Returns.generate (h : d.Returns e options mode text) :
    d.generate e mode options = .ok (some text) := by
  cases h with
  | alone h => exact h
  | simple h => rw [generate_simple, h]
  | together es timeLimit h hMem => exact generate_of_mem_generateAll h hMem

/-- A simple mode writes down the node of an element. -/
theorem exists_node_of_simple (hMode : mode = .simple ∨ mode = .closestSimple)
    (h : d.generate e mode options = .ok (some text)) :
    ∃ a n, d.ownNode? a = some n ∧ text = n.text options.mark := by
  rcases hMode with rfl | rfl
  · rw [generate_simple, simpleLocator?_eq] at h
    obtain ⟨n, hNode, rfl⟩ := Option.map_eq_some_iff.mp (Except.ok.inj h)
    exact ⟨e, n, hNode, rfl⟩
  · rw [generate_eq_plain] at h
    obtain ⟨root, -, h⟩ := exists_of_run_bind h
    obtain ⟨located?, hLocated, h⟩ := exists_of_run_bind h
    obtain rfl : d.closestLocated? d.plainResolver root e = located? := Except.ok.inj hLocated
    obtain ⟨located, hSome, rfl⟩ := Option.map_eq_some_iff.mp (Except.ok.inj h)
    exact ⟨located.element, located.node, (closestLocated?_eq_some hSome).2, rfl⟩

/-- A precise mode that comes to a text has come to a root. -/
theorem exists_root_of_precise (hMode : mode = .precise ∨ mode = .closestPrecise)
    (h : d.generate e mode options = .ok (some text)) :
    ∃ root, d.chosenRoot e options.root = .ok root := by
  rw [generate_eq_plain] at h
  have hRun : ∃ root, (liftM (d.chosenRoot e options.root) : ExceptT Error Id Element).run =
      .ok root := by
    rcases hMode with rfl | rfl
    · obtain ⟨root, hRoot, -⟩ := exists_of_run_bind h
      exact ⟨root, hRoot⟩
    · obtain ⟨root, hRoot, -⟩ := exists_of_run_bind h
      exact ⟨root, hRoot⟩
  obtain ⟨root, hRoot⟩ := hRun
  exact ⟨root, hRoot⟩

/-- An element has one target, so that nothing else can be overstepped. -/
theorem not_oversteps (mode : GeneratorMode) {root : Element} {target : Located}
    (hRoot : d.chosenRoot e options.root = .ok root)
    (hTarget : d.target? d.plainResolver root e = some target)
    (hNever : ∀ b own, ¬ d.OverstepsAt root target b own) : ¬ d.Oversteps e mode options := by
  rintro ⟨-, root', target', b, own, hRoot', hTarget', hAt⟩
  obtain rfl : root = root' := Except.ok.inj (hRoot.symm.trans hRoot')
  obtain rfl : target = target' := Option.some.inj (hTarget.symm.trans hTarget')
  exact hNever b own hAt

end Texts

/-- No fragment hangs below the root that is chosen. -/
def HasWholeRoot (d : Document) (e : Element) (options : GeneratorOptions) : Prop :=
  ∀ root, d.chosenRoot e options.root = .ok root → d.Whole root

/-- Whatever is generated is the text of a locator that asks for no attributes.  It reads as that
locator, or it is refused on account of one of the nodes, and then something hidden around the element
has presentational children.  Below a whole root it is refused exactly if the ascent has overstepped
an element with presentational children, and then the locator has two nodes, of which the first is at
fault. -/
theorem generated_reads_iff (d : Document) (e : Element) (options : GeneratorOptions)
    (mode : GeneratorMode) (text : String) (h : d.Returns e options mode text) :
    ∃ l : Locator, l.text options.mark = text ∧ (∀ n ∈ l.nodes, n.constraints = []) ∧
      (Locator.parse text = .ok l ∨
        ∃ n ∈ l.nodes, ∃ p, Locator.parse text = .error (.presentational l n.role) ∧
          d.contains p e = true ∧ d.isHidden p = true ∧ d.hasPresentationalChildren p = true) ∧
      (d.HasWholeRoot e options →
        (Locator.parse text = .ok l ↔ ¬ d.Oversteps e mode options) ∧
        (d.Oversteps e mode options → ∃ outer inner, l = ⟨[outer, inner], []⟩ ∧
          Locator.parse text = .error (.presentational l outer.role))) := by
  have hText := h.generate
  have hModes : (mode = .simple ∨ mode = .closestSimple) ∨
      (mode = .precise ∨ mode = .closestPrecise) := by
    cases mode <;> simp
  rcases hModes with hMode | hMode
  · obtain ⟨a, n, hNode, rfl⟩ := exists_node_of_simple hMode hText
    have hNot : ¬ d.Oversteps e mode options := by
      rintro ⟨rfl | rfl, -⟩
      · simp at hMode
      · simp at hMode
    have hRead := parse_node_text (nodeOf?_built hNode) options.mark
    refine ⟨⟨[n], []⟩, rfl, ?_, Or.inl hRead, fun _ => ⟨iff_of_true hRead hNot, ?_⟩⟩
    · exact fun n' hn' => List.mem_singleton.mp hn' ▸ constraints_of_nodeOf? hNode
    · exact fun hOversteps => absurd hOversteps hNot
  · obtain ⟨root, hRoot⟩ := exists_root_of_precise hMode hText
    obtain ⟨l, hLocator, rfl⟩ := (generate_eq_some_iff hMode hRoot).mp hText
    obtain ⟨target, hTarget, hWritten⟩ := preciseLocator?_writtenFor hLocator
    have hParse := hWritten.parse_cases options.mark
    refine ⟨l, rfl, hWritten.plain, hParse.imp_right ?_, fun hWholeRoot => ?_⟩
    · rintro ⟨n, hn, hRole, hRefused⟩
      obtain ⟨p, hp⟩ := hWritten.hidden_above hTarget hn hRole
      exact ⟨n, List.mem_of_mem_dropLast hn, p, hRefused, hp⟩
    · rcases preciseLocator?_checked (hWholeRoot root hRoot) hLocator hTarget with
        ⟨hWell, hNever⟩ | ⟨b, own, hAt, rfl⟩
      · have hNot := not_oversteps mode hRoot hTarget hNever
        refine ⟨iff_of_true ?_ hNot, fun hOversteps => absurd hOversteps hNot⟩
        refine hParse.resolve_right ?_
        rintro ⟨n, hn, hRole, -⟩
        rw [hWell.init_not_presentational n hn] at hRole
        cases hRole
      · have hOversteps : d.Oversteps e mode options :=
          ⟨hMode, root, target, b, own, hRoot, hTarget, hAt⟩
        have hRefused := hWritten.refused hAt options.mark
        refine ⟨iff_of_false ?_ (not_not.mpr hOversteps), fun _ => ?_⟩
        · intro hRead
          rw [hRefused] at hRead
          cases hRead
        · exact ⟨own, target.node, rfl, hRefused⟩

/-- The locator of a button in a list, with the node of its list item in front. -/
theorem generated_reads_in_list :
    let button := Markup.element "button" [("aria-label", "OK")] []
    let list := Markup.element "ul" [] [.element "li" [] [button]]
    let d := Document.ofElement "body" [] [button, list]
    let text := "\x7blistitem\x7d \x7bbutton 'OK'\x7d"
    d.Returns 4 {} .precise text ∧ d.HasWholeRoot 4 {} ∧
      ∃ l : Locator, l.text none = text ∧ (∀ n ∈ l.nodes, n.constraints = []) ∧
        (Locator.parse text = .ok l ↔ ¬ d.Oversteps 4 .precise {}) := by
  intro button list d text
  have hReturns : d.Returns 4 {} .precise text := by
    apply Returns.alone
    rw [generate_eq_plain]
    decide +kernel
  have hWholeRoot : d.HasWholeRoot 4 {} := by
    intro root hRoot
    obtain rfl : root = 0 := by
      have hZero : d.chosenRoot 4 .standard = .ok 0 := by decide +kernel
      exact Except.ok.inj (hRoot.symm.trans hZero)
    decide +kernel
  obtain ⟨l, hText, hPlain, -, hExact⟩ := generated_reads_iff d 4 {} .precise text hReturns
  exact ⟨hReturns, hWholeRoot, l, hText, hPlain, (hExact hWholeRoot).1⟩

/-- An image lies in a visible button, and that in a hidden one, which the redirection leads to and
gives up at.  The node of the visible button sets the image apart from another one, and may not
stand in front of its node. -/
theorem generated_refused :
    let image := Markup.element "img" [("alt", "x")] []
    let inner := Markup.element "div"
      [("role", "button"), ("aria-label", "x"), ("style", "visibility:visible")] [image]
    let outer := Markup.element "div" [("role", "button"), ("style", "visibility:hidden")] [inner]
    let d := Document.ofElement "html" []
      [.element "head" [] [], .element "body" [] [outer, image]]
    let text := "\x7bbutton 'x'\x7d \x7bimg 'x'\x7d"
    d.generate 5 .precise {} = .ok (some text) ∧
      Locator.ofText text = .error (.invalidLocator ("Semantic locator " ++ text ++
        " contains a role with presentational children (button) before the final node; " ++
        "descendants of such roles cannot be located.")) := by
  intro image inner outer d text
  constructor
  · rw [generate_eq_plain]
    decide +kernel
  · decide +kernel

end Document

end AriaLocator

import AriaLocator.Proofs.Generator.Simulation
import AriaLocator.Proofs.Lookup.Containment

/-!
# Finding the element again

The text of a precise locator is there to find its element again: it should read back as a locator,
and a lookup below the same root should match the element.  This is so exactly if a lookup can
match the element at all, that is, if it is locatable.  For the element itself only one thing can
be in the way: something above it has presentational children.  The redirection guards against
that, but not if what has presentational children is the root, lies around the root, or is hidden.

The invariant of the whole generation is that the chain leads from the root to the target.  The
ascent keeps it since every ancestor satisfies its own node, the pruning since below is transitive.

## Main results

* `Ascends.take`, `LeadsTo.drop`: growing and shrinking, a chain still leads to its target.
* `generated_finds_again_iff`: a precise locator finds its element again exactly if that is
  locatable.
* `generated_misses_image`: the page of a visible image in a hidden button, where it does not.
-/

namespace AriaLocator

/-! ## Names and their own patterns -/

/-- What is left without a star at the end is a beginning. -/
theorem NamePattern.dropStar?_prefix {cs inner : List Char} (h : dropStar? cs = some inner) :
    inner <+: cs := by
  unfold dropStar? at h
  split at h
  · obtain rfl := Option.some.inj h
    exact List.dropLast_prefix cs
  · cases h

/-- A name with stars in it is a pattern, and the pattern accepts the name. -/
theorem nameMatches_self {name : String} (h : name ≠ "*") : nameMatches name name = .ok true := by
  have hSome : ∃ pattern, NamePattern.ofText? name = some pattern ∧
      pattern.accepts name = true := by
    unfold NamePattern.ofText?
    split
    · next hStar =>
      exact absurd (by rw [← String.ofList_toList (s := name), hStar]) h
    · next rest hNot hChars =>
      have hSuffix : rest <:+ name.toList := hChars ▸ List.suffix_cons '*' rest
      cases hInner : NamePattern.dropStar? rest with
      | some inner =>
          refine ⟨_, rfl, NamePattern.containing_accepts.mpr ?_⟩
          rw [String.toList_ofList]
          exact (NamePattern.dropStar?_prefix hInner).isInfix.trans hSuffix.isInfix
      | none =>
          refine ⟨_, rfl, ?_⟩
          rw [NamePattern.accepts, Text.endsWith, String.toList_ofList]
          exact List.isSuffixOf_iff_suffix.mpr hSuffix
    · cases hPart : NamePattern.dropStar? name.toList with
      | some part =>
          refine ⟨_, rfl, ?_⟩
          rw [NamePattern.accepts, Text.startsWith, String.toList_ofList]
          exact List.isPrefixOf_iff_prefix.mpr (NamePattern.dropStar?_prefix hPart)
      | none => exact ⟨_, rfl, NamePattern.exactly_accepts.mpr rfl⟩
  obtain ⟨pattern, hPattern, hAccepts⟩ := hSome
  rw [nameMatches, hPattern]
  exact congrArg Except.ok hAccepts

namespace Document

variable {d : Document} {root : Element}

/-! ## Elements and their own nodes -/

section OwnNode

variable {e : Element} {n : Node}

/-- Up to its name, an element meets what its own node asks for. -/
theorem suits_own (hNode : d.nodeOf? d.plainResolver e = some n)
    (hSemantic : d.presentationalAncestor? e = none) : d.Suits {} n e := by
  obtain ⟨hVisible, role, hRole, rfl⟩ := nodeOf?_eq_some_iff.mp hNode
  refine ⟨?_, rfl⟩
  show (d.hasRole e role && d.isWithinReach {} e) = true
  rw [hasRole_of_role hRole, isWithinReach, hVisible, hSemantic]
  rfl

/-- It satisfies the node, unless its name is a lone asterisk. -/
theorem satisfies_own (hNode : d.nodeOf? d.plainResolver e = some n)
    (hSemantic : d.presentationalAncestor? e = none) (hName : n.name? ≠ some "*") :
    d.Satisfies {} n e := by
  refine satisfies_iff.mpr ⟨suits_own hNode hSemantic, bears_iff.mpr fun text hText => ?_⟩
  have hSome : n.name? = some text := Option.eq_some_of_filter_eq_some hText
  have hOwn : text = d.accessibleName e := by
    obtain ⟨-, role, -, rfl⟩ := nodeOf?_eq_some_iff.mp hNode
    simp only [Node.withName] at hSome
    split at hSome
    · cases hSome
    · exact (Option.some.inj hSome).symm
  rw [← hOwn]
  exact nameMatches_self fun hStar => hName (hStar ▸ hSome)

/-- The role of a node is no obstacle in front of others if its element is none. -/
theorem not_presentational_own (hNode : d.nodeOf? d.plainResolver e = some n)
    (hChildren : d.hasPresentationalChildren e = false) :
    n.role.hasPresentationalChildren = false := by
  obtain ⟨-, role, hRole, rfl⟩ := nodeOf?_eq_some_iff.mp hNode
  show role.hasPresentationalChildren = false
  cases hRoleChildren : role.hasPresentationalChildren with
  | false => rfl
  | true =>
      rw [hasPresentationalChildren_of_role hRole hRoleChildren] at hChildren
      cases hChildren

end OwnNode

/-! ## Lookups of the generator -/

theorem resolved_of_matchesOf {l : Locator} {es : List Element}
    (h : (matchesOf d.plainResolver root l).run = .ok es) :
    ∃ result, d.resolved l root {} = .ok result ∧ result.elements = es := by
  obtain ⟨result, hResult, hElements⟩ := exists_of_run_bind h
  exact ⟨result, hResult, Except.ok.inj hElements⟩

theorem matchesOf_of_resolved {l : Locator} {result : LookupResult}
    (h : d.resolved l root {} = .ok result) :
    (matchesOf d.plainResolver root l).run = .ok result.elements :=
  run_bind_of_ok _ h

/-- There are no matches, or they are what the locator finds. -/
theorem matchesOf_cases {l : Locator} {es : List Element}
    (h : (matchesOf d.plainResolver root l).run = .ok es) :
    es = [] ∧ (∀ e, ¬ d.Chain {} l.nodes root e) ∨ d.FoundBy {} l root es := by
  obtain ⟨result, hResult, rfl⟩ := resolved_of_matchesOf h
  have hComes := resolved_comes d {} l root
  rw [hResult] at hComes
  cases result with
  | found es => exact Or.inr hComes
  | missed miss => exact Or.inl ⟨rfl, hComes⟩

theorem chain_of_matchesOf {l : Locator} {es : List Element} {e : Element}
    (h : (matchesOf d.plainResolver root l).run = .ok es) (he : e ∈ es) :
    d.Chain {} l.nodes root e := by
  rcases matchesOf_cases h with ⟨rfl, -⟩ | hFound
  · exact absurd he List.not_mem_nil
  · exact hFound.reached e he

theorem mem_matchesOf_of_denotes {l : Locator} {es : List Element} {e : Element}
    (h : (matchesOf d.plainResolver root l).run = .ok es) (hDenotes : d.Denotes {} l root e) :
    e ∈ es := by
  rcases matchesOf_cases h with ⟨-, hNone⟩ | hFound
  · exact absurd hDenotes.chain (hNone e)
  · exact hFound.complete e hDenotes

/-- Without `outer`, the matches are what the chain leads to. -/
theorem mem_matchesOf_chain {nodes : List Node} {es : List Element} {e : Element}
    (h : (matchesOf d.plainResolver root ⟨nodes, []⟩).run = .ok es) :
    e ∈ es ↔ d.Chain {} nodes root e := by
  constructor
  · intro he
    have hChain := chain_of_matchesOf h he
    rwa [Locator.nodes, List.append_nil] at hChain
  · exact fun hChain => mem_matchesOf_of_denotes h (denotes_chain_iff.mpr hChain)

/-- Below a whole root, the matches that the generator counts are listed in order, each once. -/
theorem pairwise_matchesOf {l : Locator} {es : List Element} (hWhole : d.Whole root)
    (h : (matchesOf d.plainResolver root l).run = .ok es) : es.Pairwise (· < ·) := by
  rcases matchesOf_cases h with ⟨rfl, -⟩ | hFound
  · exact List.Pairwise.nil
  · exact hFound.ordered (Or.inr hWhole)

theorem resolved_found_of_mem {l : Locator} {es : List Element} {e : Element}
    (h : (matchesOf d.plainResolver root l).run = .ok es) (he : e ∈ es) :
    d.resolved l root {} = .ok (.found es) := by
  obtain ⟨result, hResult, rfl⟩ := resolved_of_matchesOf h
  cases result with
  | found es => exact hResult
  | missed miss => exact absurd he List.not_mem_nil

/-- A lookup that is not refused has not come upon a lone asterisk in its first node, if some
element suits that up to its name. -/
theorem name_ne_star_of_matchesOf {n : Node} {nodes : List Node} {es : List Element} {a : Element}
    (hInside : root ∈ d.holders a) (hSuits : d.Suits {} n a)
    (h : (matchesOf d.plainResolver root ⟨n :: nodes, []⟩).run = .ok es) :
    n.name? ≠ some "*" := by
  obtain ⟨result, hResult, -⟩ := resolved_of_matchesOf h
  obtain ⟨reached, hReached, -⟩ := exists_of_run_bind hResult
  rw [findChain] at hReached
  obtain ⟨first, hFirst, -⟩ := exists_of_run_bind hReached
  have hEnd := findNode_end d {} n [root]
  have hSome : d.suiting {} n [root] ≠ [] :=
    List.ne_nil_of_mem (mem_suiting.mpr ⟨⟨root, List.mem_singleton.mpr rfl, hInside⟩, hSuits⟩)
  rw [hFirst] at hEnd
  cases hEnd with
  | found _ hName => exact hName hSome
  | missed _ _ hName => exact hName hSome

/-! ## Chains to a target -/

/-- A chain leads from the root to the target and may be the chain of a locator. -/
structure LeadsTo (d : Document) (root t : Element) (nodes : List Node) : Prop where
  chain : d.Chain {} nodes root t
  nodes_ne_nil : nodes ≠ []
  init_not_presentational : ∀ n ∈ nodes.dropLast, n.role.hasPresentationalChildren = false
  built : ∀ n ∈ nodes, n.Built

/-- During the ascent the chain leads to the target from the root and from each of the ancestors
that are still ahead, so that any of them can go in front. -/
structure Ascends (d : Document) (root t : Element) (ahead : List Element) (nodes : List Node) :
    Prop where
  above : ∀ a ∈ ahead, a ∈ d.ancestors t
  inside : ∀ a ∈ ahead, root ∈ d.ancestors a
  up : ahead.Pairwise fun a b => b ∈ d.ancestors a
  chain : ∀ a ∈ ahead, d.Chain {} nodes a t
  leads : d.LeadsTo root t nodes

variable {t : Element}

theorem Ascends.pass {a : Element} {rest : List Element} {nodes : List Node}
    (h : d.Ascends root t (a :: rest) nodes) : d.Ascends root t rest nodes where
  above b hb := h.above b (List.mem_cons_of_mem a hb)
  inside b hb := h.inside b (List.mem_cons_of_mem a hb)
  up := h.up.of_cons
  chain b hb := h.chain b (List.mem_cons_of_mem a hb)
  leads := h.leads

/-- The node of an ancestor may go in front, since the ancestor satisfies it. -/
theorem Ascends.take {a : Element} {rest found : List Element} {n : Node} {nodes : List Node}
    (h : d.Ascends root t (a :: rest) nodes) (hSemantic : d.presentationalAncestor? t = none)
    (hNode : d.nodeOf? d.plainResolver a = some n)
    (hFound : (matchesOf d.plainResolver root ⟨n :: nodes, []⟩).run = .ok found) :
    d.Ascends root t rest (n :: nodes) := by
  have haAbove : a ∈ d.ancestors t := h.above a List.mem_cons_self
  have haInside : root ∈ d.holders a := ancestors_subset_holders (h.inside a List.mem_cons_self)
  have haSemantic := presentationalAncestor?_eq_none_above hSemantic haAbove
  have hName := name_ne_star_of_matchesOf haInside (suits_own hNode haSemantic) hFound
  have hSatisfies := satisfies_own hNode haSemantic hName
  have haChain := h.chain a List.mem_cons_self
  have hRole := not_presentational_own hNode (not_presentational_above hSemantic haAbove)
  refine ⟨h.pass.above, h.pass.inside, h.pass.up, fun b hb => ?_, ?_⟩
  · have hbAbove : b ∈ d.ancestors a := (List.pairwise_cons.mp h.up).1 b hb
    exact Chain.cons (ancestors_subset_holders hbAbove) hSatisfies haChain
  · refine ⟨Chain.cons haInside hSatisfies haChain, List.cons_ne_nil n nodes, ?_, ?_⟩
    · rw [List.dropLast_cons_of_ne_nil h.leads.nodes_ne_nil]
      exact List.forall_mem_cons.mpr ⟨hRole, h.leads.init_not_presentational⟩
    · exact List.forall_mem_cons.mpr ⟨nodeOf?_built hNode, h.leads.built⟩

/-- The ascent begins with the node of the target. -/
theorem Ascends.start {n : Node} {found : List Element} (hInside : root ∈ d.ancestors t)
    (hSemantic : d.presentationalAncestor? t = none)
    (hNode : d.nodeOf? d.plainResolver t = some n)
    (hFound : (matchesOf d.plainResolver root ⟨[n], []⟩).run = .ok found) :
    d.Ascends root t ((d.candidates root t).drop 1) [n] := by
  have hName := name_ne_star_of_matchesOf (ancestors_subset_holders hInside)
    (suits_own hNode hSemantic) hFound
  have hSatisfies := satisfies_own hNode hSemantic hName
  have hChain {a : Element} (ha : a ∈ d.ancestors t) : d.Chain {} [n] a t :=
    Chain.cons (ancestors_subset_holders ha) hSatisfies (Chain.nil t)
  rw [candidates_eq hInside, List.drop_succ_cons, List.drop_zero]
  have hMem (a : Element) (ha : a ∈ (d.ancestors t).takeWhile (· != root)) :
      a ∈ d.ancestors t ∧ root ∈ d.ancestors a :=
    (mem_takeWhile_ne (d.pairwise_ancestors t) hInside).mp ha
  refine ⟨fun a ha => (hMem a ha).1, fun a ha => (hMem a ha).2, ?_,
    fun a ha => hChain (hMem a ha).1, ?_⟩
  · exact (d.pairwise_ancestors t).sublist (List.takeWhile_sublist _)
  · refine ⟨hChain hInside, List.cons_ne_nil n [], fun n' hn' => absurd hn' List.not_mem_nil, ?_⟩
    intro n' hn'
    exact List.mem_singleton.mp hn' ▸ nodeOf?_built hNode

theorem leadsTo_of_fullChain {target : Located} {nodes : List Node}
    (hInside : root ∈ d.ancestors target.element)
    (hSemantic : d.presentationalAncestor? target.element = none)
    (hNode : d.nodeOf? d.plainResolver target.element = some target.node)
    (h : (d.fullChain d.plainResolver root target).run = .ok nodes) :
    d.LeadsTo root target.element nodes := by
  obtain ⟨found, hFound, hAscend⟩ := exists_of_run_bind h
  obtain ⟨left, hEnd⟩ := ascend_invariant (d.Ascends root target.element)
    (fun hAscends => hAscends.pass)
    (fun hAscends hOwn hNarrower => hAscends.take hSemantic hOwn hNarrower)
    (Ascends.start hInside hSemantic hNode hFound) hAscend
  exact hEnd.leads

/-- A node may be dropped in front of another one, since what lies below a descendant lies below. -/
theorem LeadsTo.drop {kept rest : List Node} {n next : Node}
    (h : d.LeadsTo root t (kept ++ n :: next :: rest)) :
    d.LeadsTo root t (kept ++ next :: rest) := by
  obtain ⟨a, hKept, hChain⟩ := chain_append_iff.mp h.chain
  obtain ⟨b, hab, -, hRest⟩ := chain_cons_iff.mp hChain
  obtain ⟨c, hbc, hSatisfies, hOthers⟩ := chain_cons_iff.mp hRest
  have hac : a ∈ d.holders c := holders_trans hab (mem_tree_lineage.mpr (Or.inr hbc))
  refine ⟨chain_append_iff.mpr ⟨a, hKept, Chain.cons hac hSatisfies hOthers⟩, by simp, ?_,
    forall_of_drop h.built⟩
  intro n' hn'
  exact h.init_not_presentational n' ((dropLast_sublist_of_drop kept rest n next).subset hn')

/-- With `outer` or without, the locator finds the target. -/
theorem LeadsTo.addOuter {nodes : List Node} (h : d.LeadsTo root t nodes) {l : Locator}
    (hRun : (Document.addOuter d.plainResolver root nodes t).run = .ok l) :
    l.nodes = nodes ∧ ∃ es, d.resolved l root {} = .ok (.found es) ∧ t ∈ es := by
  obtain ⟨plain, outer, hPlain, hOuter, ⟨rfl, ht, -⟩ | ⟨rfl, -⟩⟩ := addOuter_cases hRun
  · exact ⟨rfl, outer, resolved_found_of_mem hOuter ht, ht⟩
  · have ht : t ∈ plain := (mem_matchesOf_chain hPlain).mpr h.chain
    exact ⟨List.append_nil nodes, plain, resolved_found_of_mem hPlain ht, ht⟩

theorem preciseLocator?_eq {r : Resolver Id} (e : Element) (onlyItself : Bool) :
    d.preciseLocator? r root e onlyItself =
      match d.target? r root e with
      | none => pure none
      | some target => (do
        let nodes ← d.fullChain r root target
        if onlyItself && target.element != e then pure none
        else
          let required ← dropRedundant r root false nodes
          pure (some (← addOuter r root required target.element))) := rfl

/-- The stages that a precise locator goes through. -/
theorem preciseLocator?_eq_some_iff {r : Resolver Id} {e : Element} {onlyItself : Bool}
    {l : Locator} :
    (d.preciseLocator? r root e onlyItself).run = .ok (some l) ↔
      ∃ target nodes required, d.target? r root e = some target ∧
        (onlyItself = true → target.element = e) ∧
        (d.fullChain r root target).run = .ok nodes ∧
        (dropRedundant r root false nodes).run = .ok required ∧
        (addOuter r root required target.element).run = .ok l := by
  rw [preciseLocator?_eq]
  constructor
  · intro h
    cases hTarget : d.target? r root e with
    | none =>
        rw [hTarget] at h
        cases h
    | some target =>
        rw [hTarget] at h
        obtain ⟨nodes, hNodes, h⟩ := exists_of_run_bind h
        split at h
        · cases h
        · next hItself =>
          obtain ⟨required, hRequired, h⟩ := exists_of_run_bind h
          obtain ⟨l', hLocator, h⟩ := exists_of_run_bind h
          obtain rfl : l' = l := Option.some.inj (Except.ok.inj h)
          refine ⟨target, nodes, required, rfl, fun hOnly => ?_, hNodes, hRequired, hLocator⟩
          by_contra hOther
          exact hItself (by simp [hOnly, hOther])
  · rintro ⟨target, nodes, required, hTarget, hItself, hNodes, hRequired, hLocator⟩
    have hAllowed : ¬ (onlyItself && target.element != e) = true := by
      intro hBoth
      obtain ⟨hOnly, hOther⟩ := Bool.and_eq_true_iff.mp hBoth
      exact bne_iff_ne.mp hOther (hItself hOnly)
    rw [hTarget]
    refine (run_bind_of_ok _ hNodes).trans ?_
    rw [if_neg hAllowed]
    refine (run_bind_of_ok _ hRequired).trans ?_
    exact run_bind_of_ok _ hLocator

/-- If anything strictly inside the root is locatable, a precise locator can be made from its parts
and finds its target. -/
theorem preciseLocator?_finds {e : Element} {onlyItself : Bool} {l : Locator}
    (h : (d.preciseLocator? d.plainResolver root e onlyItself).run = .ok (some l))
    {a : Element} (ha : a ∈ d.candidates root e) (hLocatable : d.IsLocatable a) :
    l.Accepted ∧ ∃ es t, d.resolved l root {} = .ok (.found es) ∧ t ∈ es ∧
      t ∈ d.candidates root e ∧ (onlyItself = true → t = e) := by
  obtain ⟨target, nodes, required, hTarget, hItself, hNodes, hRequired, hLocator⟩ :=
    preciseLocator?_eq_some_iff.mp h
  obtain ⟨hMem, hNode⟩ := (targets_of_target? hTarget).located
  have hSemantic := (target?_isLocatable hTarget ha hLocatable).semantic
  have hFull := leadsTo_of_fullChain (mem_candidates.mp hMem).2 hSemantic hNode hNodes
  have hPruned : d.LeadsTo root target.element required :=
    dropRedundant_invariant _ LeadsTo.drop hFull hRequired
  obtain ⟨hParts, es, hFound, ht⟩ := hPruned.addOuter hLocator
  refine ⟨⟨Locator.make_eq_ok_iff.mpr ⟨rfl, ?_, ?_⟩, ?_⟩, es, target.element, hFound, ht, hMem,
    hItself⟩
  · exact hParts ▸ hPruned.nodes_ne_nil
  · exact hParts ▸ hPruned.init_not_presentational
  · exact hParts ▸ hPruned.built

/-! ## The locator of a mode -/

/-- The elements one of which a locator that a mode generates is for. -/
def meant (d : Document) (root e : Element) : GeneratorMode → List Element
  | .precise | .simple => [e]
  | .closestPrecise | .closestSimple => d.candidates root e

/-- A text reads as a locator, and a lookup for it matches an element that is meant. -/
def FindsAgain (d : Document) (root e : Element) (mode : GeneratorMode) (text : String) : Prop :=
  ∃ l es, Locator.parse text = .ok l ∧ d.lookup l root {} = .ok (.found es) ∧
    ∃ a ∈ d.meant root e mode, a ∈ es

/-- With the default options, nothing above an element that satisfies a node has presentational
children. -/
theorem Satisfies.nothing_above {n : Node} {e : Element} (h : d.Satisfies {} n e) :
    d.presentationalAncestor? e = none :=
  Option.not_isSome_iff_eq_none.mp fun hSome => Bool.false_ne_true (h.semantic hSome)

/-- What a lookup with the default options matches is locatable. -/
theorem isLocatable_of_found {l : Locator} {es : List Element} {a : Element}
    (hNodes : l.nodes ≠ []) (hFound : d.resolved l root {} = .ok (.found es)) (ha : a ∈ es) :
    d.IsLocatable a := by
  have hComes := resolved_comes d {} l root
  rw [hFound] at hComes
  have hFoundBy : d.FoundBy {} l root es := hComes
  obtain ⟨n, -, hOwn⟩ := (hFoundBy.reached a ha).exists_satisfies hNodes
  refine ⟨?_, role_isSome_of_hasRole hOwn.role, hOwn.nothing_above⟩
  exact Bool.eq_false_iff.mpr fun hHidden => Bool.false_ne_true (hOwn.visible hHidden)

/-- What is found again is locatable. -/
theorem FindsAgain.isLocatable {e : Element} {mode : GeneratorMode} {text : String}
    (h : d.FindsAgain root e mode text) : ∃ a ∈ d.meant root e mode, d.IsLocatable a := by
  obtain ⟨l, es, hParse, hLookup, a, ha, hMem⟩ := h
  rw [lookup_eq_resolved] at hLookup
  have hNodes := (Locator.make_eq_ok_iff.mp (Locator.parse_accepted hParse).made).2.nodes_ne_nil
  exact ⟨a, ha, isLocatable_of_found hNodes hLookup hMem⟩

/-- A precise mode writes down the locator for the root that is chosen. -/
theorem generate_eq_some_iff {e : Element} {mode : GeneratorMode} {options : GeneratorOptions}
    {text : String} (hMode : mode = .precise ∨ mode = .closestPrecise)
    (hRoot : d.chosenRoot e options.root = .ok root) :
    d.generate e mode options = .ok (some text) ↔
      ∃ l, (d.preciseLocator? d.plainResolver root e (mode == .precise)).run = .ok (some l) ∧
        text = l.text options.mark := by
  have hChosen : (liftM (d.chosenRoot e options.root) : ExceptT Error Id Element).run =
      .ok root := by
    rw [hRoot]
    rfl
  have hRun : (d.generateWith d.plainResolver e mode options).run =
      (do pure ((← d.preciseLocator? d.plainResolver root e (mode == .precise)).map
        (·.text options.mark)) : ExceptT Error Id (Option String)).run := by
    rcases hMode with rfl | rfl
    · exact run_bind_of_ok _ hChosen
    · exact run_bind_of_ok _ hChosen
  rw [generate_eq_plain, plainGenerate, hRun]
  constructor
  · intro h
    obtain ⟨l?, hLocator, h⟩ := exists_of_run_bind h
    obtain ⟨l, rfl, rfl⟩ := Option.map_eq_some_iff.mp (Except.ok.inj h)
    exact ⟨l, hLocator, rfl⟩
  · rintro ⟨l, hLocator, rfl⟩
    exact run_bind_of_ok _ hLocator

/-! ## Locators of one node -/

theorem matchesOf_of_names {l : Locator} (h : ∀ n ∈ l.nodes, n.name? ≠ some "*") :
    ∃ es, (matchesOf d.plainResolver root l).run = .ok es := by
  have hComes := resolved_comes d {} l root
  cases hResult : d.resolved l root {} with
  | error error =>
      rw [hResult] at hComes
      obtain ⟨n, hn, hStar⟩ := hComes
      exact absurd hStar (h n hn)
  | ok result => exact ⟨result.elements, run_bind_of_ok _ hResult⟩

/-- Where no match lies in another one, `outer` has nothing to narrow. -/
theorem addOuter_of_apart {nodes : List Node} {e : Element} {found : List Element}
    (hNames : ∀ n ∈ nodes, n.name? ≠ some "*")
    (hFound : (matchesOf d.plainResolver root ⟨nodes, []⟩).run = .ok found)
    (hApart : d.Apart found) :
    (addOuter d.plainResolver root nodes e).run = .ok ⟨nodes, []⟩ := by
  obtain ⟨outer, hOuter⟩ : ∃ es, (matchesOf d.plainResolver root ⟨[], nodes⟩).run = .ok es :=
    matchesOf_of_names hNames
  have hSub : found ⊆ outer := by
    intro x hx
    have hChain := (mem_matchesOf_chain hFound).mp hx
    refine mem_matchesOf_of_denotes hOuter ⟨root, Chain.nil root, ?_⟩
    split
    · next hNone =>
      obtain rfl : nodes = [] := hNone
      exact chain_nil_iff.mp hChain
    · refine ⟨hChain, fun a ha hAbove => ?_⟩
      exact hApart.not_mem_ancestors ((mem_matchesOf_chain hFound).mpr hAbove) hx ha
  have hOrder : found.Pairwise (· < ·) := hApart.imp And.left
  have hNot : ¬ (outer.contains e = true ∧ outer.length < found.length) := fun hBoth =>
    Nat.not_lt_of_le (length_le_of_subset hOrder hSub) hBoth.2
  rw [addOuter]
  refine (run_bind_of_ok _ hFound).trans ?_
  refine (run_bind_of_ok _ hOuter).trans ?_
  rw [if_neg hNot]
  rfl

/-- If the ascent stays with the node of the target and no match lies in another one, the node alone
is generated. -/
theorem generate_of_one_node (options : GeneratorOptions) {e : Element} {mode : GeneratorMode}
    {target : Located} {found : List Element} (hMode : mode = .precise ∨ mode = .closestPrecise)
    (hRoot : d.chosenRoot e options.root = .ok root)
    (hTarget : d.target? d.plainResolver root e = some target)
    (hItself : mode = .precise → target.element = e)
    (hChain : (d.fullChain d.plainResolver root target).run = .ok [target.node])
    (hName : target.node.name? ≠ some "*")
    (hFound : (matchesOf d.plainResolver root ⟨[target.node], []⟩).run = .ok found)
    (hApart : d.Apart found) :
    d.generate e mode options =
      .ok (some ((⟨[target.node], []⟩ : Locator).text options.mark)) := by
  refine (generate_eq_some_iff hMode hRoot).mpr ⟨⟨[target.node], []⟩, ?_, rfl⟩
  refine preciseLocator?_eq_some_iff.mpr ⟨target, [target.node], [target.node], hTarget,
    fun hOnly => hItself (beq_iff_eq.mp hOnly), hChain, rfl, ?_⟩
  exact addOuter_of_apart (fun n hn => List.mem_singleton.mp hn ▸ hName) hFound hApart

/-! ## Finding again -/

/-- A precise locator finds an element that it is meant for again exactly if such an element is
locatable, whatever its root, its quotes and the page. -/
theorem generated_finds_again_iff (d : Document) (e root : Element) (mode : GeneratorMode)
    (options : GeneratorOptions) (text : String)
    (hMode : mode = .precise ∨ mode = .closestPrecise)
    (hRoot : d.chosenRoot e options.root = .ok root)
    (hText : d.generate e mode options = .ok (some text)) :
    d.FindsAgain root e mode text ↔ ∃ a ∈ d.meant root e mode, d.IsLocatable a := by
  refine ⟨FindsAgain.isLocatable, ?_⟩
  rintro ⟨a, ha, hLocatable⟩
  obtain ⟨l, hLocator, rfl⟩ := (generate_eq_some_iff hMode hRoot).mp hText
  have hCandidate : a ∈ d.candidates root e := by
    rcases hMode with rfl | rfl
    · obtain ⟨target, -, -, hTarget, hItself, -⟩ := preciseLocator?_eq_some_iff.mp hLocator
      have hSame : target.element = a := (hItself rfl).trans (List.mem_singleton.mp ha).symm
      exact hSame ▸ (targets_of_target? hTarget).located.1
    · exact ha
  obtain ⟨hAccepted, es, t, hFound, ht, htInside, hItself⟩ :=
    preciseLocator?_finds hLocator hCandidate hLocatable
  refine ⟨l, es, Locator.parse_text hAccepted options.mark, ?_, t, ?_, ht⟩
  · exact (lookup_eq_resolved d l root {}).trans hFound
  · rcases hMode with rfl | rfl
    · exact List.mem_singleton.mpr (hItself rfl)
    · exact htInside

/-- Of an image in a button the button stands in, which is found. -/
theorem generated_finds_button :
    let image := Markup.element "img" [("alt", "x")] []
    let d := Document.ofElement "body" [] [.element "button" [] [image]]
    d.chosenRoot 2 .standard = .ok 0 ∧
      d.generate 2 .closestPrecise {} = .ok (some "\x7bbutton 'x'\x7d") ∧
      d.FindsAgain 0 2 .closestPrecise "\x7bbutton 'x'\x7d" := by
  intro image d
  have hRoot : d.chosenRoot 2 .standard = .ok 0 := by decide +kernel
  have hText : d.generate 2 .closestPrecise {} = .ok (some "\x7bbutton 'x'\x7d") := by
    let target : Located := ⟨(Node.ofRole .button).withName "x", 1⟩
    have hTarget : @Eq (Option Located) (d.target? d.plainResolver 0 2) (some target) := by
      decide +kernel
    have hChain : @Eq (Except Error (List Node)) (d.fullChain d.plainResolver 0 target).run
        (.ok [target.node]) := by
      decide +kernel
    have hFound : @Eq (Except Error (List Element))
        (matchesOf d.plainResolver 0 ⟨[target.node], []⟩).run (.ok [1]) := by
      decide +kernel
    refine (generate_of_one_node {} (Or.inr rfl) hRoot hTarget (by decide) hChain
      (by decide +kernel) hFound (by decide)).trans ?_
    decide +kernel
  refine ⟨hRoot, hText, ?_⟩
  refine (generated_finds_again_iff d 2 0 .closestPrecise {} _ (Or.inr rfl) hRoot hText).mpr ?_
  have hMeant : 1 ∈ d.meant 0 2 .closestPrecise := by decide +kernel
  have hVisible : d.isHidden 1 = false := by decide +kernel
  have hRole : (d.role? 1).isSome = true := by decide +kernel
  have hSemantic : d.presentationalAncestor? 1 = none := by decide +kernel
  exact ⟨1, hMeant, hVisible, hRole, hSemantic⟩

/-- The redirection passes over a hidden button, so an image that is visible in one has a locator of
its own, which misses it. -/
theorem generated_misses_image :
    let image := Markup.element "img" [("alt", "x"), ("style", "visibility:visible")] []
    let button := Markup.element "div" [("role", "button"), ("style", "visibility:hidden")] [image]
    let d := Document.ofElement "html" [] [.element "head" [] [], .element "body" [] [button]]
    d.chosenRoot 4 .standard = .ok 2 ∧
      d.generate 4 .precise {} = .ok (some "\x7bimg 'x'\x7d") ∧
      ¬ d.FindsAgain 2 4 .precise "\x7bimg 'x'\x7d" := by
  intro image button d
  have hRoot : d.chosenRoot 4 .standard = .ok 2 := by decide +kernel
  refine ⟨hRoot, ?_, fun hFinds => ?_⟩
  · let target : Located := ⟨(Node.ofRole .img).withName "x", 4⟩
    have hTarget : @Eq (Option Located) (d.target? d.plainResolver 2 4) (some target) := by
      decide +kernel
    have hChain : @Eq (Except Error (List Node)) (d.fullChain d.plainResolver 2 target).run
        (.ok [target.node]) := by
      decide +kernel
    have hFound : @Eq (Except Error (List Element))
        (matchesOf d.plainResolver 2 ⟨[target.node], []⟩).run (.ok []) := by
      decide +kernel
    refine (generate_of_one_node {} (Or.inl rfl) hRoot hTarget (fun _ => rfl) hChain
      (by decide +kernel) hFound (by decide)).trans ?_
    decide +kernel
  · obtain ⟨a, ha, hLocatable⟩ := hFinds.isLocatable
    obtain rfl : a = 4 := List.mem_singleton.mp ha
    have hButton : d.presentationalAncestor? 4 = some 3 := by decide +kernel
    rw [hLocatable.semantic] at hButton
    cases hButton

end Document

end AriaLocator

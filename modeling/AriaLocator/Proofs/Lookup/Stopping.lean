import AriaLocator.Lookup.Message
import AriaLocator.Proofs.Lookup.Meaning

/-!
# Where a lookup stopped

A lookup that finds nothing says how far it came: which nodes were found, which conditions of the
next node some elements met, which elements these were, and which condition none of them met.  The
report is put together in several places of nested searches, and it speaks of bases of which the
inner ones have been dropped.  It is right if it agrees with what a new lookup of the nodes that were
found comes to, and with what lies below that.

For one node this is `StopsAt`.  It is read off the three exits of the search for the node
(`findNode_missedBy`), one of which may lie at any of the constraints (`narrow_missed`).  For a chain,
the nodes in front of the one that was missed are followed along the recursion: what they have found
are the bases that the report speaks of, and a new search finds the same (`findChain_missed`).

Below a root that is not whole, the elements of a report can be out of document order, and an element
can be among them twice.

Where not even the role is found, the elements of the report are the bases themselves.  There the
inner bases are missing, and so the message counts too few.

## Main results

* `MissedBy.stopsAt`: at each exit of the search for a node the report is right.
* `findChain_missed`: a search stops at one node, behind all those in front of it.
* `lookup_missed_stops`: the report of a lookup without `outer` tells exactly where it stopped.
* `lookup_missed_stops_template`: a report that has an element in a template twice.
* `missed_role_counts`: where a role is missed, the elements that are reported and counted are those
  that lie in no other match.
-/

namespace AriaLocator

/-- The conditions of a node besides its role, in the order in which they are looked at. -/
def Node.conditions (n : Node) : List NodeField :=
  n.constraints.map NodeField.constraint ++ n.filledName?.toList.map NodeField.name

/-- A node with its first `count` constraints and without its name. -/
def Node.upTo (n : Node) (count : Nat) : Node := ⟨n.role, n.constraints.take count, none⟩

namespace Document

/-! ## What a report says -/

/-- An element meets one condition. -/
def MeetsField (d : Document) (e : Element) : NodeField → Prop
  | .role role => d.hasRole e role = true
  | .constraint c => d.ariaValue? e c.aria = some c.value
  | .name pattern => nameMatches pattern (d.accessibleName e) = .ok true

/-- An element below one of the bases satisfies a node. -/
def SatisfiesBelow (d : Document) (options : SearchOptions) (bases : List Element) (n : Node)
    (e : Element) : Prop :=
  (∃ b ∈ bases, b ∈ d.holders e) ∧ d.Satisfies options n e

/-- A search for a node below some bases, which are below the root, ends without an element, and the
report tells why. -/
inductive StopsAt (d : Document) (options : SearchOptions) (root : Element) (bases : List Element)
    (n : Node) (miss : Miss) : Prop where
  /-- No element has the role. Of the bases, the report keeps the outermost. -/
  | role (hPart : miss.partialFind? = none) (hAsked : miss.notFound = .role n.role)
      (hNone : ∀ e, ¬ d.SatisfiesBelow options bases (Node.ofRole n.role) e)
      (hLeft : miss.elementsFound = d.outermost bases)
  /-- There are elements that meet the first conditions, and none of them meets the next. -/
  | condition (count : Nat) (hPart : miss.partialFind? = some ⟨n.role, n.constraints.take count⟩)
      (hAsked : n.conditions[count]? = some miss.notFound)
      (hSome : miss.elementsFound ≠ [])
      (hOrder : d.Whole root → miss.elementsFound.Pairwise fun a b => d.order a b = .lt)
      (hFound : ∀ e, e ∈ miss.elementsFound ↔ d.SatisfiesBelow options bases (n.upTo count) e)
      (hNone : ∀ e ∈ miss.elementsFound, ¬ d.MeetsField e miss.notFound)

variable {d : Document} {options : SearchOptions} {root : Element} {bases : List Element} {n : Node}
  {miss : Miss}

/-! ## Conditions of a node -/

theorem conditions_of_constraint {count : Nat} {c : Constraint}
    (h : n.constraints[count]? = some c) : n.conditions[count]? = some (.constraint c) := by
  have hlt : count < n.constraints.length := (List.getElem?_eq_some_iff.mp h).1
  rw [Node.conditions, List.getElem?_append_left (by simpa using hlt), List.getElem?_map, h]
  rfl

theorem conditions_of_name {text : String} (h : n.filledName? = some text) :
    n.conditions[n.constraints.length]? = some (.name text) := by
  simp [Node.conditions, h]

/-- Without a name to look at, a node matches what has its role and meets its constraints. -/
theorem matching_upTo (d : Document) (options : SearchOptions) (n : Node) (bases : List Element)
    (count : Nat) :
    d.matching options (n.upTo count) bases =
      ((d.outermost bases).flatMap fun b => d.findByRole n.role b options).filter fun e =>
        (n.constraints.take count).all (d.meets e) :=
  matching_of_no_name rfl

/-- With all of its constraints and without its name, a node matches what suits it. -/
theorem matching_upTo_length (d : Document) (options : SearchOptions) (n : Node)
    (bases : List Element) :
    d.matching options (n.upTo n.constraints.length) bases = d.suiting options n bases := by
  rw [matching_upTo, List.take_length]
  rfl

/-! ## One node -/

/-- A report that names what the first conditions leave. -/
theorem stopsAt_of_matching (hBases : d.Whole root → d.OrderedBelow root bases) {count : Nat}
    {field : NodeField} (hAsked : n.conditions[count]? = some field)
    (hSome : d.matching options (n.upTo count) bases ≠ [])
    (hNone : ∀ e ∈ d.matching options (n.upTo count) bases, ¬ d.MeetsField e field) :
    d.StopsAt options root bases n
      ⟨[], some ⟨n.role, n.constraints.take count⟩, d.matching options (n.upTo count) bases,
        field⟩ := by
  apply StopsAt.condition count rfl hAsked hSome _ (fun e => mem_matching) hNone
  intro hWhole
  have hOrdered : d.OrderedBelow root (d.matching options (n.upTo count) bases) :=
    orderedBelow_matching (hBases hWhole) (n.upTo count)
  exact hOrdered.sortable.pairwise_order hOrdered.increasing

/-- Elements are lost to one constraint, and those before it have been met by what was there. -/
theorem narrow_missed {role : Role} {met constraints : List Constraint} {es : List Element}
    (hSome : es ≠ []) (h : d.narrow role met constraints es = .missed miss) :
    ∃ count c, constraints[count]? = some c ∧
      (es.filter fun e => (constraints.take count).all (d.meets e)) ≠ [] ∧
      (∀ e ∈ es.filter fun e => (constraints.take count).all (d.meets e), d.meets e c = false) ∧
      miss = ⟨[], some ⟨role, met ++ constraints.take count⟩,
        es.filter fun e => (constraints.take count).all (d.meets e), .constraint c⟩ := by
  induction constraints generalizing met es with
  | nil => cases h
  | cons c rest ih =>
      cases hNext : es.filter fun e => d.meets e c with
      | nil =>
          have hAll : (es.filter fun e => ((c :: rest).take 0).all (d.meets e)) = es :=
            List.filter_eq_self.mpr fun _ _ => rfl
          have hFails : ∀ e ∈ es, d.meets e c = false := by
            intro e he
            have hNot := List.filter_eq_nil_iff.mp hNext e he
            simpa using hNot
          rw [narrow, hNext] at h
          refine ⟨0, c, rfl, ?_, ?_, ?_⟩
          · rwa [hAll]
          · rwa [hAll]
          · rw [hAll, List.take_zero, List.append_nil]
            exact (LookupResult.missed.inj h).symm
      | cons first others =>
          rw [narrow, hNext] at h
          obtain ⟨count, c', hc', hLeft, hFails, hMiss⟩ := ih (List.cons_ne_nil first others) h
          have hBoth : (es.filter fun e => ((c :: rest).take (count + 1)).all (d.meets e)) =
              (first :: others).filter fun e => (rest.take count).all (d.meets e) := by
            rw [← hNext, List.filter_filter]
            simp [List.all_cons, Bool.and_comm]
          refine ⟨count + 1, c', hc', ?_, ?_, ?_⟩
          · rwa [hBoth]
          · rwa [hBoth]
          · rw [hBoth, hMiss, List.append_assoc]
            rfl

theorem not_satisfiesBelow_of_none
    (h : ((d.outermost bases).flatMap fun b => d.findByRole n.role b options) = []) (e : Element) :
    ¬ d.SatisfiesBelow options bases (Node.ofRole n.role) e := by
  intro hBelow
  have hMem : e ∈ d.matching options (n.upTo 0) bases := mem_matching.mpr hBelow
  rw [matching_upTo, h] at hMem
  exact absurd hMem List.not_mem_nil

/-- The three exits of a search for a node that misses: at the role, at a constraint and at the name.
-/
inductive MissedBy (d : Document) (options : SearchOptions) (n : Node) (bases : List Element) :
    Miss → Prop where
  | role (hNone : ((d.outermost bases).flatMap fun b => d.findByRole n.role b options) = []) :
      MissedBy d options n bases ⟨[], none, d.outermost bases, .role n.role⟩
  | constraint {miss : Miss}
      (hSome : ((d.outermost bases).flatMap fun b => d.findByRole n.role b options) ≠ [])
      (hNarrow : d.narrow n.role [] n.constraints
        ((d.outermost bases).flatMap fun b => d.findByRole n.role b options) = .missed miss) :
      MissedBy d options n bases miss
  | name {text : String} (hAsked : n.filledName? = some text)
      (hSome : d.suiting options n bases ≠ [])
      (hNone : ∀ e ∈ d.suiting options n bases,
        nameMatches text (d.accessibleName e) ≠ .ok true) :
      MissedBy d options n bases
        ⟨[], some ⟨n.role, n.constraints⟩, d.suiting options n bases, .name text⟩

/-- Where some elements suit a node, only the name can be missed. -/
theorem missedBy_of_suiting (hSuiting : d.suiting options n bases ≠ [])
    (h : (d.findNode (m := Id) d.accessibleName options n bases).run = .ok (.missed miss)) :
    d.MissedBy options n bases miss := by
  rw [findNode_of_suiting_ne_nil hSuiting] at h
  cases hFilled : n.filledName? with
  | none =>
      rw [hFilled] at h
      cases h
  | some text =>
      rw [hFilled] at h
      simp only at h
      cases hPattern : NamePattern.ofText? text with
      | none =>
          obtain ⟨error, hError⟩ := filterNamed_of_no_pattern hPattern d.accessibleName hSuiting
          rw [run_bind_of_error _ hError] at h
          cases h
      | some pattern =>
          rw [run_bind_of_ok _ (filterNamed_run hPattern d.accessibleName _)] at h
          cases hNamed : (d.suiting options n bases).filter fun e =>
              pattern.accepts (d.accessibleName e) with
          | cons first others =>
              rw [hNamed] at h
              cases h
          | nil =>
              rw [hNamed] at h
              obtain rfl := LookupResult.missed.inj (Except.ok.inj h)
              apply MissedBy.name hFilled hSuiting
              intro e he hMatches
              rw [nameMatches, hPattern] at hMatches
              exact List.filter_eq_nil_iff.mp hNamed e he (Except.ok.inj hMatches)

/-- A search for a node that misses has left by one of the exits. -/
theorem findNode_missedBy
    (h : (d.findNode (m := Id) d.accessibleName options n bases).run = .ok (.missed miss)) :
    d.MissedBy options n bases miss := by
  by_cases hSuiting : d.suiting options n bases = []
  · unfold findNode at h
    simp only at h
    cases hRole : (d.outermost bases).flatMap fun b => d.findByRole n.role b options with
    | nil =>
        rw [hRole] at h
        obtain rfl := LookupResult.missed.inj (Except.ok.inj h)
        exact MissedBy.role hRole
    | cons first others =>
        have hSome := List.cons_ne_nil first others
        rw [hRole] at h
        simp only at h
        rcases narrow_cases d n.role [] n.constraints hSome with
          ⟨found, hNarrow, hNonempty, hFound⟩ | ⟨⟨lost, hNarrow⟩, -⟩
        · rw [← hRole] at hFound
          exact absurd (hFound.trans hSuiting) hNonempty
        · rw [hNarrow] at h
          obtain rfl := LookupResult.missed.inj (Except.ok.inj h)
          rw [← hRole] at hSome hNarrow
          exact MissedBy.constraint hSome hNarrow
  · exact missedBy_of_suiting hSuiting h

/-- At each exit the report is right. -/
theorem MissedBy.stopsAt (h : d.MissedBy options n bases miss)
    (hBases : d.Whole root → d.OrderedBelow root bases) : d.StopsAt options root bases n miss := by
  cases h with
  | role hNone => exact StopsAt.role rfl rfl (not_satisfiesBelow_of_none hNone) rfl
  | constraint hSome hNarrow =>
      obtain ⟨count, c, hc, hLeft, hFails, hMiss⟩ := narrow_missed hSome hNarrow
      rw [← matching_upTo] at hLeft hFails hMiss
      rw [hMiss, List.nil_append]
      apply stopsAt_of_matching hBases (conditions_of_constraint hc) hLeft
      intro e he hMeets
      have hNot := hFails e he
      rw [meets, beq_eq_false_iff_ne] at hNot
      exact hNot hMeets
  | name hAsked hSome hNone =>
      rw [← matching_upTo_length] at hSome hNone ⊢
      have hStops := stopsAt_of_matching hBases (conditions_of_name hAsked) hSome hNone
      rwa [List.take_length] at hStops

/-- The nodes that a report names do not matter to what it says of the next one. -/
theorem StopsAt.behind (h : d.StopsAt options root bases n miss) (passed : List Node) :
    d.StopsAt options root bases n { miss with closestFind := passed } := by
  cases h with
  | role hPart hAsked hNone hLeft => exact StopsAt.role hPart hAsked hNone hLeft
  | condition count hPart hAsked hSome hOrder hFound hNone =>
      exact StopsAt.condition count hPart hAsked hSome hOrder hFound hNone

/-! ## Chains -/

/-- A search for a chain that misses stops at one of its nodes.  The nodes in front of it find
something, and the report speaks of that. -/
theorem findChain_missed {passed nodes : List Node} (hSome : bases ≠ [])
    (hBases : d.Whole root → d.OrderedBelow root bases)
    (h : (d.findChain (m := Id) d.accessibleName options passed nodes bases).run =
      .ok (.missed miss)) :
    ∃ front n rest reached, nodes = front ++ n :: rest ∧ miss.closestFind = passed ++ front ∧
      (∀ passed', (d.findChain (m := Id) d.accessibleName options passed' front bases).run =
        .ok (.found reached)) ∧
      (front = [] → reached = bases) ∧ reached ≠ [] ∧
      (d.Whole root → d.OrderedBelow root reached) ∧ d.StopsAt options root reached n miss := by
  induction nodes generalizing passed bases with
  | nil => cases h
  | cons n rest ih =>
      have hNode := findNode_comes options n hBases
      rw [findChain] at h
      cases hRun : (d.findNode (m := Id) d.accessibleName options n bases).run with
      | error error =>
          rw [run_bind_of_error _ hRun] at h
          cases h
      | ok result =>
          rw [run_bind_of_ok _ hRun] at h
          rw [hRun] at hNode
          cases result with
          | missed lost =>
              obtain rfl := LookupResult.missed.inj (Except.ok.inj h)
              have hStops := (findNode_missedBy hRun).stopsAt hBases
              exact ⟨[], n, rest, bases, rfl, (List.append_nil passed).symm, fun _ => rfl,
                fun _ => rfl, hSome, hBases, hStops.behind passed⟩
          | found es =>
              obtain ⟨front, n', rest', reached, hSplit, hClosest, hFinds, -, hRest⟩ :=
                ih hNode.1 hNode.2.1 h
              have hFront : n :: front = [] → reached = bases :=
                fun hNil => absurd hNil (List.cons_ne_nil n front)
              refine ⟨n :: front, n', rest', reached, ?_, ?_, ?_, hFront, hRest⟩
              · rw [hSplit, List.cons_append]
              · rw [hClosest, List.append_assoc, List.singleton_append]
              · intro passed'
                rw [findChain, run_bind_of_ok _ hRun]
                exact hFinds (passed' ++ [n])

/-! ## Lookups without `outer` -/

/-- Without `outer`, a plain search follows the chain and no more. -/
theorem resolved_of_plain {l : Locator} (hPlain : l.postOuter = []) (d : Document) (root : Element)
    (options : SearchOptions) :
    d.resolved l root options =
      (d.findChain (m := Id) d.accessibleName options [] l.preOuter [root]).run := by
  rw [resolved, resolve]
  cases hRun : (d.findChain (m := Id) d.accessibleName options [] l.preOuter [root]).run with
  | error error => exact run_bind_of_error _ hRun
  | ok result =>
      rw [run_bind_of_ok _ hRun]
      cases result with
      | missed miss => rfl
      | found es =>
          simp only [hPlain, List.isEmpty_nil, if_true]
          rfl

variable {l : Locator}

/-- Behind which elements and at which node a lookup stopped. -/
theorem resolved_missed (hPlain : l.postOuter = [])
    (h : d.resolved l root options = .ok (.missed miss)) :
    ∃ n reached, l.preOuter[miss.closestFind.length]? = some n ∧
      miss.closestFind = l.preOuter.take miss.closestFind.length ∧
      d.resolved ⟨miss.closestFind, []⟩ root options = .ok (.found reached) ∧
      (miss.closestFind = [] → reached = [root]) ∧ reached ≠ [] ∧
      (d.Whole root → d.OrderedBelow root reached) ∧ d.StopsAt options root reached n miss := by
  rw [resolved_of_plain hPlain] at h
  obtain ⟨front, n, rest, reached, hSplit, hClosest, hFinds, hRest⟩ :=
    findChain_missed (List.cons_ne_nil root []) OrderedBelow.singleton h
  rw [List.nil_append] at hClosest
  rw [hClosest, hSplit, resolved_of_plain rfl]
  exact ⟨n, reached, by simp, by simp, hFinds [], hRest⟩

/-- No element of a list lies in another one. -/
def NoneNested (d : Document) (es : List Element) : Prop := ∀ e ∈ es, ∀ a ∈ es, a ∉ d.ancestors e

theorem outermost_eq_self_iff {es : List Element} (h : d.OrderedBelow root es) :
    d.outermost es = es ↔ d.NoneNested es := by
  constructor
  · intro hSame e he
    rw [← hSame] at he
    exact ((mem_outermost_iff h).mp he).2
  · intro hNone
    -- The pass keeps every element, so that neither the order nor the number can change.
    have hAll : es ⊆ d.outermost es := fun e he => (mem_outermost_iff h).mpr ⟨he, hNone e he⟩
    have hOnce : es.Nodup := h.increasing.imp fun hlt => Nat.ne_of_lt hlt
    have hle : es.length ≤ (d.outermost es).length := (hOnce.subperm hAll).length_le
    exact (outermost_sublist d es).eq_of_length_le hle

/-- The message where a role is missed behind some nodes. -/
theorem explainMiss_of_role (d : Document) (hPart : miss.partialFind? = none)
    (hClosest : miss.closestFind ≠ []) :
    d.explainMiss miss =
      toString miss.elementsFound.length ++ " element" ++ pluralEnding miss.elementsFound.length ++
        " matched the locator " ++ nodesText miss.closestFind ++ ", but " ++
        (if 1 < miss.elementsFound.length then "none had" else "it didn't have") ++
        " a descendant with " ++ miss.notFound.explain ++ "." := by
  obtain ⟨closest, part, es, missing⟩ := miss
  obtain rfl : part = none := hPart
  cases closest with
  | nil => exact absurd rfl hClosest
  | cons n rest =>
      have hNoun : toString es.length ++ " " ++ "element" = toString es.length ++ " element" := by
        rw [String.append_assoc]
        rfl
      simp only [explainMiss, hNoun]

/-- Where nothing below the nodes that were found has the role of the next one, the message counts
the elements of the report.  These are some of the matches of the nodes that were found, and each
match lies in one of them.  If no fragment cuts off anything below the root, they are the matches
which lie in no other match: all of them, and as many as there are, exactly if no match lies in
another one. -/
theorem missed_role_counts (hPlain : l.postOuter = [])
    (h : d.lookup l root options = .ok (.missed miss)) (hPart : miss.partialFind? = none)
    (hClosest : miss.closestFind ≠ []) :
    ∃ es, d.lookup ⟨miss.closestFind, []⟩ root options = .ok (.found es) ∧
      miss.elementsFound.Sublist es ∧
      (∀ e ∈ es, ∃ a ∈ miss.elementsFound, d.contains a e = true) ∧
      (d.Whole root →
        (∀ e, e ∈ miss.elementsFound ↔ e ∈ es ∧ ∀ a ∈ es, a ∉ d.ancestors e) ∧
        (miss.elementsFound = es ↔ d.NoneNested es) ∧
        (miss.elementsFound.length = es.length ↔ d.NoneNested es)) ∧
      d.explainMiss miss =
        toString miss.elementsFound.length ++ " element" ++ pluralEnding miss.elementsFound.length ++
          " matched the locator " ++ nodesText miss.closestFind ++ ", but " ++
          (if 1 < miss.elementsFound.length then "none had" else "it didn't have") ++
          " a descendant with " ++ miss.notFound.explain ++ "." := by
  rw [lookup_eq_resolved] at h
  obtain ⟨n, es, -, -, hFinds, -, -, hOrdered, hStops⟩ := resolved_missed hPlain h
  have hLeft : miss.elementsFound = d.outermost es := by
    cases hStops with
    | role _ _ _ hLeft => exact hLeft
    | condition count hPart' =>
        rw [hPart] at hPart'
        cases hPart'
  have hLength : (d.outermost es).length = es.length ↔ d.outermost es = es := by
    constructor
    · intro hSame
      exact (outermost_sublist d es).eq_of_length hSame
    · intro hSame
      rw [hSame]
  have hMessage := explainMiss_of_role d hPart hClosest
  rw [lookup_eq_resolved]
  rw [hLeft] at hMessage ⊢
  refine ⟨es, hFinds, outermost_sublist d es, fun e he => exists_outermost_contains d he,
    fun hWhole => ?_, hMessage⟩
  have hSame := outermost_eq_self_iff (hOrdered hWhole)
  exact ⟨fun e => mem_outermost_iff (hOrdered hWhole), hSame, hLength.trans hSame⟩

/-- Two lists beside each other: both are reported and counted. -/
theorem missed_role_counts_two_lists :
    let d := Document.ofElement "body" [] [.element "ul" [] [], .element "ul" [] []]
    let l : Locator := ⟨[Node.ofRole .list, Node.ofRole .button], []⟩
    let miss : Miss := ⟨[Node.ofRole .list], none, [1, 2], .role .button⟩
    l.postOuter = [] ∧ d.lookup l 0 {} = .ok (.missed miss) ∧ miss.partialFind? = none ∧
      miss.closestFind ≠ [] ∧ d.Whole 0 ∧
      d.lookup ⟨[Node.ofRole .list], []⟩ 0 {} = .ok (.found [1, 2]) ∧ d.NoneNested [1, 2] := by
  intro d l miss
  have hMissed : d.lookup l 0 {} = .ok (.missed miss) := by
    rw [lookup_eq_resolved]
    decide +kernel
  have hFound : d.lookup ⟨[Node.ofRole .list], []⟩ 0 {} = .ok (.found [1, 2]) := by
    rw [lookup_eq_resolved]
    decide +kernel
  have hClosest : miss.closestFind ≠ [] := List.cons_ne_nil _ _
  have hWhole : d.Whole 0 := by decide +kernel
  obtain ⟨es, hFinds, -, -, hMatches, -⟩ :=
    missed_role_counts (show l.postOuter = [] from rfl) hMissed rfl hClosest
  obtain rfl : [1, 2] = es := LookupResult.found.inj (Except.ok.inj (hFound.symm.trans hFinds))
  exact ⟨rfl, hMissed, rfl, hClosest, hWhole, hFound, (hMatches hWhole).2.1.mp rfl⟩

/-- Of a list in an item of another one the message takes no notice: two lists match, and it counts
one. -/
theorem missed_role_counts_one_of_two :
    let inner := Markup.element "ul" [] []
    let body := Markup.element "body" [] [.element "ul" [] [.element "li" [] [inner]]]
    let d := Document.ofElement "html" [] [.element "head" [] [], body]
    let l : Locator := ⟨[Node.ofRole .list, Node.ofRole .button], []⟩
    let miss : Miss := ⟨[Node.ofRole .list], none, [3], .role .button⟩
    Locator.parse "\x7blist\x7d \x7bbutton\x7d" = .ok l ∧
      d.lookup l 2 {} = .ok (.missed miss) ∧
      d.lookup ⟨miss.closestFind, []⟩ 2 {} = .ok (.found [3, 5]) ∧ miss.elementsFound ≠ [3, 5] ∧
      d.explainMiss miss =
        "1 element matched the locator \x7blist\x7d, but it didn't have a descendant with an ARIA " ++
          "role of button." := by
  intro inner body d l miss
  refine ⟨by decide +kernel, ?_, ?_, by decide, by decide +kernel⟩
  · rw [lookup_eq_resolved]
    decide +kernel
  · rw [lookup_eq_resolved]
    decide +kernel

end Document

end AriaLocator

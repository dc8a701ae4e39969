import AriaLocator.Proofs.Batch.Simulation
import AriaLocator.Proofs.Document.Outermost

/-!
# Chains of matches

An element *satisfies* a node if it has the role, lies within reach, has every value and bears the
name.  A chain of nodes leads from a base to an element over descendants that satisfy one node each.

The search never follows single chains.  It drops bases that lie in other bases, gathers what lies
below the rest without sorting, and hands all of it on as the bases of the next node.  The
invariant that carries this over the nodes is `Answers`: what has been found is exactly what is
wanted, and if the top is whole, it is in document order, each element once.  A search that is refused
is not an answer, and comes from a lone asterisk alone.

A base that hangs in the fragment of a template is below the bases around the template, but lies in
none of them.  So it is searched once more on its own, and what it leads to is then listed twice.

## Main results

* `findNode_end`: what a node comes to, from the elements below the bases that suit it.
* `findNode_comes`, `findChain_comes`: one node and a chain of nodes find what they mean.
-/

namespace AriaLocator

namespace Document

/-! ## What nodes ask for -/

/-- An element meets all that a node asks for and lies within reach. An empty name asks for
nothing. -/
structure Satisfies (d : Document) (options : SearchOptions) (n : Node) (e : Element) : Prop where
  /-- The role. -/
  role : d.hasRole e n.role = true
  /-- Hidden elements count only if they are asked for. -/
  visible : d.isHidden e = true → options.includeHidden = true
  /-- So do elements below one with presentational children. -/
  semantic : (d.presentationalAncestor? e).isSome = true → options.includePresentational = true
  /-- The values of attributes. -/
  values : ∀ c ∈ n.constraints, d.ariaValue? e c.aria = some c.value
  /-- The name. -/
  name : ∀ pattern, n.filledName? = some pattern →
    nameMatches pattern (d.accessibleName e) = .ok true

/-- A chain of nodes leads from a base down to an element, each node satisfied by a descendant of
the one before, in the tree of nodes. -/
inductive Chain (d : Document) (options : SearchOptions) :
    List Node → Element → Element → Prop where
  | nil (b : Element) : Chain d options [] b b
  | cons {n : Node} {rest : List Node} {b e last : Element} (below : b ∈ d.holders e)
      (satisfies : d.Satisfies options n e) (others : Chain d options rest e last) :
      Chain d options (n :: rest) b last

/-- What is found is exactly what is wanted, and not nothing. Below a whole top it is in document
order, each element once. A miss says that nothing is wanted. -/
def Answers (d : Document) (top : Element) (wanted : Element → Prop) : LookupResult → Prop
  | .found es =>
    es ≠ [] ∧ (d.Whole top → d.OrderedBelow top es) ∧ ∀ e, e ∈ es ↔ wanted e
  | .missed _ => ∀ e, ¬ wanted e

/-- A search through nodes comes to an answer. Only a lone asterisk for a name makes it an error. -/
def Comes (answers : LookupResult → Prop) (nodes : List Node) : Except Error LookupResult → Prop
  | .ok result => answers result
  | .error _ => ∃ n ∈ nodes, n.name? = some "*"

variable {d : Document} {options : SearchOptions} {top : Element}

theorem Comes.imp {answers answers' : LookupResult → Prop} {nodes : List Node}
    {outcome : Except Error LookupResult} (h : Comes answers nodes outcome)
    (hImp : ∀ result, answers result → answers' result) : Comes answers' nodes outcome := by
  cases outcome with
  | ok result => exact hImp result h
  | error e => exact h

theorem Answers.congr {wanted wanted' : Element → Prop} {result : LookupResult}
    (h : d.Answers top wanted result) (hSame : ∀ e, wanted e ↔ wanted' e) :
    d.Answers top wanted' result := by
  have hEq : wanted = wanted' := funext fun e => propext (hSame e)
  exact hEq ▸ h

theorem Comes.mono {answers : LookupResult → Prop} {nodes more : List Node}
    {outcome : Except Error LookupResult} (h : Comes answers nodes outcome)
    (hSub : nodes ⊆ more) : Comes answers more outcome := by
  cases outcome with
  | ok result => exact h
  | error e =>
      obtain ⟨n, hn, hStar⟩ := h
      exact ⟨n, hSub hn, hStar⟩

theorem chain_cons_iff {n : Node} {rest : List Node} {b last : Element} :
    d.Chain options (n :: rest) b last ↔
      ∃ e, b ∈ d.holders e ∧ d.Satisfies options n e ∧ d.Chain options rest e last := by
  constructor
  · intro h
    cases h with
    | cons below satisfies others => exact ⟨_, below, satisfies, others⟩
  · rintro ⟨e, below, satisfies, others⟩
    exact Chain.cons below satisfies others

theorem chain_nil_iff {b e : Element} : d.Chain options [] b e ↔ e = b := by
  constructor
  · intro h
    cases h with
    | nil => rfl
  · rintro rfl
    exact Chain.nil e

/-- A chain of two parts passes through some element between them. -/
theorem chain_append_iff {front back : List Node} {b e : Element} :
    d.Chain options (front ++ back) b e ↔
      ∃ a, d.Chain options front b a ∧ d.Chain options back a e := by
  induction front generalizing b with
  | nil =>
      rw [List.nil_append]
      constructor
      · exact fun h => ⟨b, Chain.nil b, h⟩
      · rintro ⟨a, hFront, hBack⟩
        obtain rfl := chain_nil_iff.mp hFront
        exact hBack
  | cons n rest ih =>
      rw [List.cons_append, chain_cons_iff]
      constructor
      · rintro ⟨first, hBelow, hSatisfies, hOthers⟩
        obtain ⟨a, hFront, hBack⟩ := ih.mp hOthers
        exact ⟨a, Chain.cons hBelow hSatisfies hFront, hBack⟩
      · rintro ⟨a, hFront, hBack⟩
        obtain ⟨first, hBelow, hSatisfies, hOthers⟩ := chain_cons_iff.mp hFront
        exact ⟨first, hBelow, hSatisfies, ih.mpr ⟨a, hOthers, hBack⟩⟩

/-- Where a chain ends, its last node is satisfied. -/
theorem Chain.exists_satisfies {nodes : List Node} {b e : Element} (h : d.Chain options nodes b e)
    (hSome : nodes ≠ []) : ∃ n ∈ nodes, d.Satisfies options n e := by
  induction h with
  | nil => exact absurd rfl hSome
  | @cons n rest b e last below satisfies others ih =>
      cases rest with
      | nil =>
          obtain rfl := chain_nil_iff.mp others
          exact ⟨n, List.mem_cons_self, satisfies⟩
      | cons next rest =>
          obtain ⟨n', hn', hSatisfies⟩ := ih (List.cons_ne_nil next rest)
          exact ⟨n', List.mem_cons_of_mem n hn', hSatisfies⟩

/-- A chain leads downwards. -/
theorem Chain.leads_down {nodes : List Node} {b e : Element} (h : d.Chain options nodes b e) :
    b ∈ d.tree.lineage e := by
  induction h with
  | nil b => exact d.tree.mem_lineage_self b
  | cons below satisfies others ih =>
      exact Forest.mem_lineage_trans (mem_tree_lineage.mpr (Or.inr below)) ih

/-! ## One node -/

/-- Only a lone asterisk is no pattern. -/
theorem eq_star_of_no_pattern {text : String} (h : NamePattern.ofText? text = none) :
    text = "*" := by
  unfold NamePattern.ofText? at h
  split at h
  · next hStar => rw [← String.ofList_toList (s := text), hStar]
  · split at h <;> simp at h
  · split at h <;> simp at h

section Plain

variable {α β : Type} {search : ExceptT Error Id α} (next : α → ExceptT Error Id β)

/-- A plain search goes on with the value that its first part comes to. -/
theorem run_bind_of_ok {value : α} (h : search.run = .ok value) :
    (search >>= next).run = (next value).run := by
  show ExceptT.bindCont next search.run = (next value).run
  rw [h]
  rfl

/-- The error of its first part ends it. -/
theorem run_bind_of_error {error : Error} (h : search.run = .error error) :
    (search >>= next).run = .error error := by
  show ExceptT.bindCont next search.run = .error error
  rw [h]
  rfl

end Plain

theorem filterNamed_run {text : String} {pattern : NamePattern}
    (h : NamePattern.ofText? text = some pattern) (nameOf : Element → String)
    (es : List Element) :
    (filterNamed (m := Id) nameOf text es).run =
      .ok (es.filter fun e => pattern.accepts (nameOf e)) := by
  induction es with
  | nil => rfl
  | cons e rest ih =>
      have hFits : (liftM (nameMatches text (nameOf e)) : ExceptT Error Id Bool).run =
          .ok (pattern.accepts (nameOf e)) := by
        rw [nameMatches, h]
        rfl
      rw [filterNamed]
      refine (@run_bind_of_ok _ _ _ _ (nameOf e) rfl).trans ?_
      refine (run_bind_of_ok _ hFits).trans ?_
      refine (run_bind_of_ok _ ih).trans ?_
      rw [List.filter_cons]
      cases pattern.accepts (nameOf e) <;> rfl

/-- A lone asterisk is an error as soon as there is an element whose name is asked for. -/
theorem filterNamed_of_no_pattern {text : String} (h : NamePattern.ofText? text = none)
    (nameOf : Element → String) {es : List Element} (hSome : es ≠ []) :
    ∃ error, (filterNamed (m := Id) nameOf text es).run = .error error := by
  obtain ⟨e, rest, rfl⟩ := List.exists_cons_of_ne_nil hSome
  have hFits : (liftM (nameMatches text (nameOf e)) : ExceptT Error Id Bool).run =
      .error (.value loneStarMessage) := by
    rw [nameMatches, h]
    rfl
  rw [filterNamed]
  refine ⟨.value loneStarMessage, (@run_bind_of_ok _ _ _ _ (nameOf e) rfl).trans ?_⟩
  exact run_bind_of_error _ hFits

/-- After the constraints some elements are left that meet them all, or no element does. -/
theorem narrow_cases (d : Document) (role : Role) (met constraints : List Constraint)
    {es : List Element} (h : es ≠ []) :
    (∃ found, d.narrow role met constraints es = .found found ∧ found ≠ [] ∧
        found = es.filter fun e => constraints.all (d.meets e)) ∨
      (∃ miss, d.narrow role met constraints es = .missed miss) ∧
        (es.filter fun e => constraints.all (d.meets e)) = [] := by
  induction constraints generalizing met es with
  | nil => exact Or.inl ⟨es, rfl, h, (List.filter_eq_self.mpr fun _ _ => rfl).symm⟩
  | cons c rest ih =>
      have hBoth : (es.filter fun e => (c :: rest).all (d.meets e)) =
          (es.filter fun e => d.meets e c).filter fun e => rest.all (d.meets e) := by
        rw [List.filter_filter]
        simp [List.all_cons, Bool.and_comm]
      rw [hBoth]
      cases hNext : es.filter fun e => d.meets e c with
      | nil =>
          refine Or.inr ⟨⟨⟨[], some ⟨role, met⟩, es, .constraint c⟩, ?_⟩, rfl⟩
          rw [narrow, hNext]
      | cons first others =>
          have hStep : d.narrow role met (c :: rest) es =
              d.narrow role (met ++ [c]) rest (first :: others) := by
            rw [narrow, hNext]
          rw [hStep]
          exact ih (met ++ [c]) (List.cons_ne_nil first others)

/-- Whether a name fits the name that a node asks for, if it asks for one. -/
def bears (n : Node) (actual : String) : Bool :=
  n.filledName?.all fun text => (NamePattern.ofText? text).any fun pattern => pattern.accepts actual

theorem bears_iff {n : Node} {actual : String} :
    bears n actual = true ↔
      ∀ text, n.filledName? = some text → nameMatches text actual = .ok true := by
  rw [bears]
  cases hFilled : n.filledName? with
  | none => simp
  | some text =>
      simp only [Option.all_some, Option.some.injEq, forall_eq', nameMatches]
      cases hPattern : NamePattern.ofText? text with
      | none =>
          simp only [Option.any_none, Bool.false_eq_true, false_iff]
          exact fun h => by simp [throw, throwThe, MonadExceptOf.throw] at h
      | some pattern =>
          simp only [Option.any_some]
          exact ⟨fun h => congrArg Except.ok h, fun h => Except.ok.inj h⟩

/-- An element meets all that a node asks for but its name, and lies within reach. -/
def Suits (d : Document) (options : SearchOptions) (n : Node) (e : Element) : Prop :=
  (d.hasRole e n.role && d.isWithinReach options e) = true ∧
    n.constraints.all (d.meets e) = true

/-- What a search takes in: hidden elements and those below one with presentational children only if
they are asked for. -/
theorem isWithinReach_iff {e : Element} :
    d.isWithinReach options e = true ↔
      (d.isHidden e = true → options.includeHidden = true) ∧
        ((d.presentationalAncestor? e).isSome = true → options.includePresentational = true) := by
  unfold isWithinReach
  cases d.isHidden e <;> cases options.includeHidden <;>
    cases options.includePresentational <;> cases d.presentationalAncestor? e <;> simp

/-- The conditions of a node, one after the other. -/
theorem satisfies_iff {n : Node} {e : Element} :
    d.Satisfies options n e ↔
      d.Suits options n e ∧ bears n (d.accessibleName e) = true := by
  have hValues : n.constraints.all (d.meets e) = true ↔
      ∀ c ∈ n.constraints, d.ariaValue? e c.aria = some c.value := by
    simp [List.all_eq_true, meets]
  rw [Suits, Bool.and_eq_true, isWithinReach_iff, hValues, bears_iff]
  constructor
  · intro h
    exact ⟨⟨⟨h.role, h.visible, h.semantic⟩, h.values⟩, h.name⟩
  · rintro ⟨⟨⟨role, visible, semantic⟩, values⟩, name⟩
    exact ⟨role, visible, semantic, values, name⟩

/-- The elements below some bases that suit a node, as the search comes to them. -/
def suiting (d : Document) (options : SearchOptions) (n : Node) (bases : List Element) :
    List Element :=
  ((d.outermost bases).flatMap fun b => d.findByRole n.role b options).filter fun e =>
    n.constraints.all (d.meets e)

/-- Those of them that bear its name. -/
def matching (d : Document) (options : SearchOptions) (n : Node) (bases : List Element) :
    List Element :=
  (d.suiting options n bases).filter fun e => bears n (d.accessibleName e)

theorem mem_suiting {n : Node} {bases : List Element} {e : Element} :
    e ∈ d.suiting options n bases ↔
      (∃ b ∈ bases, b ∈ d.holders e) ∧ d.Suits options n e := by
  unfold suiting findByRole
  rw [List.mem_filter, mem_flatMap_outermost, and_assoc, Suits]

theorem mem_matching {n : Node} {bases : List Element} {e : Element} :
    e ∈ d.matching options n bases ↔
      (∃ b ∈ bases, b ∈ d.holders e) ∧ d.Satisfies options n e := by
  rw [matching, List.mem_filter, mem_suiting, satisfies_iff, and_assoc]

theorem orderedBelow_matching {bases : List Element} (h : d.OrderedBelow top bases) (n : Node) :
    d.OrderedBelow top (d.matching options n bases) :=
  (orderedBelow_flatMap_outermost h _).sublist (List.filter_sublist.trans List.filter_sublist)

/-- How the search for a node ends: it finds what matches, it misses since nothing does, or it comes
upon a lone asterisk while some elements suit the node. -/
inductive NodeEnd (d : Document) (options : SearchOptions) (n : Node) (bases : List Element) :
    Except Error LookupResult → Prop where
  | found (hSome : d.matching options n bases ≠ [])
      (hName : d.suiting options n bases ≠ [] → n.name? ≠ some "*") :
      NodeEnd d options n bases (.ok (.found (d.matching options n bases)))
  | missed (miss : Miss) (hNone : d.matching options n bases = [])
      (hName : d.suiting options n bases ≠ [] → n.name? ≠ some "*") :
      NodeEnd d options n bases (.ok (.missed miss))
  | refused (error : Error) (hStar : n.name? = some "*") :
      NodeEnd d options n bases (.error error)

theorem findNode_of_suiting_eq_nil {n : Node} {bases : List Element}
    (h : d.suiting options n bases = []) :
    ∃ miss, (d.findNode (m := Id) d.accessibleName options n bases).run = .ok (.missed miss) := by
  unfold suiting at h
  unfold findNode
  simp only
  cases hRole : (d.outermost bases).flatMap fun b => d.findByRole n.role b options with
  | nil => exact ⟨_, rfl⟩
  | cons first others =>
      rw [hRole] at h
      simp only
      rcases narrow_cases d n.role [] n.constraints (List.cons_ne_nil first others) with
        ⟨found, hNarrow, hNonempty, hFound⟩ | ⟨⟨miss, hNarrow⟩, hEmpty⟩
      · exact absurd (hFound.trans h) hNonempty
      · rw [hNarrow]
        exact ⟨miss, rfl⟩

/-- Where some elements suit a node, only its name is left to be looked at. -/
theorem findNode_of_suiting_ne_nil {n : Node} {bases : List Element}
    (h : d.suiting options n bases ≠ []) :
    (d.findNode (m := Id) d.accessibleName options n bases).run =
      match n.filledName? with
      | none => .ok (.found (d.suiting options n bases))
      | some name => (do
          match ← filterNamed d.accessibleName name (d.suiting options n bases) with
          | [] => pure (.missed
              ⟨[], some ⟨n.role, n.constraints⟩, d.suiting options n bases, .name name⟩)
          | named => pure (.found named) : ExceptT Error Id LookupResult).run := by
  have hSuiting : d.suiting options n bases =
      ((d.outermost bases).flatMap fun b => d.findByRole n.role b options).filter fun e =>
        n.constraints.all (d.meets e) := rfl
  unfold findNode
  simp only
  cases hRole : (d.outermost bases).flatMap fun b => d.findByRole n.role b options with
  | nil =>
      rw [hRole, List.filter_nil] at hSuiting
      exact absurd hSuiting h
  | cons first others =>
      rw [hRole] at hSuiting
      simp only
      rcases narrow_cases d n.role [] n.constraints (List.cons_ne_nil first others) with
        ⟨found, hNarrow, hNonempty, hFound⟩ | ⟨⟨miss, hNarrow⟩, hEmpty⟩
      · obtain rfl : found = d.suiting options n bases := hFound.trans hSuiting.symm
        rw [hNarrow]
        cases n.filledName? <;> rfl
      · exact absurd (hSuiting.trans hEmpty) h

theorem matching_of_no_name {n : Node} {bases : List Element} (h : n.filledName? = none) :
    d.matching options n bases = d.suiting options n bases := by
  refine List.filter_eq_self.mpr ?_
  intro e _
  rw [bears, h, Option.all_none]

section Pattern

variable {n : Node} {text : String} {pattern : NamePattern} (hFilled : n.filledName? = some text)
  (hPattern : NamePattern.ofText? text = some pattern)

include hFilled hPattern

theorem matching_of_pattern (bases : List Element) :
    d.matching options n bases =
      (d.suiting options n bases).filter fun e => pattern.accepts (d.accessibleName e) := by
  refine List.filter_congr ?_
  intro e _
  rw [bears, hFilled, Option.all_some, hPattern, Option.any_some]

theorem name_ne_star_of_pattern : n.name? ≠ some "*" := by
  intro hStar
  have hSame := Option.eq_some_of_filter_eq_some hFilled
  rw [hStar, Option.some.injEq] at hSame
  subst hSame
  simp [NamePattern.ofText?] at hPattern

end Pattern

theorem findNode_end (d : Document) (options : SearchOptions) (n : Node) (bases : List Element) :
    d.NodeEnd options n bases
      (d.findNode (m := Id) d.accessibleName options n bases).run := by
  by_cases hNone : d.suiting options n bases = []
  · obtain ⟨miss, hMiss⟩ := findNode_of_suiting_eq_nil hNone
    rw [hMiss]
    exact NodeEnd.missed miss (by rw [matching, hNone]; rfl) (fun h => absurd hNone h)
  · rw [findNode_of_suiting_ne_nil hNone]
    cases hFilled : n.filledName? with
    | none =>
        have hAll : d.matching options n bases = d.suiting options n bases :=
          matching_of_no_name hFilled
        rw [← hAll] at hNone ⊢
        refine NodeEnd.found hNone ?_
        intro _ hStar
        simp [Node.filledName?, hStar] at hFilled
    | some text =>
        simp only
        cases hPattern : NamePattern.ofText? text with
        | none =>
            obtain rfl := eq_star_of_no_pattern hPattern
            obtain ⟨error, hError⟩ := filterNamed_of_no_pattern hPattern d.accessibleName hNone
            rw [run_bind_of_error _ hError]
            exact NodeEnd.refused error (Option.eq_some_of_filter_eq_some hFilled)
        | some pattern =>
            have hName := name_ne_star_of_pattern hFilled hPattern
            rw [run_bind_of_ok _ (filterNamed_run hPattern d.accessibleName _),
              ← matching_of_pattern hFilled hPattern bases]
            cases hEnd : d.matching options n bases with
            | nil => exact NodeEnd.missed _ hEnd fun _ => hName
            | cons first others =>
                have hSome : d.matching options n bases ≠ [] := by simp [hEnd]
                have hFound := NodeEnd.found hSome fun _ => hName
                rw [hEnd] at hFound
                exact hFound

/-- One node finds the elements below the bases that satisfy it. -/
theorem findNode_comes (options : SearchOptions) (n : Node) {bases : List Element}
    (h : d.Whole top → d.OrderedBelow top bases) :
    Comes (d.Answers top fun e => (∃ b ∈ bases, b ∈ d.holders e) ∧ d.Satisfies options n e) [n]
      (d.findNode (m := Id) d.accessibleName options n bases).run := by
  have hEnd := findNode_end d options n bases
  generalize (d.findNode (m := Id) d.accessibleName options n bases).run = outcome at hEnd ⊢
  cases hEnd with
  | found hSome hName =>
      exact ⟨hSome, fun hWhole => orderedBelow_matching (h hWhole) n, fun e => mem_matching⟩
  | missed miss hNone hName =>
      intro e hWanted
      have hMem : e ∈ d.matching options n bases := mem_matching.mpr hWanted
      rw [hNone] at hMem
      exact absurd hMem List.not_mem_nil
  | refused error hStar => exact ⟨n, List.mem_cons_self, hStar⟩

/-! ## Chains -/

/-- A chain of nodes finds the elements that it leads to from the bases. -/
theorem findChain_comes (passed nodes : List Node) {bases : List Element} (hBases : bases ≠ [])
    (h : d.Whole top → d.OrderedBelow top bases) :
    Comes (d.Answers top fun e => ∃ b ∈ bases, d.Chain options nodes b e) nodes
      (d.findChain (m := Id) d.accessibleName options passed nodes bases).run := by
  induction nodes generalizing passed bases with
  | nil => exact ⟨hBases, h, fun e => by simp [chain_nil_iff]⟩
  | cons n rest ih =>
      have hNode := findNode_comes options n h
      rw [findChain]
      cases hRun : (d.findNode (m := Id) d.accessibleName options n bases).run with
      | error error =>
          rw [hRun] at hNode
          rw [run_bind_of_error _ hRun]
          obtain ⟨n', hn', hStar⟩ := hNode
          exact ⟨n', List.mem_cons.mpr (Or.inl (List.mem_singleton.mp hn')), hStar⟩
      | ok result =>
          rw [hRun] at hNode
          rw [run_bind_of_ok _ hRun]
          cases result with
          | missed miss =>
              rintro e ⟨b, hb, hChain⟩
              obtain ⟨first, hBelow, hSatisfies, -⟩ := chain_cons_iff.mp hChain
              exact hNode first ⟨⟨b, hb, hBelow⟩, hSatisfies⟩
          | found es =>
              obtain ⟨hNonempty, hOrdered, hMem⟩ := hNode
              refine ((ih (passed ++ [n]) hNonempty hOrdered).imp fun result hAnswers =>
                hAnswers.congr fun e => ?_).mono (List.subset_cons_self n rest)
              constructor
              · rintro ⟨first, hFirst, hOthers⟩
                obtain ⟨⟨b, hb, hBelow⟩, hSatisfies⟩ := (hMem first).mp hFirst
                exact ⟨b, hb, Chain.cons hBelow hSatisfies hOthers⟩
              · rintro ⟨b, hb, hChain⟩
                obtain ⟨first, hBelow, hSatisfies, hOthers⟩ := chain_cons_iff.mp hChain
                exact ⟨first, (hMem first).mpr ⟨⟨b, hb, hBelow⟩, hSatisfies⟩, hOthers⟩

/-- A chain that starts from one base. -/
theorem findChain_comes_from (d : Document) (options : SearchOptions) (nodes : List Node)
    (base : Element) :
    Comes (d.Answers base (d.Chain options nodes base)) nodes
      (d.findChain (m := Id) d.accessibleName options [] nodes [base]).run :=
  (findChain_comes [] nodes (List.cons_ne_nil base []) OrderedBelow.singleton).imp
    fun result hAnswers => hAnswers.congr fun e => by simp

end Document

end AriaLocator

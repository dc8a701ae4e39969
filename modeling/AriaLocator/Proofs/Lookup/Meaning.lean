import AriaLocator.Proofs.Lookup.Chain
import AriaLocator.Proofs.Lookup.Specificity

/-!
# What a locator means

A locator says which elements it matches without saying how to look for them.  Without `outer` these
are the elements that its chain of nodes leads to from the root.  Behind `outer`, of the elements that
the chain reaches from one base only those count that lie in no other.

The search looks for the outermost elements below each base, and then puts the branches together in
document order.  If a base hangs in the fragment of a template, an element behind `outer` may count as
outermost although it lies in another one.

## Main results

* `joinBranches_joins`: the branches behind `outer`, put together, have what is wanted.
* `lookup_meaning`: a lookup misses exactly if its locator denotes nothing, and finds all the elements
  that it denotes, in document order below a whole root.
* `lookup_meaning_template`: a list in a template, whose item is found twice.
-/

namespace AriaLocator

namespace Document

/-! ## The meaning -/

/-- A chain leads from a base to an element, and to none that the element lies in. -/
def Outer (d : Document) (options : SearchOptions) (nodes : List Node) (b e : Element) : Prop :=
  d.Chain options nodes b e ∧ ∀ a ∈ d.ancestors e, ¬ d.Chain options nodes b a

/-- The elements that a locator denotes below a root. Behind `outer`, of the elements that one base
leads to only the outermost count. -/
def Denotes (d : Document) (options : SearchOptions) (l : Locator) (root e : Element) : Prop :=
  ∃ b, d.Chain options l.preOuter root b ∧
    if l.postOuter = [] then e = b else d.Outer options l.postOuter b e

/-- What is found behind `outer` is in document order, each element once, and not nothing. It has all
that is wanted, and nothing but what is reached; below a whole top, nothing but what is wanted. A miss
says that nothing is reached. -/
def Joins (d : Document) (top : Element) (reached wanted : Element → Prop) : LookupResult → Prop
  | .found es =>
    es ≠ [] ∧ es.Pairwise (· < ·) ∧ (∀ e, wanted e → e ∈ es) ∧ (∀ e ∈ es, reached e) ∧
      (d.Whole top → ∀ e ∈ es, wanted e)
  | .missed _ => ∀ e, ¬ reached e

/-- What a locator finds. -/
structure FoundBy (d : Document) (options : SearchOptions) (l : Locator) (root : Element)
    (es : List Element) : Prop where
  /-- It is not nothing. -/
  nonempty : es ≠ []
  /-- It has all that the locator denotes. -/
  complete : ∀ e, d.Denotes options l root e → e ∈ es
  /-- The nodes of the locator lead to each of its elements. -/
  reached : ∀ e ∈ es, d.Chain options l.nodes root e
  /-- It has nothing else. -/
  exact : l.postOuter = [] ∨ d.Whole root → ∀ e ∈ es, d.Denotes options l root e
  /-- It is in document order, each element once. -/
  ordered : l.postOuter ≠ [] ∨ d.Whole root → es.Pairwise (· < ·)

/-- What a locator comes to. -/
def ResolvesTo (d : Document) (options : SearchOptions) (l : Locator) (root : Element) :
    LookupResult → Prop
  | .found es => d.FoundBy options l root es
  | .missed _ => ∀ e, ¬ d.Chain options l.nodes root e

variable {d : Document} {options : SearchOptions} {top : Element}

/-! ## Branches behind `outer` -/

/-- The branches of several bases, each with its answer. -/
inductive Branches (d : Document) (options : SearchOptions) (nodes : List Node) :
    List Element → List LookupResult → Prop where
  | nil : Branches d options nodes [] []
  | cons {base : Element} {bases : List Element} {result : LookupResult}
      {results : List LookupResult} (first : d.Answers base (d.Chain options nodes base) result)
      (others : Branches d options nodes bases results) :
      Branches d options nodes (base :: bases) (result :: results)

/-- Searching each base on its own answers for each base. -/
theorem mapM_findChain_branches (d : Document) (options : SearchOptions) (nodes : List Node)
    (bases : List Element) :
    match (bases.mapM fun base =>
        d.findChain (m := Id) d.accessibleName options [] nodes [base]).run with
    | .ok results => d.Branches options nodes bases results
    | .error _ => ∃ n ∈ nodes, n.name? = some "*" := by
  induction bases with
  | nil => exact Branches.nil
  | cons base bases ih =>
      have hFirst := findChain_comes_from d options nodes base
      rw [List.mapM_cons]
      cases hRun : (d.findChain (m := Id) d.accessibleName options [] nodes [base]).run with
      | error error =>
          rw [hRun] at hFirst
          rw [run_bind_of_error _ hRun]
          exact hFirst
      | ok result =>
          rw [hRun] at hFirst
          rw [run_bind_of_ok _ hRun]
          cases hRuns : (bases.mapM fun base =>
              d.findChain (m := Id) d.accessibleName options [] nodes [base]).run with
          | error error =>
              rw [hRuns] at ih
              rw [run_bind_of_error _ hRuns]
              exact ih
          | ok results =>
              rw [hRuns] at ih
              rw [run_bind_of_ok _ hRuns]
              exact Branches.cons hFirst ih

/-- Of what a base leads to, its branch contributes all that lies in nothing else that it leads to. -/
theorem mem_outermost_of_outer {nodes : List Node} {base : Element} {result : LookupResult}
    (h : d.Answers base (d.Chain options nodes base) result) {e : Element}
    (hOuter : d.Outer options nodes base e) : e ∈ d.outermost result.elements := by
  cases result with
  | missed miss => exact absurd hOuter.1 (h e)
  | found es =>
      obtain ⟨-, -, hMem⟩ := h
      obtain ⟨a, ha, hae⟩ := exists_outermost_contains d ((hMem e).mpr hOuter.1)
      have hChain := (hMem a).mp ((outermost_sublist d es).subset ha)
      obtain rfl := (contains_cases hae).resolve_right fun hAbove => hOuter.2 a hAbove hChain
      exact ha

theorem chain_of_mem_outermost {nodes : List Node} {base : Element} {result : LookupResult}
    (h : d.Answers base (d.Chain options nodes base) result) {e : Element}
    (he : e ∈ d.outermost result.elements) : d.Chain options nodes base e := by
  cases result with
  | missed miss => exact absurd he List.not_mem_nil
  | found es => exact (h.2.2 e).mp ((outermost_sublist d es).subset he)

/-- If the base is whole, it contributes nothing else. -/
theorem outer_of_mem_outermost {nodes : List Node} {base : Element} {result : LookupResult}
    (h : d.Answers base (d.Chain options nodes base) result) (hWhole : d.Whole base) {e : Element}
    (he : e ∈ d.outermost result.elements) : d.Outer options nodes base e := by
  refine ⟨chain_of_mem_outermost h he, fun a hAbove hChain => ?_⟩
  cases result with
  | missed miss => exact absurd he List.not_mem_nil
  | found es =>
      obtain ⟨-, hOrdered, hMem⟩ := h
      exact ((mem_outermost_iff (hOrdered hWhole)).mp he).2 a ((hMem a).mpr hChain) hAbove

section Contributed

variable {nodes : List Node} {bases : List Element} {results : List LookupResult} {e : Element}

theorem Branches.mem_of_outer (h : d.Branches options nodes bases results)
    (hOuter : ∃ b ∈ bases, d.Outer options nodes b e) :
    e ∈ results.flatMap fun result => d.outermost result.elements := by
  induction h with
  | nil => simp at hOuter
  | cons first others ih =>
      rw [List.flatMap_cons, List.mem_append]
      obtain ⟨b, hb, hOuter⟩ := hOuter
      rcases List.mem_cons.mp hb with rfl | hb
      · exact Or.inl (mem_outermost_of_outer first hOuter)
      · exact Or.inr (ih ⟨b, hb, hOuter⟩)

theorem Branches.exists_base (h : d.Branches options nodes bases results)
    (he : e ∈ results.flatMap fun result => d.outermost result.elements) :
    ∃ b ∈ bases, d.Chain options nodes b e ∧ (d.Whole b → d.Outer options nodes b e) := by
  induction h with
  | nil => simp at he
  | @cons base bases _ _ first others ih =>
      rw [List.flatMap_cons, List.mem_append] at he
      cases he with
      | inl he =>
          exact ⟨base, List.mem_cons_self, chain_of_mem_outermost first he,
            fun hWhole => outer_of_mem_outermost first hWhole he⟩
      | inr he =>
          obtain ⟨b, hb, hBoth⟩ := ih he
          exact ⟨b, List.mem_cons_of_mem base hb, hBoth⟩

/-- Where no branch contributes an element, every branch has missed. -/
theorem Branches.misses_ne_nil (h : d.Branches options nodes bases results) (hBases : bases ≠ [])
    (hNone : (results.flatMap fun result => d.outermost result.elements) = []) :
    results.filterMap LookupResult.miss? ≠ [] := by
  cases h with
  | nil => exact absurd rfl hBases
  | @cons base _ result _ first others =>
      rw [List.flatMap_cons, List.append_eq_nil_iff] at hNone
      cases result with
      | missed miss => simp [LookupResult.miss?]
      | found es =>
          obtain ⟨first', others', rfl⟩ := List.exists_cons_of_ne_nil first.1
          exact absurd hNone.1 (List.cons_ne_nil _ _)

end Contributed

/-- What a chain leads to lies in something that it leads to and that lies in no other such thing.
-/
theorem exists_outer_of_chain {nodes : List Node} {b e : Element}
    (h : d.Chain options nodes b e) :
    ∃ a, d.contains a e = true ∧ d.Outer options nodes b a := by
  induction e using Nat.strongRecOn with
  | _ e ih =>
      by_cases hAround : ∃ a ∈ d.ancestors e, d.Chain options nodes b a
      · obtain ⟨a, hAbove, hChain⟩ := hAround
        obtain ⟨top, hTop, hOuter⟩ := ih a (ancestors_lt hAbove) hChain
        exact ⟨top, contains_trans hTop (contains_of_ancestors hAbove), hOuter⟩
      · refine ⟨e, contains_self d e, h, ?_⟩
        intro a ha hChain
        exact hAround ⟨a, ha, hChain⟩

/-- The branches behind `outer`, put together, find what lies outermost below some base. -/
theorem joinBranches_joins {nodes preOuter : List Node} {bases : List Element}
    {results : List LookupResult} (h : d.Branches options nodes bases results)
    (hBases : bases ≠ []) (hBelow : ∀ b ∈ bases, top ∈ d.tree.lineage b) :
    d.Joins top (fun e => ∃ b ∈ bases, d.Chain options nodes b e)
      (fun e => ∃ b ∈ bases, d.Outer options nodes b e) (d.joinBranches preOuter results) := by
  have hMisses := h.misses_ne_nil hBases
  have hAll {e : Element} (hOuter : ∃ b ∈ bases, d.Outer options nodes b e) := h.mem_of_outer hOuter
  have hBase {e : Element} he := h.exists_base (e := e) he
  unfold joinBranches
  generalize (results.flatMap fun result => d.outermost result.elements) = all
    at hAll hBase hMisses ⊢
  cases all with
  | nil =>
      obtain ⟨miss, hMiss⟩ := Option.isSome_iff_exists.mp (mostSpecific_isSome d (hMisses rfl))
      simp only [hMiss]
      rintro e ⟨b, hb, hChain⟩
      obtain ⟨a, -, hOuter⟩ := exists_outer_of_chain hChain
      exact absurd (hAll ⟨b, hb, hOuter⟩) List.not_mem_nil
  | cons first others =>
      have hSortable : d.Sortable (first :: others) := by
        refine .inr ⟨top, fun e he => ?_⟩
        obtain ⟨b, hb, hChain, -⟩ := hBase he
        exact Forest.mem_lineage_trans (hBelow b hb) hChain.leads_down
      have hFirst : first ∈ d.sorted (first :: others) := mem_sorted.mpr List.mem_cons_self
      refine ⟨List.ne_nil_of_mem hFirst, pairwise_sorted hSortable, fun e hOuter => ?_,
        fun e he => ?_, fun hWhole e he => ?_⟩
      · exact mem_sorted.mpr (hAll hOuter)
      · obtain ⟨b, hb, hChain, -⟩ := hBase (mem_sorted.mp he)
        exact ⟨b, hb, hChain⟩
      · obtain ⟨b, hb, -, hOuter⟩ := hBase (mem_sorted.mp he)
        exact ⟨b, hb, hOuter (hWhole.below (hBelow b hb))⟩

/-- Searching each base on its own and putting the branches together finds what lies outermost below
some base. -/
theorem outer_comes (d : Document) (options : SearchOptions) (preOuter postOuter : List Node)
    {bases : List Element} (hBases : bases ≠ [])
    (hBelow : ∀ b ∈ bases, top ∈ d.tree.lineage b) :
    Comes (d.Joins top (fun e => ∃ b ∈ bases, d.Chain options postOuter b e)
        fun e => ∃ b ∈ bases, d.Outer options postOuter b e) postOuter
      (do
        let results ← bases.mapM fun base =>
          d.findChain (m := Id) d.accessibleName options [] postOuter [base]
        pure (d.joinBranches preOuter results) : ExceptT Error Id LookupResult).run := by
  have hAll := mapM_findChain_branches d options postOuter bases
  cases hRuns : (bases.mapM fun base =>
      d.findChain (m := Id) d.accessibleName options [] postOuter [base]).run with
  | error error =>
      rw [hRuns] at hAll
      rw [run_bind_of_error _ hRuns]
      exact hAll
  | ok results =>
      rw [hRuns] at hAll
      rw [run_bind_of_ok _ hRuns]
      exact joinBranches_joins hAll hBases hBelow

/-! ## The whole locator -/

/-- What a locator denotes, its nodes lead to in a row. -/
theorem Denotes.chain {l : Locator} {root e : Element} (h : d.Denotes options l root e) :
    d.Chain options l.nodes root e := by
  obtain ⟨b, hPre, hPost⟩ := h
  refine chain_append_iff.mpr ⟨b, hPre, ?_⟩
  split at hPost
  · next hNone =>
    rw [hNone, hPost]
    exact Chain.nil b
  · exact hPost.1

/-- Without `outer`, a locator denotes what its nodes lead to. -/
theorem denotes_iff_of_plain {l : Locator} {root e : Element} (hPlain : l.postOuter = []) :
    d.Denotes options l root e ↔ d.Chain options l.preOuter root e := by
  simp only [Denotes, hPlain, if_true]
  exact ⟨fun ⟨b, hChain, hSame⟩ => hSame ▸ hChain, fun hChain => ⟨e, hChain, rfl⟩⟩

section Bases

variable {l : Locator} {root : Element} {bases : List Element}

/-- Without `outer`, what the nodes lead to is what the locator finds. -/
theorem foundBy_of_plain (hPlain : l.postOuter = []) (hSome : bases ≠ [])
    (hOrdered : d.Whole root → d.OrderedBelow root bases)
    (hMem : ∀ e, e ∈ bases ↔ d.Chain options l.preOuter root e) :
    d.FoundBy options l root bases where
  nonempty := hSome
  complete := fun e hDenotes => (hMem e).mpr ((denotes_iff_of_plain hPlain).mp hDenotes)
  reached := fun e he => ((denotes_iff_of_plain hPlain).mpr ((hMem e).mp he)).chain
  exact := fun _ e he => (denotes_iff_of_plain hPlain).mpr ((hMem e).mp he)
  ordered := fun h => (hOrdered (h.resolve_left fun hOuter => hOuter hPlain)).increasing

/-- With `outer`, it is what the branches find, put together. -/
theorem resolvesTo_of_joins (hOuter : l.postOuter ≠ [])
    (hMem : ∀ b, b ∈ bases ↔ d.Chain options l.preOuter root b) {result : LookupResult}
    (h : d.Joins root (fun e => ∃ b ∈ bases, d.Chain options l.postOuter b e)
      (fun e => ∃ b ∈ bases, d.Outer options l.postOuter b e) result) :
    d.ResolvesTo options l root result := by
  have hReach (e : Element) : (∃ b ∈ bases, d.Chain options l.postOuter b e) ↔
      d.Chain options l.nodes root e := by
    simp only [hMem]
    exact chain_append_iff.symm
  have hWanted (e : Element) : (∃ b ∈ bases, d.Outer options l.postOuter b e) ↔
      d.Denotes options l root e := by
    simp only [Denotes, hOuter, if_false, hMem]
  cases result with
  | missed miss => exact fun e hChain => h e ((hReach e).mpr hChain)
  | found es =>
      obtain ⟨hFound, hIncreasing, hComplete, hSound, hExact⟩ := h
      exact {
        nonempty := hFound
        complete := fun e h => hComplete e ((hWanted e).mpr h)
        reached := fun e he => (hReach e).mp (hSound e he)
        exact := fun h e he => (hWanted e).mp (hExact (h.resolve_left hOuter) e he)
        ordered := fun _ => hIncreasing }

end Bases

/-- A plain search answers with what the locator denotes. -/
theorem resolved_comes (d : Document) (options : SearchOptions) (l : Locator) (root : Element) :
    Comes (d.ResolvesTo options l root) l.nodes (d.resolved l root options) := by
  have hPre : l.preOuter ⊆ l.nodes := List.subset_append_left _ _
  have hPost : l.postOuter ⊆ l.nodes := List.subset_append_right _ _
  have hReached := findChain_comes_from d options l.preOuter root
  rw [resolved, resolve]
  cases hRun : (d.findChain (m := Id) d.accessibleName options [] l.preOuter [root]).run with
  | error error =>
      rw [hRun] at hReached
      rw [run_bind_of_error _ hRun]
      obtain ⟨n, hn, hStar⟩ := hReached
      exact ⟨n, hPre hn, hStar⟩
  | ok reached =>
      rw [hRun] at hReached
      rw [run_bind_of_ok _ hRun]
      cases reached with
      | missed miss =>
          intro e hChain
          obtain ⟨b, hFront, -⟩ := chain_append_iff.mp hChain
          exact hReached b hFront
      | found bases =>
          obtain ⟨hNonempty, hOrdered, hMem⟩ := hReached
          simp only
          split
          · next hEmpty =>
            exact foundBy_of_plain (List.isEmpty_iff.mp hEmpty) hNonempty hOrdered hMem
          · next hSome =>
            have hOuter : l.postOuter ≠ [] := fun hEmpty => hSome (List.isEmpty_iff.mpr hEmpty)
            have hBelow (b : Element) (hb : b ∈ bases) := ((hMem b).mp hb).leads_down
            exact ((outer_comes d options l.preOuter l.postOuter hNonempty hBelow).mono hPost).imp
              fun _ => resolvesTo_of_joins hOuter hMem

/-- With `outer` or without, a locator denotes something around whatever its nodes lead to. -/
theorem Chain.denotes_around {l : Locator} {root e : Element}
    (h : d.Chain options l.nodes root e) :
    ∃ a, d.contains a e = true ∧ d.Denotes options l root a := by
  obtain ⟨b, hPre, hPost⟩ := chain_append_iff.mp h
  by_cases hPlain : l.postOuter = []
  · rw [hPlain] at hPost
    obtain rfl := chain_nil_iff.mp hPost
    exact ⟨e, contains_self d e, (denotes_iff_of_plain hPlain).mpr hPre⟩
  · obtain ⟨a, hAround, hOuter⟩ := exists_outer_of_chain hPost
    refine ⟨a, hAround, b, hPre, ?_⟩
    rw [if_neg hPlain]
    exact hOuter

section Found

variable {l : Locator} {root : Element} {es : List Element}

/-- What is found is in document order where its places increase. -/
theorem FoundBy.increasing (h : d.FoundBy options l root es)
    (hOrdered : l.postOuter ≠ [] ∨ d.Whole root) : es.Pairwise fun a b => d.order a b = .lt := by
  refine (h.ordered hOrdered).imp_of_mem fun {a b} ha hb hlt => ?_
  have hTree : d.Together a b := ⟨root, (h.reached a ha).leads_down, (h.reached b hb).leads_down⟩
  rw [order_eq_of_together hTree]
  exact Nat.compare_eq_lt.mpr hlt

end Found

end Document

end AriaLocator

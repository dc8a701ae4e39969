import AriaLocator.Proofs.Lookup.FirstMatch

/-!
# When a lone asterisk is refused

A lone asterisk for a name is a mistake in the locator.  But the search notices it only when it
compares the name of an element with it, and that happens last of all: the element has to lie below
what the nodes in front have matched, within reach, with the role and with the values that the node
asks for.  So it depends on the page whether the mistake is noticed.

The exact condition is `ComesToStar`.  It runs along the nodes as the search does: each node either
asks for a lone asterisk and suits some element, or it matches an element from which the next nodes
come to one.  A search of several parts is refused if its first part is, or else if the rest is
refused for the value of the first; the proofs take each search apart that way.

## Main results

* `findNode_isRefused_iff`, `findChain_isRefused_iff`: when the search for a node and for a chain is
  refused.
* `lookup_refuses_iff`: a lookup is refused exactly if its nodes come to a lone asterisk.
* `lookup_refuses_by_page`: the same locator is refused on one page and not on another.
-/

namespace AriaLocator

namespace Document

/-! ## Refusals -/

section Refused

variable {α β : Type}

/-- A search ends with an error. -/
def IsRefused (search : ExceptT Error Id α) : Prop := ∃ error, search.run = .error error

theorem not_isRefused_of_ok {search : ExceptT Error Id α} {value : α}
    (h : search.run = .ok value) : ¬ IsRefused search := by
  intro hRefused
  obtain ⟨error, hError⟩ := hRefused
  rw [h] at hError
  cases hError

theorem exists_ok_of_not_isRefused {search : ExceptT Error Id α} (h : ¬ IsRefused search) :
    ∃ value, search.run = .ok value := by
  cases hRun : search.run with
  | error error => exact absurd ⟨error, hRun⟩ h
  | ok value => exact ⟨value, rfl⟩

theorem not_isRefused_pure (value : α) : ¬ IsRefused (pure value) := not_isRefused_of_ok rfl

variable {search : ExceptT Error Id α} {next : α → ExceptT Error Id β}

/-- A search that is refused cannot be gone on with. -/
theorem IsRefused.bind (h : IsRefused search) : IsRefused (search >>= next) := by
  obtain ⟨error, hError⟩ := h
  exact ⟨error, run_bind_of_error next hError⟩

/-- Behind a value, all depends on what is done with it. -/
theorem isRefused_bind_of_ok {value : α} (h : search.run = .ok value) :
    IsRefused (search >>= next) ↔ IsRefused (next value) := by
  show (∃ error, (search >>= next).run = .error error) ↔ _
  rw [run_bind_of_ok next h]
  exact Iff.rfl

/-- To put a value into another form refuses nothing. -/
theorem isRefused_bind_pure_iff {f : α → β} :
    IsRefused (search >>= fun value => pure (f value)) ↔ IsRefused search := by
  by_cases hSearch : IsRefused search
  · exact iff_of_true hSearch.bind hSearch
  · obtain ⟨value, hRun⟩ := exists_ok_of_not_isRefused hSearch
    rw [isRefused_bind_of_ok hRun]
    exact iff_of_false (not_isRefused_pure (f value)) hSearch

/-- A row of searches is refused exactly if one of them is. -/
theorem isRefused_mapM_iff {search : α → ExceptT Error Id β} {values : List α} :
    IsRefused (values.mapM search) ↔ ∃ value ∈ values, IsRefused (search value) := by
  induction values with
  | nil => simpa using not_isRefused_pure ([] : List β)
  | cons value rest ih =>
      rw [List.mapM_cons, List.exists_mem_cons_iff, ← ih]
      by_cases hFirst : IsRefused (search value)
      · exact iff_of_true hFirst.bind (Or.inl hFirst)
      · obtain ⟨first, hRun⟩ := exists_ok_of_not_isRefused hFirst
        rw [isRefused_bind_of_ok hRun, isRefused_bind_pure_iff, or_iff_right hFirst]

end Refused

/-! ## Coming to a lone asterisk -/

/-- Following the nodes from a base, the search comes to an element that suits a node in all but the
name, and the name that is asked for is a lone asterisk. -/
inductive ComesToStar (d : Document) (options : SearchOptions) : List Node → Element → Prop where
  | here {n : Node} {rest : List Node} {b e : Element} (hStar : n.name? = some "*")
      (below : b ∈ d.holders e) (suits : d.Suits options n e) :
      ComesToStar d options (n :: rest) b
  | later {n : Node} {rest : List Node} {b e : Element} (below : b ∈ d.holders e)
      (satisfies : d.Satisfies options n e) (others : ComesToStar d options rest e) :
      ComesToStar d options (n :: rest) b

variable {d : Document} {options : SearchOptions} {top : Element} {bases : List Element}

theorem not_comesToStar_nil {b : Element} : ¬ d.ComesToStar options [] b := by
  intro h
  cases h

theorem ComesToStar.exists_star {nodes : List Node} {b : Element}
    (h : d.ComesToStar options nodes b) : ∃ n ∈ nodes, n.name? = some "*" := by
  induction h with
  | here hStar _ _ => exact ⟨_, List.mem_cons_self, hStar⟩
  | later _ _ _ ih =>
      obtain ⟨n, hn, hStar⟩ := ih
      exact ⟨n, List.mem_cons_of_mem _ hn, hStar⟩

/-- The first node comes to a lone asterisk below some bases, or what it matches goes on to one. -/
theorem comesToStar_cons_iff {n : Node} {rest : List Node} :
    (∃ b ∈ bases, d.ComesToStar options (n :: rest) b) ↔
      (n.name? = some "*" ∧ d.suiting options n bases ≠ []) ∨
        ∃ e, ((∃ b ∈ bases, b ∈ d.holders e) ∧ d.Satisfies options n e) ∧
          d.ComesToStar options rest e := by
  constructor
  · intro h
    obtain ⟨b, hb, hStar⟩ := h
    cases hStar with
    | here hStar below suits =>
        have hMem := mem_suiting.mpr ⟨⟨b, hb, below⟩, suits⟩
        exact Or.inl ⟨hStar, List.ne_nil_of_mem hMem⟩
    | later below satisfies others => exact Or.inr ⟨_, ⟨⟨b, hb, below⟩, satisfies⟩, others⟩
  · intro h
    cases h with
    | inl hFirst =>
        obtain ⟨e, he⟩ := List.exists_mem_of_ne_nil _ hFirst.2
        obtain ⟨⟨b, hb, below⟩, suits⟩ := mem_suiting.mp he
        exact ⟨b, hb, .here hFirst.1 below suits⟩
    | inr hLater =>
        obtain ⟨e, ⟨⟨b, hb, below⟩, satisfies⟩, others⟩ := hLater
        exact ⟨b, hb, .later below satisfies others⟩

/-- Two chains in a row come to a lone asterisk in the first one or behind it. -/
theorem comesToStar_append_iff {front back : List Node} {b : Element} :
    d.ComesToStar options (front ++ back) b ↔
      d.ComesToStar options front b ∨
        ∃ a, d.Chain options front b a ∧ d.ComesToStar options back a := by
  induction front generalizing b with
  | nil =>
      rw [List.nil_append, or_iff_right not_comesToStar_nil]
      simp only [chain_nil_iff, exists_eq_left]
  | cons n rest ih =>
      constructor
      · intro h
        cases h with
        | here hStar below suits => exact Or.inl (.here hStar below suits)
        | later below satisfies others =>
            cases ih.mp others with
            | inl hFront => exact Or.inl (.later below satisfies hFront)
            | inr hBack =>
                obtain ⟨a, hChain, hStar⟩ := hBack
                exact Or.inr ⟨a, Chain.cons below satisfies hChain, hStar⟩
      · intro h
        cases h with
        | inl hFront =>
            cases hFront with
            | here hStar below suits => exact .here hStar below suits
            | later below satisfies others =>
                exact .later below satisfies (ih.mpr (Or.inl others))
        | inr hBack =>
            obtain ⟨a, hChain, hStar⟩ := hBack
            obtain ⟨e, below, satisfies, others⟩ := chain_cons_iff.mp hChain
            exact .later below satisfies (ih.mpr (Or.inr ⟨a, others, hStar⟩))

/-! ## Searches -/

/-- The search for a node is refused exactly if the node asks for a lone asterisk and suits some
element. -/
theorem findNode_isRefused_iff {n : Node} :
    IsRefused (d.findNode (m := Id) d.accessibleName options n bases) ↔
      n.name? = some "*" ∧ d.suiting options n bases ≠ [] := by
  have hEnd := findNode_end d options n bases
  constructor
  · intro h
    have hSuiting : d.suiting options n bases ≠ [] := by
      intro hNone
      obtain ⟨miss, hMiss⟩ := findNode_of_suiting_eq_nil hNone
      exact not_isRefused_of_ok hMiss h
    obtain ⟨error, hError⟩ := h
    rw [hError] at hEnd
    cases hEnd with
    | refused _ hStar => exact ⟨hStar, hSuiting⟩
  · intro h
    rw [IsRefused]
    generalize (d.findNode (m := Id) d.accessibleName options n bases).run = outcome at hEnd ⊢
    cases hEnd with
    | found _ hName => exact absurd h.1 (hName h.2)
    | missed _ _ hName => exact absurd h.1 (hName h.2)
    | refused error _ => exact ⟨error, rfl⟩

/-- The search for a chain is refused exactly if it comes to a lone asterisk from one of its bases.
-/
theorem findChain_isRefused_iff {passed nodes : List Node}
    (hBases : d.Whole top → d.OrderedBelow top bases) :
    IsRefused (d.findChain (m := Id) d.accessibleName options passed nodes bases) ↔
      ∃ b ∈ bases, d.ComesToStar options nodes b := by
  induction nodes generalizing passed bases with
  | nil =>
      apply iff_of_false (not_isRefused_pure (LookupResult.found bases))
      intro h
      obtain ⟨b, -, hStar⟩ := h
      exact not_comesToStar_nil hStar
  | cons n rest ih =>
      rw [findChain, comesToStar_cons_iff, ← findNode_isRefused_iff]
      by_cases hFirst : IsRefused (d.findNode (m := Id) d.accessibleName options n bases)
      · exact iff_of_true hFirst.bind (Or.inl hFirst)
      · have hNode := findNode_comes options n hBases
        obtain ⟨result, hRun⟩ := exists_ok_of_not_isRefused hFirst
        rw [hRun] at hNode
        rw [or_iff_right hFirst, isRefused_bind_of_ok hRun]
        cases result with
        | missed miss =>
            apply iff_of_false (not_isRefused_pure _)
            intro h
            obtain ⟨e, hWanted, -⟩ := h
            exact hNode e hWanted
        | found es =>
            obtain ⟨-, hOrdered, hMem⟩ := hNode
            show IsRefused (d.findChain (m := Id) d.accessibleName options (passed ++ [n]) rest es) ↔ _
            rw [ih hOrdered]
            exact exists_congr fun e => and_congr_left fun _ => hMem e

/-- From a single base. -/
theorem findChain_isRefused_iff_from (d : Document) (options : SearchOptions) (nodes : List Node)
    (base : Element) :
    IsRefused (d.findChain (m := Id) d.accessibleName options [] nodes [base]) ↔
      d.ComesToStar options nodes base := by
  rw [findChain_isRefused_iff OrderedBelow.singleton]
  simp

/-- A plain search is refused exactly if its nodes come to a lone asterisk. -/
theorem resolve_isRefused_iff (d : Document) (options : SearchOptions) (l : Locator)
    (root : Element) :
    IsRefused (d.resolve (m := Id) d.accessibleName l root options) ↔
      d.ComesToStar options l.nodes root := by
  have hFront := findChain_isRefused_iff_from d options l.preOuter root
  rw [resolve, Locator.nodes, comesToStar_append_iff, ← hFront]
  by_cases hFirst :
      IsRefused (d.findChain (m := Id) d.accessibleName options [] l.preOuter [root])
  · exact iff_of_true hFirst.bind (Or.inl hFirst)
  · have hReached := findChain_comes_from d options l.preOuter root
    obtain ⟨result, hRun⟩ := exists_ok_of_not_isRefused hFirst
    rw [hRun] at hReached
    rw [or_iff_right hFirst, isRefused_bind_of_ok hRun]
    cases result with
    | missed miss =>
        apply iff_of_false (not_isRefused_pure _)
        intro h
        obtain ⟨a, hChain, -⟩ := h
        exact hReached a hChain
    | found reached =>
        obtain ⟨-, -, hMem⟩ := hReached
        simp only [← hMem]
        by_cases hEmpty : l.postOuter = []
        · rw [hEmpty]
          apply iff_of_false (not_isRefused_pure (LookupResult.found reached))
          intro h
          obtain ⟨a, -, hStar⟩ := h
          exact not_comesToStar_nil hStar
        · rw [if_neg (by simpa using hEmpty), isRefused_bind_pure_iff, isRefused_mapM_iff]
          simp only [findChain_isRefused_iff_from]

/-- A lookup is an error exactly if its nodes come to a lone asterisk, and then the error says so.
The locator has such a name then; but that it has one does not make the lookup an error. -/
theorem lookup_refuses_iff (d : Document) (l : Locator) (root : Element)
    (options : SearchOptions) :
    (∀ error, d.lookup l root options = .error error ↔
        error = .value loneStarMessage ∧ d.ComesToStar options l.nodes root) ∧
      (d.ComesToStar options l.nodes root → ∃ n ∈ l.nodes, n.name? = some "*") := by
  refine ⟨fun error => ?_, fun h => h.exists_star⟩
  rw [lookup_eq_resolved, ← resolve_isRefused_iff]
  constructor
  · intro h
    exact ⟨(resolved_error h).1, error, h⟩
  · intro h
    obtain ⟨rfl, other, hOther⟩ := h
    have hSame := (resolved_error hOther).1
    rw [← hSame]
    exact hOther

/-- A lone asterisk for the name of a button is refused on a page with a button.  On an empty page
nothing is found and nothing is refused. -/
theorem lookup_refuses_by_page :
    let page (content : List Markup) := Document.ofElement "html" []
      [.element "head" [] [], .element "body" [] content]
    let l : Locator := ⟨[(Node.ofRole .button).withName "*"], []⟩
    Locator.parse "\x7bbutton '*'\x7d" = .ok l ∧ (∃ n ∈ l.nodes, n.name? = some "*") ∧
      (page [.element "button" [] []]).lookup l 2 {} = .error (.value loneStarMessage) ∧
      (page []).lookup l 2 {} = .ok (.missed ⟨[], none, [2], .role .button⟩) := by
  intro page l
  refine ⟨by decide +kernel, by decide, ?_, ?_⟩
  · rw [lookup_eq_resolved]
    decide +kernel
  · rw [lookup_eq_resolved]
    decide +kernel

end Document

end AriaLocator

import AriaLocator.Proofs.Lookup.Containment

/-!
# Searching with wider options

A failed lookup is repeated with hidden elements taken in, and with elements below presentational
children, to tell what was missed.  This only helps if wider options never lose a match.

For a chain they do not: each of its elements lies within reach of the wider search as well.  Behind
`outer` they may, for an element that is only found with the wider options can lie around a match
and take its place.  But then that element stands for the match: above everything that a chain
leads to there is an outermost element that it leads to, by induction on the element, as ancestors
have smaller numbers.

## Main results

* `Chain.widen`: a chain stays a chain with wider options.
* `lookup_of_wider`: with wider options a lookup finds each match or something around it.
-/

namespace AriaLocator

/-- Every kind of element that these options take in the others take in as well. -/
structure SearchOptions.WidenedBy (options wider : SearchOptions) : Prop where
  hidden : options.includeHidden = true → wider.includeHidden = true
  presentational : options.includePresentational = true → wider.includePresentational = true

namespace Document

variable {d : Document} {options wider : SearchOptions}

/-! ## Chains -/

/-- Wider options ask for no less than the role, the values and the name. -/
theorem Satisfies.widen {n : Node} {e : Element} (h : d.Satisfies options n e)
    (hWider : options.WidenedBy wider) : d.Satisfies wider n e where
  role := h.role
  visible hHidden := hWider.hidden (h.visible hHidden)
  semantic hBelow := hWider.presentational (h.semantic hBelow)
  values := h.values
  name := h.name

theorem Chain.widen {nodes : List Node} {b e : Element} (h : d.Chain options nodes b e)
    (hWider : options.WidenedBy wider) : d.Chain wider nodes b e := by
  induction h with
  | nil b => exact Chain.nil b
  | cons below satisfies _ ih => exact Chain.cons below (satisfies.widen hWider) ih

/-! ## Lookups -/

/-- Without a lone asterisk for a name, a lookup comes to a result with all the elements that the
locator denotes, and with none that its nodes do not lead to. -/
theorem lookup_of_names (d : Document) (l : Locator) (root : Element) (options : SearchOptions)
    (hNames : ∀ n ∈ l.nodes, n.name? ≠ some "*") :
    ∃ result, d.lookup l root options = .ok result ∧
      (∀ e, d.Denotes options l root e → e ∈ result.elements) ∧
      ∀ e ∈ result.elements, d.Chain options l.nodes root e := by
  have hComes := resolved_comes d options l root
  rw [lookup_eq_resolved]
  cases hRun : d.resolved l root options with
  | error error =>
      rw [hRun] at hComes
      obtain ⟨n, hn, hStar⟩ := hComes
      exact absurd hStar (hNames n hn)
  | ok result =>
      rw [hRun] at hComes
      refine ⟨result, rfl, ?_⟩
      cases result with
      | found es =>
          have hFound : d.FoundBy options l root es := hComes
          exact ⟨hFound.complete, hFound.reached⟩
      | missed miss =>
          constructor
          · exact fun e hDenotes => absurd hDenotes.chain (hComes e)
          · exact fun e he => absurd he List.not_mem_nil

/-- A lookup with wider options finds every element that is found, if the locator has no `outer`.
In any case it finds each of these elements or one that contains it. -/
theorem lookup_of_wider (d : Document) (l : Locator) (root : Element)
    (options wider : SearchOptions) (hNames : ∀ n ∈ l.nodes, n.name? ≠ some "*")
    (hWider : options.WidenedBy wider) :
    ∃ narrow wide, d.lookup l root options = .ok narrow ∧ d.lookup l root wider = .ok wide ∧
      (l.postOuter = [] → narrow.elements ⊆ wide.elements) ∧
      ∀ e ∈ narrow.elements, ∃ a ∈ wide.elements, d.contains a e = true := by
  obtain ⟨narrow, hNarrow, -, hReached⟩ := d.lookup_of_names l root options hNames
  obtain ⟨wide, hWide, hComplete, -⟩ := d.lookup_of_names l root wider hNames
  refine ⟨narrow, wide, hNarrow, hWide, ?_, ?_⟩
  · intro hPlain e he
    have hChain := (hReached e he).widen hWider
    rw [Locator.nodes, hPlain, List.append_nil] at hChain
    exact hComplete e ((denotes_iff_of_plain hPlain).mpr hChain)
  · intro e he
    obtain ⟨a, hAround, hDenotes⟩ := ((hReached e he).widen hWider).denotes_around
    exact ⟨a, hComplete a hDenotes, hAround⟩

/-- A visible list in a hidden one: behind `outer` it gives way to the hidden one as soon as that is
taken in. -/
theorem lookup_of_wider_hidden_list :
    let inner := Markup.element "ul" [("style", "visibility:visible")] []
    let d := Document.ofElement "body" []
      [.element "ul" [("style", "visibility:hidden")] [.element "li" [] [inner]]]
    let l : Locator := ⟨[], [Node.ofRole .list]⟩
    (∀ n ∈ l.nodes, n.name? ≠ some "*") ∧
      (⟨false, false⟩ : SearchOptions).WidenedBy ⟨true, false⟩ ∧
      d.lookup l 0 ⟨false, false⟩ = .ok (.found [3]) ∧
      d.lookup l 0 ⟨true, false⟩ = .ok (.found [1]) ∧
      ∀ e ∈ [3], ∃ a ∈ [1], d.contains a e = true := by
  intro inner d l
  have hNames : ∀ n ∈ l.nodes, n.name? ≠ some "*" := by decide +kernel
  have hWider : (⟨false, false⟩ : SearchOptions).WidenedBy ⟨true, false⟩ := ⟨nofun, nofun⟩
  have hNarrow : d.lookup l 0 ⟨false, false⟩ = .ok (.found [3]) := by
    rw [lookup_eq_resolved]
    decide +kernel
  have hWide : d.lookup l 0 ⟨true, false⟩ = .ok (.found [1]) := by
    rw [lookup_eq_resolved]
    decide +kernel
  obtain ⟨narrow, wide, hNarrow', hWide', -, hAround⟩ := lookup_of_wider d l 0 _ _ hNames hWider
  obtain rfl := Except.ok.inj (hNarrow.symm.trans hNarrow')
  obtain rfl := Except.ok.inj (hWide.symm.trans hWide')
  exact ⟨hNames, hWider, hNarrow, hWide, hAround⟩

end Document

end AriaLocator

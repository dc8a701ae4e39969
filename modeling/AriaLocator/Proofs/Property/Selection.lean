import AriaLocator.Proofs.Role.Ancestry

/-!
# Selected options

A drop-down shows one option.  Which one it is, is worked out for each option by itself.  An option that
asks to be selected is taken at its word, whatever the others ask for.  Only where none asks does the
`select` around the options settle on one of them: the first that is not disabled, if it takes one value
and shows one row.

So a `select` settles on one option at most, and what it settles on never stands beside an option that
asks.  More than one option is selected exactly where more than one asks, or where a `select` stands
inside another one and both have a selected option.

## Main results

* `isOptionSelected_iff`: an option is selected if it asks to be, or if its `select` settles on it.
* `asks_of_selected`: of two selected options of one `select`, both have asked.
* `selected_unique_iff`: a `select` has at most one selected option exactly if at most one asks, and the
  selected ones all belong to one `select`.
-/

namespace AriaLocator

namespace Document

variable {d : Document} {s o o' : Element}

/-- Whether an option asks to be selected. -/
def asks (d : Document) (o : Element) : Bool := d.hasAttribute o "selected"

/-- The `select` that an option belongs to: the nearest one around it. -/
def selectOf? (d : Document) (o : Element) : Option Element :=
  (d.ancestors o).find? fun a => d.tag a == "select"

/-- A `select` settles on an option: it takes one value and shows one row, no option in it asks, and
this is the first one that is not disabled. -/
structure SettlesOn (d : Document) (s o : Element) : Prop where
  /-- It takes one value. -/
  single : d.hasAttribute s "multiple" = false
  /-- It shows one row. -/
  row : d.displaySize s = 1
  /-- No option asks to be selected. -/
  unasked : ∀ o ∈ d.options s, d.asks o = false
  /-- The option is the first one that is not disabled. -/
  first : (d.options s).find? (fun o => !d.isDisabled o) = some o

theorem SettlesOn.unique (h : d.SettlesOn s o) (h' : d.SettlesOn s o') : o = o' :=
  Option.some.inj (h.first.symm.trans h'.first)

/-- An option is selected if it asks to be, or if its `select` settles on it. -/
theorem isOptionSelected_iff :
    d.isOptionSelected o = true ↔
      d.asks o = true ∨ ∃ s, d.selectOf? o = some s ∧ d.SettlesOn s o := by
  unfold isOptionSelected
  cases hAsks : d.hasAttribute o "selected" with
  | true => simp [asks, hAsks]
  | false =>
      have hSelect : (d.ancestors o).find? (fun a => d.tag a == "select") = d.selectOf? o := rfl
      rw [hSelect]
      cases d.selectOf? o with
      | none => simp [asks, hAsks]
      | some s =>
          have hPos := d.displaySize_pos s
          have hSettles : d.SettlesOn s o ↔
              (d.hasAttribute s "multiple" = false ∧ d.displaySize s = 1) ∧
                (∀ o ∈ d.options s, d.asks o = false) ∧
                  (d.options s).find? (fun o => !d.isDisabled o) = some o :=
            ⟨fun h => ⟨⟨h.single, h.row⟩, h.unasked, h.first⟩,
              fun h => ⟨h.1.1, h.1.2, h.2.1, h.2.2⟩⟩
          have hRow : ¬ 1 < d.displaySize s ↔ d.displaySize s = 1 := by omega
          simp [asks, hAsks, hSettles, ← hRow]

/-! ## Two options -/

theorem mem_options : o ∈ d.options s ↔ (s ∈ d.holders o ∧ o < d.size) ∧ d.tag o = "option" := by
  rw [options, List.mem_filter, mem_descendants, beq_iff_eq]

/-- An option is among those of the `select` that it belongs to. -/
theorem mem_options_of_selectOf? (ho : o ∈ d.options s) {t : Element}
    (h : d.selectOf? o = some t) : o ∈ d.options t := by
  obtain ⟨⟨-, hSize⟩, hTag⟩ := mem_options.mp ho
  exact mem_options.mpr ⟨⟨ancestors_subset_holders (List.mem_of_find?_eq_some h), hSize⟩, hTag⟩

theorem selected_iff (ho : o ∈ d.options s) :
    d.flag o .selected = true ↔
      d.asks o = true ∨ ∃ t, d.selectOf? o = some t ∧ d.SettlesOn t o := by
  rw [flag, (mem_options.mp ho).2, ← isOptionSelected_iff]
  simp

/-- A `select` does not settle on an option beside one of its options that asks. -/
theorem asks_of_selected_beside (ho : o ∈ d.options s) (ho' : o' ∈ d.options s)
    (hSame : d.selectOf? o = d.selectOf? o') (h : d.flag o .selected = true)
    (hAsks : d.asks o' = true) : d.asks o = true := by
  rcases (selected_iff ho).mp h with hOwn | ⟨t, hSelect, hSettles⟩
  · exact hOwn
  · have hUnasked := hSettles.unasked o' (mem_options_of_selectOf? ho' (hSame ▸ hSelect))
    rw [hUnasked] at hAsks
    exact absurd hAsks Bool.false_ne_true

/-- Of two selected options of one `select`, both have asked. -/
theorem asks_of_selected (ho : o ∈ d.options s) (ho' : o' ∈ d.options s) (hne : o ≠ o')
    (hSame : d.selectOf? o = d.selectOf? o') (h : d.flag o .selected = true)
    (h' : d.flag o' .selected = true) : d.asks o = true ∧ d.asks o' = true := by
  rcases (selected_iff ho).mp h with hAsks | ⟨t, hSelect, hSettles⟩
  · exact ⟨hAsks, asks_of_selected_beside ho' ho hSame.symm h' hAsks⟩
  · rcases (selected_iff ho').mp h' with hAsks' | ⟨t', hSelect', hSettles'⟩
    · exact ⟨asks_of_selected_beside ho ho' hSame h hAsks', hAsks'⟩
    · have hOne : t = t' := Option.some.inj (hSelect.symm.trans (hSame.trans hSelect'))
      exact absurd (hSettles.unique (hOne ▸ hSettles')) hne

/-- In a `select` with no other one in it, an option belongs to it or, in a fragment, to none. -/
theorem selectOf?_of_no_inner (hTag : d.tag s = "select")
    (hInner : ∀ t ∈ d.descendants s, d.tag t ≠ "select") (ho : o ∈ d.options s) {t : Element}
    (h : d.selectOf? o = some t) : t = s := by
  obtain ⟨⟨hAbove, hSize⟩, -⟩ := mem_options.mp ho
  obtain ⟨hMem, hSelect, hAround⟩ := (find?_eq_some_iff_isNearest (d.pairwise_ancestors o)).mp h
  have hIn : s ∈ d.tree.lineage o := mem_tree_lineage.mpr (Or.inr hAbove)
  have hContains : t ∈ d.lineage o := contains_iff.mp (contains_of_ancestors hMem)
  have htIn : t ∈ d.tree.lineage o := tree_lineage_of_lineage hContains
  rcases Forest.mem_lineage_or hIn htIn with hOuter | hInside
  · rcases mem_tree_lineage.mp hOuter with rfl | hOuter
    · rfl
    · have hBelow : t ∈ d.descendants s := mem_descendants.mpr ⟨hOuter, lt_size_of_holders hOuter⟩
      exact absurd (by simpa using hSelect) (hInner t hBelow)
  · -- The search goes on from `o` to `t`, and would have come to `s` before.
    have hts : t ≤ s := Forest.lineage_le hInside
    have hLineage := mem_lineage_of_holders hContains hIn hts
    have hUp : s ∈ d.ancestors o :=
      (contains_cases (contains_iff.mpr hLineage)).resolve_left (Nat.ne_of_lt (holders_lt hAbove))
    have hst : s ≤ t := le_of_contains (hAround s hUp (by simp [hTag]))
    exact Nat.le_antisymm hts hst

/-- Of two selected options in a `select` with no other one in it, both have asked. -/
theorem asks_of_no_inner (hTag : d.tag s = "select")
    (hInner : ∀ t ∈ d.descendants s, d.tag t ≠ "select") (ho : o ∈ d.options s)
    (ho' : o' ∈ d.options s) (hne : o ≠ o') (h : d.flag o .selected = true)
    (h' : d.flag o' .selected = true) : d.asks o = true := by
  rcases (selected_iff ho).mp h with hAsks | ⟨t, hSelect, hSettles⟩
  · exact hAsks
  · obtain rfl := selectOf?_of_no_inner hTag hInner ho hSelect
    rcases (selected_iff ho').mp h' with hAsks' | ⟨t', hSelect', hSettles'⟩
    · rw [hSettles.unasked o' ho'] at hAsks'
      exact absurd hAsks' Bool.false_ne_true
    · obtain rfl := selectOf?_of_no_inner hTag hInner ho' hSelect'
      exact absurd (hSettles.unique hSettles') hne

/-! ## All options of a `select` -/

/-- Whether at most one element of a list passes a test. -/
def AtMostOne (es : List Element) (test : Element → Bool) : Prop :=
  ∀ a ∈ es, ∀ b ∈ es, test a = true → test b = true → a = b

instance (es : List Element) (test : Element → Bool) : Decidable (AtMostOne es test) :=
  inferInstanceAs (Decidable (∀ a ∈ es, ∀ b ∈ es, test a = true → test b = true → a = b))

/--
Of the options in a `select` at most one is selected exactly if at most one asks to be, and no two that
are selected belong to different ones of the `select` and those inside it.  If none stands inside it,
at most one is selected exactly if at most one asks.
-/
theorem selected_unique_iff (d : Document) {s : Element} (hTag : d.tag s = "select") :
    (AtMostOne (d.options s) (d.flag · .selected) ↔
        AtMostOne (d.options s) d.asks ∧
          ∀ o ∈ d.options s, ∀ o' ∈ d.options s, d.flag o .selected = true →
            d.flag o' .selected = true → d.selectOf? o = d.selectOf? o') ∧
      ((∀ t ∈ d.descendants s, d.tag t ≠ "select") →
        (AtMostOne (d.options s) (d.flag · .selected) ↔ AtMostOne (d.options s) d.asks)) := by
  have hOne : AtMostOne (d.options s) (d.flag · .selected) ↔
      AtMostOne (d.options s) d.asks ∧
        ∀ o ∈ d.options s, ∀ o' ∈ d.options s, d.flag o .selected = true →
          d.flag o' .selected = true → d.selectOf? o = d.selectOf? o' := by
    constructor
    · intro h
      refine ⟨fun o ho o' ho' hAsks hAsks' => ?_, fun o ho o' ho' hFlag hFlag' => ?_⟩
      · exact h o ho o' ho' ((selected_iff ho).mpr (Or.inl hAsks))
          ((selected_iff ho').mpr (Or.inl hAsks'))
      · rw [h o ho o' ho' hFlag hFlag']
    · rintro ⟨hAsked, hSame⟩ o ho o' ho' hFlag hFlag'
      by_cases hne : o = o'
      · exact hne
      · have hBoth := asks_of_selected ho ho' hne (hSame o ho o' ho' hFlag hFlag') hFlag hFlag'
        exact hAsked o ho o' ho' hBoth.1 hBoth.2
  refine ⟨hOne, fun hInner => ⟨fun h => (hOne.mp h).1, ?_⟩⟩
  intro hAsked o ho o' ho' hFlag hFlag'
  by_cases hne : o = o'
  · exact hne
  · exact hAsked o ho o' ho' (asks_of_no_inner hTag hInner ho ho' hne hFlag hFlag')
      (asks_of_no_inner hTag hInner ho' ho (Ne.symm hne) hFlag' hFlag)

/-- Of a disabled option, one that asks and an enabled one, the one that asks is selected alone. -/
theorem selected_unique_iff_one_asks :
    let d := ofElement "select" []
      [.element "option" [("disabled", "")] [], .element "option" [("selected", "")] [],
        .element "option" [] []]
    d.tag 0 = "select" ∧ (∀ t ∈ d.descendants 0, d.tag t ≠ "select") ∧
      AtMostOne (d.options 0) (d.flag · .selected) ∧ d.flag 2 .selected = true := by
  intro d
  have hTag : d.tag 0 = "select" := by decide
  have hInner : ∀ t ∈ d.descendants 0, d.tag t ≠ "select" := by decide +kernel
  have hAsks : AtMostOne (d.options 0) d.asks := by decide +kernel
  exact ⟨hTag, hInner, ((selected_unique_iff d hTag).2 hInner).mpr hAsks, by decide +kernel⟩

/-- In a drop-down both options that ask are selected.  So are the first options of two drop-downs of
which one stands inside the other, with neither asking. -/
theorem selected_two :
    let asked := ofElement "select" []
      [.element "option" [("selected", "")] [], .element "option" [("selected", "")] []]
    let nested := ofElement "select" []
      [.element "option" [] [], .element "select" [] [.element "option" [] []]]
    (asked.hasAttribute 0 "multiple" = false ∧ asked.displaySize 0 = 1 ∧
        ¬ AtMostOne (asked.options 0) (asked.flag · .selected)) ∧
      nested.hasAttribute 0 "multiple" = false ∧ nested.displaySize 0 = 1 ∧
        AtMostOne (nested.options 0) nested.asks ∧
          ¬ AtMostOne (nested.options 0) (nested.flag · .selected) := by
  decide +kernel

end Document

end AriaLocator

import AriaLocator.Proofs.Role.Ancestry

/-!
# Inherited visibility

An element takes its visibility from around it unless its own style sets one.  A style sets a
visibility by declaring one of the three words `visible`, `hidden` and `collapse`.  Any other value
sets nothing: an element that declares `inherit`, an empty value or an unknown word has the visibility
of what is around it.

The search upwards ends at the nearest element that declares a visibility at all.  That element may
set none, and then the search does not go on to the one that does.  So whatever it reports as hidden
is hidden, and it misses the elements with a declaration that sets nothing between them and the
element from which they inherit `hidden`.

## Main results

* `isVisibilityHidden_iff_isNearest`: the nearest declaration of any value decides.
* `visibility_hidden_iff`: an element is reported as hidden exactly if it inherits `hidden` and no
  declaration that sets nothing is nearer.
-/

namespace AriaLocator

namespace Style

/-- The values that set a visibility. -/
def visibilityWords : List String := ["visible", "hidden", "collapse"]

end Style

namespace Document

variable {d : Document} {e : Element}

/-! ## Searches for a value -/

section Walk

variable {walk : List Element} {value? : Element → Option String}

/-- A search for a value upwards ends at the nearest element that has one. -/
theorem findSome?_eq_some_iff_isNearest (hUp : walk.Pairwise fun a b => b ∈ d.ancestors a)
    {value : String} :
    walk.findSome? value? = some value ↔
      ∃ a, d.IsNearest walk (fun a => (value? a).isSome) a ∧ value? a = some value := by
  simp only [← find?_eq_some_iff_isNearest hUp]
  constructor
  · intro h
    obtain ⟨near, a, far, rfl, hValue, hNear⟩ := List.findSome?_eq_some_iff.mp h
    have hSome : (value? a).isSome = true := by rw [hValue, Option.isSome_some]
    refine ⟨a, List.find?_eq_some_iff_append.mpr ⟨hSome, near, far, rfl, ?_⟩, hValue⟩
    intro b hb
    rw [hNear b hb, Option.isSome_none, Bool.not_false]
  · rintro ⟨a, hFirst, hValue⟩
    obtain ⟨-, near, far, rfl, hNear⟩ := List.find?_eq_some_iff_append.mp hFirst
    refine List.findSome?_eq_some_iff.mpr ⟨near, a, far, rfl, hValue, fun b hb => ?_⟩
    simpa using hNear b hb

end Walk

namespace IsNearest

variable {walk : List Element} {test wider : Element → Bool} {a b : Element}

/-- Only one element is nearest. -/
theorem unique (hUp : walk.Pairwise fun a b => b ∈ d.ancestors a) (ha : d.IsNearest walk test a)
    (hb : d.IsNearest walk test b) : a = b := by
  rw [← find?_eq_some_iff_isNearest hUp] at ha hb
  exact Option.some.inj (ha.symm.trans hb)

/-- The nearest element that passes a wider test is nearest for the narrow one, if it passes it. -/
theorem narrow (h : d.IsNearest walk wider a) (hWider : ∀ b, test b = true → wider b = true)
    (hTest : test a = true) : d.IsNearest walk test a :=
  ⟨h.mem, hTest, fun b hb hPasses => h.around b hb (hWider b hPasses)⟩

end IsNearest

/-- Where something passes, something is nearest. -/
theorem exists_isNearest {walk : List Element} {test : Element → Bool} {a : Element}
    (hUp : walk.Pairwise fun a b => b ∈ d.ancestors a) (ha : a ∈ walk) (hTest : test a = true) :
    ∃ b, d.IsNearest walk test b := by
  simp only [← find?_eq_some_iff_isNearest hUp, ← Option.isSome_iff_exists, List.find?_isSome]
  exact ⟨a, ha, hTest⟩

/-! ## Visibility -/

/-- Whether an element's own style declares a visibility, be it with a word or with another value. -/
def declaresVisibility (d : Document) (e : Element) : Bool :=
  (d.inlineStyle? e "visibility").isSome

/-- Whether an element's own style sets a visibility. -/
def setsVisibility (d : Document) (e : Element) : Bool :=
  (d.inlineStyle? e "visibility").any Style.visibilityWords.contains

/-- The nearest element that sets a visibility sets it to `hidden`. -/
def InheritsHidden (d : Document) (e : Element) : Prop :=
  ∃ a, d.IsNearest (d.lineage e) d.setsVisibility a ∧ d.inlineStyle? a "visibility" = some "hidden"

/-- The nearest declaration of a visibility sets none. -/
def DeclaresNoWord (d : Document) (e : Element) : Prop :=
  ∃ a, d.IsNearest (d.lineage e) d.declaresVisibility a ∧ d.setsVisibility a = false

theorem declaresVisibility_of_setsVisibility (h : d.setsVisibility e = true) :
    d.declaresVisibility e = true := by
  unfold setsVisibility at h
  unfold declaresVisibility
  cases hStyle : d.inlineStyle? e "visibility" with
  | none =>
      rw [hStyle] at h
      cases h
  | some value => rfl

theorem setsVisibility_of_hidden (h : d.inlineStyle? e "visibility" = some "hidden") :
    d.setsVisibility e = true := by
  rw [setsVisibility, h]
  decide

/-- The nearest declaration of any value decides. -/
theorem isVisibilityHidden_iff_isNearest :
    d.isVisibilityHidden e = true ↔
      ∃ a, d.IsNearest (d.lineage e) d.declaresVisibility a ∧
        d.inlineStyle? a "visibility" = some "hidden" := by
  rw [isVisibilityHidden, beq_iff_eq]
  exact findSome?_eq_some_iff_isNearest (d.pairwise_lineage e)

/-- An element is reported as hidden exactly if it inherits `hidden` and the nearest declaration sets a
visibility. -/
theorem isVisibilityHidden_iff :
    d.isVisibilityHidden e = true ↔ d.InheritsHidden e ∧ ¬ d.DeclaresNoWord e := by
  have hUp := d.pairwise_lineage e
  rw [isVisibilityHidden_iff_isNearest]
  constructor
  · rintro ⟨a, hNearest, hHidden⟩
    have hSets := setsVisibility_of_hidden hHidden
    refine ⟨⟨a, hNearest.narrow (fun _ => declaresVisibility_of_setsVisibility) hSets, hHidden⟩, ?_⟩
    rintro ⟨b, hOther, hNone⟩
    rw [hOther.unique hUp hNearest, hSets] at hNone
    cases hNone
  · rintro ⟨⟨a, hNearest, hHidden⟩, hWord⟩
    obtain ⟨b, hFirst⟩ := exists_isNearest hUp hNearest.mem
      (declaresVisibility_of_setsVisibility hNearest.passes)
    cases hSets : d.setsVisibility b with
    | false => exact absurd ⟨b, hFirst, hSets⟩ hWord
    | true =>
        have hSame : b = a :=
          (hFirst.narrow (fun _ => declaresVisibility_of_setsVisibility) hSets).unique hUp hNearest
        exact ⟨b, hFirst, hSame ▸ hHidden⟩

/--
The search agrees with inheritance, but for one kind of element: one that inherits `hidden`, while the
nearest declaration sets no visibility, is not reported.  Whatever is reported inherits `hidden`.
-/
theorem visibility_hidden_iff (d : Document) (e : Element) :
    (d.isVisibilityHidden e = true ↔ d.InheritsHidden e ∧ ¬ d.DeclaresNoWord e) ∧
      ((d.isVisibilityHidden e = true ↔ d.InheritsHidden e) ↔
        ¬ (d.InheritsHidden e ∧ d.DeclaresNoWord e)) := by
  refine ⟨isVisibilityHidden_iff, ?_⟩
  rw [isVisibilityHidden_iff]
  constructor
  · rintro hAgree ⟨hHidden, hNone⟩
    exact (hAgree.mpr hHidden).2 hNone
  · intro hNever
    exact ⟨And.left, fun hHidden => ⟨hHidden, fun hNone => hNever ⟨hHidden, hNone⟩⟩⟩

/-- A paragraph that declares `inherit` in a hidden `div` inherits `hidden` and is not hidden. -/
theorem visibility_inherit_shown :
    let d := Document.ofElement "div" [("style", "visibility:hidden")]
      [.element "p" [("style", "visibility:inherit")] []]
    d.InheritsHidden 1 ∧ d.isVisibilityHidden 1 = false ∧ d.isHidden 1 = false := by
  intro d
  have hNearest : d.IsNearest (d.lineage 1) d.setsVisibility 0 := by decide +kernel
  exact ⟨⟨0, hNearest, by decide +kernel⟩, by decide +kernel, by decide +kernel⟩

end Document

end AriaLocator

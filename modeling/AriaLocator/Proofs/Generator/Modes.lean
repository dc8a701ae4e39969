import AriaLocator.Proofs.Generator.Precision

/-!
# How the modes of generation agree

A mode that is content with an element around the given one ends at a target.  One that wants the
element itself gives up if the target is another one.  So where both come to a locator, it is the
same; and what the first comes to for an element, the second comes to for its target, if only the
target of the target is the target again.

That is not a matter of course, as a target may have moved twice: from the nearest element that has
a node to the outermost one with presentational children, and from there to the nearest visible one.
What it comes to has nothing with presentational children around it inside the root, unless the
redirection has led nowhere; and then it leads nowhere from the target either.

The root is no matter of course either.  By default it is chosen for the element, and if the
document element is gone it is the element itself or lies in it.  Then nothing that contains the
element is inside the root, and no mode that looks for one comes to a locator.

## Main results

* `chosenRoot_inside`: around an element, inside its root, the same root is chosen.
* `preciseLocator?_of_target`: an element has the precise locator that its target has.
* `modes_agree`: each mode comes to what the narrower modes come to for an element around.
-/

namespace AriaLocator

namespace Document

variable {d : Document} {root : Element}

/-! ## The root -/

theorem le_childWithTag? (d : Document) (top : Element) (tag : String) :
    top ≤ (d.childWithTag? top tag).getD top := by
  cases hChild : d.childWithTag? top tag with
  | none => exact Nat.le_refl top
  | some c => exact Nat.le_of_lt (childElements_gt (List.mem_of_find?_eq_some hChild)).1

/-- Around an element, inside its default root, the default root is the same. -/
theorem defaultRootOf_inside {e t : Element} (hAround : d.contains t e = true)
    (hInside : d.defaultRootOf e ∈ d.ancestors t) : d.defaultRootOf t = d.defaultRootOf e := by
  have hBelow := ancestors_lt hInside
  have hAbove := le_of_contains hAround
  unfold defaultRootOf at hBelow ⊢
  split
  · rfl
  · next hGone =>
    -- the root is the element or lies in it, so that nothing around the element is inside
    simp only [if_neg hGone] at hBelow
    have hRoot := d.le_childWithTag? e "body"
    exact absurd (Nat.lt_of_lt_of_le hBelow hAbove) (Nat.not_lt_of_le hRoot)

/-- Around an element, inside the root that is chosen for it, the same root is chosen. -/
theorem chosenRoot_inside {e t : Element} {choice : RootChoice}
    (h : d.chosenRoot e choice = .ok root) (hAround : d.contains t e = true)
    (hInside : root ∈ d.ancestors t) : d.chosenRoot t choice = .ok root := by
  cases choice with
  | document => cases h
  | standard =>
      obtain rfl : d.defaultRootOf e = root := Except.ok.inj h
      exact congrArg Except.ok (defaultRootOf_inside hAround hInside)
  | element chosen =>
      rw [chosenRoot] at h ⊢
      split at h
      · obtain rfl : chosen = root := Except.ok.inj h
        rw [if_pos (contains_of_ancestors hInside)]
      · cases h

/-! ## The locators -/

/-- An element has the precise locator that its target has. -/
theorem preciseLocator?_of_target {r : Resolver Id} {e : Element} {t : Located}
    (h : d.target? r root e = some t) :
    d.preciseLocator? r root e false = d.preciseLocator? r root t.element true := by
  rw [preciseLocator?_eq, preciseLocator?_eq, h, target?_self h]
  simp

section Modes

variable {e : Element} {options : GeneratorOptions} {text : String}
  (hRoot : d.chosenRoot e options.root = .ok root)

include hRoot

/-- What an element has itself, it has as its closest locator. -/
theorem closestPrecise_of_precise (h : d.generate e .precise options = .ok (some text)) :
    d.generate e .closestPrecise options = .ok (some text) := by
  obtain ⟨l, hLocator, rfl⟩ := (generate_eq_some_iff (Or.inl rfl) hRoot).mp h
  refine (generate_eq_some_iff (Or.inr rfl) hRoot).mpr ⟨l, ?_, rfl⟩
  obtain ⟨target, -, -, hTarget, hItself, -⟩ := preciseLocator?_eq_some_iff.mp hLocator
  obtain rfl : target.element = e := hItself rfl
  exact (congrArg ExceptT.run (preciseLocator?_of_target hTarget)).trans hLocator

/-- The closest locator of an element is what some element around it, inside the root, has itself:
its target. -/
theorem exists_precise_of_closestPrecise
    (h : d.generate e .closestPrecise options = .ok (some text)) :
    ∃ t, d.contains t e = true ∧ root ∈ d.ancestors t ∧
      d.generate t .precise options = .ok (some text) := by
  obtain ⟨l, hLocator, rfl⟩ := (generate_eq_some_iff (Or.inr rfl) hRoot).mp h
  obtain ⟨target, -, -, hTarget, -⟩ := preciseLocator?_eq_some_iff.mp hLocator
  obtain ⟨hAround, hInside⟩ := mem_candidates.mp (targets_of_target? hTarget).located.1
  have hSameRoot := chosenRoot_inside hRoot hAround hInside
  refine ⟨target.element, hAround, hInside, ?_⟩
  refine (generate_eq_some_iff (Or.inl rfl) hSameRoot).mpr ⟨l, ?_, rfl⟩
  exact (congrArg ExceptT.run (preciseLocator?_of_target hTarget)).symm.trans hLocator

/-- The closest simple locator writes down the node of the nearest element that has one. -/
theorem generate_closestSimple : d.generate e .closestSimple options =
    .ok ((d.closestLocated? d.plainResolver root e : Option Located).map
      (·.node.text options.mark)) := by
  have hChosen : (liftM (d.chosenRoot e options.root) : ExceptT Error Id Element).run =
      .ok root := by
    rw [hRoot]
    rfl
  rw [generate_eq_plain, plainGenerate]
  exact run_bind_of_ok _ hChosen

/-- So it is the simple locator of the nearest element that has one. -/
theorem closestSimple_iff : d.generate e .closestSimple options = .ok (some text) ↔
    ∃ t, d.contains t e = true ∧ root ∈ d.ancestors t ∧
      d.simpleLocator? t options.mark = some text ∧
      ∀ a, d.contains a e = true → t ∈ d.ancestors a → d.simpleLocator? a options.mark = none := by
  have hNone (a : Element) : d.simpleLocator? a options.mark = none ↔
      d.nodeOf? d.plainResolver a = none := by
    rw [simpleLocator?_eq]
    exact Option.map_eq_none_iff
  rw [generate_closestSimple hRoot]
  constructor
  · intro h
    obtain ⟨t, hClosest, rfl⟩ := Option.map_eq_some_iff.mp (Except.ok.inj h)
    obtain ⟨⟨hAround, hInside⟩, hNode, hNearer⟩ := closestLocated?_eq_some_iff.mp hClosest
    refine ⟨t.element, hAround, hInside, ?_, fun a ha hBelow => ?_⟩
    · rw [simpleLocator?_eq, hNode]
      rfl
    · exact (hNone a).mpr (hNearer a ha hBelow)
  · rintro ⟨t, hAround, hInside, hText, hNearer⟩
    rw [simpleLocator?_eq] at hText
    obtain ⟨n, hNode, rfl⟩ := Option.map_eq_some_iff.mp hText
    have hClosest : d.closestLocated? d.plainResolver root e = some ⟨n, t⟩ :=
      closestLocated?_eq_some_iff.mpr ⟨⟨hAround, hInside⟩, hNode, fun a ha hBelow =>
        (hNone a).mp (hNearer a ha hBelow)⟩
    rw [hClosest]
    rfl

end Modes

/-- The modes agree with one another.  A precise locator of an element itself is its closest one; a
closest precise locator is that of an element around, inside the root; and a closest simple locator
is that of the nearest element around, inside the root, that has one. -/
theorem modes_agree (d : Document) (e root : Element) (options : GeneratorOptions) (text : String)
    (hRoot : d.chosenRoot e options.root = .ok root) :
    (d.generate e .precise options = .ok (some text) →
      d.generate e .closestPrecise options = .ok (some text)) ∧
    (d.generate e .closestPrecise options = .ok (some text) →
      ∃ t, d.contains t e = true ∧ root ∈ d.ancestors t ∧
        d.generate t .precise options = .ok (some text)) ∧
    (d.generate e .closestSimple options = .ok (some text) ↔
      ∃ t, d.contains t e = true ∧ root ∈ d.ancestors t ∧
        d.simpleLocator? t options.mark = some text ∧
        ∀ a, d.contains a e = true → t ∈ d.ancestors a →
          d.simpleLocator? a options.mark = none) :=
  ⟨closestPrecise_of_precise hRoot, exists_precise_of_closestPrecise hRoot,
    closestSimple_iff hRoot⟩

/-- The target of an image in a hidden button moves to the button, and from there to the list item
around it.  The closest simple locator stays with the image. -/
theorem modes_agree_hidden_button :
    let image := Markup.element "img" [("alt", "x"), ("style", "visibility:visible")] []
    let button := Markup.element "div" [("role", "button"), ("style", "visibility:hidden")] [image]
    let d := Document.ofElement "body" [] [.element "ul" [] [.element "li" [] [button]]]
    d.chosenRoot 4 .standard = .ok 0 ∧
      d.generate 4 .closestPrecise {} = .ok (some "\x7blistitem\x7d") ∧
      (∃ t, d.contains t 4 = true ∧ 0 ∈ d.ancestors t ∧
        d.generate t .precise {} = .ok (some "\x7blistitem\x7d")) ∧
      d.generate 4 .closestSimple {} = .ok (some "\x7bimg 'x'\x7d") ∧
      ∃ t, d.contains t 4 = true ∧ 0 ∈ d.ancestors t ∧
        d.simpleLocator? t none = some "\x7bimg 'x'\x7d" ∧
        ∀ a, d.contains a 4 = true → t ∈ d.ancestors a → d.simpleLocator? a none = none := by
  intro image button d
  have hRoot : d.chosenRoot 4 .standard = .ok 0 := by decide +kernel
  have hPrecise : d.generate 4 .closestPrecise {} = .ok (some "\x7blistitem\x7d") := by
    rw [generate_eq_plain]
    decide +kernel
  have hSimple : d.generate 4 .closestSimple {} = .ok (some "\x7bimg 'x'\x7d") := by
    rw [generate_eq_plain]
    decide +kernel
  refine ⟨hRoot, hPrecise, ?_, hSimple, ?_⟩
  · exact (modes_agree d 4 0 {} _ hRoot).2.1 hPrecise
  · exact (modes_agree d 4 0 {} _ hRoot).2.2.mp hSimple

end Document

end AriaLocator

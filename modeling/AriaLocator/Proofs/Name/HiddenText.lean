import AriaLocator.Proofs.Name.SingleUse
import AriaLocator.Proofs.Role.Texts

/-!
# Hidden text in visible names

The search for a name leaves out hidden content where it comes to a child of a visible element.  Two
ways lead past that test.  The caption of an element, its `legend`, `caption` or `figcaption`, is
read without being looked at, hidden or not, and then so is all hidden content in it, since the test
is made no more below a hidden element.  And a drop-down in a content shows all the text of its
selected options.

Whatever is not reached on these ways has no influence.  The elements that a search comes to from a
visible one are *reached*: the visible ones, the captions of reached ones, and what lies in a hidden
one that is reached.  In two documents that differ in texts that no source of a reached element
holds, all visits to reached elements have the same outcome from every state, by induction on how
many more visits the search may make in a chain.

Without hidden captions and hidden selected options, a source of a reached element is visible.  So
hidden text then has no influence at all.

## Main results

* `ComesTo.reached`: what a search comes to is reached, or left out.
* `textContent_eq_of_subtree`: an element has the same text if its subtree has the same texts.
* `ReadsAlike.visitAt_eq`: visits have the same outcome if the sources of reached elements have the
  same texts.
* `hidden_text_unread`: hidden text has no influence on visible names, unless it stands in a caption
  or an option that is read.
* `hidden_legend_read`: a hidden `legend` is the name of its visible `fieldset`.
-/

namespace AriaLocator

namespace Document

variable {d d' : Document}

/-! ## Reached elements -/

/-- No element is labelled from elsewhere, by a reference or a `label`. -/
def Unlabelled (d : Document) : Prop :=
  ∀ e ∈ d.elements, d.hasAttribute e "aria-labelledby" = false ∧ d.tag e ≠ "label"

/-- The elements that the search for the name of a visible element can come to. -/
inductive Reached (d : Document) : Element → Prop
  /-- A visible element. -/
  | visible {e : Element} (he : e ∈ d.elements) (hVisible : d.isHidden e = false) : d.Reached e
  /-- What an element is named by, hidden or not. -/
  | caption {e c : Element} (he : d.Reached e) (hCaption : c ∈ d.namedBy e) : d.Reached c
  /-- What lies in a hidden element, since nothing is left out there. -/
  | within {e c : Element} (he : d.Reached e) (hHidden : d.isHidden e = true)
      (hChild : c ∈ d.childElements e) : d.Reached c

/-- How the search comes to an element. -/
inductive ComesTo (d : Document) : Approach → Element → Prop
  /-- Its name is asked for. -/
  | root {e : Element} (he : d.Reached e) : d.ComesTo .root e
  /-- It is part of a content that is read. -/
  | content {e c : Element} (he : d.Reached e) (hChild : c ∈ d.childElements e) : d.ComesTo .content c

theorem mem_elements {e : Element} : e ∈ d.elements ↔ e < d.size := List.mem_range

theorem mem_elements_of_child {e c : Element} (h : c ∈ d.childElements e) : c ∈ d.elements :=
  mem_elements.mpr (mem_childElements.mp h).2

/-- What the search comes to is reached, or it is left out. -/
theorem ComesTo.reached {approach : Approach} {e : Element} (h : d.ComesTo approach e)
    (hTaken : (approach == .content && d.isSkippedContent e) = false) : d.Reached e := by
  cases h with
  | root he => exact he
  | content hParent hChild =>
      rename_i p
      cases hHidden : d.isHidden e with
      | false => exact .visible (mem_elements_of_child hChild) hHidden
      | true =>
          refine .within hParent ?_ hChild
          simpa [isSkippedContent, hHidden, (mem_childElements.mp hChild).1] using hTaken

theorem childElements_of_childWithTag? {e c : Element} {tag : String}
    (h : c ∈ (d.childWithTag? e tag).toList) : c ∈ d.childElements e :=
  List.mem_of_find?_eq_some (Option.mem_toList.mp h)

namespace Unlabelled

/-- Without `label` elements, an element has no labels. -/
theorem labelsOf_eq_nil (h : d.Unlabelled) (e : Element) : d.labelsOf e = [] := by
  refine List.eq_nil_iff_forall_not_mem.mpr fun l hl => ?_
  rw [labelsOf, mem_sorted, List.mem_append, Option.mem_toList] at hl
  rcases hl with hNaming | hAround
  · split at hNaming
    · exact absurd hNaming List.not_mem_nil
    · obtain ⟨hMem, hLabel⟩ := List.mem_filter.mp hNaming
      simp only [Bool.and_eq_true, beq_iff_eq] at hLabel
      exact (h l hMem).2 hLabel.1.2
  · have hAbove := List.mem_of_find?_eq_some hAround
    have hMem : l ∈ d.elements :=
      mem_elements.mpr (Nat.lt_trans (ancestors_lt hAbove) (lt_size_of_ancestors hAbove))
    exact (h l hMem).2 (by simpa using List.find?_some hAround)

/-- Without labels, an element is named by a child. -/
theorem childElements_of_namedBy (h : d.Unlabelled) {e c : Element} (hc : c ∈ d.namedBy e) :
    c ∈ d.childElements e := by
  unfold namedBy at hc
  split at hc
  · simp [h.labelsOf_eq_nil] at hc
  · exact childElements_of_childWithTag? hc
  · exact childElements_of_childWithTag? hc
  · exact childElements_of_childWithTag? hc
  · simp [h.labelsOf_eq_nil] at hc

theorem of_sameButTexts (h : d.Unlabelled) (hTexts : SameButTexts d d') : d'.Unlabelled := by
  intro e he
  rw [← hTexts.hasAttribute_eq, ← hTexts.tag_eq]
  exact h e (hTexts.elements_eq ▸ he)

theorem attribute?_eq_none (h : d.Unlabelled) {e : Element} (he : e ∈ d.elements) :
    d.attribute? e "aria-labelledby" = none := by
  simpa [hasAttribute] using (h e he).1

end Unlabelled

/-- Whatever is reached is an element of the document. -/
theorem Reached.mem_elements (h : d.Unlabelled) {e : Element} (he : d.Reached e) :
    e ∈ d.elements := by
  cases he with
  | visible he hVisible => exact he
  | caption he hCaption => exact mem_elements_of_child (h.childElements_of_namedBy hCaption)
  | within he hHidden hChild => exact mem_elements_of_child hChild

/-! ## Texts that are read -/

theorem SameButTexts.filledAttribute?_eq (h : SameButTexts d d') :
    d.filledAttribute? = d'.filledAttribute? := by
  funext e name
  rw [filledAttribute?, filledAttribute?, h.attribute?_eq]

/-- The sources of reached elements have the same texts in two documents. -/
def ReadsAlike (d d' : Document) : Prop :=
  ∀ e, d.Reached e → ∀ p ∈ d.sources e, d.contents p = d'.contents p

/-- An element has the same text if its subtree has the same texts. -/
theorem textContent_eq_of_subtree {e : Element}
    (h : ∀ p ∈ d.subtree e, d.contents p = d'.contents p) : d.textContent e = d'.textContent e := by
  induction hLeft : d.size - e using Nat.strongRecOn generalizing e with
  | _ left ih =>
      rw [textContent_eq, textContent_eq, ← h e List.mem_cons_self]
      refine congrArg String.join (List.map_congr_left fun child hChild => ?_)
      cases child with
      | text content => rfl
      | element k =>
          have hk := element_mem_contents.mp hChild
          obtain ⟨hBehind, hSize⟩ := held_gt hk
          exact ih _ (hLeft ▸ Nat.sub_lt_sub_left (Nat.lt_trans hBehind hSize) hBehind)
            (fun p hp => h p (List.mem_cons_of_mem e (subtree_subset_descendants hk hp))) rfl

namespace ReadsAlike

variable (hAlike : ReadsAlike d d') (hTexts : SameButTexts d d')

include hAlike

include hTexts

theorem children_eq {e : Element} (he : d.Reached e) : d.children e = d'.children e := by
  rw [children, children, hTexts.holdsFragment_eq, hAlike e he e List.mem_cons_self]

/-- An embedded control has the same value. -/
theorem embeddedValue?_eq {e : Element} (he : d.Reached e) :
    d.embeddedValue? e = d'.embeddedValue? e := by
  have hSelected (hTag : (d.tag e == "select") = true)
      (hRole : d.role? e = some .combobox ∨ d.role? e = some .listbox) :
      d.selectedText ((d.options e).filter d.isOptionSelected) =
        d'.selectedText ((d.options e).filter d.isOptionSelected) := by
    refine congrArg (" ".intercalate ·) (List.map_congr_left fun o ho => ?_)
    refine congrArg Text.collapse (textContent_eq_of_subtree fun p hp => ?_)
    have hShown : p ∈ d.shown e := by
      rw [shown_of_select hTag hRole]
      exact List.mem_flatMap.mpr ⟨o, ho, hp⟩
    exact hAlike e he p (List.mem_cons_of_mem e (List.mem_append_right _ hShown))
  unfold embeddedValue?
  rw [← hTexts.role?_eq, ← hTexts.tag_eq, ← hTexts.attribute?_eq, ← hTexts.options_eq,
    ← hTexts.isOptionSelected_eq]
  split
  · rfl
  · rfl
  · next hRole =>
    split
    · next hTag => exact congrArg some (hSelected hTag (Or.inl hRole))
    · rfl
  · next hRole =>
    split
    · next hTag => exact congrArg some (hSelected hTag (Or.inr hRole))
    · rfl
  · rfl
  · rfl
  · rfl

section Visits

variable {visit visit' : NameVisit}
  (hVisit : ∀ approach c, d.ComesTo approach c → visit approach c = visit' approach c) {e : Element}
  (he : d.Reached e)

include hVisit he

theorem nameFromContent_eq : d.nameFromContent visit e = d'.nameFromContent visit' e := by
  have hParts (children : List Child) (hMem : children ⊆ d.children e) :
      children.mapM (d.readChild visit) = children.mapM (d'.readChild visit') := by
    induction children with
    | nil => rfl
    | cons child rest ih =>
        have hChild : d.readChild visit child = d'.readChild visit' child := by
          cases child with
          | text content => rfl
          | element k =>
              have hk := element_mem_children.mp (hMem List.mem_cons_self)
              rw [readChild, readChild, hVisit .content k (.content he hk), hTexts.tag_eq]
        rw [List.mapM_cons, List.mapM_cons, hChild, ih fun other ho => hMem (List.mem_cons_of_mem _ ho)]
  rw [Document.nameFromContent_eq, Document.nameFromContent_eq, ← hAlike.children_eq hTexts he,
    hParts _ (List.Subset.refl _)]

/-- A child by which an element is named has the same content. -/
theorem nameFromChild_eq {tag : String} (hNamed : d.namedBy e = (d.childWithTag? e tag).toList) :
    d.nameFromChild visit e tag = d'.nameFromChild visit' e tag := by
  unfold nameFromChild
  rw [← hTexts.childWithTag?_eq]
  cases hChild : d.childWithTag? e tag with
  | none => rfl
  | some child =>
      have hRead : d.Reached child := .caption he (by simp [hNamed, hChild])
      exact congrArg (· >>= fun text => pure (some text))
        (hAlike.nameFromContent_eq hTexts hVisit hRead)

/-- HTML has the same label. -/
theorem nativeName_eq (hUnlabelled : d.Unlabelled) :
    d.nativeName visit e = d'.nativeName visit' e := by
  by_cases hFieldset : d.tag e = "fieldset"
  · have hNamed : d.namedBy e = (d.childWithTag? e "legend").toList := by
      simp [namedBy, hFieldset]
    simpa [nativeName, ← hTexts.tag_eq, hFieldset] using
      hAlike.nameFromChild_eq hTexts hVisit he hNamed
  by_cases hTable : d.tag e = "table"
  · have hNamed : d.namedBy e = (d.childWithTag? e "caption").toList := by
      simp [namedBy, hTable]
    simpa [nativeName, ← hTexts.tag_eq, hTable] using
      hAlike.nameFromChild_eq hTexts hVisit he hNamed
  by_cases hFigure : d.tag e = "figure"
  · have hNamed : d.namedBy e = (d.childWithTag? e "figcaption").toList := by
      simp [namedBy, hFigure]
    simpa [nativeName, ← hTexts.tag_eq, hFigure] using
      hAlike.nameFromChild_eq hTexts hVisit he hNamed
  -- All other elements are labelled by attributes or by labels, of which there are none.
  have hLabels : d.nameFromLabels visit e = pure none := by
    rw [nameFromLabels, hUnlabelled.labelsOf_eq_nil]
  have hLabels' : d'.nameFromLabels visit' e = pure none := by
    rw [nameFromLabels, (hUnlabelled.of_sameButTexts hTexts).labelsOf_eq_nil]
  unfold nativeName
  rw [← hTexts.tag_eq, ← hTexts.controlType?_eq, ← hTexts.filledAttribute?_eq,
    ← hTexts.attribute?_eq, hLabels, hLabels']
  split
  · rfl
  · rfl
  · rfl
  · next hTag => exact absurd hTag hFieldset
  · next hTag => exact absurd hTag hTable
  · next hTag => exact absurd hTag hFigure
  · rfl

theorem nameFromMarkup_eq (hUnlabelled : d.Unlabelled) (approach : Approach) :
    d.nameFromMarkup visit approach e = d'.nameFromMarkup visit' approach e := by
  have hTakes : d.takesContent approach e = d'.takesContent approach e := by
    rw [takesContent, takesContent, hTexts.role?_eq]
  rw [Document.nameFromMarkup_eq, Document.nameFromMarkup_eq, hTakes, hTexts.attribute?_eq,
    hAlike.nativeName_eq hTexts hVisit he hUnlabelled, hAlike.nameFromContent_eq hTexts hVisit he]

theorem nameOfItself_eq (hUnlabelled : d.Unlabelled) (approach : Approach) :
    d.nameOfItself visit approach e = d'.nameOfItself visit' approach e := by
  rw [nameOfItself, nameOfItself, hAlike.embeddedValue?_eq hTexts he, hTexts.filledAttribute?_eq,
    hAlike.nameFromMarkup_eq hTexts hVisit he hUnlabelled approach]

/-- Looking at a reached element has the same outcome. -/
theorem nameOfNew_eq (hUnlabelled : d.Unlabelled) {approach : Approach}
    (hTaken : (approach == .content && d.isSkippedContent e) = false) :
    d.nameOfNew visit approach e = d'.nameOfNew visit' approach e := by
  have hTaken' : (approach == .content && d'.isSkippedContent e) = false := by
    rwa [isSkippedContent, ← hTexts.isHidden_eq, ← hTexts.parent?_eq]
  have hReferences : d.nameFromReferences visit e = pure none := by
    rw [nameFromReferences, hUnlabelled.attribute?_eq_none (he.mem_elements hUnlabelled)]
  have hReferences' : d'.nameFromReferences visit' e = pure none := by
    rw [nameFromReferences, ← hTexts.attribute?_eq,
      hUnlabelled.attribute?_eq_none (he.mem_elements hUnlabelled)]
  rw [Document.nameOfNew_eq, Document.nameOfNew_eq, hTaken, hTaken', hReferences, hReferences',
    hAlike.nameOfItself_eq hTexts hVisit he hUnlabelled approach]

end Visits

/-- What the search comes to is left out in both documents, or has the same outcome. -/
theorem visitAt_eq (hUnlabelled : d.Unlabelled) (depth : Nat) {approach : Approach} {e : Element}
    (h : d.ComesTo approach e) : d.visitAt depth approach e = d'.visitAt depth approach e := by
  induction depth generalizing approach e with
  | zero => rfl
  | succ depth ih =>
      have hNew : d.nameOfNew (d.visitAt depth) approach e =
          d'.nameOfNew (d'.visitAt depth) approach e := by
        cases hTaken : approach == .content && d.isSkippedContent e with
        | false =>
            exact hAlike.nameOfNew_eq hTexts (fun _ _ => ih) (h.reached hTaken) hUnlabelled hTaken
        | true =>
            have hTaken' : (approach == .content && d'.isSkippedContent e) = true := by
              rwa [isSkippedContent, ← hTexts.isHidden_eq, ← hTexts.parent?_eq]
            rw [Document.nameOfNew_eq, Document.nameOfNew_eq, if_pos hTaken, if_pos hTaken']
      rw [visitAt_succ, visitAt_succ, hNew]

end ReadsAlike

/-! ## Names of visible elements -/

/-- Two documents differ in texts of hidden elements alone. -/
structure SameButHidden (d d' : Document) : Prop extends SameButTexts d d' where
  /-- Right below visible elements stands the same. -/
  visible : ∀ p ∈ d.elements, d.isHidden p = false → d.contents p = d'.contents p

/-- Whatever the search reads for a visible element is visible: its caption, and the selected options
of a drop-down. -/
def ReadsVisible (d : Document) : Prop :=
  ∀ e ∈ d.elements, d.isHidden e = false → ∀ p ∈ d.sources e, d.isHidden p = false

theorem ReadsVisible.isHidden_of_reached (h : d.ReadsVisible) {e : Element} (he : d.Reached e)
    (hUnlabelled : d.Unlabelled) : d.isHidden e = false := by
  induction he with
  | visible he hVisible => exact hVisible
  | caption he hCaption ih =>
      exact h _ (he.mem_elements hUnlabelled) ih _
        (List.mem_cons_of_mem _ (List.mem_append_left _ hCaption))
  | within he hHidden hChild ih => exact absurd hHidden (by simp [ih])

theorem SameButHidden.contents_eq (h : SameButHidden d d') {p : Element}
    (hVisible : d.isHidden p = false) : d.contents p = d'.contents p := by
  by_cases hSize : p < d.size
  · exact h.visible p (mem_elements.mpr hSize) hVisible
  · have hSize' : d'.size ≤ p := h.size_eq ▸ Nat.le_of_not_lt hSize
    rw [contents_eq_nil (Nat.le_of_not_lt hSize), contents_eq_nil hSize']

/--
Hidden texts that no source of a reached element holds have no influence on the names of visible
elements.  If all that is read for a visible element is visible, no hidden text has.
-/
theorem hidden_text_unread (hUnlabelled : d.Unlabelled) (hTexts : SameButHidden d d')
    {e : Element} (he : e ∈ d.elements) (hVisible : d.isHidden e = false) :
    ((∀ a, d.Reached a → ∀ p ∈ d.sources a, d.isHidden p = true → d.contents p = d'.contents p) →
        d.accessibleName e = d'.accessibleName e) ∧
      (d.ReadsVisible → d.accessibleName e = d'.accessibleName e) := by
  have hName (hAlike : ReadsAlike d d') : d.accessibleName e = d'.accessibleName e := by
    have hComes : d.ComesTo .root e := .root (.visible he hVisible)
    rw [accessibleName, accessibleName, ← hTexts.size_eq,
      hAlike.visitAt_eq hTexts.toSameButTexts hUnlabelled _ hComes]
  refine ⟨fun hRead => hName fun a ha p hp => ?_, fun hReads => hName fun a ha p hp => ?_⟩
  · cases hHidden : d.isHidden p with
    | false => exact hTexts.contents_eq hHidden
    | true => exact hRead a ha p hp hHidden
  · exact hTexts.contents_eq
      (hReads a (ha.mem_elements hUnlabelled) (hReads.isHidden_of_reached ha hUnlabelled) p hp)

/-- The name of a button with a hidden `span` in it does not tell what the `span` holds. -/
theorem hidden_text_unread_in_button :
    let page := fun secret => ofElement "button" []
      [.text "Save", .element "span" [("hidden", "")] [.text secret]]
    (page "one").Unlabelled ∧ SameButHidden (page "one") (page "two") ∧ 0 ∈ (page "one").elements ∧
      (page "one").isHidden 0 = false ∧ (page "one").ReadsVisible ∧
      (page "one").accessibleName 0 = (page "two").accessibleName 0 := by
  intro page
  have hUnlabelled : (page "one").Unlabelled := by unfold Unlabelled; decide +kernel
  have hTexts : SameButHidden (page "one") (page "two") :=
    ⟨⟨by decide +kernel, rfl, by decide +kernel, by decide +kernel⟩, by decide +kernel⟩
  have hMem : 0 ∈ (page "one").elements := by decide +kernel
  have hVisible : (page "one").isHidden 0 = false := by decide +kernel
  have hReads : (page "one").ReadsVisible := by unfold ReadsVisible; decide +kernel
  exact ⟨hUnlabelled, hTexts, hMem, hVisible, hReads,
    (hidden_text_unread hUnlabelled hTexts hMem hVisible).2 hReads⟩

/-- Hidden text may be read: that of a hidden `legend`, which is the name of its `fieldset`, and that
of a hidden option, which a drop-down shows in the name of the button around it. -/
theorem hidden_legend_read :
    let group := fun secret => ofElement "fieldset" []
      [.element "legend" [("hidden", "")] [.text secret]]
    let choice := fun secret => ofElement "button" []
      [.element "select" [] [.element "option" [("hidden", ""), ("selected", "")] [.text secret]]]
    ((group "one").Unlabelled ∧ SameButHidden (group "one") (group "two") ∧
        0 ∈ (group "one").elements ∧ (group "one").isHidden 0 = false ∧
        (group "one").isHidden 1 = true ∧
        (group "one").accessibleName 0 = "one" ∧ (group "two").accessibleName 0 = "two") ∧
      (choice "one").Unlabelled ∧ SameButHidden (choice "one") (choice "two") ∧
        0 ∈ (choice "one").elements ∧ (choice "one").isHidden 0 = false ∧
        (choice "one").isHidden 2 = true ∧
        (choice "one").accessibleName 0 = "one" ∧ (choice "two").accessibleName 0 = "two" := by
  intro group choice
  have hGroup : SameButHidden (group "one") (group "two") :=
    ⟨⟨by decide +kernel, rfl, by decide +kernel, by decide +kernel⟩, by decide +kernel⟩
  have hChoice : SameButHidden (choice "one") (choice "two") :=
    ⟨⟨by decide +kernel, rfl, by decide +kernel, by decide +kernel⟩, by decide +kernel⟩
  have hGroupUnlabelled : (group "one").Unlabelled := by unfold Unlabelled; decide +kernel
  have hChoiceUnlabelled : (choice "one").Unlabelled := by unfold Unlabelled; decide +kernel
  exact ⟨⟨hGroupUnlabelled, hGroup, by decide +kernel⟩, hChoiceUnlabelled, hChoice,
    by decide +kernel⟩

end Document

end AriaLocator

import AriaLocator.Name.Accessible
import AriaLocator.Proofs.Document.Outermost

/-!
# The search for a name ends

The search for a name goes down to children, across to any element that `aria-labelledby` refers to, and
up to a label around the element.  What it reads of a label, a legend or a caption it reads without
looking at that element, so that no place in the tree is ever left for good.  What ends the search is
that it looks at each element once.

Every step from one visit to the next goes to an element of the document.  A visit either finds its
element seen, and ends, or leaves one element less that has not been seen.  So a chain of visits is no
longer than the elements that have not been seen, and one more, which finds its element seen.

## Main results

* `Alike`: two searches have the same outcome from every state that leaves no more than so many elements
  unseen.
* `nameOfNew_alike`: looking at a new element is alike under visits that are alike.
* `visitOr_eq`: what would be done past the bound does not matter, since nothing comes to it.
* `visitAt_unbounded`: the search satisfies the equation of a search without a bound.
* `name_search_ends`: the search for the name of an element ends within the bound, looks at each element
  once at most, and has the same outcome with any larger bound.
-/

namespace AriaLocator

namespace Document

/-! ## What HTML has for a label -/

/-- The names that HTML gives to buttons without a value of their own. -/
def defaultNames : List String := ["Submit", "Reset", "Submit Query"]

/-- The elements whose content HTML takes for a label of an element. -/
def namedBy (d : Document) (e : Element) : List Element :=
  match d.tag e with
  | "input" =>
    if ["hidden", "button", "submit", "reset", "image"].contains ((d.controlType? e).getD "") then []
    else d.labelsOf e
  | "fieldset" => (d.childWithTag? e "legend").toList
  | "table" => (d.childWithTag? e "caption").toList
  | "figure" => (d.childWithTag? e "figcaption").toList
  | tag => if labelableTags.contains tag then d.labelsOf e else []

/-- A text stands in an attribute of an element, or is the name of a button without a value. -/
def IsWritten (d : Document) (e : Element) (text : String) : Prop :=
  (∃ name, d.attribute? e name = some text) ∨ text ∈ defaultNames

/-- The ways in which HTML labels an element, whatever is done to visit others. -/
inductive NativeWay (d : Document) (e : Element) : Prop where
  /-- By a text that is written, or not at all. -/
  | written (text : Option String) (hText : ∀ t ∈ text, d.IsWritten e t)
      (hName : ∀ visit, d.nativeName visit e = pure text)
  /-- By the content of a child. -/
  | part (tag : String) (hPart : d.namedBy e = (d.childWithTag? e tag).toList)
      (hName : ∀ visit, d.nativeName visit e = d.nameFromChild visit e tag)
  /-- By the contents of its labels. -/
  | labels (hLabels : d.namedBy e = d.labelsOf e)
      (hName : ∀ visit, d.nativeName visit e = d.nameFromLabels visit e)

theorem eq_of_unlessBlank {text filled : String} (h : unlessBlank text = some filled) :
    filled = text := by
  unfold unlessBlank at h
  split at h
  · exact absurd h (by simp)
  · exact (Option.some.inj h).symm

theorem isWritten_of_filled {d : Document} {e : Element} {name text : String}
    (h : d.filledAttribute? e name = some text) : d.IsWritten e text := by
  obtain ⟨value, hValue, hFilled⟩ := Option.bind_eq_some_iff.mp h
  exact Or.inl ⟨name, by rw [eq_of_unlessBlank hFilled, hValue]⟩

/-- A button is named by an attribute, or else by its default. -/
theorem isWritten_getD {d : Document} {e : Element} {found : Option String} {fallback : String}
    (hFound : ∀ t ∈ found, d.IsWritten e t) (hDefault : fallback ∈ defaultNames) :
    ∀ t ∈ some (found.getD fallback), d.IsWritten e t := by
  intro t ht
  rw [← Option.some.inj ht]
  cases found with
  | none => exact Or.inr hDefault
  | some value => exact hFound value rfl

/-- An `input` is labelled like other controls, unless it is hidden or a button. -/
theorem nativeWay_input {d : Document} {e : Element} (hTag : d.tag e = "input") :
    d.NativeWay e := by
  have hValue : ∀ t ∈ d.filledAttribute? e "value", d.IsWritten e t :=
    fun t ht => isWritten_of_filled ht
  have hImage : ∀ t ∈ ["alt", "value", "title"].findSome? (d.filledAttribute? e),
      d.IsWritten e t := by
    intro t ht
    obtain ⟨name, -, hFilled⟩ := List.exists_of_findSome?_eq_some ht
    exact isWritten_of_filled hFilled
  by_cases hHidden : (d.controlType? e).getD "" = "hidden"
  · exact .written none (by simp) fun visit => by simp [nativeName, hTag, hHidden]
  by_cases hButton : (d.controlType? e).getD "" = "button"
  · exact .written _ hValue fun visit => by simp [nativeName, hTag, hButton]
  by_cases hSubmit : (d.controlType? e).getD "" = "submit"
  · exact .written _ (isWritten_getD hValue (by decide : "Submit" ∈ defaultNames)) fun visit => by
      simp [nativeName, hTag, hSubmit]
  by_cases hReset : (d.controlType? e).getD "" = "reset"
  · exact .written _ (isWritten_getD hValue (by decide : "Reset" ∈ defaultNames)) fun visit => by
      simp [nativeName, hTag, hReset]
  by_cases hType : (d.controlType? e).getD "" = "image"
  · exact .written _ (isWritten_getD hImage (by decide : "Submit Query" ∈ defaultNames))
      fun visit => by simp [nativeName, hTag, hType]
  · exact .labels (by simp [namedBy, hTag, hHidden, hButton, hSubmit, hReset, hType])
      fun visit => by simp [nativeName, hTag]

theorem nativeWay (d : Document) (e : Element) : d.NativeWay e := by
  by_cases hInput : d.tag e = "input"
  · exact nativeWay_input hInput
  by_cases hImg : d.tag e = "img"
  · exact .written _ (fun t ht => Or.inl ⟨"alt", ht⟩) fun visit => by simp [nativeName, hImg]
  by_cases hArea : d.tag e = "area"
  · exact .written _ (fun t ht => Or.inl ⟨"alt", ht⟩) fun visit => by simp [nativeName, hArea]
  by_cases hFieldset : d.tag e = "fieldset"
  · exact .part "legend" (by simp [namedBy, hFieldset]) fun visit => by
      simp [nativeName, hFieldset]
  by_cases hTable : d.tag e = "table"
  · exact .part "caption" (by simp [namedBy, hTable]) fun visit => by simp [nativeName, hTable]
  by_cases hFigure : d.tag e = "figure"
  · exact .part "figcaption" (by simp [namedBy, hFigure]) fun visit => by
      simp [nativeName, hFigure]
  by_cases hLabelable : labelableTags.contains (d.tag e) = true
  · exact .labels (by simp_all [namedBy]) fun visit => by simp_all [nativeName]
  · exact .written none (by simp) fun visit => by simp_all [nativeName]

/-! ## What is asked in turn -/

/-- What is found once references have given nothing. -/
def nameOfItself (d : Document) (visit : NameVisit) (approach : Approach) (e : Element) :
    NameSearch String :=
  match if approach == .content then d.embeddedValue? e else none with
  | some value => pure value
  | none =>
    match d.filledAttribute? e "aria-label" with
    | some label => pure label
    | none => d.nameFromMarkup visit approach e

theorem nameOfNew_eq (d : Document) (visit : NameVisit) (approach : Approach) (e : Element) :
    d.nameOfNew visit approach e =
      if approach == .content && d.isSkippedContent e then pure ""
      else
        (if approach == .labelledBy then pure none else d.nameFromReferences visit e) >>=
          fun referenced => referenced.elim (d.nameOfItself visit approach e) pure := by
  have hNext : (fun referenced : Option String =>
      referenced.elim (d.nameOfItself visit approach e) pure) = fun referenced =>
        match referenced with
        | some name => pure name
        | none => d.nameOfItself visit approach e := by
    funext referenced
    cases referenced <;> rfl
  rw [hNext, nameOfNew]
  split
  · rfl
  · dsimp only
    split <;> rfl

theorem nameFromMarkup_eq (d : Document) (visit : NameVisit) (approach : Approach) (e : Element) :
    d.nameFromMarkup visit approach e =
      d.nativeName visit e >>= fun native =>
        (native.bind unlessBlank).elim
          ((if d.takesContent approach e then d.nameFromContent visit e else pure "") >>= fun content =>
            pure ((unlessBlank content).getD ((d.attribute? e "title").getD "")))
          pure := by
  rw [nameFromMarkup]
  refine congrArg (d.nativeName visit e >>= ·) (funext fun native => ?_)
  cases native.bind unlessBlank with
  | some name => rfl
  | none =>
    dsimp only
    split <;> rfl

/-! ## Elements that have not been seen -/

/-- How many elements have not been looked at. -/
def unseen (d : Document) (seen : List Element) : Nat :=
  (d.elements.filter fun e => !seen.contains e).length

theorem unseen_le_size (d : Document) (seen : List Element) : d.unseen seen ≤ d.size := by
  have h := List.length_filter_le (fun e => !seen.contains e) d.elements
  rwa [elements, List.length_range] at h

/-- To look at an element for the first time leaves one less unseen. -/
theorem unseen_cons_lt {d : Document} {e : Element} {seen : List Element} (he : e ∈ d.elements)
    (hSeen : seen.contains e = false) : d.unseen (e :: seen) < d.unseen seen := by
  have hLess : (d.elements.filter fun a => !(e :: seen).contains a) =
      (d.elements.filter fun a => !seen.contains a).filter (· != e) := by
    rw [List.filter_filter]
    refine List.filter_congr fun a _ => ?_
    rw [List.contains_cons, Bool.not_or]
    rfl
  rw [unseen, unseen, hLess, List.length_filter_lt_length_iff_exists]
  exact ⟨e, List.mem_filter.mpr ⟨he, by rw [hSeen]; rfl⟩, by simp⟩

/-! ## Searches that come out alike -/

section Alike

variable {d : Document} {left : Nat} {α β : Type}

/-- From every state that leaves at most `left` elements unseen, two searches have one outcome, leave
no more unseen, and look at nothing twice. -/
def Alike (d : Document) (left : Nat) (search search' : NameSearch α) : Prop :=
  ∀ seen, d.unseen seen ≤ left →
    search seen = search' seen ∧ d.unseen (search seen).2 ≤ left ∧
      (seen.Nodup → (search seen).2.Nodup)

namespace Alike

theorem pure (value : α) : d.Alike left (Pure.pure value) (Pure.pure value) :=
  fun _ hLeft => ⟨rfl, hLeft, id⟩

theorem bind {search search' : NameSearch α} {next next' : α → NameSearch β}
    (hSearch : d.Alike left search search')
    (hNext : ∀ value, d.Alike left (next value) (next' value)) :
    d.Alike left (search >>= next) (search' >>= next') := by
  intro seen hLeft
  obtain ⟨hSame, hThen, hOnce⟩ := hSearch seen hLeft
  obtain ⟨hSame', hThen', hOnce'⟩ := hNext (search seen).1 (search seen).2 hThen
  refine ⟨?_, hThen', fun h => hOnce' (hOnce h)⟩
  show next (search seen).1 (search seen).2 = next' (search' seen).1 (search' seen).2
  rw [hSame', hSame]

theorem mapM {search search' : α → NameSearch β} {values : List α}
    (h : ∀ value ∈ values, d.Alike left (search value) (search' value)) :
    d.Alike left (values.mapM search) (values.mapM search') := by
  induction values with
  | nil => exact pure []
  | cons value rest ih =>
      rw [List.mapM_cons, List.mapM_cons]
      refine bind (h value List.mem_cons_self) fun first => ?_
      exact bind (ih fun other ho => h other (List.mem_cons_of_mem _ ho)) fun more => pure _

end Alike

/-! ## One visit -/

section Visits

variable {visit visit' : NameVisit}
  (hVisit : ∀ approach, ∀ c ∈ d.elements, d.Alike left (visit approach c) (visit' approach c))
  (e : Element)

include hVisit

theorem nameFromContent_alike :
    d.Alike left (d.nameFromContent visit e) (d.nameFromContent visit' e) := by
  refine Alike.bind (Alike.mapM fun child hChild => ?_) fun parts => Alike.pure _
  cases child with
  | text content => exact Alike.pure content
  | element c =>
      have hSize := (childElements_gt (element_mem_children.mp hChild)).2
      exact Alike.bind (hVisit .content c (List.mem_range.mpr hSize)) fun text => Alike.pure _

theorem nameFromChild_alike (tag : String) :
    d.Alike left (d.nameFromChild visit e tag) (d.nameFromChild visit' e tag) := by
  unfold nameFromChild
  split
  · exact Alike.pure none
  · next child _ => exact Alike.bind (nameFromContent_alike hVisit child) fun text => Alike.pure _

theorem nameFromLabels_alike :
    d.Alike left (d.nameFromLabels visit e) (d.nameFromLabels visit' e) := by
  unfold nameFromLabels
  split
  · exact Alike.pure none
  · refine Alike.bind (Alike.mapM fun label _ => ?_) fun parts => Alike.pure _
    exact nameFromContent_alike hVisit label

theorem nativeName_alike : d.Alike left (d.nativeName visit e) (d.nativeName visit' e) := by
  cases d.nativeWay e with
  | written text _ hName =>
      rw [hName, hName]
      exact Alike.pure text
  | part tag _ hName =>
      rw [hName, hName]
      exact nameFromChild_alike hVisit e tag
  | labels _ hName =>
      rw [hName, hName]
      exact nameFromLabels_alike hVisit e

theorem nameFromReferences_alike :
    d.Alike left (d.nameFromReferences visit e) (d.nameFromReferences visit' e) := by
  unfold nameFromReferences
  split
  · exact Alike.pure none
  · refine Alike.bind (Alike.mapM fun referenced hMem => ?_) fun parts => ?_
    · obtain ⟨id, -, hFound⟩ := List.mem_filterMap.mp hMem
      exact hVisit .labelledBy referenced (List.mem_of_find?_eq_some hFound)
    · split <;> exact Alike.pure _

theorem nameFromMarkup_alike (approach : Approach) :
    d.Alike left (d.nameFromMarkup visit approach e) (d.nameFromMarkup visit' approach e) := by
  rw [nameFromMarkup_eq, nameFromMarkup_eq]
  refine Alike.bind (nativeName_alike hVisit e) fun native => ?_
  cases native.bind unlessBlank with
  | some name => exact Alike.pure name
  | none =>
      refine Alike.bind ?_ fun content => Alike.pure _
      split
      · exact nameFromContent_alike hVisit e
      · exact Alike.pure ""

theorem nameOfItself_alike (approach : Approach) :
    d.Alike left (d.nameOfItself visit approach e) (d.nameOfItself visit' approach e) := by
  unfold nameOfItself
  split
  · exact Alike.pure _
  · split
    · exact Alike.pure _
    · exact nameFromMarkup_alike hVisit e approach

/-- Looking at a new element is alike under visits that are alike. -/
theorem nameOfNew_alike (approach : Approach) :
    d.Alike left (d.nameOfNew visit approach e) (d.nameOfNew visit' approach e) := by
  rw [nameOfNew_eq, nameOfNew_eq]
  split
  · exact Alike.pure ""
  · refine Alike.bind ?_ fun referenced => ?_
    · split
      · exact Alike.pure none
      · exact nameFromReferences_alike hVisit e
    · cases referenced with
      | some name => exact Alike.pure name
      | none => exact nameOfItself_alike hVisit e approach

end Visits

end Alike

/-! ## The whole search -/

/-- Looks at an element as `visitAt` does, and does `past` where the bound is used up. -/
def visitOr (d : Document) (past : NameVisit) : Nat → NameVisit
  | 0 => past
  | bound + 1 => fun approach e => do
    if (← get).contains e then pure ""
    else
      modify (e :: ·)
      d.nameOfNew (d.visitOr past bound) approach e

theorem visitOr_succ_of_seen {d : Document} {past : NameVisit} {bound : Nat} {approach : Approach}
    {e : Element} {seen : List Element} (h : seen.contains e = true) :
    d.visitOr past (bound + 1) approach e seen = ("", seen) := by
  show (if seen.contains e then (Pure.pure "" : NameSearch String) else _) seen = _
  rw [h]
  rfl

theorem visitOr_succ_of_new {d : Document} {past : NameVisit} {bound : Nat} {approach : Approach}
    {e : Element} {seen : List Element} (h : seen.contains e = false) :
    d.visitOr past (bound + 1) approach e seen =
      d.nameOfNew (d.visitOr past bound) approach e (e :: seen) := by
  show (if seen.contains e then (Pure.pure "" : NameSearch String) else _) seen = _
  rw [h]
  rfl

/-- With no answer where the bound is used up, this is the search of the library. -/
theorem visitOr_pure (d : Document) (bound : Nat) :
    d.visitOr (fun _ _ => pure "") bound = d.visitAt bound := by
  induction bound with
  | zero => rfl
  | succ bound ih =>
      funext approach e
      rw [visitOr, visitAt_succ, ih]

/-- With more steps left than elements unseen, nothing comes to the bound: a visit ends at once, or
leaves one step less and one unseen element less. -/
theorem visitOr_alike {d : Document} (past past' : NameVisit) {left bound bound' : Nat}
    (h : left < bound) (h' : left < bound') (approach : Approach) {e : Element}
    (he : e ∈ d.elements) :
    d.Alike left (d.visitOr past bound approach e) (d.visitOr past' bound' approach e) := by
  induction bound generalizing left bound' approach e with
  | zero => exact absurd h (Nat.not_lt_zero left)
  | succ bound ih =>
      obtain ⟨bound', rfl⟩ := Nat.exists_eq_add_one.mpr (Nat.lt_of_le_of_lt (Nat.zero_le left) h')
      intro seen hLeft
      cases hSeen : seen.contains e with
      | true =>
          rw [visitOr_succ_of_seen hSeen, visitOr_succ_of_seen hSeen]
          exact ⟨rfl, hLeft, id⟩
      | false =>
          have hLess := unseen_cons_lt he hSeen
          obtain ⟨fewer, rfl⟩ : ∃ fewer, left = fewer + 1 := ⟨left - 1, by omega⟩
          have hVisit (approach : Approach) (c : Element) (hc : c ∈ d.elements) :=
            ih (Nat.lt_of_succ_lt_succ h) (Nat.lt_of_succ_lt_succ h') approach hc
          obtain ⟨hSame, hThen, hOnce⟩ :=
            nameOfNew_alike hVisit e approach (e :: seen) (by omega)
          rw [visitOr_succ_of_new hSeen, visitOr_succ_of_new hSeen]
          refine ⟨hSame, Nat.le_succ_of_le hThen, fun hNodup => hOnce ?_⟩
          exact List.nodup_cons.mpr ⟨by simpa using hSeen, hNodup⟩

/-- What would be done past the bound does not matter, since nothing comes to it. -/
theorem visitOr_eq {d : Document} (past : NameVisit) {bound : Nat} (h : d.size < bound)
    (approach : Approach) {e : Element} (he : e ∈ d.elements) :
    d.visitOr past bound approach e = d.visitAt (d.size + 1) approach e := by
  funext seen
  rw [← visitOr_pure]
  exact (visitOr_alike past _ h (Nat.lt_add_one d.size) approach he seen
    (d.unseen_le_size seen)).1

/-- The search satisfies the equation of a search without a bound. -/
theorem visitAt_unbounded {d : Document} (approach : Approach) {e : Element}
    (he : e ∈ d.elements) :
    d.visitAt (d.size + 1) approach e = (do
      if (← get).contains e then pure ""
      else
        modify (e :: ·)
        d.nameOfNew (d.visitAt (d.size + 1)) approach e) := by
  have hMore := visitOr_eq (d := d) (fun _ _ => pure "") (Nat.lt_add_right 1 (Nat.lt_add_one d.size))
    approach he
  rw [← hMore, visitOr_pure, visitAt_succ]

/-- The elements that the search for the name of an element looks at, the last one first.  Each is
noted whenever it passes as one that has not been looked at. -/
def visited (d : Document) (e : Element) : List Element :=
  (d.visitAt (d.size + 1) .root e []).2

theorem nodup_visited {d : Document} {e : Element} (he : e ∈ d.elements) :
    (d.visited e).Nodup := by
  have hAlike := visitOr_alike (d := d) (fun _ _ => pure "") (fun _ _ => pure "")
    (Nat.lt_add_one d.size) (Nat.lt_add_one d.size) .root he
  have hOnce := (hAlike [] (d.unseen_le_size [])).2.2 List.nodup_nil
  rwa [visitOr_pure] at hOnce

/--
The search for the name of an element ends.  As a search without a bound it calls itself on what it
visits next; it never comes to a bound above the number of elements, whatever would be done there; it
looks at each element once at most; and so with any such bound it finds the same name.
-/
theorem name_search_ends (d : Document) {e : Element} (he : e ∈ d.elements) :
    (∀ approach, ∀ a ∈ d.elements, d.visitAt (d.size + 1) approach a = (do
      if (← get).contains a then pure ""
      else
        modify (a :: ·)
        d.nameOfNew (d.visitAt (d.size + 1)) approach a)) ∧
      (∀ past bound, d.size < bound →
        d.visitOr past bound .root e [] = d.visitAt (d.size + 1) .root e []) ∧
      (d.visited e).Nodup ∧
      ∀ bound, d.size < bound →
        Text.collapse (d.visitAt bound .root e []).1 = d.accessibleName e := by
  refine ⟨fun approach a ha => visitAt_unbounded approach ha, fun past bound h => ?_,
    nodup_visited he, fun bound h => ?_⟩
  · rw [visitOr_eq past h .root he]
  · rw [← visitOr_pure, visitOr_eq _ h .root he]
    rfl

/-- Two buttons that name each other are looked at once each, and have the name of the second. -/
theorem name_search_ends_in_cycle :
    let d := ofElement "p" []
      [.element "button" [("id", "a"), ("aria-labelledby", "b")] [.text "x"],
        .element "button" [("id", "b"), ("aria-labelledby", "a")] [.text "y"]]
    1 ∈ d.elements ∧ d.visited 1 = [2, 1] ∧ (d.visited 1).Nodup ∧ d.accessibleName 1 = "y" ∧
      Text.collapse (d.visitAt 100 .root 1 []).1 = d.accessibleName 1 := by
  intro d
  have hMem : 1 ∈ d.elements := by decide
  have hSize : d.size < 100 := by decide
  obtain ⟨-, -, hNodup, hBound⟩ := name_search_ends d hMem
  exact ⟨hMem, by decide +kernel, hNodup, by decide +kernel, hBound 100 hSize⟩

end Document

end AriaLocator

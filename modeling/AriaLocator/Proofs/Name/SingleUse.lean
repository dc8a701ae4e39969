import AriaLocator.Proofs.Name.Termination
import AriaLocator.Proofs.Text.Occurrences
import Mathlib.Algebra.Order.BigOperators.Group.List
import Mathlib.Data.List.Nodup
import Mathlib.Data.List.Pairwise
import Mathlib.Data.List.Perm.Subperm

/-!
# How often a text is used in a name

The search for a name looks at each element once, but it does not read each text once.  An element
that is looked at draws on its own texts; on those of the labels, the legend or the caption that HTML
names it by, which it reads without looking at these; and, as a drop-down that is part of a content, on
all texts in its selected options.  These are its sources.

To count how often a text is used, let each text be one character that stands nowhere else.  To look at
an element for the first time gives the search a credit: one for each time that a text stands among the
sources of the element.  Each step pays for what it finds, from the credit of its element or from what
the next visits bring.  So a text is used no more often than it stands among the sources of the elements
that are looked at.

## Main results

* `Draws`: a search finds a character no more often than its credit and the elements it newly looks at
  allow.
* `nameOfNew_draws`: looking at a new element draws on its sources.
* `occurrences_textContent_le`: the text of an element is that of its subtree, each piece once.
* `occurrences_name_le`: a text is used in a name no more often than it stands among the sources of the
  elements looked at, and so once, unless one of them is named by the element of the text or is a
  drop-down that shows it.
-/

namespace AriaLocator

/-- The characters of a child, if it is no element. -/
def Child.text? : Child → Option String
  | .text content => some content
  | .element _ => none

/-- A child as an element, if it is one. -/
def Child.element? : Child → Option Element
  | .text _ => none
  | .element e => some e

namespace Document

open Text (occurrences)

/-! ## Texts -/

/-- The texts right below an element, in a fragment or not. -/
def ownTexts (d : Document) (e : Element) : List String := (d.contents e).filterMap Child.text?

/-- All texts of a document. -/
def texts (d : Document) : List String := d.elements.flatMap d.ownTexts

/-- A text is one character, neither in ASCII nor blank. -/
def isMark (text : String) : Bool :=
  match text.toList with
  | [c] => 127 < c.toNat && !Text.isBlank c
  | _ => false

/-- All texts are marks that stand nowhere else, neither in another text nor in an attribute. -/
structure IsMarked (d : Document) : Prop where
  /-- A text is one character, neither in ASCII nor blank. -/
  marks : ∀ text ∈ d.texts, isMark text = true
  /-- All texts are different. -/
  nodup : d.texts.Nodup
  /-- No attribute holds a character of a text. -/
  unwritten : ∀ own ∈ d.attributes, ∀ a ∈ own, ∀ text ∈ d.texts,
    text.toList.any a.2.toList.contains = false

instance (d : Document) : Decidable d.IsMarked :=
  decidable_of_iff ((∀ text ∈ d.texts, isMark text = true) ∧ d.texts.Nodup ∧
      ∀ own ∈ d.attributes, ∀ a ∈ own, ∀ text ∈ d.texts,
        text.toList.any a.2.toList.contains = false)
    ⟨fun h => ⟨h.1, h.2.1, h.2.2⟩, fun h => ⟨h.marks, h.nodup, h.unwritten⟩⟩

/-- An element and all elements below it. -/
def subtree (d : Document) (e : Element) : List Element := e :: d.descendants e

/-- The elements whose texts a drop-down shows where it is part of a content. -/
def shown (d : Document) (e : Element) : List Element :=
  if d.tag e == "select" && (d.role? e == some .combobox || d.role? e == some .listbox) then
    ((d.options e).filter d.isOptionSelected).flatMap d.subtree
  else []

/-- The elements whose own texts the search reads for an element that it looks at: the element, those
that it is named by and those that it shows. -/
def sources (d : Document) (e : Element) : List Element := e :: (d.namedBy e ++ d.shown e)

variable {d : Document} {c : Char} {p : Element}

/-- A character stands in the own texts of one element, once, and nowhere else. -/
structure StandsOnlyIn (d : Document) (c : Char) (p : Element) : Prop where
  /-- Only the texts of one element hold it, and they hold it once. -/
  own : ∀ e, ((d.ownTexts e).map (occurrences c)).sum ≤ [e].count p
  /-- No attribute holds it. -/
  unwritten : ∀ e name value, d.attribute? e name = some value → occurrences c value = 0
  /-- It is not a character of ASCII. -/
  notAscii : 127 < c.toNat
  /-- It is not blank. -/
  notBlank : Text.isBlank c = false

/-- Past the elements of a document nothing stands below. -/
theorem contents_eq_nil {e : Element} (h : d.size ≤ e) : d.contents e = [] := by
  have hSlot : d.slots[e]? = none := Array.getElem?_eq_none h
  have hKids : d.kids[e]?.getD [] = [] := by
    refine List.eq_nil_iff_forall_not_mem.mpr fun k hk => ?_
    obtain ⟨hParent, hSize⟩ := mem_kids.mp hk
    exact absurd (Nat.lt_trans ((slotForest d.slots).parent_lt hParent) hSize) (Nat.not_lt.mpr h)
  simp [contents, hSlot, hKids]

theorem lt_size_of_text {e : Element} {text : String} (h : text ∈ d.ownTexts e) : e < d.size := by
  refine Nat.lt_of_not_le fun hle => ?_
  rw [ownTexts, contents_eq_nil hle] at h
  exact absurd h List.not_mem_nil

theorem mem_texts {e : Element} {text : String} (h : text ∈ d.ownTexts e) : text ∈ d.texts :=
  List.mem_flatMap.mpr ⟨e, List.mem_range.mpr (lt_size_of_text h), h⟩

theorem isMark_iff {text : String} :
    isMark text = true ↔
      ∃ x : Char, text = String.singleton x ∧ 127 < x.toNat ∧ Text.isBlank x = false := by
  constructor
  · intro h
    unfold isMark at h
    split at h
    · next x hText =>
      have hSame : text = String.singleton x := String.toList_inj.mp (by simpa using hText)
      exact ⟨x, hSame, by simpa using h⟩
    · exact absurd h (by simp)
  · rintro ⟨x, rfl, h⟩
    simpa [isMark] using h

/-- Texts of one character each hold a character as often as it is a text. -/
theorem sum_occurrences_singles {parts : List String}
    (h : ∀ part ∈ parts, ∃ x : Char, part = String.singleton x) :
    (parts.map (occurrences c)).sum = parts.count (String.singleton c) := by
  induction parts with
  | nil => rfl
  | cons part rest ih =>
      obtain ⟨x, rfl⟩ := h part List.mem_cons_self
      rw [List.map_cons, List.sum_cons, ih fun other ho => h other (List.mem_cons_of_mem _ ho),
        List.count_cons, Nat.add_comm]
      congr 1
      by_cases hx : x = c <;> simp [occurrences, hx]

/-- In a marked document the texts of different elements have no text in common. -/
theorem IsMarked.eq_of_text (h : d.IsMarked) {e : Element} {text : String}
    (he : text ∈ d.ownTexts e) (hp : text ∈ d.ownTexts p) : e = p := by
  by_contra hne
  have hSymm : Std.Symm (Function.onFun List.Disjoint d.ownTexts) :=
    ⟨fun _ _ hApart _ ha hb => hApart hb ha⟩
  have hApart := (List.nodup_flatMap.mp h.nodup).2.forall (List.mem_range.mpr (lt_size_of_text he))
    (List.mem_range.mpr (lt_size_of_text hp)) hne
  exact hApart he hp

/-- The own texts of an element hold a mark once if the mark is theirs, and not at all otherwise. -/
theorem IsMarked.sum_own_le (h : d.IsMarked) (hp : String.singleton c ∈ d.ownTexts p) (e : Element) :
    ((d.ownTexts e).map (occurrences c)).sum ≤ [e].count p := by
  have hSingles (text : String) (ht : text ∈ d.ownTexts e) : ∃ x : Char, text = .singleton x :=
    (isMark_iff.mp (h.marks text (mem_texts ht))).imp fun _ hx => hx.1
  rw [sum_occurrences_singles hSingles]
  by_cases hOwn : String.singleton c ∈ d.ownTexts e
  · have hNodup := (List.nodup_flatMap.mp h.nodup).1 e (List.mem_range.mpr (lt_size_of_text hOwn))
    rw [h.eq_of_text hOwn hp] at hNodup ⊢
    simpa using List.nodup_iff_count_le_one.mp hNodup (String.singleton c)
  · simp [List.count_eq_zero.mpr hOwn]

theorem IsMarked.occurrences_attribute (h : d.IsMarked) (hp : String.singleton c ∈ d.texts)
    {e : Element} {name value : String} (hValue : d.attribute? e name = some value) :
    occurrences c value = 0 := by
  cases hOwn : d.attributes[e]? with
  | none => simp [attribute?, hOwn] at hValue
  | some own =>
      have hLookup : own.lookup name = some value := by simpa [attribute?, hOwn] using hValue
      obtain ⟨before, behind, hSplit, -⟩ := List.lookup_eq_some_iff.mp hLookup
      have hValue := h.unwritten own (Array.mem_of_getElem? hOwn) (name, value) (by simp [hSplit]) _ hp
      exact List.count_eq_zero.mpr (by simpa using hValue)

theorem IsMarked.standsOnlyIn (h : d.IsMarked) (hp : String.singleton c ∈ d.ownTexts p) :
    d.StandsOnlyIn c p := by
  obtain ⟨x, hx, hAscii, hBlank⟩ := isMark_iff.mp (h.marks _ (mem_texts hp))
  have hSame : c = x := by simpa using congrArg String.toList hx
  subst hSame
  exact ⟨h.sum_own_le hp, fun _ _ _ => h.occurrences_attribute (mem_texts hp), hAscii, hBlank⟩

/-! ## The text of a subtree -/

theorem filterMap_contents (d : Document) (e : Element) :
    (d.contents e).filterMap Child.element? = d.held e := by
  have hTexts (contents : List String) :
      (contents.map Child.text).filterMap Child.element? = [] := by
    simp [List.filterMap_eq_nil_iff, Child.element?]
  rw [contents, held, List.filterMap_append, hTexts, List.nil_append]
  induction d.kids[e]?.getD [] with
  | nil => rfl
  | cons k rest ih =>
      rw [List.flatMap_cons, List.filterMap_append, List.filterMap_append, hTexts, ih,
        List.append_nil, List.filter_cons]
      split <;> rfl

/-- What is summed over all right below an element is summed over its texts and over the elements. -/
theorem sum_contents (d : Document) (e : Element) (weight : Child → Nat) :
    ((d.contents e).map weight).sum = ((d.ownTexts e).map fun text => weight (.text text)).sum +
      ((d.held e).map fun k => weight (.element k)).sum := by
  rw [ownTexts, ← filterMap_contents]
  induction d.contents e with
  | nil => rfl
  | cons child rest ih =>
      cases child <;>
        simp only [List.map_cons, List.sum_cons, List.filterMap_cons, Child.text?, Child.element?,
          ih] <;> omega

theorem textContent_eq (d : Document) (e : Element) :
    d.textContent e = String.join ((d.contents e).map fun
      | .text content => content
      | .element k => d.textContent k) := by
  rw [textContent]
  refine congrArg String.join (Eq.trans (List.map_congr_left fun child _ => ?_) List.attach_map_val)
  obtain ⟨child, h⟩ := child
  cases child <;> rfl

theorem mem_lineage_of_subtree {a e : Element} (h : e ∈ d.subtree a) : a ∈ d.tree.lineage e := by
  rcases List.mem_cons.mp h with rfl | h
  · exact d.tree.mem_lineage_self e
  · exact mem_tree_lineage.mpr (Or.inr (mem_descendants.mp h).1)

theorem nodup_subtree (d : Document) (e : Element) : (d.subtree e).Nodup := by
  refine List.nodup_cons.mpr ⟨fun h => ?_, (pairwise_descendants d e).imp Nat.ne_of_lt⟩
  exact Nat.lt_irrefl e (holders_lt (mem_descendants.mp h).1)

/-- The subtrees of two elements right below one node have nothing in common: of two elements above a
third one, one stands above the other. -/
theorem disjoint_subtrees {e a b : Element} (ha : d.tree.parent? a = some e)
    (hb : d.tree.parent? b = some e) (hne : a ≠ b) :
    List.Disjoint (d.subtree a) (d.subtree b) := by
  have hNot {a b : Element} (ha : d.tree.parent? a = some e) (hb : d.tree.parent? b = some e)
      (hne : a ≠ b) : a ∉ d.tree.lineage b := by
    intro hAbove
    rcases mem_tree_lineage.mp hAbove with rfl | hAbove
    · exact hne rfl
    · have hIn : a ∈ d.tree.lineage e := Forest.ancestors_of_parent hb ▸ hAbove
      exact absurd (d.tree.parent_lt ha) (Nat.not_lt.mpr (Forest.lineage_le hIn))
  intro x hxa hxb
  rcases Forest.mem_lineage_or (mem_lineage_of_subtree hxa) (mem_lineage_of_subtree hxb) with h | h
  · exact hNot ha hb hne h
  · exact hNot hb ha hne.symm h

/-- The subtree of what stands right below an element is part of that of the element, below the
element itself. -/
theorem subtree_subset_descendants {e k : Element} (h : k ∈ d.held e) :
    d.subtree k ⊆ d.descendants e := by
  obtain ⟨hParent, hSize⟩ := mem_held.mp h
  have hAbove : e ∈ d.holders k := by
    rw [holders, Forest.ancestors_of_parent hParent]
    exact d.tree.mem_lineage_self e
  intro x hx
  rcases List.mem_cons.mp hx with rfl | hx
  · exact mem_descendants.mpr ⟨hAbove, hSize⟩
  · obtain ⟨hBelow, hSize⟩ := mem_descendants.mp hx
    exact mem_descendants.mpr ⟨holders_trans hAbove (mem_tree_lineage.mpr (Or.inr hBelow)), hSize⟩

/-- Each element below another one lies in the subtree of one right below it, once. -/
theorem count_subtrees_le (d : Document) (e p : Element) :
    ((d.held e).flatMap d.subtree).count p ≤ (d.descendants e).count p := by
  refine (List.Nodup.subperm (List.nodup_flatMap.mpr ⟨fun k _ => d.nodup_subtree k, ?_⟩) ?_).count_le p
  · refine (d.held_pairwise e).imp_of_mem fun {a b} ha hb hlt => ?_
    exact disjoint_subtrees (mem_held.mp ha).1 (mem_held.mp hb).1 (Nat.ne_of_lt hlt)
  · intro x hx
    obtain ⟨k, hk, hx⟩ := List.mem_flatMap.mp hx
    exact subtree_subset_descendants hk hx

/-- The text of an element is that of its subtree, each piece once. -/
theorem occurrences_textContent_le (h : d.StandsOnlyIn c p) (e : Element) :
    occurrences c (d.textContent e) ≤ (d.subtree e).count p := by
  induction hLeft : d.size - e using Nat.strongRecOn generalizing e with
  | _ left ih =>
      have hChild (k : Element) (hk : k ∈ d.held e) :
          occurrences c (d.textContent k) ≤ (d.subtree k).count p := by
        obtain ⟨hBehind, hSize⟩ := held_gt hk
        exact ih _ (hLeft ▸ Nat.sub_lt_sub_left (Nat.lt_trans hBehind hSize) hBehind) k rfl
      have hBelow : ((d.held e).map fun k => occurrences c (d.textContent k)).sum ≤
          (d.descendants e).count p :=
        calc
          _ ≤ ((d.held e).map fun k => (d.subtree k).count p).sum := List.sum_le_sum hChild
          _ = ((d.held e).flatMap d.subtree).count p := List.count_flatMap.symm
          _ ≤ (d.descendants e).count p := d.count_subtrees_le e p
      rw [textContent_eq, Text.occurrences_join, List.map_map, sum_contents, subtree,
        ← List.singleton_append, List.count_append]
      exact Nat.add_le_add (h.own e) hBelow

/-! ## What is written, and what a drop-down shows -/

/-- To leave out blank texts adds nothing. -/
theorem sum_filled_le (parts : List String) :
    ((parts.filterMap unlessBlank).map (occurrences c)).sum ≤ (parts.map (occurrences c)).sum := by
  induction parts with
  | nil => exact Nat.le_refl _
  | cons part rest ih =>
      cases hPart : unlessBlank part with
      | none =>
          rw [List.filterMap_cons_none hPart, List.map_cons, List.sum_cons]
          exact Nat.le_trans ih (Nat.le_add_left _ _)
      | some filled =>
          rw [List.filterMap_cons_some hPart, eq_of_unlessBlank hPart, List.map_cons, List.map_cons,
            List.sum_cons, List.sum_cons]
          exact Nat.add_le_add_left ih _

/-- The text of selected options. -/
def selectedText (d : Document) (selected : List Element) : String :=
  " ".intercalate (selected.map fun o => Text.collapse (d.textContent o))

/-- A drop-down shows the subtrees of its selected options. -/
theorem shown_of_select {e : Element} (hTag : (d.tag e == "select") = true)
    (hRole : d.role? e = some .combobox ∨ d.role? e = some .listbox) :
    d.shown e = ((d.options e).filter d.isOptionSelected).flatMap d.subtree := by
  rw [shown, hTag, if_pos]
  rcases hRole with hRole | hRole <;> simp [hRole]

/-- The value of a control stands in an attribute, or is the text of selected options. -/
theorem embeddedValue?_cases {e : Element} {text : String}
    (hValue : d.embeddedValue? e = some text) :
    (∃ name, text = (d.attribute? e name).getD "") ∨
      ∃ selected, d.shown e = selected.flatMap d.subtree ∧ text = d.selectedText selected := by
  have hSelect (hRole : d.role? e = some .combobox ∨ d.role? e = some .listbox)
      (h : (if d.tag e == "select" then
        some (d.selectedText ((d.options e).filter d.isOptionSelected)) else none) = some text) :
      ∃ selected, d.shown e = selected.flatMap d.subtree ∧ text = d.selectedText selected := by
    split at h
    · next hTag => exact ⟨_, shown_of_select hTag hRole, (Option.some.inj h).symm⟩
    · exact absurd h (by simp)
  have hInput (h : (if d.tag e == "input" then some ((d.attribute? e "value").getD "") else none) =
      some text) : ∃ name, text = (d.attribute? e name).getD "" := by
    split at h
    · exact ⟨"value", (Option.some.inj h).symm⟩
    · exact absurd h (by simp)
  have hRange (h : ["aria-valuetext", "aria-valuenow", "value"].findSome? (d.attribute? e) =
      some text) : ∃ name, text = (d.attribute? e name).getD "" := by
    obtain ⟨name, -, hName⟩ := List.exists_of_findSome?_eq_some h
    exact ⟨name, by rw [hName, Option.getD_some]⟩
  unfold embeddedValue? at hValue
  split at hValue
  · exact Or.inl (hInput hValue)
  · exact Or.inl (hInput hValue)
  · next hRole => exact Or.inr (hSelect (Or.inl hRole) hValue)
  · next hRole => exact Or.inr (hSelect (Or.inr hRole) hValue)
  · exact Or.inl (hRange hValue)
  · exact Or.inl (hRange hValue)
  · exact absurd hValue (by simp)

namespace StandsOnlyIn

variable {e : Element} {text : String}

theorem not_in_space (h : d.StandsOnlyIn c p) : occurrences c " " = 0 :=
  Text.occurrences_of_isAscii h.notAscii (by decide)

theorem not_in_attribute (h : d.StandsOnlyIn c p) (e : Element) (name : String) :
    occurrences c ((d.attribute? e name).getD "") = 0 := by
  cases hValue : d.attribute? e name with
  | none => exact Text.occurrences_empty
  | some value => exact h.unwritten e name value hValue

theorem not_in_written (h : d.StandsOnlyIn c p) (hText : d.IsWritten e text) :
    occurrences c text = 0 := by
  rcases hText with ⟨name, hValue⟩ | hDefault
  · exact h.unwritten e name text hValue
  · have hAscii : ∀ t ∈ defaultNames, Text.isAscii t = true := by decide
    exact Text.occurrences_of_isAscii h.notAscii (hAscii text hDefault)

/-- The value of a control holds a character no more often than what the control shows. -/
theorem occurrences_embeddedValue_le (h : d.StandsOnlyIn c p)
    (hValue : d.embeddedValue? e = some text) : occurrences c text ≤ (d.shown e).count p := by
  rcases embeddedValue?_cases hValue with ⟨name, rfl⟩ | ⟨selected, hShown, rfl⟩
  · exact (h.not_in_attribute e name).le.trans (Nat.zero_le _)
  · rw [hShown, selectedText, Text.occurrences_intercalate h.not_in_space, List.map_map,
      List.count_flatMap]
    refine List.sum_le_sum fun o _ => ?_
    exact (Text.occurrences_collapse h.notBlank _).le.trans (occurrences_textContent_le h o)

end StandsOnlyIn

/-! ## Searches that draw on what they look at -/

/-- How often the texts of an element stand among the sources of those looked at. -/
def supply (d : Document) (p : Element) (seen : List Element) : Nat :=
  (seen.flatMap d.sources).count p

section Draws

variable {α β : Type} {credit credit' : Nat} {marks : α → Nat} {marks' : β → Nat}

/-- What a search finds, counted by `marks`, is paid for by a credit and by the elements that it looks
at for the first time. -/
def Draws (d : Document) (p : Element) (credit : Nat) (marks : α → Nat) (search : NameSearch α) :
    Prop :=
  ∀ seen, marks (search seen).1 + d.supply p seen ≤ d.supply p (search seen).2 + credit

namespace Draws

theorem pure {value : α} (h : marks value ≤ credit) : d.Draws p credit marks (Pure.pure value) := by
  intro seen
  show marks value + d.supply p seen ≤ d.supply p seen + credit
  omega

theorem weaken {search : NameSearch α} (h : d.Draws p credit marks search) (hle : credit ≤ credit') :
    d.Draws p credit' marks search :=
  fun seen => Nat.le_trans (h seen) (Nat.add_le_add_left hle _)

/-- A credit that a search does not need is left for later. -/
theorem frame {search : NameSearch α} (h : d.Draws p credit marks search) (extra : Nat) :
    d.Draws p (credit + extra) (fun value => marks value + extra) search := by
  intro seen
  have hDraws := h seen
  show marks (search seen).1 + extra + d.supply p seen ≤
    d.supply p (search seen).2 + (credit + extra)
  omega

/-- What comes next may spend what has been found. -/
theorem bind {search : NameSearch α} {next : α → NameSearch β}
    (hSearch : d.Draws p credit marks search)
    (hNext : ∀ value, d.Draws p (marks value) marks' (next value)) :
    d.Draws p credit marks' (search >>= next) := by
  intro seen
  have hFirst := hSearch seen
  have hThen := hNext (search seen).1 (search seen).2
  show marks' (next (search seen).1 (search seen).2).1 + d.supply p seen ≤
    d.supply p (next (search seen).1 (search seen).2).2 + credit
  omega

theorem mapM {credits : α → Nat} {search : α → NameSearch β} {values : List α}
    (h : ∀ value ∈ values, d.Draws p (credits value) marks' (search value)) :
    d.Draws p (values.map credits).sum (fun found => (found.map marks').sum)
      (values.mapM search) := by
  induction values with
  | nil => exact pure (Nat.le_refl 0)
  | cons value rest ih =>
      have hRest := ih fun other ho => h other (List.mem_cons_of_mem _ ho)
      rw [List.mapM_cons, List.map_cons, List.sum_cons]
      refine bind ((h value List.mem_cons_self).frame (rest.map credits).sum) fun first => ?_
      have hLater := (hRest.frame (marks' first)).weaken (Nat.le_of_eq (Nat.add_comm _ _))
      exact bind hLater fun more => pure (by simp [Nat.add_comm])

end Draws

/-! ## One visit -/

/-- What is read for a child of an element whose content is searched. -/
def readChild (d : Document) (visit : NameVisit) : Child → NameSearch String
  | .text content => pure content
  | .element k => do
    let text ← visit .content k
    pure (if blockTags.contains (d.tag k) then " " ++ text ++ " " else text)

theorem nameFromContent_eq (d : Document) (visit : NameVisit) (e : Element) :
    d.nameFromContent visit e =
      (d.children e).mapM (d.readChild visit) >>= fun parts => pure (String.join parts) := by
  rfl

theorem sum_count_singleton (es : List Element) (p : Element) :
    (es.map fun e => [e].count p).sum = es.count p := by
  rw [← List.flatMap_singleton' es, List.count_flatMap, List.flatMap_singleton']
  rfl

section Visits

variable {visit : NameVisit} (h : d.StandsOnlyIn c p)
  (hVisit : ∀ approach e, d.Draws p 0 (occurrences c) (visit approach e)) (e : Element)

include h hVisit

theorem readChild_draws (child : Child) :
    d.Draws p (occurrences c (child.text?.getD "")) (occurrences c) (d.readChild visit child) := by
  cases child with
  | text content => exact Draws.pure (Nat.le_refl _)
  | element k =>
      refine Draws.bind (hVisit .content k) fun text => Draws.pure ?_
      split
      · rw [Text.occurrences_append, Text.occurrences_append, h.not_in_space]
        omega
      · exact Nat.le_refl _

theorem nameFromContent_draws :
    d.Draws p ([e].count p) (occurrences c) (d.nameFromContent visit e) := by
  have hParts := Draws.mapM fun child (_ : child ∈ d.children e) => readChild_draws h hVisit child
  rw [nameFromContent_eq]
  refine Draws.bind (hParts.weaken ?_) fun parts => Draws.pure (Text.occurrences_join parts).le
  -- What hangs in a fragment is not read here, which saves credit.
  unfold children
  split
  · exact Nat.zero_le _
  · rw [sum_contents]
    simpa [Child.text?] using h.own e

theorem nameFromChild_draws (tag : String) :
    d.Draws p ((d.childWithTag? e tag).toList.count p) (fun found => occurrences c (found.getD ""))
      (d.nameFromChild visit e tag) := by
  unfold nameFromChild
  cases d.childWithTag? e tag with
  | none => exact Draws.pure (by simp)
  | some child =>
      exact Draws.bind (nameFromContent_draws h hVisit child) fun text => Draws.pure (Nat.le_refl _)

theorem nameFromLabels_draws :
    d.Draws p ((d.labelsOf e).count p) (fun found => occurrences c (found.getD ""))
      (d.nameFromLabels visit e) := by
  unfold nameFromLabels
  split
  · exact Draws.pure (by simp)
  · have hParts := Draws.mapM fun label (_ : label ∈ d.labelsOf e) =>
      nameFromContent_draws h hVisit label
    rw [sum_count_singleton] at hParts
    exact Draws.bind hParts fun parts =>
      Draws.pure ((Text.occurrences_intercalate h.not_in_space _).le.trans (sum_filled_le parts))

theorem nativeName_draws :
    d.Draws p ((d.namedBy e).count p) (fun found => occurrences c (found.getD ""))
      (d.nativeName visit e) := by
  cases d.nativeWay e with
  | written text hText hName =>
      rw [hName]
      refine Draws.pure ?_
      cases text with
      | none => simp
      | some text => exact (h.not_in_written (hText text rfl)).le.trans (Nat.zero_le _)
  | part tag hPart hName =>
      rw [hName, hPart]
      exact nameFromChild_draws h hVisit e tag
  | labels hLabels hName =>
      rw [hName, hLabels]
      exact nameFromLabels_draws h hVisit e

theorem nameFromReferences_draws :
    d.Draws p 0 (fun found => occurrences c (found.getD "")) (d.nameFromReferences visit e) := by
  unfold nameFromReferences
  split
  · exact Draws.pure (by simp)
  · next ids _ =>
    have hParts := Draws.mapM fun referenced
      (_ : referenced ∈ (Text.asciiWords ids).filterMap d.elementById?) => hVisit .labelledBy referenced
    refine Draws.bind (hParts.weaken (by simp)) fun parts => ?_
    have hFilled := sum_filled_le (c := c) parts
    split
    · exact Draws.pure (by simp)
    · next filled _ =>
      rw [← Text.occurrences_intercalate h.not_in_space] at hFilled
      exact Draws.pure hFilled

theorem nameFromMarkup_draws (approach : Approach) :
    d.Draws p ((e :: d.namedBy e).count p) (occurrences c) (d.nameFromMarkup visit approach e) := by
  have hNative := (nativeName_draws h hVisit e).frame ([e].count p)
  rw [nameFromMarkup_eq, ← List.singleton_append, List.count_append, Nat.add_comm]
  refine Draws.bind hNative fun native => ?_
  have hContent : d.Draws p (occurrences c (native.getD "") + [e].count p) (occurrences c)
      (if d.takesContent approach e then d.nameFromContent visit e else pure "") := by
    split
    · exact (nameFromContent_draws h hVisit e).weaken (Nat.le_add_left _ _)
    · exact Draws.pure (by simp)
  cases hFilled : native.bind unlessBlank with
  | some name =>
      obtain ⟨text, rfl, hText⟩ := Option.bind_eq_some_iff.mp hFilled
      rw [eq_of_unlessBlank hText]
      exact Draws.pure (Nat.le_add_right _ _)
  | none =>
      refine Draws.bind hContent fun content => Draws.pure ?_
      cases hText : unlessBlank content with
      | some filled => exact (congrArg (occurrences c) (eq_of_unlessBlank hText)).le
      | none => exact (h.not_in_attribute e "title").le.trans (Nat.zero_le _)

theorem nameOfItself_draws (approach : Approach) :
    d.Draws p ((d.sources e).count p) (occurrences c) (d.nameOfItself visit approach e) := by
  have hSources : (d.sources e).count p = (e :: d.namedBy e).count p + (d.shown e).count p := by
    rw [sources, ← List.cons_append, List.count_append]
  unfold nameOfItself
  rw [hSources]
  split
  · next value hValue =>
    have hEmbedded : d.embeddedValue? e = some value := by
      split at hValue
      · exact hValue
      · exact absurd hValue (by simp)
    exact Draws.pure (Nat.le_add_left_of_le (h.occurrences_embeddedValue_le hEmbedded))
  · split
    · next label hLabel =>
      exact Draws.pure ((h.not_in_written (isWritten_of_filled hLabel)).le.trans (Nat.zero_le _))
    · exact (nameFromMarkup_draws h hVisit e approach).weaken (Nat.le_add_right _ _)

/-- Looking at a new element draws on its sources. -/
theorem nameOfNew_draws (approach : Approach) :
    d.Draws p ((d.sources e).count p) (occurrences c) (d.nameOfNew visit approach e) := by
  have hReferences : d.Draws p 0 (fun found => occurrences c (found.getD ""))
      (if approach == .labelledBy then pure none else d.nameFromReferences visit e) := by
    split
    · exact Draws.pure (by simp)
    · exact nameFromReferences_draws h hVisit e
  rw [nameOfNew_eq]
  split
  · exact Draws.pure (by simp)
  · have hLater := hReferences.frame ((d.sources e).count p)
    rw [Nat.zero_add] at hLater
    refine Draws.bind hLater fun referenced => ?_
    cases referenced with
    | some name => exact Draws.pure (Nat.le_add_right _ _)
    | none => exact (nameOfItself_draws h hVisit e approach).weaken (Nat.le_add_left _ _)

end Visits

end Draws

/-! ## The whole search -/

theorem supply_cons (d : Document) (p e : Element) (seen : List Element) :
    d.supply p (e :: seen) = (d.sources e).count p + d.supply p seen := by
  rw [supply, List.flatMap_cons, List.count_append]
  rfl

/-- A visit needs no credit: what it finds stands among the sources of what it looks at. -/
theorem visitOr_draws (h : d.StandsOnlyIn c p) (past : NameVisit)
    (hPast : ∀ approach e, d.Draws p 0 (occurrences c) (past approach e)) (bound : Nat)
    (approach : Approach) (e : Element) :
    d.Draws p 0 (occurrences c) (d.visitOr past bound approach e) := by
  induction bound generalizing approach e with
  | zero => exact hPast approach e
  | succ bound ih =>
      intro seen
      cases hSeen : seen.contains e with
      | true =>
          rw [visitOr_succ_of_seen hSeen, Text.occurrences_empty, Nat.zero_add]
          exact Nat.le_refl _
      | false =>
          have hNew := nameOfNew_draws h ih e approach (e :: seen)
          rw [supply_cons] at hNew
          rw [visitOr_succ_of_new hSeen]
          omega

theorem StandsOnlyIn.occurrences_name_le (h : d.StandsOnlyIn c p) (e : Element) :
    occurrences c (d.accessibleName e) ≤ ((d.visited e).flatMap d.sources).count p := by
  have hVisit := visitOr_draws h (fun _ _ => pure "") (fun _ _ => Draws.pure (by simp)) (d.size + 1)
    .root e []
  rw [visitOr_pure] at hVisit
  rw [accessibleName, Text.occurrences_collapse h.notBlank]
  exact hVisit

/--
The search for a name looks at each element once at most.  In a marked document, a text is used in the
name no more often than its element stands among the sources of the elements looked at.  So it is used
once at most, unless one of these is named by the element of the text, or is a drop-down that shows it.
-/
theorem text_in_name_le (h : d.IsMarked) {e : Element} (he : e ∈ d.elements)
    (hText : String.singleton c ∈ d.ownTexts p) :
    (d.visited e).Nodup ∧
      occurrences c (d.accessibleName e) ≤ ((d.visited e).flatMap d.sources).count p ∧
      ((∀ a ∈ d.visited e, p ∉ d.namedBy a ∧ p ∉ d.shown a) →
        occurrences c (d.accessibleName e) ≤ 1) := by
  have hAll := (h.standsOnlyIn hText).occurrences_name_le e
  refine ⟨nodup_visited he, hAll, fun hNone => hAll.trans ?_⟩
  have hOwn : ∀ a ∈ d.visited e, (d.sources a).count p = [a].count p := by
    intro a ha
    rw [sources, ← List.singleton_append, List.count_append, List.count_append,
      List.count_eq_zero.mpr (hNone a ha).1, List.count_eq_zero.mpr (hNone a ha).2, Nat.add_zero]
  calc
    _ = ((d.visited e).map fun a => (d.sources a).count p).sum := List.count_flatMap
    _ = ((d.visited e).map fun a => [a].count p).sum := by rw [List.map_congr_left hOwn]
    _ = (d.visited e).count p := sum_count_singleton _ p
    _ ≤ 1 := List.nodup_iff_count_le_one.mp (nodup_visited he) p

/-- In a button with a labelled checkbox, the label is read where it stands, and again for the checkbox
in it; the text beside it is read once. -/
theorem text_in_name_le_labelled :
    let d := ofElement "button" []
      [.text "ü", .element "label" [] [.text "é", .element "input" [("type", "checkbox")] []]]
    d.IsMarked ∧ 0 ∈ d.elements ∧ String.singleton 'ü' ∈ d.ownTexts 0 ∧
      String.singleton 'é' ∈ d.ownTexts 1 ∧ d.visited 0 = [2, 1, 0] ∧
      (d.visited 0).flatMap d.sources = [2, 1, 1, 0] ∧ d.accessibleName 0 = "üéé" ∧
      occurrences 'ü' (d.accessibleName 0) ≤ 1 ∧ occurrences 'é' (d.accessibleName 0) ≤ 2 := by
  intro d
  have hMarked : d.IsMarked := by decide +kernel
  have hMem : 0 ∈ d.elements := by decide
  have hOuter : String.singleton 'ü' ∈ d.ownTexts 0 := by decide +kernel
  have hInner : String.singleton 'é' ∈ d.ownTexts 1 := by decide +kernel
  have hVisited : d.visited 0 = [2, 1, 0] := by decide +kernel
  have hSources : (d.visited 0).flatMap d.sources = [2, 1, 1, 0] := by decide +kernel
  have hUnread : ∀ a ∈ d.visited 0, 0 ∉ d.namedBy a ∧ 0 ∉ d.shown a := by decide +kernel
  have hTwice := (text_in_name_le hMarked hMem hInner).2.1
  rw [hSources] at hTwice
  exact ⟨hMarked, hMem, hOuter, hInner, hVisited, hSources, by decide +kernel,
    (text_in_name_le hMarked hMem hOuter).2.2 hUnread, hTwice⟩

/-- A text may be used twice in a name: that of a label around a checkbox, which is read for the label
and again for the checkbox in it, and that of a legend, which is read for its `fieldset` and again for
itself. -/
theorem text_used_twice :
    let labelled := ofElement "p" []
      [.element "label" [("id", "l")] [.text "é", .element "input" [("type", "checkbox")] []],
        .element "button" [("aria-labelledby", "l")] []]
    let grouped := ofElement "p" []
      [.element "fieldset" [("id", "f")] [.element "legend" [("id", "l")] [.text "é"]],
        .element "button" [("aria-labelledby", "f l")] []]
    (labelled.IsMarked ∧ 3 ∈ labelled.elements ∧ labelled.texts = ["é"] ∧
        occurrences 'é' (labelled.accessibleName 3) = 2) ∧
      grouped.IsMarked ∧ 3 ∈ grouped.elements ∧ grouped.texts = ["é"] ∧
        occurrences 'é' (grouped.accessibleName 3) = 2 := by
  decide +kernel

end Document

end AriaLocator

import AriaLocator.Css.Matching

/-!
# Looking for a match

Trying every element that a combinator can mean takes a time that grows with the power of the
number of combinators. Most of it is not needed: when an element fails to fit a chain, the reason
often holds for others too. If no ancestor fits the rest of the chain, then none does for any
element whose ancestors are among these, and nothing more need be tried. A failure is therefore
reported with its `Reach`, the elements that are known to fail with it, and a search gives up as
soon as the reach of a failure takes in all the candidates that are left.

## Main results

* `mismatch?_eq_none_iff`: the search finds a match exactly when the element fits the chain.
* `matchesSelector_iff`: a list matches what fits one of its members.
* `tag_mem_subjectTags`: a look at the tag can spare a look at the rest.
-/

namespace AriaLocator

namespace Css

/-- The elements that are known to fail together with an element. -/
inductive Reach where
  /-- The element alone. -/
  | element
  /-- Also those before it under its parent. -/
  | siblings
  /-- Also all others that have no ancestors but those of the element. -/
  | tree
deriving DecidableEq, Repr

/-- Whether a failure of one reach settles all that a failure of another would. -/
def Reach.covers : Reach → Reach → Bool
  | _, element => true
  | siblings, siblings => true
  | tree, _ => true
  | _, _ => false

/-- How far a failure reaches when all the candidates of a combinator have failed. -/
def Combinator.reach : Combinator → Reach
  | descendant => .tree
  | child => .siblings
  | next => .element
  | later => .siblings

/-- The reach of the failure when candidates are tried in turn, or `none` if one of them fits. The
search ends early at a failure that reaches as far as that of all the candidates would. -/
def mismatchAmong (reach : Reach) (mismatch? : Element → Option Reach) :
    List Element → Option Reach
  | [] => some reach
  | a :: rest =>
    match mismatch? a with
    | none => none
    | some found =>
      if found.covers reach then some found else mismatchAmong reach mismatch? rest

theorem exists_of_mismatchAmong_eq_none {reach : Reach} {mismatch? : Element → Option Reach}
    {candidates : List Element} (h : mismatchAmong reach mismatch? candidates = none) :
    ∃ a ∈ candidates, mismatch? a = none := by
  induction candidates with
  | nil => simp [mismatchAmong] at h
  | cons a rest ih =>
    unfold mismatchAmong at h
    split at h
    · exact ⟨a, List.mem_cons_self, by assumption⟩
    · split at h
      · simp at h
      · obtain ⟨b, hb, hnone⟩ := ih h
        exact ⟨b, List.mem_cons_of_mem _ hb, hnone⟩

/-- A search fails after the last candidate, or at one whose failure reaches far enough. -/
theorem cases_of_mismatchAmong_eq_some {reach found : Reach} {mismatch? : Element → Option Reach}
    {candidates : List Element} (h : mismatchAmong reach mismatch? candidates = some found) :
    (found = reach ∧ ∀ a ∈ candidates, (mismatch? a).isSome) ∨
      ∃ near a far, candidates = near ++ a :: far ∧ (∀ b ∈ near, (mismatch? b).isSome) ∧
        mismatch? a = some found ∧ found.covers reach := by
  induction candidates with
  | nil => exact Or.inl ⟨by simpa [mismatchAmong, eq_comm] using h, by simp⟩
  | cons a rest ih =>
    unfold mismatchAmong at h
    split at h
    · simp at h
    · rename_i r ha
      split at h
      · rename_i hcovers
        cases h
        exact Or.inr ⟨[], a, rest, rfl, by simp, ha, hcovers⟩
      · rcases ih h with ⟨hreach, hrest⟩ | ⟨near, b, far, hsplit, hnear, hb, hcovers⟩
        · exact Or.inl ⟨hreach, List.forall_mem_cons.mpr ⟨by simp [ha], hrest⟩⟩
        · exact Or.inr ⟨a :: near, b, far, by simp [hsplit],
          List.forall_mem_cons.mpr ⟨by simp [ha], hnear⟩, hb, hcovers⟩

end Css

namespace Document

open Css

/-- How far the failure of an element to fit a chain reaches, or `none` if it fits. -/
def mismatch? (d : Document) : Chain → Element → Option Reach
  | .only subject, e => if d.passesAll e subject then none else some .element
  | .combined left relation subject, e =>
    if d.passesAll e subject then
      mismatchAmong relation.reach (d.mismatch? left) (d.related relation e)
    else some .element

/-- Whether an element fits a member of a selector list. -/
def matchesSelector (d : Document) (s : Selector) (e : Element) : Bool :=
  s.members.any fun member => (d.mismatch? member e).isNone

/-- The nearest member of an element's lineage that a selector matches. -/
def closest? (d : Document) (s : Selector) (e : Element) : Option Element :=
  (d.lineage e).find? (d.matchesSelector s)

/-- The elements with a parent node that a selector matches, by node id. -/
def select (d : Document) (s : Selector) : List Element :=
  (d.elements.filter fun e => d.hasParentNode e && d.matchesSelector s e).mergeSort
    fun a b => d.ids a ≤ d.ids b

/-! ## What a failure reaches -/

/-- Whether a failure at an element reaches another one. -/
def Reaches (d : Document) (e : Element) : Reach → Element → Prop
  | .element, f => f = e
  | .siblings, f => f = e ∨ f ∈ d.earlierSiblings e
  | .tree, f => d.ancestors f ⊆ d.ancestors e

theorem reaches_self (d : Document) (e : Element) (reach : Reach) : d.Reaches e reach e := by
  cases reach <;> simp [Reaches]

/-- The ancestors of an earlier sibling are those of the element. -/
theorem ancestors_of_mem_earlierSiblings {d : Document} {a e : Element}
    (h : a ∈ d.earlierSiblings e) : d.ancestors a = d.ancestors e := by
  obtain ⟨⟨p, he, ha⟩, -⟩ := mem_earlierSiblings.mp h
  exact ancestors_congr (parent?_congr (ha.trans he.symm))

theorem earlierSiblings_subset {d : Document} {a e : Element} (h : a ∈ d.earlierSiblings e) :
    d.earlierSiblings a ⊆ d.earlierSiblings e := by
  intro b hb
  rw [mem_earlierSiblings] at h hb ⊢
  grind

/-- Of two earlier siblings, the one that is before the other is one of its earlier siblings. -/
theorem mem_earlierSiblings_of_lt {d : Document} {a b e : Element} (ha : a ∈ d.earlierSiblings e)
    (hb : b ∈ d.earlierSiblings e) (h : b < a) : b ∈ d.earlierSiblings a := by
  rw [mem_earlierSiblings] at ha hb ⊢
  grind

/-- Candidates of an element that is reached as far as all candidates reach are candidates of the
first one. -/
theorem mem_related_of_reaches {d : Document} {relation : Combinator} {e f g : Element}
    (hf : d.Reaches e relation.reach f) (hg : g ∈ d.related relation f) :
    g ∈ d.related relation e := by
  cases relation with
  | descendant => exact hf hg
  | child =>
    rcases hf with rfl | hf
    · exact hg
    · obtain ⟨⟨p, he, hfp⟩, -⟩ := mem_earlierSiblings.mp hf
      rwa [related, parent?_congr (hfp.trans he.symm)] at hg
  | next => exact hf ▸ hg
  | later =>
    rcases hf with rfl | hf
    · exact hg
    · exact earlierSiblings_subset hf hg

/-- A failure of the widest reach reaches the same elements from an earlier sibling, and with an
element its earlier siblings. -/
theorem reaches_tree_of_mem_earlierSiblings {d : Document} {a e f g : Element}
    (ha : a ∈ d.earlierSiblings e) (hf : d.Reaches e .tree f) (hg : g ∈ d.earlierSiblings f) :
    d.Reaches a .tree g := by
  have hf : d.ancestors f ⊆ d.ancestors e := hf
  rwa [← ancestors_of_mem_earlierSiblings ha, ← ancestors_of_mem_earlierSiblings hg] at hf

/-! ### Candidates that are left

A search that tries the candidates `near ++ a :: far` of an element `e` in turn, and ends at `a` with a
failure, has done with all the candidates of an element `f` that the failure reaches from `e`. -/

section Left

variable {d : Document} {reach : Reach} {e f g a : Element} {near far : List Element}

/-- Of the ancestors of an element, those not tried are above the last one tried. -/
theorem mem_or_reaches_ancestor (hsplit : d.ancestors e = near ++ a :: far)
    (hmem : g ∈ d.ancestors e) : g ∈ near ∨ d.Reaches a .tree g := by
  rw [hsplit, List.mem_append, ancestors_eq_of_append hsplit, ← d.lineage_eq] at hmem
  exact hmem.imp_right ancestors_subset

/-- The parent of what is reached is reached from the parent. -/
theorem reaches_parent (ha : d.parent? e = some a) (hg : d.parent? f = some g)
    (hreach : reach.covers .siblings) (hf : d.Reaches e reach f) : d.Reaches a reach g := by
  cases reach with
  | element => cases hreach
  | siblings =>
    have hmem : g ∈ d.related .child e :=
      mem_related_of_reaches (show d.Reaches e (Combinator.reach .child) f from hf)
        (by simp [related, hg])
    have hga : g = a := by
      simpa [related, ha, eq_comm] using hmem
    exact hga ▸ d.reaches_self g .siblings
  | tree =>
    have hmem : g ∈ d.ancestors e := hf (by
      rw [ancestors_of_parent hg]
      exact d.forest.mem_lineage_self g)
    rw [ancestors_of_parent ha] at hmem
    exact ancestors_subset hmem

/-- The sibling right before what is reached is reached from the sibling right before. -/
theorem reaches_previousSibling (ha : (d.earlierSiblings e).head? = some a)
    (hg : (d.earlierSiblings f).head? = some g) (hf : d.Reaches e reach f) :
    d.Reaches a reach g := by
  have hmem : g ∈ d.earlierSiblings f := List.mem_of_head? hg
  have haMem : a ∈ d.earlierSiblings e := List.mem_of_head? ha
  have hself (hfe : f = e) : g = a := by
    subst hfe
    exact Option.some.inj (hg.symm.trans ha)
  cases reach with
  | element => exact hself hf
  | siblings =>
    rcases hf with hf | hf
    · exact Or.inl (hself hf)
    · -- `a` comes first, so `f` is `a` or before it, and `g` is before `f`.
      refine Or.inr (mem_earlierSiblings_of_lt haMem (earlierSiblings_subset hf hmem) ?_)
      have hlt := (mem_earlierSiblings.mp hmem).2.2
      have hsorted := d.earlierSiblings_pairwise e
      obtain ⟨tail, ha⟩ := List.head?_eq_some_iff.mp ha
      rw [ha] at hf hsorted
      rcases List.mem_cons.mp hf with rfl | hf
      · exact hlt
      · exact Nat.lt_trans hlt ((List.pairwise_cons.mp hsorted).1 f hf)
  | tree => exact reaches_tree_of_mem_earlierSiblings haMem hf hmem

/-- Of the earlier siblings of what is reached, those not tried are reached from the last one tried. -/
theorem mem_or_reaches_earlierSibling (hsplit : d.earlierSiblings e = near ++ a :: far)
    (hreach : reach.covers .siblings) (hf : d.Reaches e reach f)
    (hg : g ∈ d.earlierSiblings f) : g ∈ near ∨ d.Reaches a reach g := by
  have haMem : a ∈ d.earlierSiblings e := by simp [hsplit]
  cases reach with
  | element => cases hreach
  | siblings =>
    have hmem : g ∈ d.earlierSiblings e :=
      mem_related_of_reaches (show d.Reaches e (Combinator.reach .later) f from hf) hg
    have hsorted := d.earlierSiblings_pairwise e
    have hplace := hmem
    rw [hsplit, List.mem_append, List.mem_cons] at hplace
    rw [hsplit, List.pairwise_append, List.pairwise_cons] at hsorted
    rcases hplace with h | h | h
    · exact Or.inl h
    · exact Or.inr (Or.inl h)
    · exact Or.inr (Or.inr (mem_earlierSiblings_of_lt haMem hmem (hsorted.2.1.1 g h)))
  | tree => exact Or.inr (reaches_tree_of_mem_earlierSiblings haMem hf hg)

theorem eq_some_of_toList {first? : Option Element} (h : first?.toList = near ++ a :: far) :
    first? = some a := by
  cases first? with
  | none => simp at h
  | some b => cases near <;> simp_all

/-- A candidate of an element that is reached was tried before, or is reached from the candidate
at which the search ended. -/
theorem mem_or_reaches_of_related {relation : Combinator}
    (hsplit : d.related relation e = near ++ a :: far) (hreach : reach.covers relation.reach)
    (hf : d.Reaches e reach f) (hg : g ∈ d.related relation f) :
    g ∈ near ∨ d.Reaches a reach g := by
  cases relation with
  | descendant =>
    cases reach with
    | element | siblings => cases hreach
    | tree => exact mem_or_reaches_ancestor hsplit (hf hg)
  | child =>
    have hParent : d.parent? f = some g := by simpa [related] using hg
    exact Or.inr (reaches_parent (eq_some_of_toList hsplit) hParent hreach hf)
  | next =>
    have hPrevious : d.previousSibling? f = some g := by simpa [related] using hg
    rw [previousSibling?_eq] at hPrevious
    have hFirst : d.previousSibling? e = some a := eq_some_of_toList hsplit
    rw [previousSibling?_eq] at hFirst
    exact Or.inr (reaches_previousSibling hFirst hPrevious hf)
  | later => exact mem_or_reaches_earlierSibling hsplit hreach hf hg

end Left

/-- A failure is one of all the elements that it reaches. -/
theorem not_fits_of_mismatch? {d : Document} {chain : Chain} {e f : Element} {reach : Reach}
    (h : d.mismatch? chain e = some reach) (hf : d.Reaches e reach f) : ¬d.Fits chain f := by
  induction chain generalizing e f reach with
  | only subject =>
    unfold mismatch? at h
    split at h
    · simp at h
    · cases h
      rw [fits_only, show f = e from hf]
      assumption
  | combined left relation subject ih =>
    rw [fits_combined]
    rintro ⟨hsubject, g, hg, hfits⟩
    unfold mismatch? at h
    split at h
    · have hfailed {b : Element} (hb : (d.mismatch? left b).isSome) : ¬d.Fits left b := by
        obtain ⟨r, hr⟩ := Option.isSome_iff_exists.mp hb
        exact ih hr (d.reaches_self b r)
      rcases cases_of_mismatchAmong_eq_some h with
        ⟨rfl, hall⟩ | ⟨near, a, far, hsplit, hnear, ha, hcovers⟩
      · exact hfailed (hall g (mem_related_of_reaches hf hg)) hfits
      · rcases mem_or_reaches_of_related hsplit hcovers hf hg with hmem | hreached
        · exact hfailed (hnear g hmem) hfits
        · exact ih ha hreached hfits
    · cases h
      rw [show f = e from hf] at hsubject
      contradiction

theorem fits_of_mismatch?_eq_none {d : Document} {chain : Chain} {e : Element}
    (h : d.mismatch? chain e = none) : d.Fits chain e := by
  induction chain generalizing e with
  | only subject => simpa [mismatch?, fits_only] using h
  | combined left relation subject ih =>
    unfold mismatch? at h
    split at h
    · obtain ⟨a, ha, hnone⟩ := exists_of_mismatchAmong_eq_none h
      exact fits_combined.mpr ⟨by assumption, a, ha, ih hnone⟩
    · simp at h

/-- The search finds a match exactly when there is one. -/
theorem mismatch?_eq_none_iff {d : Document} {chain : Chain} {e : Element} :
    d.mismatch? chain e = none ↔ d.Fits chain e := by
  refine ⟨fits_of_mismatch?_eq_none, fun hfits => ?_⟩
  cases h : d.mismatch? chain e with
  | none => rfl
  | some reach => exact absurd hfits (not_fits_of_mismatch? h (d.reaches_self e reach))

theorem passes_of_mem {d : Document} {e : Element} {tests : List Simple} {test : Simple}
    (h : d.passesAll e tests = true) (hmem : test ∈ tests) : d.passes e test = true := by
  induction tests with
  | nil => simp at hmem
  | cons first rest ih =>
    simp only [passesAll, Bool.and_eq_true] at h
    rcases List.mem_cons.mp hmem with rfl | hmem
    · exact h.1
    · exact ih h.2 hmem

/-- An element that fits a chain has the tag that the last compound names. -/
theorem tag_of_fits {d : Document} {chain : Chain} {e : Element} {name : String}
    (h : d.Fits chain e) (hname : Compound.tag? chain.subject = some name) : d.tag e = name := by
  have hpasses : d.passesAll e chain.subject = true := by
    cases chain with
    | only subject => exact fits_only.mp h
    | combined left relation subject => exact (fits_combined.mp h).1
  obtain ⟨test, hmem, hfound⟩ := List.exists_of_findSome?_eq_some hname
  have hpass := passes_of_mem hpasses hmem
  split at hfound
  · cases hfound
    simpa [passes] using hpass
  · simp at hfound

theorem matchesSelector_iff {d : Document} {s : Selector} {e : Element} :
    d.matchesSelector s e = true ↔ ∃ member ∈ s.members, d.Fits member e := by
  simp [matchesSelector, mismatch?_eq_none_iff]

/-- Where every member of a list names a tag, its matches have one of these tags. -/
theorem tag_mem_subjectTags {d : Document} {s : Selector} {e : Element}
    (hTags : ∀ member ∈ s.members, (Compound.tag? member.subject).isSome)
    (h : d.matchesSelector s e = true) : d.tag e ∈ s.subjectTags := by
  obtain ⟨member, hmem, hfits⟩ := matchesSelector_iff.mp h
  obtain ⟨name, hname⟩ := Option.isSome_iff_exists.mp (hTags member hmem)
  exact List.mem_filterMap.mpr ⟨member, hmem, by rw [hname, tag_of_fits hfits hname]⟩

end Document

end AriaLocator

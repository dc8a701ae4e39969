import AriaLocator.Css.Selector
import AriaLocator.Document.Basic
import AriaLocator.Text.Ascii
import AriaLocator.Text.Blank

/-!
# Which elements a selector matches

A compound looks at one element; a combinator looks for another element around it, in the tree as
it is now. Names, classes and attribute values are compared exactly, except for the values of the
attributes that HTML singles out, in which the case of ASCII letters does not count.

`Fits` says what a chain asks for. How a fitting element is looked for is not said here.

## Main results

* `mem_earlierSiblings`, `earlierSiblings_pairwise`: what comes before an element, nearest first.
* `previousSibling?_eq`: the sibling right before an element is the first of these.
* `fits_combined`: a chain asks for an element that stands in a relation to one fitting the rest.
-/

namespace AriaLocator

namespace Css

/-- The attributes whose values HTML compares without regard to case. -/
def foldedAttributes : List String :=
  ["accept", "accept-charset", "align", "alink", "axis", "bgcolor", "charset", "checked", "clear",
    "codetype", "color", "compact", "declare", "defer", "dir", "direction", "disabled", "enctype",
    "face", "frame", "hreflang", "http-equiv", "lang", "language", "link", "media", "method",
    "multiple", "nohref", "noresize", "noshade", "nowrap", "readonly", "rel", "rev", "rules",
    "scope", "scrolling", "selected", "shape", "target", "text", "type", "valign", "valuetype",
    "vlink"]

/-- Whether an attribute value passes a comparison. Nothing contains the empty text here. -/
def Operator.holds (operator : Operator) (actual expected : String) : Bool :=
  match operator with
  | equals => actual == expected
  | includes => (Text.asciiWords actual).contains expected
  | dash => actual == expected || Text.startsWith actual (expected ++ "-")
  | starts => expected != "" && Text.startsWith actual expected
  | ends => expected != "" && Text.endsWith actual expected
  | substring => expected != "" && Text.contains actual expected

/-- Compares an attribute's value as HTML does for that attribute. -/
def attributeHolds (name : String) (operator : Operator) (actual expected : String) : Bool :=
  if foldedAttributes.contains name then operator.holds (Text.lower actual) (Text.lower expected)
  else operator.holds actual expected

end Css

namespace Document

open Css

mutual

/-- Whether an element passes a test. -/
def passes (d : Document) (e : Element) : Simple → Bool
  | .universal => true
  | .type name => d.tag e == name
  | .id name => d.attribute? e "id" == some name
  | .hasClass name => (Text.asciiWords ((d.attribute? e "class").getD "")).contains name
  | .hasAttribute name => d.hasAttribute e name
  | .hasValue name operator value =>
    match d.attribute? e name with
    | none => false
    | some actual => attributeHolds name operator actual value
  | .not tests => !d.passesAll e tests

/-- Whether an element passes every test of a compound. -/
def passesAll (d : Document) (e : Element) : List Simple → Bool
  | [] => true
  | test :: rest => d.passes e test && d.passesAll e rest

end

/-- The elements that are listed before an element, right below the same node, nearest first. -/
def earlierSiblings (d : Document) (e : Element) : List Element :=
  match d.tree.parent? e with
  | none => []
  | some p => ((d.held p).takeWhile (· != e)).reverse

/-- In an ordered list, what stands in front of a member is what is smaller. -/
private theorem mem_takeWhile_of_increasing {l : List Nat} {a e : Nat} (h : l.Pairwise (· < ·))
    (he : e ∈ l) : a ∈ l.takeWhile (· != e) ↔ a ∈ l ∧ a < e := by
  induction l with
  | nil => simp at he
  | cons b l ih =>
    obtain ⟨hFirst, hRest⟩ := List.pairwise_cons.mp h
    by_cases hb : b = e
    · subst hb
      rw [List.takeWhile_cons_of_neg (by simp)]
      simp only [List.not_mem_nil, List.mem_cons, false_iff, not_and, Nat.not_lt]
      rintro (rfl | ha)
      · exact Nat.le_refl _
      · exact Nat.le_of_lt (hFirst a ha)
    · have he : e ∈ l := (List.mem_cons.mp he).resolve_left (Ne.symm hb)
      have hbe : b < e := hFirst e he
      rw [List.takeWhile_cons_of_pos (by simpa using hb), List.mem_cons, List.mem_cons, ih hRest he]
      grind

theorem mem_earlierSiblings {d : Document} {a e : Element} :
    a ∈ d.earlierSiblings e ↔
      (∃ p, d.tree.parent? e = some p ∧ d.tree.parent? a = some p) ∧ a < d.size ∧ a < e := by
  unfold earlierSiblings
  cases hp : d.tree.parent? e with
  | none => simp
  | some p =>
    have he : e ∈ d.held p := mem_held.mpr ⟨hp, lt_size_of_tree_parent hp⟩
    rw [List.mem_reverse, mem_takeWhile_of_increasing (d.held_pairwise p) he, mem_held]
    grind

theorem earlierSiblings_pairwise (d : Document) (e : Element) :
    (d.earlierSiblings e).Pairwise (· > ·) := by
  unfold earlierSiblings
  split
  · exact .nil
  · rw [List.pairwise_reverse]
    exact (d.held_pairwise _).sublist (List.takeWhile_sublist _)

/-- The greatest number between `low` and `high`, neither included, that passes a test. -/
def nearestBelow? (test : Nat → Bool) (low : Nat) : (high : Nat) → Option Nat
  | 0 => none
  | n + 1 => if n ≤ low then none else if test n then some n else nearestBelow? test low n

theorem not_of_nearestBelow?_eq_none {test : Nat → Bool} {low high a : Nat}
    (h : nearestBelow? test low high = none) (hlow : low < a) (hhigh : a < high) :
    test a = false := by
  induction high with
  | zero => omega
  | succ n ih =>
    unfold nearestBelow? at h
    split at h
    · omega
    · split at h
      · simp at h
      · rcases Nat.lt_succ_iff_lt_or_eq.mp hhigh with hlt | rfl
        · exact ih h hlt
        · simp_all

theorem of_nearestBelow?_eq_some {test : Nat → Bool} {low high a : Nat}
    (h : nearestBelow? test low high = some a) :
    a < high ∧ test a = true ∧ ∀ b, a < b → b < high → test b = false := by
  induction high with
  | zero => simp [nearestBelow?] at h
  | succ n ih =>
    unfold nearestBelow? at h
    split at h
    · simp at h
    · split at h
      · cases h
        exact ⟨Nat.lt_succ_self _, by assumption, fun b _ _ => by omega⟩
      · obtain ⟨hlt, htest, hnone⟩ := ih h
        refine ⟨Nat.lt_succ_of_lt hlt, htest, fun b hab hb => ?_⟩
        rcases Nat.lt_succ_iff_lt_or_eq.mp hb with hb | rfl
        · exact hnone b hab hb
        · simp_all

/-- The element that is listed right before an element, below the same node. -/
def previousSibling? (d : Document) (e : Element) : Option Element :=
  (d.tree.parent? e).bind fun p => nearestBelow? (fun a => d.tree.parent? a == some p) p e

theorem previousSibling?_eq (d : Document) (e : Element) :
    d.previousSibling? e = (d.earlierSiblings e).head? := by
  cases hp : d.tree.parent? e with
  | none => simp [previousSibling?, earlierSiblings, hp]
  | some p =>
    have hmem {a : Element} : a ∈ d.earlierSiblings e ↔ d.tree.parent? a = some p ∧ a < e := by
      rw [mem_earlierSiblings]
      have := @lt_size_of_tree_parent d a p
      grind
    have hsorted := d.earlierSiblings_pairwise e
    rw [previousSibling?, hp, Option.bind_some]
    cases hfound : nearestBelow? (fun a => d.tree.parent? a == some p) p e with
    | none =>
      cases hs : d.earlierSiblings e with
      | nil => rfl
      | cons a rest =>
        have ha : d.tree.parent? a = some p ∧ a < e := hmem.mp (hs ▸ List.mem_cons_self)
        have := not_of_nearestBelow?_eq_none hfound (d.tree.parent_lt ha.1) ha.2
        simp [ha.1] at this
    | some a =>
      obtain ⟨hlt, htest, hnone⟩ := of_nearestBelow?_eq_some hfound
      have ha : a ∈ d.earlierSiblings e := hmem.mpr ⟨by simpa using htest, hlt⟩
      cases hs : d.earlierSiblings e with
      | nil => simp [hs] at ha
      | cons b rest =>
        have hb : d.tree.parent? b = some p ∧ b < e := hmem.mp (hs ▸ List.mem_cons_self)
        rw [hs] at ha hsorted
        rcases List.mem_cons.mp ha with rfl | ha
        · rfl
        · have := hnone b ((List.pairwise_cons.mp hsorted).1 a ha) hb.2
          simp [hb.1] at this

/-- The elements that stand in a relation to an element, nearest first. -/
def related (d : Document) (relation : Combinator) (e : Element) : List Element :=
  match relation with
  | .descendant => d.ancestors e
  | .child => (d.parent? e).toList
  | .next => (d.previousSibling? e).toList
  | .later => d.earlierSiblings e

/-- An element fits a chain if it passes the last compound, and an element that stands in the last
relation to it fits the chain before that. -/
def Fits (d : Document) : Chain → Element → Prop
  | .only subject, e => d.passesAll e subject = true
  | .combined left relation subject, e =>
    d.passesAll e subject = true ∧ ∃ a ∈ d.related relation e, d.Fits left a

theorem fits_only {d : Document} {subject : Compound} {e : Element} :
    d.Fits (.only subject) e ↔ d.passesAll e subject = true := Iff.rfl

theorem fits_combined {d : Document} {left : Chain} {relation : Combinator} {subject : Compound}
    {e : Element} :
    d.Fits (.combined left relation subject) e ↔
      d.passesAll e subject = true ∧ ∃ a ∈ d.related relation e, d.Fits left a := Iff.rfl

end Document

end AriaLocator

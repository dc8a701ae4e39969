import AriaLocator.Text.Blank
import Mathlib.Algebra.Order.Ring.Nat

/-!
# How often a character occurs

A text that is put together of parts holds a character as often as the parts do, as long as what is set
between them does not hold it.  Collapsing a text loses blanks and sets spaces, so that every other
character stays as often as it was.

## Main results

* `occurrences_of_isAscii`: a text in ASCII does not hold what is not in ASCII.
* `occurrences_join`, `occurrences_intercalate`: the occurrences in a text are those in its parts.
* `occurrences_collapse`: collapsing keeps every occurrence of what is not blank.
-/

namespace AriaLocator.Text

/-- How often a character occurs in a text. -/
def occurrences (c : Char) (text : String) : Nat := text.toList.count c

variable {c : Char}

@[simp] theorem occurrences_empty : occurrences c "" = 0 := by
  simp [occurrences]

theorem occurrences_append (a b : String) :
    occurrences c (a ++ b) = occurrences c a + occurrences c b := by
  simp [occurrences, List.count_append]

theorem occurrences_join (parts : List String) :
    occurrences c (String.join parts) = (parts.map (occurrences c)).sum := by
  rw [occurrences, String.toList_join, List.count_flatMap]
  rfl

/-- A separator without the character does not add to its occurrences. -/
theorem count_intercalate {separator : List Char} (h : separator.count c = 0)
    (parts : List (List Char)) :
    (separator.intercalate parts).count c = (parts.map (List.count c)).sum := by
  induction parts with
  | nil => rfl
  | cons part rest ih =>
      cases rest with
      | nil => simp [List.intercalate]
      | cons next rest =>
          have hSplit : separator.intercalate (part :: next :: rest) =
              part ++ (separator ++ separator.intercalate (next :: rest)) := by
            simp [List.intercalate, List.intersperse]
          rw [hSplit, List.count_append, List.count_append, h, ih, Nat.zero_add]
          exact List.sum_cons.symm

theorem occurrences_intercalate {separator : String} (h : occurrences c separator = 0)
    (parts : List String) :
    occurrences c (separator.intercalate parts) = (parts.map (occurrences c)).sum := by
  rw [occurrences, String.toList_intercalate, count_intercalate h, List.map_map]
  rfl

/-- Whether all characters of a text are in ASCII. -/
def isAscii (text : String) : Bool := text.toList.all fun x => x.toNat ≤ 127

theorem occurrences_of_isAscii (hAscii : 127 < c.toNat) {text : String} (h : isAscii text = true) :
    occurrences c text = 0 := by
  refine List.count_eq_zero.mpr fun hMem => ?_
  have hLe : c.toNat ≤ 127 := by simpa using List.all_eq_true.mp h c hMem
  exact absurd hAscii (Nat.not_lt.mpr hLe)

/-! ## Collapsing -/

/-- What does not separate fields is kept in them. -/
theorem count_fields {isSeparator : Char → Bool} (h : isSeparator c = false) (cs : List Char) :
    ((fields isSeparator cs).map (List.count c)).sum = cs.count c := by
  induction cs with
  | nil => rfl
  | cons first rest ih =>
      cases hFirst : isSeparator first with
      | true =>
          have hOther : first ≠ c := fun hSame => by simp [← hSame, hFirst] at h
          simp only [fields, hFirst, if_true, List.map_cons, List.sum_cons, ih,
            List.count_cons_of_ne hOther, List.count_nil, Nat.zero_add]
      | false =>
          cases hRest : fields isSeparator rest with
          | nil => exact absurd hRest (fields_ne_nil isSeparator rest)
          | cons field more =>
              rw [hRest, List.map_cons, List.sum_cons] at ih
              simp only [fields, hFirst, Bool.false_eq_true, if_false, hRest, List.map_cons,
                List.sum_cons, List.count_cons, ← ih]
              omega

/-- Empty fields hold nothing. -/
theorem count_runs {isSeparator : Char → Bool} (h : isSeparator c = false) (cs : List Char) :
    ((runs isSeparator cs).map (List.count c)).sum = cs.count c := by
  rw [← count_fields h cs, runs]
  induction fields isSeparator cs with
  | nil => rfl
  | cons field rest ih =>
      cases field with
      | nil => simpa using ih
      | cons first more => simpa using ih

/-- Collapsing keeps every occurrence of what is not blank. -/
theorem occurrences_collapse (h : isBlank c = false) (text : String) :
    occurrences c (collapse text) = occurrences c text := by
  have hSpace : occurrences c " " = 0 := by
    refine List.count_eq_zero.mpr fun hMem => ?_
    have hSame : c = ' ' := by simpa using hMem
    rw [hSame] at h
    exact absurd h (by decide)
  have hWords : (words text).map (occurrences c) = (runs isBlank text.toList).map (List.count c) := by
    rw [words, List.map_map]
    exact List.map_congr_left fun run _ => congrArg (List.count c) String.toList_ofList
  rw [collapse, occurrences_intercalate hSpace, hWords, count_runs h, occurrences]

end AriaLocator.Text

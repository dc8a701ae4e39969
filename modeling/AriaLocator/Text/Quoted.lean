/-!
# Quoted text

Names and attribute values stand between quotes. Inside, the quote character and the backslash are
written with a backslash in front; on reading, a backslash makes the next character stand for
itself, whatever it is.

## Main results

* `unquote_quoteChars`: what is quoted is read back, whatever follows the closing quote.
-/

namespace AriaLocator

/-- The character around a quoted text. -/
inductive QuoteMark where
  | single
  | double
deriving DecidableEq, Repr

namespace QuoteMark

/-- The character itself. -/
def char : QuoteMark → Char
  | single => '\''
  | double => '"'

/-- Its name. -/
def name : QuoteMark → String
  | single => "single"
  | double => "double"

/-- A mark given by its character or its name. -/
def ofText? (s : String) : Option QuoteMark :=
  if s = "'" ∨ s = "single" then some single
  else if s = "\"" ∨ s = "double" then some double
  else none

/-- The mark that needs no escape where one does: a double quote around an apostrophe, unless a
double quote occurs as well. -/
def preferredFor (s : String) : QuoteMark :=
  if s.toList.contains '\'' ∧ ¬ s.toList.contains '"' then double else single

end QuoteMark

namespace Text

/-- The inside of a quoted text. -/
def escapeChars (mark : Char) : List Char → List Char
  | [] => []
  | c :: cs =>
    if c = mark ∨ c = '\\' then '\\' :: c :: escapeChars mark cs else c :: escapeChars mark cs

/-- A text between quotes. -/
def quoteChars (mark : Char) (cs : List Char) : List Char :=
  mark :: (escapeChars mark cs ++ [mark])

/-- Puts `s` between quotes; without a choice of mark, between the ones preferred for it. -/
def quote (s : String) (mark : Option QuoteMark) : String :=
  String.ofList (quoteChars (mark.getD (QuoteMark.preferredFor s)).char s.toList)

/--
Reads up to the first quote that no backslash protects, and gives the text with the escapes
resolved and what follows the quote. There is no result if the quote never comes.
-/
def unquote? (mark : Char) : List Char → Option (List Char × List Char)
  | [] => none
  | ['\\'] => none
  | '\\' :: c :: cs => (unquote? mark cs).map fun (inside, rest) => (c :: inside, rest)
  | c :: cs =>
    if c = mark then some ([], cs)
    else (unquote? mark cs).map fun (inside, rest) => (c :: inside, rest)

theorem unquote_escapeChars (mark : QuoteMark) (cs rest : List Char) :
    unquote? mark.char (escapeChars mark.char cs ++ mark.char :: rest) = some (cs, rest) := by
  induction cs with
  | nil =>
    simp only [escapeChars, List.nil_append]
    rw [unquote?.eq_def]
    cases mark <;> simp [QuoteMark.char]
  | cons c cs ih =>
    by_cases hc : c = mark.char ∨ c = '\\'
    · simp [escapeChars, hc, unquote?, ih]
    · have hMark : c ≠ mark.char := fun h => hc (Or.inl h)
      have hSlash : c ≠ '\\' := fun h => hc (Or.inr h)
      simp only [escapeChars, hc, if_false, List.cons_append]
      rw [unquote?.eq_def]
      split
      · simp_all
      · simp_all
      · simp_all
      · simp_all

/-- Reading undoes quoting, whatever comes after. -/
theorem unquote_quoteChars (mark : QuoteMark) (cs rest : List Char) :
    quoteChars mark.char cs ++ rest = mark.char :: (escapeChars mark.char cs ++ mark.char :: rest) ∧
      unquote? mark.char (escapeChars mark.char cs ++ mark.char :: rest) = some (cs, rest) :=
  ⟨by simp [quoteChars], unquote_escapeChars mark cs rest⟩

/-- Reading a quoted text uses up at least its closing quote. -/
theorem length_of_unquote? {mark : Char} {cs inside rest : List Char}
    (h : unquote? mark cs = some (inside, rest)) : rest.length < cs.length := by
  fun_induction unquote? mark cs generalizing inside rest with
  | case1 => simp at h
  | case2 => simp at h
  | case3 c cs ih =>
    obtain ⟨⟨i, r⟩, hi, hEq⟩ := Option.map_eq_some_iff.1 h
    simp only [Prod.mk.injEq] at hEq
    have := ih hi
    simp only [List.length_cons, ← hEq.2]
    omega
  | case4 cs => simp_all
  | case5 c cs _ _ _ ih =>
    obtain ⟨⟨i, r⟩, hi, hEq⟩ := Option.map_eq_some_iff.1 h
    simp only [Prod.mk.injEq] at hEq
    have := ih hi
    simp only [List.length_cons, ← hEq.2]
    omega

end Text

end AriaLocator

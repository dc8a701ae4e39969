/-!
# Blank characters and the words between them

A character is *blank* when it has the Unicode property White_Space. Locators allow blanks between
any two tokens, names collapse runs of them, and most attribute values are trimmed before they are
read. HTML itself separates the identifiers of a list by a smaller set, the five ASCII blanks.

Everything here works on `List Char`, with wrappers on `String` for callers that hold one.

## Main results

* `fields_eq_splitOnP`: cutting a text at separators is the library's cut.
* `fields_ne_nil`: a text has at least one part.
* `trimChars_surrounded`: trimming finds what stands between blanks.
-/

namespace AriaLocator.Text

/-- The Unicode property White_Space: twenty-five characters. -/
def isBlank (c : Char) : Bool :=
  let n := c.toNat
  (9 ≤ n && n ≤ 13) || n == 0x20 || n == 0x85 || n == 0xA0 || n == 0x1680 ||
    (0x2000 ≤ n && n ≤ 0x200A) || n == 0x2028 || n == 0x2029 || n == 0x202F ||
    n == 0x205F || n == 0x3000

/-- The blanks that HTML and CSS know: tab, line feed, form feed, carriage return and space. -/
def isAsciiBlank (c : Char) : Bool :=
  let n := c.toNat
  n == 9 || n == 10 || n == 12 || n == 13 || n == 0x20

/-! ## Trimming -/

/-- Drops characters that satisfy `p` from the end. -/
def dropEndWhile (p : Char → Bool) (cs : List Char) : List Char :=
  (cs.reverse.dropWhile p).reverse

/-- Drops blanks from both ends. -/
def trimChars (cs : List Char) : List Char :=
  dropEndWhile isBlank (cs.dropWhile isBlank)

/-- Dropping a whole run of characters leaves what follows it, unless this goes on with the run. -/
theorem dropWhile_append_of_stop {p : Char → Bool} {run rest : List Char}
    (hRun : ∀ c ∈ run, p c = true) (hStop : ∀ c, rest.head? = some c → p c = false) :
    (run ++ rest).dropWhile p = rest := by
  rw [List.dropWhile_append_of_pos hRun]
  cases rest with
  | nil => rfl
  | cons c rest => simp [hStop c rfl]

/-- Trimming finds what stands between blanks. -/
theorem trimChars_surrounded {before core behind : List Char}
    (hBefore : ∀ c ∈ before, isBlank c = true) (hBehind : ∀ c ∈ behind, isBlank c = true)
    (hFirst : ∀ c, core.head? = some c → isBlank c = false)
    (hLast : ∀ c, core.getLast? = some c → isBlank c = false) :
    trimChars (before ++ core ++ behind) = core := by
  have hEnd : dropEndWhile isBlank (core ++ behind) = core := by
    rw [dropEndWhile, List.reverse_append, dropWhile_append_of_stop, List.reverse_reverse]
    · intro c hc
      exact hBehind c (List.mem_reverse.mp hc)
    · intro c hc
      exact hLast c (List.head?_reverse ▸ hc)
  rw [trimChars, List.append_assoc]
  cases core with
  | nil =>
      have hAll : ∀ c ∈ before ++ behind, isBlank c = true := by
        intro c hc
        exact (List.mem_append.mp hc).elim (hBefore c) (hBehind c)
      have hNothing : (before ++ behind).dropWhile isBlank = [] := by
        have hRun : (before ++ behind ++ []).dropWhile isBlank = [] :=
          dropWhile_append_of_stop hAll (by simp)
        rwa [List.append_nil] at hRun
      rw [List.nil_append, hNothing]
      rfl
  | cons c core => rw [dropWhile_append_of_stop hBefore (by simpa using hFirst), hEnd]

/-- Trimming leaves a text without blanks where it is, at the end. -/
theorem trimChars_append (front : List Char) {core : List Char} (hSome : core ≠ [])
    (hCore : ∀ c ∈ core, isBlank c = false) :
    trimChars (front ++ core) = front.dropWhile isBlank ++ core := by
  have hSplit : front ++ core =
      front.takeWhile isBlank ++ (front.dropWhile isBlank ++ core) ++ [] := by
    rw [List.append_nil, ← List.append_assoc, List.takeWhile_append_dropWhile]
  rw [hSplit]
  refine trimChars_surrounded ?_ (by simp) ?_ ?_
  · intro c hc
    exact List.all_eq_true.mp List.all_takeWhile c hc
  · intro c hc
    have hDropped := List.head?_dropWhile_not isBlank front
    cases hRest : front.dropWhile isBlank with
    | nil =>
        rw [hRest, List.nil_append] at hc
        exact hCore c (List.mem_of_head? hc)
    | cons first rest =>
        rw [hRest, List.cons_append, List.head?_cons, Option.some.injEq] at hc
        simpa [hRest, hc] using hDropped
  · intro c hc
    rw [List.getLast?_append, List.getLast?_eq_some_getLast hSome, Option.some_or] at hc
    exact hCore c (Option.some.inj hc ▸ List.getLast_mem hSome)

/-- Drops blanks from both ends of a string. -/
def trim (s : String) : String := String.ofList (trimChars s.toList)

/-- Whether a text holds nothing but blanks. -/
def isBlankText (s : String) : Bool := s.toList.all isBlank

/-! ## Fields and words -/

/-- The parts of a text between separators, empty ones included. -/
def fields (isSeparator : Char → Bool) : List Char → List (List Char)
  | [] => [[]]
  | c :: cs =>
    if isSeparator c then [] :: fields isSeparator cs
    else
      match fields isSeparator cs with
      | [] => [[c]]
      | field :: rest => (c :: field) :: rest

theorem fields_ne_nil (isSeparator : Char → Bool) (cs : List Char) :
    fields isSeparator cs ≠ [] := by
  cases cs with
  | nil => simp [fields]
  | cons c cs =>
    simp only [fields]
    split
    · simp
    · split <;> simp

/-- The parts are those of the library's cut, with its lemmas. -/
theorem fields_eq_splitOnP (isSeparator : Char → Bool) (cs : List Char) :
    fields isSeparator cs = cs.splitOnP isSeparator := by
  induction cs with
  | nil => rfl
  | cons c cs ih =>
    rw [List.splitOnP_cons_eq_if_modifyHead, ← ih, fields]
    cases hFields : fields isSeparator cs with
    | nil => exact absurd hFields (fields_ne_nil _ _)
    | cons field rest => rfl

/-- The non-empty parts of a text between separators. -/
def runs (isSeparator : Char → Bool) (cs : List Char) : List (List Char) :=
  (fields isSeparator cs).filter fun field => !field.isEmpty

/-- The words of a text: its maximal runs without a blank. -/
def words (s : String) : List String :=
  (runs isBlank s.toList).map String.ofList

/-- The tokens of an HTML list attribute, separated by ASCII blanks. -/
def asciiWords (s : String) : List String :=
  (runs isAsciiBlank s.toList).map String.ofList

/-- Trims a text and turns every run of blanks inside it into one space. -/
def collapse (s : String) : String := " ".intercalate (words s)

end AriaLocator.Text

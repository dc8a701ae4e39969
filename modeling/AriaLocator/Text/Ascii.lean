/-!
# ASCII letters

HTML compares most keywords without regard to the case of ASCII letters and leaves every other
character alone. `lower` is that folding; two texts match when their foldings are equal.
-/

namespace AriaLocator.Text

/-- A text with its ASCII capitals made small. -/
def lower (s : String) : String := String.ofList (s.toList.map Char.toLower)

/-- Whether two texts differ at most in the case of ASCII letters. -/
def eqIgnoringCase (a b : String) : Bool :=
  a.toList.map Char.toLower == b.toList.map Char.toLower

/-- Whether `whole` begins with `part`. -/
def startsWith (whole part : String) : Bool := part.toList.isPrefixOf whole.toList

/-- Whether `whole` ends with `part`. -/
def endsWith (whole part : String) : Bool := part.toList.isSuffixOf whole.toList

/-- Whether `part` stands somewhere inside `whole`. -/
def occursIn (part : List Char) : List Char → Bool
  | [] => part.isEmpty
  | c :: cs => part.isPrefixOf (c :: cs) || occursIn part cs

/-- Whether `part` stands somewhere inside `whole`. -/
def contains (whole part : String) : Bool := occursIn part.toList whole.toList

theorem occursIn_iff {part whole : List Char} :
    occursIn part whole = true ↔ part <:+: whole := by
  induction whole with
  | nil => simp [occursIn, List.infix_nil]
  | cons c cs ih =>
    simp only [occursIn, Bool.or_eq_true, List.isPrefixOf_iff_prefix, ih, List.infix_cons_iff]

end AriaLocator.Text

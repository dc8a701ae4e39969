import AriaLocator.Locator.Basic
import AriaLocator.Text.Blank

/-!
# Reading locators

```text
locator    := node* ("outer" node+)?
node       := "{" role name? constraint* "}"
constraint := attribute ":" (value | quoted)
name       := quoted
```

Roles and attributes are words of small ASCII letters, bare values consist of letters, digits,
underscores and hyphens, and quoted texts are those of `Text.unquote?`. Blanks may stand before,
between and after the tokens and mean nothing.

Every function here reads from the start of a text and hands back what follows. A fault keeps the
text at which it was found, and its position is counted from there.

## Main results

* `length_of_readNode`: reading a node uses up at least one character.
-/

namespace AriaLocator

namespace Locator

/-- Why reading stops. -/
inductive Fault where
  /-- Something else should have stood in front of `rest`. -/
  | unexpected (expected : Expectation) (rest : List Char)
  | unknownRole (word : List Char)
  | unsupportedAttribute (word : List Char)
deriving DecidableEq, Repr

/-- A value read from the start of a text and what follows it, or a fault. -/
abbrev Reading (α : Type) := Except Fault (α × List Char)

/-! ## Tokens -/

/-- Drops blanks from the front. -/
def skipBlanks (cs : List Char) : List Char := cs.dropWhile Text.isBlank

/-- The word of small letters at the start of a text. -/
def wordOf (cs : List Char) : List Char := cs.takeWhile Char.isLower

/-- What follows the word at the start of a text. -/
def afterWord (cs : List Char) : List Char := cs.dropWhile Char.isLower

/-- The mark that opens a quoted text, and what follows it. -/
def openingMark? : List Char → Option (QuoteMark × List Char)
  | '\'' :: rest => some (.single, rest)
  | '"' :: rest => some (.double, rest)
  | _ => none

/-- The inside of a quoted text whose opening mark has been read. -/
def readQuoted (mark : QuoteMark) (cs : List Char) : Reading String :=
  match Text.unquote? mark.char cs with
  | some (inside, rest) => .ok (String.ofList inside, rest)
  | none => .error (.unexpected (.closingQuote mark) [])

/-- A bare value. -/
def readBare (cs : List Char) : Reading String :=
  match cs.takeWhile Constraint.isBareChar with
  | [] => .error (.unexpected .attributeValue cs)
  | value => .ok (String.ofList value, cs.dropWhile Constraint.isBareChar)

/-- The value of an attribute. -/
def readValue (cs : List Char) : Reading String :=
  match openingMark? cs with
  | some (mark, inside) => readQuoted mark inside
  | none => readBare cs

/-! ## Nodes -/

/-- A constraint, which begins with a small letter. -/
def readConstraint (cs : List Char) : Reading Constraint :=
  match AriaAttribute.ofName? (String.ofList (wordOf cs)) with
  | none => .error (.unsupportedAttribute (wordOf cs))
  | some aria =>
    match skipBlanks (afterWord cs) with
    | ':' :: rest =>
      match readValue (skipBlanks rest) with
      | .error fault => .error fault
      | .ok (value, rest) => .ok (⟨aria, value⟩, rest)
    | rest => .error (.unexpected .colon rest)

theorem length_skipBlanks (cs : List Char) : (skipBlanks cs).length ≤ cs.length :=
  (List.dropWhile_sublist _).length_le

theorem length_afterWord (cs : List Char) : (afterWord cs).length ≤ cs.length :=
  (List.dropWhile_sublist _).length_le

theorem length_of_openingMark? {cs inside : List Char} {mark : QuoteMark}
    (h : openingMark? cs = some (mark, inside)) : inside.length < cs.length := by
  unfold openingMark? at h
  split at h <;> simp_all

theorem length_of_readQuoted {mark : QuoteMark} {cs rest : List Char} {value : String}
    (h : readQuoted mark cs = .ok (value, rest)) : rest.length < cs.length := by
  unfold readQuoted at h
  split at h
  · next inside rest' hu =>
    have hLength := Text.length_of_unquote? hu
    simp only [Except.ok.injEq, Prod.mk.injEq] at h
    rw [← h.2]
    exact hLength
  · simp at h

theorem length_of_readBare {cs rest : List Char} {value : String}
    (h : readBare cs = .ok (value, rest)) : rest.length ≤ cs.length := by
  unfold readBare at h
  split at h
  · simp at h
  · simp only [Except.ok.injEq, Prod.mk.injEq] at h
    rw [← h.2]
    exact (List.dropWhile_sublist _).length_le

theorem length_of_readValue {cs rest : List Char} {value : String}
    (h : readValue cs = .ok (value, rest)) : rest.length ≤ cs.length := by
  unfold readValue at h
  split at h
  · next hMark =>
    have := length_of_openingMark? hMark
    have := length_of_readQuoted h
    omega
  · exact length_of_readBare h

theorem length_of_readConstraint {cs rest : List Char} {c : Constraint}
    (h : readConstraint cs = .ok (c, rest)) : rest.length < cs.length := by
  unfold readConstraint at h
  split at h
  · simp at h
  · split at h
    · next rest' hColon =>
      split at h
      · simp at h
      · next value rest'' hValue =>
        simp only [Except.ok.injEq, Prod.mk.injEq] at h
        have h1 := length_of_readValue hValue
        have h2 := length_skipBlanks rest'
        have h3 := length_skipBlanks (afterWord cs)
        have h4 := length_afterWord cs
        rw [hColon, List.length_cons] at h3
        rw [← h.2]
        omega
    · simp at h

/-- Constraints up to the closing brace of a node. -/
def readConstraints (cs : List Char) : Reading (List Constraint) :=
  match hSkip : skipBlanks cs with
  | [] => .error (.unexpected .closingBraceOrAttribute [])
  | c :: rest =>
    if c = '}' then .ok ([], rest)
    else if c.isLower then
      match hRead : readConstraint (c :: rest) with
      | .error fault => .error fault
      | .ok (first, rest') =>
        have : rest'.length < cs.length := by
          have h1 := length_of_readConstraint hRead
          have h2 := length_skipBlanks cs
          rw [hSkip] at h2
          omega
        match readConstraints rest' with
        | .error fault => .error fault
        | .ok (more, rest) => .ok (first :: more, rest)
    else .error (.unexpected .closingBraceOrAttribute (c :: rest))
termination_by cs.length

/-- The name of a node, if it has one. -/
def readName? (cs : List Char) : Reading (Option String) :=
  match openingMark? cs with
  | none => .ok (none, cs)
  | some (mark, inside) =>
    match readQuoted mark inside with
    | .error fault => .error fault
    | .ok (name, rest) => .ok (if name = "" then none else some name, rest)

/-- The name and the constraints of a node with a known role. -/
def readDetails (role : Role) (cs : List Char) : Reading Node :=
  match readName? (skipBlanks cs) with
  | .error fault => .error fault
  | .ok (name?, rest) =>
    match readConstraints rest with
    | .error fault => .error fault
    | .ok (constraints, rest) => .ok (⟨role, constraints, name?⟩, rest)

/-- A node whose opening brace has been read. -/
def readNode (inside : List Char) : Reading Node :=
  let cs := skipBlanks inside
  if wordOf cs = [] then .error (.unexpected .role cs)
  else
    match Role.ofName? (String.ofList (wordOf cs)) with
    | none => .error (.unknownRole (wordOf cs))
    | some role => readDetails role (afterWord cs)

theorem length_of_readConstraints {cs rest : List Char} {constraints : List Constraint}
    (h : readConstraints cs = .ok (constraints, rest)) : rest.length < cs.length := by
  fun_induction readConstraints cs generalizing constraints rest with
  | case1 => simp at h
  | case2 cs r hSkip =>
    simp only [Except.ok.injEq, Prod.mk.injEq] at h
    have := length_skipBlanks cs
    rw [hSkip, List.length_cons] at this
    rw [← h.2]
    omega
  | case3 => simp at h
  | case4 => simp at h
  | case5 cs c r _ _ _ first rest' _ hShorter more rest'' hMore ih =>
    simp only [Except.ok.injEq, Prod.mk.injEq] at h
    have := ih hMore
    rw [← h.2]
    omega
  | case6 => simp at h

theorem length_of_readName? {cs rest : List Char} {name? : Option String}
    (h : readName? cs = .ok (name?, rest)) : rest.length ≤ cs.length := by
  unfold readName? at h
  split at h
  · simp_all
  · next hMark =>
    split at h
    · simp at h
    · next hQuoted =>
      have := length_of_openingMark? hMark
      have := length_of_readQuoted hQuoted
      simp only [Except.ok.injEq, Prod.mk.injEq] at h
      rw [← h.2]
      omega

/-- Reading a node uses up at least one character. -/
theorem length_of_readNode {inside rest : List Char} {n : Node}
    (h : readNode inside = .ok (n, rest)) : rest.length < inside.length := by
  simp only [readNode, readDetails] at h
  split at h
  · simp at h
  · split at h
    · simp at h
    · split at h
      · simp at h
      · next hName =>
        split at h
        · simp at h
        · next hConstraints =>
          simp only [Except.ok.injEq, Prod.mk.injEq] at h
          have h1 := length_of_readConstraints hConstraints
          have h2 := length_of_readName? hName
          have h3 := length_skipBlanks (afterWord (skipBlanks inside))
          have h4 := length_afterWord (skipBlanks inside)
          have h5 := length_skipBlanks inside
          rw [← h.2]
          omega

/-! ## Locators -/

/-- Nodes as long as there are any. -/
def readNodes (cs : List Char) : Reading (List Node) :=
  match hSkip : skipBlanks cs with
  | [] => .ok ([], [])
  | c :: rest =>
    if c = '{' then
      match hRead : readNode rest with
      | .error fault => .error fault
      | .ok (first, rest') =>
        have : rest'.length < cs.length := by
          have h1 := length_of_readNode hRead
          have h2 := length_skipBlanks cs
          rw [hSkip, List.length_cons] at h2
          omega
        match readNodes rest' with
        | .error fault => .error fault
        | .ok (more, rest) => .ok (first :: more, rest)
    else .ok ([], c :: rest)
termination_by cs.length

/-- Drops `outer` from the front, if it stands there. -/
def afterOuter? (cs : List Char) : Option (List Char) :=
  if outerWord.isPrefixOf cs then some (cs.drop outerWord.length) else none

/-- The nodes after `outer`, of which there has to be one. -/
def readOuterNodes (cs : List Char) : Reading (List Node) :=
  match skipBlanks cs with
  | '{' :: rest => readNodes ('{' :: rest)
  | rest => .error (.unexpected .node rest)

/-- Checks that nothing but blanks follows. -/
def finish (nodes : List Node × List Node) (rest : List Char) :
    Except Fault (List Node × List Node) :=
  match skipBlanks rest with
  | [] => .ok nodes
  | rest =>
    .error (.unexpected (if nodes.2.isEmpty then .nodeOuterOrEnd else .nodeOrEnd) rest)

/-- The two parts of a locator, which take up the whole text. -/
def readParts (cs : List Char) : Except Fault (List Node × List Node) :=
  match readNodes cs with
  | .error fault => .error fault
  | .ok (preOuter, rest) =>
    match afterOuter? rest with
    | none => finish (preOuter, []) rest
    | some rest =>
      match readOuterNodes rest with
      | .error fault => .error fault
      | .ok (postOuter, rest) => finish (preOuter, postOuter) rest

/-- What is wrong with a text in which a fault was found. -/
def Fault.malformed (text : String) : Fault → Malformed
  | .unexpected expected rest =>
    .unexpected text expected (text.toList.length - rest.length)
  | .unknownRole word => .unknownRole (String.ofList word)
  | .unsupportedAttribute word => .unsupportedAttribute (String.ofList word)

/-- Reads a locator. -/
def parse (text : String) : Except Malformed Locator :=
  if Text.isBlankText text then .error .empty
  else
    match readParts text.toList with
    | .error fault => .error (fault.malformed text)
    | .ok (preOuter, postOuter) => make preOuter postOuter

/-- Reads a locator, with the error that callers see. -/
def ofText (text : String) : Except Error Locator :=
  match parse text with
  | .error m => .error m.error
  | .ok l => .ok l

end Locator

end AriaLocator

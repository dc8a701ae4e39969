import Mathlib.Data.List.DropRight
import AriaLocator.Locator.Parser

/-!
# Reading undoes writing

A locator is written so that no token runs into the next: a word is followed by a blank, a colon or
a brace, a bare value by a blank or a brace, and a quoted text ends at its own closing quote.  So
each reading function, put in front of what the writer has put there, hands back exactly the part
that was written and leaves the rest alone.  The lemmas below say this token by token, for any rest
that cannot prolong the token, and the theorem on whole locators is assembled from them.

## Main results

* `readParts_chars`: the two parts of a locator are read back from its written form.
* `parse_text_inverse`: writing and reading are inverse on the locators that can be made.
-/

namespace AriaLocator

/-! ## Nodes as callers build them -/

/-- The nodes that are built from a role, a name and constraints, in any order. -/
inductive Node.Built : Node → Prop
  | ofRole (role : Role) : Node.Built (Node.ofRole role)
  | withName {n : Node} (name : String) : n.Built → Node.Built (n.withName name)
  | withConstraint {n : Node} (c : Constraint) : n.Built → Node.Built (n.withConstraint c)

namespace Node

/-- Building drops empty names, and nothing else ever puts one in. -/
theorem Built.name?_ne_empty {n : Node} (h : n.Built) : n.name? ≠ some "" := by
  induction h with
  | ofRole role => simp [Node.ofRole]
  | withName name _ _ =>
      by_cases hName : name = "" <;> simp [Node.withName, hName]
  | withConstraint c _ ih => exact ih

/-- Every node without an empty name is built. -/
theorem built_of_name?_ne_empty (role : Role) (name? : Option String) (hName : name? ≠ some "")
    (constraints : List Constraint) : Node.Built ⟨role, constraints, name?⟩ := by
  induction constraints using List.reverseRecOn with
  | nil =>
      cases name? with
      | none => exact Built.ofRole role
      | some name =>
          have hne : name ≠ "" := fun h => hName (by rw [h])
          simpa [withName, ofRole, hne] using Built.withName name (Built.ofRole role)
  | append_singleton constraints c ih => exact Built.withConstraint c ih

/-- The name of a built node is never empty, so it is always written. -/
theorem Built.filledName?_eq {n : Node} (h : n.Built) : n.filledName? = n.name? := by
  have hne := h.name?_ne_empty
  cases hName : n.name? with
  | none => simp [filledName?, hName]
  | some name =>
      rw [hName] at hne
      have hne : name ≠ "" := fun h => hne (by rw [h])
      simp [filledName?, hName, hne]

end Node

namespace Locator

/-- The locators that can be made from built nodes. -/
structure Accepted (l : Locator) : Prop where
  /-- Its two parts pass the checks. -/
  made : make l.preOuter l.postOuter = .ok l
  /-- Its nodes are built. -/
  built : ∀ n ∈ l.nodes, n.Built

/-! ## Words and blanks -/

/-- The characters that may follow a word, a bare value or a node in the written form. -/
def isDelimiter (c : Char) : Bool := c == ' ' || c == '}' || c == ':'

/-- The text does not begin with a character that prolongs a token. -/
def Delimited (cs : List Char) : Prop := ∀ c, cs.head? = some c → isDelimiter c = true

theorem delimited_cons {c : Char} (cs : List Char) (h : isDelimiter c = true) :
    Delimited (c :: cs) := by
  intro a ha
  simp only [List.head?_cons, Option.some.injEq] at ha
  exact ha ▸ h

private theorem not_lower_of_delimiter {c : Char} (h : isDelimiter c = true) :
    c.isLower = false ∧ Constraint.isBareChar c = false := by
  simp only [isDelimiter, Bool.or_eq_true, beq_iff_eq] at h
  rcases h with (rfl | rfl) | rfl <;> decide

/-- The numbers of characters in a range. -/
private theorem toNat_of_range {first last c : Char}
    (h : (decide (first.val ≤ c.val) && decide (c.val ≤ last.val)) = true) :
    first.toNat ≤ c.toNat ∧ c.toNat ≤ last.toNat := by
  obtain ⟨hLow, hHigh⟩ := Bool.and_eq_true_iff.mp h
  exact ⟨UInt32.le_iff_toNat_le.mp (of_decide_eq_true hLow),
    UInt32.le_iff_toNat_le.mp (of_decide_eq_true hHigh)⟩

theorem not_blank_of_lower {c : Char} (h : c.isLower = true) : Text.isBlank c = false := by
  have hRange : 97 ≤ c.toNat ∧ c.toNat ≤ 122 := @toNat_of_range 'a' 'z' c h
  simp only [Text.isBlank, Bool.or_eq_false_iff, Bool.and_eq_false_iff, beq_eq_false_iff_ne,
    decide_eq_false_iff_not]
  omega

/-- Scanning stops at the end of a token whose follower the test refuses. -/
theorem span_append {test : Char → Bool} {token rest : List Char}
    (hToken : ∀ c ∈ token, test c = true) (hRest : ∀ c, rest.head? = some c → test c = false) :
    (token ++ rest).takeWhile test = token ∧ (token ++ rest).dropWhile test = rest := by
  have hStop : rest.takeWhile test = [] ∧ rest.dropWhile test = rest := by
    cases rest with
    | nil => exact ⟨rfl, rfl⟩
    | cons c rest => simp [hRest c rfl]
  rw [List.takeWhile_append_of_pos hToken, List.dropWhile_append_of_pos hToken, hStop.1, hStop.2,
    List.append_nil]
  exact ⟨rfl, rfl⟩

/-- A word that stands in front of a delimiter is read whole. -/
theorem word_append {word rest : List Char} (hWord : ∀ c ∈ word, c.isLower = true)
    (hRest : Delimited rest) :
    wordOf (word ++ rest) = word ∧ afterWord (word ++ rest) = rest :=
  span_append hWord fun c hc => (not_lower_of_delimiter (hRest c hc)).1

/-- Blanks before a small letter are all that is skipped. -/
theorem skipBlanks_word {word rest : List Char} (hWord : ∀ c ∈ word, c.isLower = true)
    (hne : word ≠ []) : skipBlanks (word ++ rest) = word ++ rest := by
  cases word with
  | nil => exact absurd rfl hne
  | cons c word =>
      simp [skipBlanks, not_blank_of_lower (hWord c List.mem_cons_self)]

theorem skipBlanks_space (cs : List Char) : skipBlanks (' ' :: cs) = skipBlanks cs := by
  have hSpace : Text.isBlank ' ' = true := by decide
  simp [skipBlanks, hSpace]

theorem skipBlanks_skipBlanks (cs : List Char) : skipBlanks (skipBlanks cs) = skipBlanks cs :=
  List.dropWhile_idempotent _ _

/-- The names of roles are words. -/
theorem isLower_of_mem_roleName (role : Role) :
    (∀ c ∈ role.name.toList, c.isLower = true) ∧ role.name.toList ≠ [] := by
  have hAll : ∀ entry ∈ Role.names, entry.2.toList.all Char.isLower = true ∧
      entry.2.toList ≠ [] := by decide
  obtain ⟨entry, hFind, -⟩ := Option.map_eq_some_iff.mp (Role.ofName?_name role)
  have hName : entry.2 = role.name := by simpa using List.find?_some hFind
  obtain ⟨hLower, hSome⟩ := hAll entry (List.mem_of_find?_eq_some hFind)
  rw [← hName]
  exact ⟨List.all_eq_true.mp hLower, hSome⟩

/-- The names of attributes are words. -/
theorem isLower_of_mem_ariaName (a : AriaAttribute) :
    (∀ c ∈ a.name.toList, c.isLower = true) ∧ a.name.toList ≠ [] := by
  have hLower : a.name.toList.all Char.isLower = true := by cases a <;> decide
  have hSome : a.name.toList ≠ [] := by cases a <;> decide
  exact ⟨List.all_eq_true.mp hLower, hSome⟩

/-! ## Quoted texts and values -/

/-- A quoted text opens with its mark. -/
theorem openingMark?_char (mark : QuoteMark) (cs : List Char) :
    openingMark? (mark.char :: cs) = some (mark, cs) := by
  cases mark <;> rfl

/-- No other character opens a quoted text. -/
theorem openingMark?_eq_none {c : Char} (cs : List Char) (hSingle : c ≠ '\'')
    (hDouble : c ≠ '"') : openingMark? (c :: cs) = none := by
  unfold openingMark?
  split
  · simp_all
  · simp_all
  · rfl

theorem not_mark_of_bare {c : Char} (h : Constraint.isBareChar c = true) :
    c ≠ '\'' ∧ c ≠ '"' ∧ Text.isBlank c = false := by
  refine ⟨?_, ?_, ?_⟩
  · rintro rfl
    exact absurd h (by decide)
  · rintro rfl
    exact absurd h (by decide)
  · have hKinds : (((c.isUpper || c.isLower) || c.isDigit) || c == '_' || c == '-') = true := h
    simp only [Bool.or_eq_true, beq_iff_eq] at hKinds
    rcases hKinds with (((hUpper | hLower) | hDigit) | rfl) | rfl
    · have hBoth := of_decide_eq_true hUpper
      have hLow : 65 ≤ c.toNat := hBoth.1
      have hHigh : c.toNat ≤ 90 := hBoth.2
      grind [Text.isBlank]
    · exact not_blank_of_lower hLower
    · have hRange : 48 ≤ c.toNat ∧ c.toNat ≤ 57 := @toNat_of_range '0' '9' c hDigit
      grind [Text.isBlank]
    · decide
    · decide

/-- What the writer puts between quotes is read back, whatever follows. -/
theorem readQuoted_quoteChars (mark : QuoteMark) (value : String) (rest : List Char) :
    openingMark? (Text.quoteChars mark.char value.toList ++ rest) =
        some (mark, Text.escapeChars mark.char value.toList ++ mark.char :: rest) ∧
      readQuoted mark (Text.escapeChars mark.char value.toList ++ mark.char :: rest) =
        .ok (value, rest) := by
  obtain ⟨hQuoted, hRead⟩ := Text.unquote_quoteChars mark value.toList rest
  constructor
  · rw [hQuoted, openingMark?_char]
  · simp only [readQuoted, hRead, String.ofList_toList]

/-- A bare value that stands in front of a delimiter is read whole. -/
theorem readBare_append (value : String) (hBare : Constraint.isBare value.toList = true)
    {rest : List Char} (hRest : Delimited rest) :
    readBare (value.toList ++ rest) = .ok (value, rest) := by
  simp only [Constraint.isBare, Bool.and_eq_true, Bool.not_eq_true', List.isEmpty_eq_false_iff,
    List.all_eq_true] at hBare
  obtain ⟨hne, hAll⟩ := hBare
  obtain ⟨hTake, hDrop⟩ := span_append hAll fun c hc => (not_lower_of_delimiter (hRest c hc)).2
  unfold readBare
  rw [hTake, hDrop]
  split
  · next hNil => exact absurd hNil hne
  · rw [String.ofList_toList]

/-- The value of a constraint is read back; blanks in front of it do not occur. -/
theorem readValue_append (value : String) {rest : List Char} (hRest : Delimited rest) :
    readValue (skipBlanks (Constraint.valueChars value ++ rest)) = .ok (value, rest) := by
  unfold Constraint.valueChars
  split
  · next hBare =>
    have hRead := readBare_append value hBare hRest
    simp only [Constraint.isBare, Bool.and_eq_true, Bool.not_eq_true', List.isEmpty_eq_false_iff,
      List.all_eq_true] at hBare
    obtain ⟨hne, hAll⟩ := hBare
    obtain ⟨c, cs, hcs⟩ := List.exists_cons_of_ne_nil hne
    obtain ⟨hSingle, hDouble, hBlank⟩ := not_mark_of_bare (hAll c (by simp [hcs]))
    have hSkip : skipBlanks (value.toList ++ rest) = value.toList ++ rest := by
      simp [hcs, skipBlanks, hBlank]
    have hOpen : openingMark? (value.toList ++ rest) = none := by
      rw [hcs, List.cons_append]
      exact openingMark?_eq_none _ hSingle hDouble
    simp only [hSkip, readValue, hOpen, hRead]
  · obtain ⟨hOpen, hRead⟩ := readQuoted_quoteChars (QuoteMark.preferredFor value) value rest
    have hBlank : Text.isBlank (QuoteMark.preferredFor value).char = false := by
      cases QuoteMark.preferredFor value <;> decide
    have hSkip : skipBlanks
        (Text.quoteChars (QuoteMark.preferredFor value).char value.toList ++ rest) =
        Text.quoteChars (QuoteMark.preferredFor value).char value.toList ++ rest := by
      simp [Text.quoteChars, skipBlanks, hBlank]
    simp only [hSkip, readValue, hOpen, hRead]

/-! ## Constraints and nodes -/

/-- A constraint is read back from its written form. -/
theorem readConstraint_chars (c : Constraint) {rest : List Char} (hRest : Delimited rest) :
    readConstraint (c.chars ++ rest) = .ok (c, rest) := by
  obtain ⟨hWord, -⟩ := isLower_of_mem_ariaName c.aria
  have hColon : Delimited (':' :: (Constraint.valueChars c.value ++ rest)) :=
    delimited_cons _ (by decide)
  obtain ⟨hName, hAfter⟩ := word_append hWord hColon
  have hSplit : c.chars ++ rest =
      c.aria.name.toList ++ ':' :: (Constraint.valueChars c.value ++ rest) := by
    simp [Constraint.chars]
  have hSkip : skipBlanks (':' :: (Constraint.valueChars c.value ++ rest)) =
      ':' :: (Constraint.valueChars c.value ++ rest) := by
    have hBlank : Text.isBlank ':' = false := by decide
    simp [skipBlanks, hBlank]
  unfold readConstraint
  rw [hSplit, hName, hAfter, String.ofList_toList, AriaAttribute.ofName?_name]
  simp only [hSkip, readValue_append c.value hRest]

/-- A brace ends the constraints. -/
theorem readConstraints_brace {cs rest : List Char} (h : skipBlanks cs = '}' :: rest) :
    readConstraints cs = .ok ([], rest) := by
  rw [readConstraints]
  split
  · next hSkip => exact absurd (h.symm.trans hSkip) (by simp)
  · next c tail hSkip =>
    obtain ⟨rfl, rfl⟩ := List.cons.inj (hSkip.symm.trans h)
    rw [if_pos rfl]

/-- Where a small letter stands, a constraint is read, and the others after it. -/
theorem readConstraints_letter {cs rest : List Char} {c : Char} (h : skipBlanks cs = c :: rest)
    (hLower : c.isLower = true) :
    readConstraints cs = (readConstraint (c :: rest)).bind fun (first, rest') =>
      (readConstraints rest').map fun (more, rest) => (first :: more, rest) := by
  have hBrace : c ≠ '}' := by
    rintro rfl
    exact absurd hLower (by decide)
  rw [readConstraints]
  split
  · next hSkip => exact absurd (h.symm.trans hSkip) (by simp)
  · next c' tail hSkip =>
    obtain ⟨rfl, rfl⟩ := List.cons.inj (hSkip.symm.trans h)
    rw [if_neg hBrace, if_pos hLower]
    split
    · next fault hFault =>
      rw [hFault]
      rfl
    · next first rest' hOk =>
      simp only [hOk, Except.bind]
      cases readConstraints rest' <;> rfl

/-- A constraint in front is read, and the others after it. -/
theorem readConstraints_cons {cs rest rest' : List Char} {c : Char} {first : Constraint}
    (h : skipBlanks cs = c :: rest) (hLower : c.isLower = true)
    (hRead : readConstraint (c :: rest) = .ok (first, rest')) :
    readConstraints cs =
      match readConstraints rest' with
      | .error fault => .error fault
      | .ok (more, rest) => .ok (first :: more, rest) := by
  rw [readConstraints_letter h hLower, hRead]
  simp only [Except.bind]
  cases readConstraints rest' <;> rfl

theorem delimited_constraintChars (constraints : List Constraint) (rest : List Char) :
    Delimited (Node.constraintChars constraints ++ '}' :: rest) := by
  cases constraints with
  | nil => exact delimited_cons _ (by decide)
  | cons c constraints => exact delimited_cons _ (by decide)

/-- Constraints are read back up to the brace behind them, with or without blanks in front. -/
theorem readConstraints_constraintChars (constraints : List Constraint) (rest : List Char) :
    ∀ cs, skipBlanks cs = skipBlanks (Node.constraintChars constraints ++ '}' :: rest) →
      readConstraints cs = .ok (constraints, rest) := by
  induction constraints with
  | nil =>
      intro cs hSkip
      have hBlank : Text.isBlank '}' = false := by decide
      have hBrace : skipBlanks ('}' :: rest) = '}' :: rest := by simp [skipBlanks, hBlank]
      exact readConstraints_brace (hSkip.trans hBrace)
  | cons c constraints ih =>
      intro cs hSkip
      obtain ⟨hWord, hne⟩ := isLower_of_mem_ariaName c.aria
      have hSplit : Node.constraintChars (c :: constraints) ++ '}' :: rest =
          ' ' :: (c.chars ++ (Node.constraintChars constraints ++ '}' :: rest)) := by
        simp [Node.constraintChars]
      have hStay : skipBlanks (c.chars ++ (Node.constraintChars constraints ++ '}' :: rest)) =
          c.chars ++ (Node.constraintChars constraints ++ '}' :: rest) := by
        simpa [Constraint.chars] using skipBlanks_word hWord hne
      obtain ⟨first, more, hChars⟩ := List.exists_cons_of_ne_nil hne
      have hFirst : first.isLower = true := hWord first (by simp [hChars])
      have hRead := readConstraint_chars c (delimited_constraintChars constraints rest)
      rw [hSplit, skipBlanks_space, hStay, Constraint.chars, hChars] at hSkip
      rw [Constraint.chars, hChars] at hRead
      rw [readConstraints_cons hSkip hFirst hRead, ih _ rfl]

/-- Behind the role, constraints do not look like a name. -/
theorem openingMark?_constraintChars (constraints : List Constraint) (rest : List Char) :
    openingMark? (skipBlanks (Node.constraintChars constraints ++ '}' :: rest)) = none := by
  cases constraints with
  | nil =>
      have hBlank : Text.isBlank '}' = false := by decide
      simp [Node.constraintChars, skipBlanks, hBlank, openingMark?]
  | cons c constraints =>
      obtain ⟨hWord, hne⟩ := isLower_of_mem_ariaName c.aria
      obtain ⟨first, more, hChars⟩ := List.exists_cons_of_ne_nil hne
      have hFirst : first.isLower = true := hWord first (by simp [hChars])
      have hSplit : Node.constraintChars (c :: constraints) ++ '}' :: rest =
          ' ' :: (c.aria.name.toList ++ (':' :: Constraint.valueChars c.value ++
            (Node.constraintChars constraints ++ '}' :: rest))) := by
        simp [Node.constraintChars, Constraint.chars]
      rw [hSplit, skipBlanks_space, skipBlanks_word hWord hne, hChars, List.cons_append]
      refine openingMark?_eq_none _ ?_ ?_
      · rintro rfl
        exact absurd hFirst (by decide)
      · rintro rfl
        exact absurd hFirst (by decide)

/-- The name of a node is read back, up to blanks in front of what follows. -/
theorem readName?_nameChars (mark : Option QuoteMark) (name? : Option String)
    (hName : name? ≠ some "") (constraints : List Constraint) (rest : List Char) :
    ∃ tail, readName? (skipBlanks (Node.nameChars mark name? ++
        (Node.constraintChars constraints ++ '}' :: rest))) = .ok (name?, tail) ∧
      skipBlanks tail = skipBlanks (Node.constraintChars constraints ++ '}' :: rest) := by
  cases name? with
  | none =>
      refine ⟨skipBlanks (Node.constraintChars constraints ++ '}' :: rest), ?_,
        skipBlanks_skipBlanks _⟩
      simp only [Node.nameChars, List.nil_append, readName?, openingMark?_constraintChars]
  | some name =>
      have hne : name ≠ "" := fun h => hName (by rw [h])
      refine ⟨Node.constraintChars constraints ++ '}' :: rest, ?_, rfl⟩
      obtain ⟨hOpen, hRead⟩ := readQuoted_quoteChars
        (mark.getD (QuoteMark.preferredFor name)) name
        (Node.constraintChars constraints ++ '}' :: rest)
      have hBlank : Text.isBlank (mark.getD (QuoteMark.preferredFor name)).char = false := by
        cases mark.getD (QuoteMark.preferredFor name) <;> decide
      have hSkip : skipBlanks (Node.nameChars mark (some name) ++
          (Node.constraintChars constraints ++ '}' :: rest)) =
          Text.quoteChars (mark.getD (QuoteMark.preferredFor name)).char name.toList ++
            (Node.constraintChars constraints ++ '}' :: rest) := by
        simp only [Node.nameChars, List.cons_append, skipBlanks_space]
        simp [Text.quoteChars, skipBlanks, hBlank]
      simp only [hSkip, readName?, hOpen, hRead, hne, if_false]

/-- A node is its opening brace and an inside that is read back. -/
theorem readNode_chars (mark : Option QuoteMark) {n : Node} (hBuilt : n.Built) (rest : List Char) :
    ∃ inside, n.chars mark ++ rest = '{' :: inside ∧ readNode inside = .ok (n, rest) := by
  obtain ⟨hWord, hne⟩ := isLower_of_mem_roleName n.role
  obtain ⟨tail, hName, hTail⟩ := readName?_nameChars mark n.name? hBuilt.name?_ne_empty
    n.constraints rest
  have hDelimited : Delimited (Node.nameChars mark n.name? ++
      (Node.constraintChars n.constraints ++ '}' :: rest)) := by
    cases n.name? with
    | none => exact delimited_constraintChars n.constraints rest
    | some name => exact delimited_cons _ (by decide)
  obtain ⟨hRole, hAfter⟩ := word_append hWord hDelimited
  refine ⟨n.role.name.toList ++ (Node.nameChars mark n.name? ++
    (Node.constraintChars n.constraints ++ '}' :: rest)), ?_, ?_⟩
  · simp [Node.chars, hBuilt.filledName?_eq]
  · simp only [readNode, skipBlanks_word hWord hne, hRole, hAfter, hne, if_false,
      String.ofList_toList, Role.ofName?_name, readDetails, hName,
      readConstraints_constraintChars n.constraints rest tail hTail]

/-! ## Chains of nodes -/

/-- Where no brace opens, there are no nodes. -/
theorem readNodes_stop {cs : List Char} (h : ∀ rest, skipBlanks cs ≠ '{' :: rest) :
    readNodes cs = .ok ([], skipBlanks cs) := by
  rw [readNodes]
  split
  · next hSkip => rw [hSkip]
  · next c rest hSkip =>
    have hBrace : c ≠ '{' := by
      rintro rfl
      exact h rest hSkip
    rw [if_neg hBrace, hSkip]

/-- Where a brace opens, a node is read, and the others after it. -/
theorem readNodes_brace {cs inside : List Char} (h : skipBlanks cs = '{' :: inside) :
    readNodes cs = (readNode inside).bind fun (first, rest) =>
      (readNodes rest).map fun (more, rest) => (first :: more, rest) := by
  rw [readNodes]
  split
  · next hSkip => exact absurd (h.symm.trans hSkip) (by simp)
  · next c tail hSkip =>
    obtain ⟨rfl, rfl⟩ := List.cons.inj (hSkip.symm.trans h)
    rw [if_pos rfl]
    split
    · next fault hFault =>
      rw [hFault]
      rfl
    · next first rest hOk =>
      simp only [hOk, Except.bind]
      cases readNodes rest <;> rfl

/-- A node in front is read, and the others after it. -/
theorem readNodes_cons {cs inside rest : List Char} {first : Node}
    (h : skipBlanks cs = '{' :: inside) (hRead : readNode inside = .ok (first, rest)) :
    readNodes cs =
      match readNodes rest with
      | .error fault => .error fault
      | .ok (more, rest) => .ok (first :: more, rest) := by
  rw [readNodes_brace h, hRead]
  simp only [Except.bind]
  cases readNodes rest <;> rfl

theorem spaced_cons (part : List Char) {rest : List (List Char)} (h : rest ≠ []) :
    spaced (part :: rest) = part ++ ' ' :: spaced rest := by
  cases rest with
  | nil => exact absurd rfl h
  | cons next rest => rfl

/-- Nodes are read back up to whatever is no node, with or without blanks in front. -/
theorem readNodes_spaced (mark : Option QuoteMark) (more : List (List Char))
    (hStop : ∀ rest, skipBlanks (spaced more) ≠ '{' :: rest) (nodes : List Node)
    (hBuilt : ∀ n ∈ nodes, n.Built) :
    ∀ cs, skipBlanks cs = skipBlanks (spaced (nodes.map (Node.chars mark) ++ more)) →
      readNodes cs = .ok (nodes, skipBlanks (spaced more)) := by
  have hBlank : Text.isBlank '{' = false := by decide
  induction nodes with
  | nil =>
      intro cs hSkip
      rw [List.map_nil, List.nil_append] at hSkip
      rw [← hSkip] at hStop ⊢
      exact readNodes_stop hStop
  | cons n nodes ih =>
      intro cs hSkip
      have hRest := ih fun m hm => hBuilt m (List.mem_cons_of_mem n hm)
      rw [List.map_cons, List.cons_append] at hSkip
      by_cases hLast : nodes.map (Node.chars mark) ++ more = []
      · obtain ⟨inside, hChars, hRead⟩ := readNode_chars mark (hBuilt n List.mem_cons_self) []
        rw [List.append_nil] at hChars
        have hOpen : skipBlanks cs = '{' :: inside := by
          rw [hSkip, hLast]
          simp [spaced, hChars, skipBlanks, hBlank]
        rw [readNodes_cons hOpen hRead, hRest [] (by rw [hLast]; rfl)]
      · obtain ⟨inside, hChars, hRead⟩ := readNode_chars mark (hBuilt n List.mem_cons_self)
          (' ' :: spaced (nodes.map (Node.chars mark) ++ more))
        have hOpen : skipBlanks cs = '{' :: inside := by
          rw [hSkip, spaced_cons _ hLast, hChars]
          simp [skipBlanks, hBlank]
        rw [readNodes_cons hOpen hRead, hRest _ (skipBlanks_space _)]

/-- The written form of nodes opens with a brace. -/
theorem spaced_chars_eq_cons (mark : Option QuoteMark) (n : Node) (rest : List (List Char)) :
    ∃ inside, spaced (n.chars mark :: rest) = '{' :: inside := by
  cases rest with
  | nil => exact ⟨_, rfl⟩
  | cons next rest => exact ⟨_, rfl⟩

/-! ## Whole locators -/

/-- The two parts of a locator are read back from its written form. -/
theorem readParts_chars (mark : Option QuoteMark) (l : Locator) (hBuilt : ∀ n ∈ l.nodes, n.Built) :
    readParts (l.chars mark) = .ok (l.preOuter, l.postOuter) := by
  obtain ⟨preOuter, postOuter⟩ := l
  have hPre : ∀ n ∈ preOuter, n.Built := fun n hn =>
    hBuilt n (List.mem_append_left postOuter hn)
  have hPost : ∀ n ∈ postOuter, n.Built := fun n hn =>
    hBuilt n (List.mem_append_right preOuter hn)
  have hEnd : ∀ rest, skipBlanks (spaced []) ≠ '{' :: rest := by simp [spaced, skipBlanks]
  cases postOuter with
  | nil =>
      have hNodes := readNodes_spaced mark [] hEnd preOuter hPre _ rfl
      simp only [readParts, chars, List.isEmpty_nil, if_true, hNodes]
      simp [spaced, skipBlanks, afterOuter?, outerWord, finish]
  | cons first others =>
      obtain ⟨inside, hOpen⟩ := spaced_chars_eq_cons mark first (others.map (Node.chars mark))
      have hStart : skipBlanks (spaced (outerWord :: (first :: others).map (Node.chars mark))) =
          outerWord ++ ' ' :: '{' :: inside := by
        rw [List.map_cons, spaced_cons _ (List.cons_ne_nil _ _), hOpen]
        exact skipBlanks_word (List.all_eq_true.mp (by decide)) (by decide)
      have hStop : ∀ rest, skipBlanks
          (spaced (outerWord :: (first :: others).map (Node.chars mark))) ≠ '{' :: rest := by
        intro rest h
        rw [hStart] at h
        simp [outerWord] at h
      have hNodes := readNodes_spaced mark _ hStop preOuter hPre _ rfl
      have hOuter : afterOuter? (outerWord ++ ' ' :: '{' :: inside) =
          some (' ' :: '{' :: inside) := by
        simp [afterOuter?]
      have hBlank : Text.isBlank '{' = false := by decide
      have hSkip : skipBlanks (' ' :: '{' :: inside) = '{' :: inside := by
        rw [skipBlanks_space]
        simp [skipBlanks, hBlank]
      have hAfter := readNodes_spaced mark [] hEnd (first :: others) hPost ('{' :: inside)
        (by rw [List.append_nil, List.map_cons, hOpen])
      rw [hStart] at hNodes
      simp only [readParts, chars, List.isEmpty_cons, Bool.false_eq_true, if_false, hNodes, hOuter,
        readOuterNodes, hSkip, hAfter]
      simp [spaced, skipBlanks, finish]

/-- A locator with nodes is not written as a blank text. -/
theorem isBlankText_text (mark : Option QuoteMark) {l : Locator} (h : l.nodes ≠ []) :
    Text.isBlankText (l.text mark) = false := by
  obtain ⟨preOuter, postOuter⟩ := l
  have hOpen : ∃ c cs, chars mark ⟨preOuter, postOuter⟩ = c :: cs ∧ Text.isBlank c = false := by
    cases preOuter with
    | cons n preOuter =>
        obtain ⟨inside, hInside⟩ := spaced_chars_eq_cons mark n _
        exact ⟨'{', inside, hInside, by decide⟩
    | nil =>
        cases postOuter with
        | nil => exact absurd rfl h
        | cons n postOuter => exact ⟨'o', _, rfl, by decide⟩
  obtain ⟨c, cs, hChars, hBlank⟩ := hOpen
  simp [Text.isBlankText, text, hChars, hBlank]

/-- The parts of a locator with built nodes are read back, and then checked. -/
theorem parse_text_eq_make {l : Locator} (hBuilt : ∀ n ∈ l.nodes, n.Built) (hNodes : l.nodes ≠ [])
    (mark : Option QuoteMark) : parse (l.text mark) = make l.preOuter l.postOuter := by
  unfold parse
  rw [isBlankText_text mark hNodes]
  simp only [text, String.toList_ofList, readParts_chars mark l hBuilt, Bool.false_eq_true,
    if_false]

/-- Reading undoes writing. -/
theorem parse_text {l : Locator} (h : l.Accepted) (mark : Option QuoteMark) :
    parse (l.text mark) = .ok l := by
  have hWell := (make_eq_ok_iff.mp h.made).2
  rw [parse_text_eq_make h.built hWell.nodes_ne_nil mark, h.made]

/-- The canonical text tells apart any locators with built nodes, well-formed or not. -/
theorem canonical_inj {l l' : Locator} (h : ∀ n ∈ l.nodes, n.Built)
    (h' : ∀ n ∈ l'.nodes, n.Built) (hText : l.canonical = l'.canonical) : l = l' := by
  have hChars : l.chars none = l'.chars none := by
    simpa [canonical, text] using congrArg String.toList hText
  have hRead := readParts_chars none l h
  rw [hChars, readParts_chars none l' h'] at hRead
  cases l
  cases l'
  simp only [Except.ok.injEq, Prod.mk.injEq] at hRead
  rw [hRead.1, hRead.2]

/-! ## What is read -/

private theorem built_of_readDetails {role : Role} {cs rest : List Char} {n : Node}
    (h : readDetails role cs = .ok (n, rest)) : n.Built := by
  have hName : ∀ {ds tail : List Char} {name? : Option String},
      readName? ds = .ok (name?, tail) → name? ≠ some "" := by
    intro ds tail name? hRead
    unfold readName? at hRead
    split at hRead
    · simp only [Except.ok.injEq, Prod.mk.injEq] at hRead
      simp [← hRead.1]
    · split at hRead
      · simp at hRead
      · simp only [Except.ok.injEq, Prod.mk.injEq] at hRead
        rw [← hRead.1]
        split
        · simp
        · next hne => simpa using hne
  unfold readDetails at h
  split at h
  · simp at h
  · next name? tail hRead =>
    split at h
    · simp at h
    · simp only [Except.ok.injEq, Prod.mk.injEq] at h
      exact h.1 ▸ Node.built_of_name?_ne_empty role name? (hName hRead) _

private theorem built_of_readNode {inside rest : List Char} {n : Node}
    (h : readNode inside = .ok (n, rest)) : n.Built := by
  simp only [readNode] at h
  split at h
  · simp at h
  · split at h
    · simp at h
    · exact built_of_readDetails h

private theorem built_of_readNodes {cs rest : List Char} {nodes : List Node}
    (h : readNodes cs = .ok (nodes, rest)) : ∀ n ∈ nodes, n.Built := by
  fun_induction readNodes cs generalizing nodes rest with
  | case1 => simp_all
  | case2 => simp at h
  | case3 => simp at h
  | case4 cs inside first rest' hRead more rest'' hMore _ _ ih =>
      simp only [Except.ok.injEq, Prod.mk.injEq] at h
      rw [← h.1]
      intro n hn
      rcases List.mem_cons.mp hn with rfl | hn
      · exact built_of_readNode hRead
      · exact ih hMore n hn
  | case5 => simp_all

theorem parts_of_finish {parts found : List Node × List Node} {rest : List Char}
    (h : finish parts rest = .ok found) : found = parts := by
  unfold finish at h
  split at h
  · exact (Except.ok.inj h).symm
  · simp at h

private theorem built_of_readOuterNodes {cs rest : List Char} {nodes : List Node}
    (h : readOuterNodes cs = .ok (nodes, rest)) : ∀ n ∈ nodes, n.Built := by
  unfold readOuterNodes at h
  split at h
  · exact built_of_readNodes h
  · simp at h

private theorem built_of_readParts {cs : List Char} {parts : List Node × List Node}
    (h : readParts cs = .ok parts) : ∀ n ∈ parts.1 ++ parts.2, n.Built := by
  unfold readParts at h
  split at h
  · simp at h
  · next preOuter rest hPre =>
    have hPreBuilt := built_of_readNodes hPre
    split at h
    · obtain rfl := parts_of_finish h
      simpa using hPreBuilt
    · split at h
      · simp at h
      · next postOuter rest' hOuter =>
        have hPostBuilt := built_of_readOuterNodes hOuter
        obtain rfl := parts_of_finish h
        intro n hn
        rcases List.mem_append.mp hn with hn | hn
        · exact hPreBuilt n hn
        · exact hPostBuilt n hn

/-- Whatever is read can be made from built nodes. -/
theorem parse_accepted {t : String} {l : Locator} (h : parse t = .ok l) : l.Accepted := by
  unfold parse at h
  split at h
  · simp at h
  · split at h
    · simp at h
    · next preOuter postOuter hParts =>
      have hBuilt := built_of_readParts hParts
      obtain rfl := (make_eq_ok_iff.mp h).1
      exact ⟨h, hBuilt⟩

/--
Writing and reading are inverse on all locators that can be made from built nodes, for each choice
of quotes: what is written is read back, what is read can be written canonically and read again, and
two locators with one canonical text are one.
-/
theorem parse_text_inverse :
    (∀ l : Locator, l.Accepted → ∀ mark, parse (l.text mark) = .ok l) ∧
      (∀ t l, parse t = .ok l → l.Accepted ∧ parse l.canonical = .ok l) ∧
      ∀ l l' : Locator, l.Accepted → l'.Accepted → l.canonical = l'.canonical → l = l' := by
  refine ⟨fun l h mark => parse_text h mark, fun t l h => ?_, fun l l' h h' hText => ?_⟩
  · have hAccepted := parse_accepted h
    exact ⟨hAccepted, parse_text hAccepted none⟩
  · exact canonical_inj h.built h'.built hText

/-- A split chain whose names and values hold quotes, a backslash, a brace and the word between its
two parts is read back from its written form with double quotes. -/
theorem parse_text_quotes_and_outer :
    let l : Locator :=
      ⟨[(Node.ofRole .list).withName "It's \\ \"outer\" \x7b"],
        [((Node.ofRole .checkbox).withConstraint ⟨.checked, ""⟩).withConstraint
          ⟨.current, "a'b: \x7d"⟩]⟩
    l.Accepted ∧ parse (l.text (some .double)) = .ok l := by
  intro l
  have hAccepted : l.Accepted := by
    refine ⟨by decide, fun n hn => ?_⟩
    simp only [l, nodes, List.cons_append, List.nil_append, List.mem_cons, List.not_mem_nil,
      or_false] at hn
    rcases hn with rfl | rfl
    · exact .withName _ (.ofRole _)
    · exact .withConstraint _ (.withConstraint _ (.ofRole _))
  exact ⟨hAccepted, parse_text_inverse.1 l hAccepted (some .double)⟩

end Locator

end AriaLocator

import AriaLocator.Proofs.Locator.RoundTrip

/-!
# The grammar of locators

```text
locator    := node* ("outer" node+)?
node       := "{" role name? attribute* "}"
role       := small letters, the name of a role
name       := quoted
attribute  := small letters, the name of an attribute  ":" (value | quoted)
value      := letters, digits, underscores and hyphens
quoted     := "'" ... "'" | '"' ... '"'
```

Blanks may stand before, between and after the tokens.  A word or a bare value goes on for as long
as its characters do, and a quoted text up to its first quote that no backslash protects; behind a
backslash every character stands for itself.

Each rule is a relation between the text in front of what it describes, what that denotes, and the
text behind it.  A derivation passes over blanks wherever it likes and as many as it likes.  Reading
passes over all of them, and some of them early, before it knows which token follows.  So the two
agree up to blanks in front of the rest, and `skipBlanks` names what they agree on.

No rule looks at what reading has done: each reading function is shown to come to a value exactly if
its rule derives it, from quoted texts up to whole locators.

## Main results

* `unquote?_iff`, `readValue_iff`, `readConstraints_iff`, `readNode_iff`, `readNodes_iff`: what is
  read is what the grammar derives, rule by rule.
* `readParts_iff`: so are the two parts of a locator.
* `ofText_accepts_grammar`: a text is accepted exactly if the grammar derives a well-formed locator
  from it, as that locator, and is otherwise no valid locator.
-/

namespace AriaLocator

/-! ## The rules -/

namespace Grammar

/-- Blanks lead from a text to the rest of it. -/
inductive Skips : List Char → List Char → Prop
  | none (cs : List Char) : Skips cs cs
  | blank {c : Char} {cs rest : List Char} (hBlank : Text.isBlank c = true)
      (more : Skips cs rest) : Skips (c :: cs) rest

/-- A text begins with a token of such characters, and the token could not be longer. -/
structure Run (test : Char → Bool) (cs token rest : List Char) : Prop where
  split : cs = token ++ rest
  token_ne_nil : token ≠ []
  token_all : ∀ c ∈ token, test c = true
  /-- What follows does not prolong the token. -/
  longest : ∀ c, rest.head? = some c → test c = false

/-- The inside of a quoted text: behind a backslash every character stands for itself, and the first
quote that stands for nothing else ends it. -/
inductive Inside (mark : QuoteMark) : List Char → List Char → List Char → Prop
  | close (rest : List Char) : Inside mark (mark.char :: rest) [] rest
  | escaped (c : Char) {cs value rest : List Char} (more : Inside mark cs value rest) :
      Inside mark ('\\' :: c :: cs) (c :: value) rest
  | plain {c : Char} {cs value rest : List Char} (hMark : c ≠ mark.char) (hSlash : c ≠ '\\')
      (more : Inside mark cs value rest) : Inside mark (c :: cs) (c :: value) rest

/-- A quoted text. -/
inductive Quoted : List Char → String → List Char → Prop
  | mk (mark : QuoteMark) {cs value rest : List Char} (inside : Inside mark cs value rest) :
      Quoted (mark.char :: cs) (String.ofList value) rest

/-- The value of an attribute, bare or quoted. -/
inductive Value : List Char → String → List Char → Prop
  | bare {cs token rest : List Char} (run : Run Constraint.isBareChar cs token rest) :
      Value cs (String.ofList token) rest
  | quoted {cs rest : List Char} {value : String} (text : Quoted cs value rest) :
      Value cs value rest

/-- An attribute with its value. -/
inductive AttributeText : List Char → Constraint → List Char → Prop
  | mk (aria : AriaAttribute) {cs afterName beforeValue valueText rest : List Char} {value : String}
      (word : Run Char.isLower cs aria.name.toList afterName)
      (colon : Skips afterName (':' :: beforeValue)) (blanks : Skips beforeValue valueText)
      (hValue : Value valueText value rest) : AttributeText cs ⟨aria, value⟩ rest

/-- Any number of attributes. -/
inductive AttributeTexts : List Char → List Constraint → List Char → Prop
  | nil (cs : List Char) : AttributeTexts cs [] cs
  | cons {cs first next rest : List Char} {c : Constraint} {more : List Constraint}
      (blanks : Skips cs first) (hFirst : AttributeText first c next)
      (others : AttributeTexts next more rest) : AttributeTexts cs (c :: more) rest

/-- A name or none. An empty name is none. -/
inductive Name : List Char → Option String → List Char → Prop
  | absent (cs : List Char) : Name cs none cs
  | present {cs text rest : List Char} {name : String} (blanks : Skips cs text)
      (quoted : Quoted text name rest) : Name cs (if name = "" then none else some name) rest

/-- A node between its braces. -/
inductive NodeText : List Char → Node → List Char → Prop
  | mk (role : Role) {cs word afterRole afterName afterAttributes rest : List Char}
      {name? : Option String} {constraints : List Constraint} (blanks : Skips cs word)
      (hRole : Run Char.isLower word role.name.toList afterRole)
      (name : Name afterRole name? afterName)
      (attributes : AttributeTexts afterName constraints afterAttributes)
      (close : Skips afterAttributes ('}' :: rest)) :
      NodeText ('{' :: cs) ⟨role, constraints, name?⟩ rest

/-- Any number of nodes. -/
inductive NodeTexts : List Char → List Node → List Char → Prop
  | nil (cs : List Char) : NodeTexts cs [] cs
  | cons {cs first next rest : List Char} {n : Node} {more : List Node} (blanks : Skips cs first)
      (node : NodeText first n next) (others : NodeTexts next more rest) :
      NodeTexts cs (n :: more) rest

/-- A whole text. Behind `outer` there has to be a node. -/
inductive LocatorText : List Char → Locator → Prop
  | plain {cs rest : List Char} {nodes : List Node} (hNodes : NodeTexts cs nodes rest)
      (ends : Skips rest []) : LocatorText cs ⟨nodes, []⟩
  | outer {cs beforeOuter afterOuter rest : List Char} {preOuter postOuter : List Node}
      (pre : NodeTexts cs preOuter beforeOuter)
      (word : Skips beforeOuter (outerWord ++ afterOuter))
      (post : NodeTexts afterOuter postOuter rest) (hSome : postOuter ≠ [])
      (ends : Skips rest []) : LocatorText cs ⟨preOuter, postOuter⟩

end Grammar

namespace Locator

open Grammar

variable {cs rest : List Char}

/-! ## Blanks and words -/

theorem skips_skipBlanks (cs : List Char) : Skips cs (skipBlanks cs) := by
  induction cs with
  | nil => exact Skips.none []
  | cons c cs ih =>
      cases hBlank : Text.isBlank c with
      | true => simpa [skipBlanks, hBlank] using Skips.blank hBlank ih
      | false => simpa [skipBlanks, hBlank] using Skips.none (c :: cs)

/-- However many blanks have been passed over, the same ones are left to skip. -/
theorem skipBlanks_of_skips (h : Skips cs rest) : skipBlanks cs = skipBlanks rest := by
  induction h with
  | none cs => rfl
  | @blank c cs rest hBlank _ ih =>
      rw [← ih, skipBlanks, List.dropWhile_cons_of_pos hBlank]
      rfl

theorem skipBlanks_cons {c : Char} (cs : List Char) (h : Text.isBlank c = false) :
    skipBlanks (c :: cs) = c :: cs := by
  rw [skipBlanks, List.dropWhile_cons_of_neg (by simp [h])]

/-- Blanks lead to a character that is none exactly if skipping does. -/
theorem skipBlanks_eq_cons_iff {c : Char} (h : Text.isBlank c = false) :
    skipBlanks cs = c :: rest ↔ Skips cs (c :: rest) := by
  constructor
  · intro hSkip
    exact hSkip ▸ skips_skipBlanks cs
  · intro hSkips
    rw [skipBlanks_of_skips hSkips, skipBlanks_cons rest h]

theorem skipBlanks_eq_nil_iff : skipBlanks cs = [] ↔ Skips cs [] := by
  constructor
  · intro hSkip
    exact hSkip ▸ skips_skipBlanks cs
  · exact fun hSkips => skipBlanks_of_skips hSkips

/-- The longest token is what scanning takes. -/
theorem run_iff {test : Char → Bool} {token : List Char} :
    Run test cs token rest ↔
      cs.takeWhile test = token ∧ cs.dropWhile test = rest ∧ token ≠ [] := by
  constructor
  · intro h
    obtain ⟨hTake, hDrop⟩ := span_append h.token_all h.longest
    rw [← h.split] at hTake hDrop
    exact ⟨hTake, hDrop, h.token_ne_nil⟩
  · rintro ⟨rfl, rfl, hSome⟩
    refine ⟨List.takeWhile_append_dropWhile.symm, hSome, fun c hc => ?_, fun c hc => ?_⟩
    · exact List.mem_takeWhile_imp hc
    · have hStop := List.head?_dropWhile_not test cs
      rw [hc] at hStop
      simpa using hStop

/-- A token of small letters stands where blanks end. -/
theorem skipBlanks_of_run {word : List Char} (h : Run Char.isLower cs word rest) :
    skipBlanks cs = cs := by
  rw [h.split]
  exact skipBlanks_word h.token_all h.token_ne_nil

/-! ## Quoted texts and values -/

/-- A backslash is alone or has a character behind it, and both are rows of their own. -/
theorem ne_backslash {c : Char} (hLone : c = '\\' → cs = [] → False)
    (hEscape : ∀ next tail, c = '\\' → cs = next :: tail → False) : c ≠ '\\' := by
  rintro rfl
  cases cs with
  | nil => exact hLone rfl rfl
  | cons next tail => exact hEscape next tail rfl rfl

/-- Reading the inside of a quoted text follows its rule. -/
theorem unquote?_iff {mark : QuoteMark} {value : List Char} :
    Text.unquote? mark.char cs = some (value, rest) ↔ Inside mark cs value rest := by
  constructor
  · intro h
    fun_induction Text.unquote? mark.char cs generalizing value with
    | case1 => cases h
    | case2 => cases h
    | case3 c cs ih =>
        obtain ⟨⟨inside, rest'⟩, hInside, hSame⟩ := Option.map_eq_some_iff.mp h
        obtain ⟨rfl, rfl⟩ := Prod.mk.inj hSame
        exact Inside.escaped c (ih hInside)
    | case4 cs =>
        obtain ⟨rfl, rfl⟩ := Prod.mk.inj (Option.some.inj h)
        exact Inside.close cs
    | case5 c cs hLone hEscape hMark ih =>
        obtain ⟨⟨inside, rest'⟩, hInside, hSame⟩ := Option.map_eq_some_iff.mp h
        obtain ⟨rfl, rfl⟩ := Prod.mk.inj hSame
        exact Inside.plain hMark (ne_backslash hLone hEscape) (ih hInside)
  · intro h
    induction h with
    | close rest => cases mark <;> simp [Text.unquote?, QuoteMark.char]
    | escaped c _ ih => rw [Text.unquote?, ih, Option.map_some]
    | @plain c cs value rest hMark hSlash _ ih =>
        rw [Text.unquote?.eq_def]
        split
        · simp_all
        · simp_all
        · simp_all
        · simp_all

theorem readQuoted_iff {mark : QuoteMark} {value : String} :
    readQuoted mark cs = .ok (value, rest) ↔
      ∃ inside, Inside mark cs inside rest ∧ String.ofList inside = value := by
  unfold readQuoted
  constructor
  · intro h
    split at h
    · next inside rest' hInside =>
      obtain ⟨hValue, rfl⟩ := Prod.mk.inj (Except.ok.inj h)
      rw [unquote?_iff] at hInside
      exact ⟨inside, hInside, hValue⟩
    · cases h
  · rintro ⟨inside, hInside, rfl⟩
    rw [← unquote?_iff] at hInside
    rw [hInside]

/-- An opening mark is the character that it is. -/
theorem eq_cons_of_openingMark? {mark : QuoteMark} {inside : List Char}
    (h : openingMark? cs = some (mark, inside)) : cs = mark.char :: inside := by
  unfold openingMark? at h
  split at h
  · obtain ⟨rfl, rfl⟩ := Prod.mk.inj (Option.some.inj h)
    rfl
  · obtain ⟨rfl, rfl⟩ := Prod.mk.inj (Option.some.inj h)
    rfl
  · cases h

/-- A quoted text is an opening mark and an inside that can be read. -/
theorem quoted_iff {value : String} :
    Quoted cs value rest ↔
      ∃ mark inside, openingMark? cs = some (mark, inside) ∧
        readQuoted mark inside = .ok (value, rest) := by
  simp only [readQuoted_iff]
  constructor
  · rintro ⟨mark, hInside⟩
    exact ⟨mark, _, openingMark?_char mark _, _, hInside, rfl⟩
  · rintro ⟨mark, text, hOpen, inside, hInside, rfl⟩
    exact eq_cons_of_openingMark? hOpen ▸ Quoted.mk mark hInside

/-- A quoted text stands where blanks end. -/
theorem skipBlanks_of_quoted {value : String} (h : Quoted cs value rest) :
    skipBlanks cs = cs := by
  obtain ⟨mark, hInside⟩ := h
  exact skipBlanks_cons _ (by cases mark <;> decide)

theorem readBare_iff {value : String} :
    readBare cs = .ok (value, rest) ↔
      ∃ token, Run Constraint.isBareChar cs token rest ∧ String.ofList token = value := by
  unfold readBare
  simp only [run_iff]
  constructor
  · intro h
    split at h
    · cases h
    · next token hSome =>
      obtain ⟨hValue, hRest⟩ := Prod.mk.inj (Except.ok.inj h)
      exact ⟨_, ⟨rfl, hRest, hSome⟩, hValue⟩
  · rintro ⟨token, ⟨rfl, rfl, hSome⟩, rfl⟩
    split
    · next hNone => exact absurd hNone hSome
    · rfl

/-- A value is read as its rule has it: what opens with a mark is no bare value. -/
theorem readValue_iff {value : String} :
    readValue cs = .ok (value, rest) ↔ Value cs value rest := by
  unfold readValue
  constructor
  · intro h
    split at h
    · next mark inside hOpen =>
      have hQuoted : Quoted cs value rest := by
        rw [quoted_iff]
        exact ⟨mark, inside, hOpen, h⟩
      exact Value.quoted hQuoted
    · rw [readBare_iff] at h
      obtain ⟨token, hRun, rfl⟩ := h
      exact Value.bare hRun
  · intro h
    cases h with
    | quoted hQuoted =>
        rw [quoted_iff] at hQuoted
        obtain ⟨mark, inside, hOpen, hRead⟩ := hQuoted
        rw [hOpen]
        exact hRead
    | bare hRun =>
        have hClosed : openingMark? cs = none := by
          obtain ⟨c, token', rfl⟩ := List.exists_cons_of_ne_nil hRun.token_ne_nil
          obtain ⟨hSingle, hDouble, -⟩ := not_mark_of_bare (hRun.token_all c List.mem_cons_self)
          rw [hRun.split, List.cons_append]
          exact openingMark?_eq_none _ hSingle hDouble
        rw [hClosed]
        simp only [readBare_iff]
        exact ⟨_, hRun, rfl⟩

/-- A value stands where blanks end. -/
theorem skipBlanks_of_value {value : String} (h : Value cs value rest) : skipBlanks cs = cs := by
  cases h with
  | quoted hQuoted => exact skipBlanks_of_quoted hQuoted
  | bare hRun =>
      obtain ⟨c, token', rfl⟩ := List.exists_cons_of_ne_nil hRun.token_ne_nil
      obtain ⟨-, -, hBlank⟩ := not_mark_of_bare (hRun.token_all c List.mem_cons_self)
      rw [hRun.split, List.cons_append]
      exact skipBlanks_cons _ hBlank

/-! ## Attributes -/

theorem readConstraint_iff {c : Constraint} :
    readConstraint cs = .ok (c, rest) ↔ AttributeText cs c rest := by
  unfold readConstraint
  constructor
  · intro h
    split at h
    · cases h
    · next aria hName =>
      have hWord : Run Char.isLower cs aria.name.toList (afterWord cs) := by
        have hSame : wordOf cs = aria.name.toList := by
          rw [AriaAttribute.name_of_ofName? hName, String.toList_ofList]
        rw [run_iff]
        exact ⟨hSame, rfl, (isLower_of_mem_ariaName aria).2⟩
      split at h
      · next beforeValue hColon =>
        split at h
        · cases h
        · next value rest' hValue =>
          obtain ⟨rfl, rfl⟩ := Prod.mk.inj (Except.ok.inj h)
          rw [readValue_iff] at hValue
          exact AttributeText.mk aria hWord ((skipBlanks_eq_cons_iff (by decide)).mp hColon)
            (skips_skipBlanks beforeValue) hValue
      · cases h
  · rintro ⟨aria, hWord, hColon, hBlanks, hValue⟩
    have hValueText := (skipBlanks_of_skips hBlanks).trans (skipBlanks_of_value hValue)
    rw [run_iff] at hWord
    rw [← readValue_iff] at hValue
    obtain ⟨hName, hAfter, -⟩ := hWord
    rw [wordOf, hName, String.ofList_toList, AriaAttribute.ofName?_name, afterWord, hAfter]
    simp only [(skipBlanks_eq_cons_iff (by decide)).mpr hColon, hValueText, hValue]

/-- Attributes are read up to the brace behind them. -/
theorem readConstraints_iff {constraints : List Constraint} :
    readConstraints cs = .ok (constraints, rest) ↔
      ∃ behind, AttributeTexts cs constraints behind ∧ Skips behind ('}' :: rest) := by
  constructor
  · intro h
    fun_induction readConstraints cs generalizing constraints rest with
    | case1 => cases h
    | case2 cs rest' hSkip =>
        obtain ⟨rfl, rfl⟩ := Prod.mk.inj (Except.ok.inj h)
        exact ⟨cs, AttributeTexts.nil cs, (skipBlanks_eq_cons_iff (by decide)).mp hSkip⟩
    | case3 => cases h
    | case4 => cases h
    | case5 cs c inside hSkip _ _ first next hFirst _ more rest' hMore ih =>
        obtain ⟨rfl, rfl⟩ := Prod.mk.inj (Except.ok.inj h)
        obtain ⟨behind, hOthers, hClose⟩ := ih hMore
        have hBlanks : Skips cs (c :: inside) := hSkip ▸ skips_skipBlanks cs
        rw [readConstraint_iff] at hFirst
        exact ⟨behind, AttributeTexts.cons hBlanks hFirst hOthers, hClose⟩
    | case6 => cases h
  · rintro ⟨behind, hAttributes, hClose⟩
    induction hAttributes with
    | nil cs => exact readConstraints_brace ((skipBlanks_eq_cons_iff (by decide)).mpr hClose)
    | @cons cs text next behind c more hBlanks hFirst _ ih =>
        -- the name of the attribute stands where the blanks end
        obtain ⟨first, tail, hText, hLower⟩ :
            ∃ first tail, text = first :: tail ∧ first.isLower = true := by
          obtain ⟨aria, hWord, -, -, -⟩ := hFirst
          obtain ⟨first, letters, hLetters⟩ := List.exists_cons_of_ne_nil hWord.token_ne_nil
          have hSplit := hWord.split
          rw [hLetters, List.cons_append] at hSplit
          exact ⟨first, _, hSplit, hWord.token_all first (by simp [hLetters])⟩
        rw [hText] at hBlanks hFirst
        have hSkip := (skipBlanks_eq_cons_iff (not_blank_of_lower hLower)).mpr hBlanks
        rw [← readConstraint_iff] at hFirst
        rw [readConstraints_cons hSkip hLower hFirst, ih hClose]

/-- Blanks in front of attributes make no difference. -/
theorem readConstraints_of_skipBlanks {ds : List Char} {result : List Constraint × List Char}
    (hSame : skipBlanks cs = skipBlanks ds) (h : readConstraints cs = .ok result) :
    readConstraints ds = .ok result := by
  rw [readConstraints] at h
  split at h
  · cases h
  · next c inside hSkip =>
    rw [hSame] at hSkip
    split at h
    · next hBrace =>
      subst hBrace
      rw [readConstraints_brace hSkip]
      exact h
    · split at h
      · next hLower =>
        split at h
        · cases h
        · next hFirst =>
          rw [readConstraints_cons hSkip hLower hFirst]
          exact h
      · cases h

/-! ## Nodes -/

/-- Where attributes and a brace follow, no name does. -/
theorem openingMark?_of_readConstraints {constraints : List Constraint}
    (h : readConstraints cs = .ok (constraints, rest)) : openingMark? (skipBlanks cs) = none := by
  rw [readConstraints] at h
  split at h
  · cases h
  · next c inside hSkip =>
    rw [hSkip]
    split at h
    · next hBrace => exact openingMark?_eq_none inside (by simp [hBrace]) (by simp [hBrace])
    · split at h
      · next hLower =>
        refine openingMark?_eq_none inside ?_ ?_
        · rintro rfl
          exact absurd hLower (by decide)
        · rintro rfl
          exact absurd hLower (by decide)
      · cases h

/-- Behind its role a node has a name or none, attributes and a brace. -/
theorem readDetails_iff {role : Role} {n : Node} :
    readDetails role cs = .ok (n, rest) ↔
      ∃ name? constraints afterName behind, Name cs name? afterName ∧
        AttributeTexts afterName constraints behind ∧ Skips behind ('}' :: rest) ∧
        n = ⟨role, constraints, name?⟩ := by
  unfold readDetails
  constructor
  · intro h
    split at h
    · cases h
    · next name? afterName hName =>
      split at h
      · cases h
      · next constraints rest' hRead =>
        obtain ⟨rfl, rfl⟩ := Prod.mk.inj (Except.ok.inj h)
        unfold readName? at hName
        split at hName
        · obtain ⟨rfl, rfl⟩ := Prod.mk.inj (Except.ok.inj hName)
          have hRead := readConstraints_of_skipBlanks (skipBlanks_skipBlanks cs) hRead
          rw [readConstraints_iff] at hRead
          obtain ⟨behind, hAttributes, hClose⟩ := hRead
          exact ⟨none, constraints, cs, behind, Name.absent cs, hAttributes, hClose, rfl⟩
        · next mark inside hOpen =>
          split at hName
          · cases hName
          · next name rest'' hQuoted =>
            obtain ⟨rfl, rfl⟩ := Prod.mk.inj (Except.ok.inj hName)
            rw [readConstraints_iff] at hRead
            obtain ⟨behind, hAttributes, hClose⟩ := hRead
            have hText : Quoted (skipBlanks cs) name rest'' := by
              rw [quoted_iff]
              exact ⟨mark, inside, hOpen, hQuoted⟩
            exact ⟨_, constraints, _, behind, Name.present (skips_skipBlanks cs) hText,
              hAttributes, hClose, rfl⟩
  · rintro ⟨name?, constraints, afterName, behind, hName, hAttributes, hClose, rfl⟩
    have hRead : readConstraints afterName = .ok (constraints, rest) := by
      rw [readConstraints_iff]
      exact ⟨behind, hAttributes, hClose⟩
    cases hName with
    | absent =>
        have hRead' := readConstraints_of_skipBlanks (skipBlanks_skipBlanks cs).symm hRead
        simp only [readName?, openingMark?_of_readConstraints hRead, hRead']
    | present hBlanks hQuoted =>
        have hText := (skipBlanks_of_skips hBlanks).trans (skipBlanks_of_quoted hQuoted)
        rw [quoted_iff] at hQuoted
        obtain ⟨mark, inside, hOpen, hInside⟩ := hQuoted
        simp only [readName?, hText, hOpen, hInside, hRead]

theorem readNode_iff {n : Node} :
    readNode cs = .ok (n, rest) ↔ NodeText ('{' :: cs) n rest := by
  unfold readNode
  constructor
  · intro h
    simp only at h
    split at h
    · cases h
    · next hSome =>
      split at h
      · cases h
      · next role hRole =>
        have hWord : Run Char.isLower (skipBlanks cs) role.name.toList
            (afterWord (skipBlanks cs)) := by
          have hSame : wordOf (skipBlanks cs) = role.name.toList := by
            rw [Role.name_of_ofName? hRole, String.toList_ofList]
          rw [run_iff]
          exact ⟨hSame, rfl, hSame ▸ hSome⟩
        rw [readDetails_iff] at h
        obtain ⟨name?, constraints, afterName, behind, hName, hAttributes, hClose, rfl⟩ := h
        exact NodeText.mk role (skips_skipBlanks cs) hWord hName hAttributes hClose
  · intro h
    cases h with
    | @mk role _ _ afterRole _ _ _ name? constraints hBlanks hWord hName hAttributes hClose =>
        have hText := (skipBlanks_of_skips hBlanks).trans (skipBlanks_of_run hWord)
        rw [run_iff] at hWord
        obtain ⟨hRole, hAfter, hSome⟩ := hWord
        have hDetails : readDetails role afterRole = .ok (⟨role, constraints, name?⟩, rest) := by
          rw [readDetails_iff]
          exact ⟨_, _, _, _, hName, hAttributes, hClose, rfl⟩
        simp only [hText, wordOf, hRole, hSome, if_false, String.ofList_toList, Role.ofName?_name,
          afterWord, hAfter, hDetails]

/-- Nodes are read as long as a brace opens. -/
theorem readNodes_iff {nodes : List Node} :
    readNodes cs = .ok (nodes, rest) ↔
      (∃ behind, NodeTexts cs nodes behind ∧ skipBlanks behind = rest) ∧
        ∀ inside, rest ≠ '{' :: inside := by
  constructor
  · intro h
    fun_induction readNodes cs generalizing nodes rest with
    | case1 cs hSkip =>
        obtain ⟨rfl, rfl⟩ := Prod.mk.inj (Except.ok.inj h)
        exact ⟨⟨cs, NodeTexts.nil cs, hSkip⟩, fun _ hCons => List.cons_ne_nil _ _ hCons.symm⟩
    | case2 => cases h
    | case3 => cases h
    | case4 cs inside first next hFirst more rest' hMore hSkip _ ih =>
        obtain ⟨rfl, rfl⟩ := Prod.mk.inj (Except.ok.inj h)
        obtain ⟨⟨behind, hOthers, hRest⟩, hStop⟩ := ih hMore
        have hBlanks : Skips cs ('{' :: inside) := hSkip ▸ skips_skipBlanks cs
        rw [readNode_iff] at hFirst
        exact ⟨⟨behind, NodeTexts.cons hBlanks hFirst hOthers, hRest⟩, hStop⟩
    | case5 cs c inside hSkip hBrace =>
        obtain ⟨rfl, rfl⟩ := Prod.mk.inj (Except.ok.inj h)
        exact ⟨⟨cs, NodeTexts.nil cs, hSkip⟩, fun _ hCons => hBrace (List.cons.inj hCons).1⟩
  · rintro ⟨⟨behind, hNodes, rfl⟩, hStop⟩
    induction hNodes with
    | nil cs => exact readNodes_stop hStop
    | @cons cs text next behind n more hBlanks hNode _ ih =>
        obtain ⟨inside, rfl⟩ : ∃ inside, text = '{' :: inside := by
          cases hNode
          exact ⟨_, rfl⟩
        have hSkip := (skipBlanks_eq_cons_iff (by decide)).mpr hBlanks
        rw [← readNode_iff] at hNode
        rw [readNodes_cons hSkip hNode, ih hStop]

/-! ## Whole texts -/

/-- Blanks in front of nodes make no difference. -/
theorem readNodes_congr {ds : List Char} (hSame : skipBlanks cs = skipBlanks ds) :
    readNodes cs = readNodes ds := by
  by_cases hBrace : ∃ inside, skipBlanks ds = '{' :: inside
  · obtain ⟨inside, hOpen⟩ := hBrace
    rw [readNodes_brace hOpen, readNodes_brace (hSame.trans hOpen)]
  · have hStop : ∀ inside, skipBlanks ds ≠ '{' :: inside := fun inside hOpen =>
      hBrace ⟨inside, hOpen⟩
    rw [readNodes_stop hStop, readNodes_stop (hSame ▸ hStop), hSame]

theorem readNodes_of_skipBlanks {ds : List Char} {result : List Node × List Char}
    (hSame : skipBlanks cs = skipBlanks ds) (h : readNodes cs = .ok result) :
    readNodes ds = .ok result := by
  rw [← readNodes_congr hSame]
  exact h

theorem finish_iff {nodes parts : List Node × List Node} :
    finish nodes cs = .ok parts ↔ Skips cs [] ∧ parts = nodes := by
  rw [← skipBlanks_eq_nil_iff]
  constructor
  · intro h
    have hSame := parts_of_finish h
    unfold finish at h
    split at h
    · next hEnd => exact ⟨hEnd, hSame⟩
    · cases h
  · rintro ⟨hEnd, rfl⟩
    simp only [finish, hEnd]

/-- What follows `outer` has been read if a node and perhaps others have. -/
theorem readOuterNodes_iff {nodes : List Node} :
    readOuterNodes cs = .ok (nodes, rest) ↔ readNodes cs = .ok (nodes, rest) ∧ nodes ≠ [] := by
  unfold readOuterNodes
  constructor
  · intro h
    split at h
    · next inside hSkip =>
      rw [← hSkip] at h
      have h := readNodes_of_skipBlanks (skipBlanks_skipBlanks cs) h
      refine ⟨h, ?_⟩
      rintro rfl
      rw [readNodes_iff] at h
      obtain ⟨⟨behind, hNone, hRest⟩, hStop⟩ := h
      cases hNone
      exact hStop inside (hRest.symm.trans hSkip)
    · cases h
  · rintro ⟨hRead, hSome⟩
    have hDerived := hRead
    rw [readNodes_iff] at hDerived
    obtain ⟨⟨behind, hNodes, -⟩, -⟩ := hDerived
    cases hNodes with
    | nil => exact absurd rfl hSome
    | cons hBlanks hNode _ =>
        cases hNode with
        | mk role =>
            have hSkip := (skipBlanks_eq_cons_iff (by decide)).mpr hBlanks
            have hRead' := readNodes_of_skipBlanks (skipBlanks_skipBlanks cs).symm hRead
            rw [hSkip] at hRead' ⊢
            exact hRead'

theorem afterOuter?_eq_some_iff {behind : List Char} :
    afterOuter? cs = some behind ↔ cs = outerWord ++ behind := by
  unfold afterOuter?
  constructor
  · intro h
    split at h
    · next hOuter =>
      obtain ⟨tail, rfl⟩ := List.isPrefixOf_iff_prefix.mp hOuter
      rw [List.drop_left] at h
      rw [Option.some.inj h]
    · cases h
  · rintro rfl
    rw [if_pos (List.isPrefixOf_iff_prefix.mpr (List.prefix_append _ _)), List.drop_left]

/-- Blanks lead to `outer` exactly if skipping does. -/
theorem skipBlanks_eq_outer_iff {behind : List Char} :
    skipBlanks cs = outerWord ++ behind ↔ Skips cs (outerWord ++ behind) :=
  skipBlanks_eq_cons_iff (c := 'o') (by decide)

/-- The two parts of a text are read as the grammar has them. -/
theorem readParts_iff {preOuter postOuter : List Node} :
    readParts cs = .ok (preOuter, postOuter) ↔ LocatorText cs ⟨preOuter, postOuter⟩ := by
  unfold readParts
  constructor
  · intro h
    split at h
    · cases h
    · next pre rest hPre =>
      obtain ⟨⟨behind, hNodes, hRest⟩, -⟩ := readNodes_iff.mp hPre
      split at h
      · obtain ⟨hEnd, hParts⟩ := finish_iff.mp h
        obtain ⟨rfl, rfl⟩ := Prod.mk.inj hParts
        rw [← skipBlanks_eq_nil_iff, ← hRest, skipBlanks_skipBlanks] at hEnd
        exact LocatorText.plain hNodes (skipBlanks_eq_nil_iff.mp hEnd)
      · next afterOuter hOuter =>
        split at h
        · cases h
        · next post rest' hPost =>
          obtain ⟨hEnd, hParts⟩ := finish_iff.mp h
          obtain ⟨rfl, rfl⟩ := Prod.mk.inj hParts
          obtain ⟨hPostNodes, hSome⟩ := readOuterNodes_iff.mp hPost
          obtain ⟨⟨behind', hOthers, hRest'⟩, -⟩ := readNodes_iff.mp hPostNodes
          have hWord := hRest.trans (afterOuter?_eq_some_iff.mp hOuter)
          rw [← skipBlanks_eq_nil_iff, ← hRest', skipBlanks_skipBlanks] at hEnd
          exact LocatorText.outer hNodes (skipBlanks_eq_outer_iff.mp hWord) hOthers hSome
            (skipBlanks_eq_nil_iff.mp hEnd)
  · intro h
    cases h with
    | plain hNodes hEnd =>
        have hRest := skipBlanks_eq_nil_iff.mpr hEnd
        have hRead := readNodes_iff.mpr ⟨⟨_, hNodes, hRest⟩, by simp⟩
        have hFinish : finish (preOuter, []) [] = .ok (preOuter, []) :=
          finish_iff.mpr ⟨Skips.none [], rfl⟩
        have hNoOuter : afterOuter? [] = none := by decide
        simp only [hRead, hNoOuter, hFinish]
    | outer hNodes hWord hOthers hSome hEnd =>
        have hRest := skipBlanks_eq_outer_iff.mpr hWord
        have hRead := readNodes_iff.mpr ⟨⟨_, hNodes, hRest⟩, by simp [outerWord]⟩
        have hRead' := readNodes_iff.mpr
          ⟨⟨_, hOthers, skipBlanks_eq_nil_iff.mpr hEnd⟩, by simp⟩
        have hPost := readOuterNodes_iff.mpr ⟨hRead', hSome⟩
        have hFinish : finish (preOuter, postOuter) [] = .ok (preOuter, postOuter) :=
          finish_iff.mpr ⟨Skips.none [], rfl⟩
        simp only [hRead, afterOuter?_eq_some_iff.mpr rfl, hPost, hFinish]

/-- A text of blanks denotes the locator without nodes. -/
theorem nodes_of_blank {text : String} {l : Locator} (hBlank : Text.isBlankText text = true)
    (h : LocatorText text.toList l) : l.nodes = [] := by
  have hNothing : skipBlanks text.toList = [] :=
    List.dropWhile_eq_nil_iff.mpr (List.all_eq_true.mp hBlank)
  have hNone : LocatorText text.toList ⟨[], []⟩ :=
    LocatorText.plain (NodeTexts.nil _) (skipBlanks_eq_nil_iff.mp hNothing)
  rw [← readParts_iff] at h hNone
  obtain ⟨hPre, hPost⟩ := Prod.mk.inj (Except.ok.inj (h.symm.trans hNone))
  rw [nodes, hPre, hPost, List.append_nil]

/-- What the grammar derives from a text is accepted if it is well-formed, and nothing else is. -/
theorem parse_eq_ok_iff {text : String} {l : Locator} :
    parse text = .ok l ↔ LocatorText text.toList l ∧ l.IsWellFormed := by
  unfold parse
  cases hBlank : Text.isBlankText text with
  | true =>
      rw [if_pos rfl]
      constructor
      · intro h
        cases h
      · rintro ⟨hText, hWell⟩
        exact absurd (nodes_of_blank hBlank hText) hWell.nodes_ne_nil
  | false =>
      rw [if_neg Bool.false_ne_true]
      constructor
      · intro h
        split at h
        · cases h
        · next preOuter postOuter hParts =>
          rw [readParts_iff] at hParts
          obtain ⟨rfl, hWell⟩ := make_eq_ok_iff.mp h
          exact ⟨hParts, hWell⟩
      · rintro ⟨hText, hWell⟩
        rw [← readParts_iff] at hText
        rw [hText]
        exact make_eq_ok_iff.mpr ⟨rfl, hWell⟩

/-- A text is accepted as a locator exactly if the grammar derives the locator from it and the
locator is well-formed: there is a node, and only the last one may have a role with presentational
children.  Every other text is no valid locator. -/
theorem ofText_accepts_grammar (text : String) :
    (∀ l, ofText text = .ok l ↔ LocatorText text.toList l ∧ l.IsWellFormed) ∧
      ((∃ l, LocatorText text.toList l ∧ l.IsWellFormed) ∨
        ∃ message, ofText text = .error (.invalidLocator message)) := by
  unfold ofText
  cases hParse : parse text with
  | ok l =>
      refine ⟨fun l' => ?_, Or.inl ⟨l, parse_eq_ok_iff.mp hParse⟩⟩
      rw [← parse_eq_ok_iff, hParse]
      exact ⟨fun h => by rw [Except.ok.inj h], fun h => by rw [Except.ok.inj h]⟩
  | error m =>
      refine ⟨fun l => ⟨nofun, fun h => ?_⟩, Or.inr ⟨m.message, rfl⟩⟩
      rw [parse_eq_ok_iff.mpr h] at hParse
      cases hParse

end Locator

end AriaLocator

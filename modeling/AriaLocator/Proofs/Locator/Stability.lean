import AriaLocator.Proofs.Locator.Grammar

/-!
# What has been read does not depend on what follows

A reading function takes a part off the front of a text.  With another text behind that part it takes
off the same part and comes to the same value, provided that the other text does not prolong the last
token.  The token is the only thing that can go on: it is a word or a bare value, and ends where the
next character does not belong to it.  So it is enough that the other text begins as the old one did,
or with a character that belongs to no such token.  A node ends at its brace, and behind it any text
may follow.

## Main results

* `readValue_stable`, `readConstraint_stable`, `readName?_stable`: parts that may end with a token.
* `readConstraints_stable`, `readNode_stable`: parts that end with a brace.
* `readNodes_stable`: nodes that have been read are read in front of any text, and what can be read of
  that text is read behind them.
-/

namespace AriaLocator

namespace Locator

open Grammar

variable {cs rest tail : List Char}

/-! ## Beginnings -/

/-- A text begins as another one does, or with one of the given characters. -/
def BeginsLike (openings cs tail : List Char) : Prop :=
  ∃ c, tail.head? = some c ∧ (cs.head? = some c ∨ c ∈ openings)

theorem beginsLike_cons (openings : List Char) (c : Char) (cs tail : List Char) :
    BeginsLike openings (c :: cs) (c :: tail) := ⟨c, rfl, Or.inl rfl⟩

theorem beginsLike_opening {openings : List Char} {c : Char} (h : c ∈ openings)
    (cs tail : List Char) : BeginsLike openings cs (c :: tail) := ⟨c, rfl, Or.inr h⟩

theorem beginsLike_append {before : List Char} (h : before ≠ []) (openings cs tail : List Char) :
    BeginsLike openings (before ++ cs) (before ++ tail) := by
  obtain ⟨c, before, rfl⟩ := List.exists_cons_of_ne_nil h
  exact beginsLike_cons openings c _ _

namespace BeginsLike

variable {openings : List Char}

theorem append (h : BeginsLike openings cs tail) (before : List Char) :
    BeginsLike openings (before ++ cs) (before ++ tail) := by
  cases before with
  | nil => exact h
  | cons c before => exact beginsLike_cons openings c _ _

theorem mono {more : List Char} (h : BeginsLike openings cs tail) (hMore : openings ⊆ more) :
    BeginsLike more cs tail := by
  obtain ⟨c, hc, hCase⟩ := h
  exact ⟨c, hc, hCase.imp_right fun hOpen => hMore hOpen⟩

/-- The first character fails a test that fails on whatever could stand there. -/
theorem not_test (h : BeginsLike openings cs tail) {test : Char → Bool}
    (hHead : ∀ c, cs.head? = some c → test c = false) (hOpenings : ∀ c ∈ openings, test c = false) :
    ∀ c, tail.head? = some c → test c = false := by
  obtain ⟨first, hFirst, hCase⟩ := h
  intro c hc
  obtain rfl : first = c := Option.some.inj (hFirst.symm.trans hc)
  cases hCase with
  | inl hSame => exact hHead first hSame
  | inr hOpen => exact hOpenings first hOpen

end BeginsLike

/-! ## Tokens -/

/-- Where scanning stops, it would stop again. -/
theorem head?_dropWhile_false {test : Char → Bool} {c : Char}
    (h : (cs.dropWhile test).head? = some c) : test c = false := by
  have hStop := List.head?_dropWhile_not test cs
  rw [h] at hStop
  simpa using hStop

/-- A token is scanned again in front of another text. -/
theorem scan_stable {test : Char → Bool} {openings : List Char}
    (hOpenings : ∀ c ∈ openings, test c = false)
    (h : BeginsLike openings (cs.dropWhile test) tail) :
    (cs.takeWhile test ++ tail).takeWhile test = cs.takeWhile test ∧
      (cs.takeWhile test ++ tail).dropWhile test = tail :=
  span_append (fun _ hc => List.mem_takeWhile_imp hc)
    (h.not_test (fun _ => head?_dropWhile_false) hOpenings)

/-- The blanks at the front of a text. -/
def leadingBlanks (cs : List Char) : List Char := cs.takeWhile Text.isBlank

theorem leadingBlanks_append_skipBlanks (cs : List Char) : leadingBlanks cs ++ skipBlanks cs = cs :=
  List.takeWhile_append_dropWhile

theorem wordOf_append_afterWord (cs : List Char) : wordOf cs ++ afterWord cs = cs :=
  List.takeWhile_append_dropWhile

theorem skipBlanks_leadingBlanks_append (cs tail : List Char) :
    skipBlanks (leadingBlanks cs ++ tail) = skipBlanks tail :=
  List.dropWhile_append_of_pos fun _ hc => List.mem_takeWhile_imp hc

/-- In front of a text that begins where blanks ended, the same blanks are skipped. -/
theorem skipBlanks_append_self (openings : List Char)
    (hOpenings : ∀ c ∈ openings, Text.isBlank c = false)
    (h : BeginsLike openings (skipBlanks cs) tail) : skipBlanks (leadingBlanks cs ++ tail) = tail :=
  (scan_stable hOpenings h).2

/-- A text begins with its blanks, whatever follows them. -/
theorem beginsLike_leadingBlanks {openings : List Char}
    (h : BeginsLike openings (skipBlanks cs) tail) :
    BeginsLike openings cs (leadingBlanks cs ++ tail) := by
  have hAppend := h.append (leadingBlanks cs)
  rwa [leadingBlanks_append_skipBlanks] at hAppend

/-- Where blanks end at a character, they end there again. -/
theorem skipBlanks_append_cons {c : Char} {inside : List Char} (h : skipBlanks cs = c :: inside)
    (tail : List Char) : skipBlanks (leadingBlanks cs ++ c :: tail) = c :: tail :=
  skipBlanks_append_self [] (by simp) (h ▸ beginsLike_cons [] c inside tail)

theorem leadingBlanks_append_cons {c : Char} {inside : List Char}
    (h : skipBlanks cs = c :: inside) : leadingBlanks cs ++ c :: inside = cs := by
  rw [← h, leadingBlanks_append_skipBlanks]

/-! ## Quoted texts -/

theorem inside_stable {mark : QuoteMark} {value : List Char} (h : Inside mark cs value rest) :
    ∃ before, cs = before ++ rest ∧ ∀ tail, Inside mark (before ++ tail) value tail := by
  induction h with
  | close rest => exact ⟨[mark.char], rfl, Inside.close⟩
  | escaped c _ ih =>
      obtain ⟨before, rfl, hBefore⟩ := ih
      exact ⟨'\\' :: c :: before, rfl, fun tail => Inside.escaped c (hBefore tail)⟩
  | @plain c _ _ _ hMark hSlash _ ih =>
      obtain ⟨before, rfl, hBefore⟩ := ih
      exact ⟨c :: before, rfl, fun tail => Inside.plain hMark hSlash (hBefore tail)⟩

theorem readQuoted_stable {mark : QuoteMark} {value : String}
    (h : readQuoted mark cs = .ok (value, rest)) :
    ∃ before, cs = before ++ rest ∧ ∀ tail, readQuoted mark (before ++ tail) = .ok (value, tail) := by
  simp only [readQuoted_iff] at h ⊢
  obtain ⟨inside, hInside, hValue⟩ := h
  obtain ⟨before, hSplit, hBefore⟩ := inside_stable hInside
  exact ⟨before, hSplit, fun tail => ⟨inside, hBefore tail, hValue⟩⟩

/-- Whether a text opens with a mark depends on its first character alone. -/
theorem openingMark?_eq_none_of_head? {c : Char} (hNone : openingMark? cs = none)
    (h : cs.head? = some c) (tail : List Char) : openingMark? (c :: tail) = none := by
  obtain ⟨_, rfl⟩ := List.head?_eq_some_iff.mp h
  refine openingMark?_eq_none tail ?_ ?_
  · rintro rfl
    cases hNone
  · rintro rfl
    cases hNone

theorem openingMark?_eq_none_of_beginsLike {openings : List Char}
    (hOpenings : ∀ c ∈ openings, c ≠ '\'' ∧ c ≠ '"') (hNone : openingMark? cs = none)
    (h : BeginsLike openings cs tail) : openingMark? tail = none := by
  obtain ⟨c, hc, hCase⟩ := h
  obtain ⟨tail, rfl⟩ := List.head?_eq_some_iff.mp hc
  cases hCase with
  | inl hSame => exact openingMark?_eq_none_of_head? hNone hSame tail
  | inr hOpen => exact openingMark?_eq_none tail (hOpenings c hOpen).1 (hOpenings c hOpen).2

/-! ## Attributes -/

theorem readBare_stable {value : String} (h : readBare cs = .ok (value, rest)) :
    ∃ before, before ≠ [] ∧ cs = before ++ rest ∧
      ∀ tail, BeginsLike ['}'] rest tail → readBare (before ++ tail) = .ok (value, tail) := by
  simp only [readBare_iff] at h ⊢
  obtain ⟨token, hRun, hValue⟩ := h
  refine ⟨token, hRun.token_ne_nil, hRun.split, fun tail hTail => ⟨token, ?_, hValue⟩⟩
  have hLongest := hTail.not_test hRun.longest (List.forall_mem_singleton.mpr (by decide))
  exact ⟨rfl, hRun.token_ne_nil, hRun.token_all, hLongest⟩

theorem readValue_stable {value : String} (h : readValue cs = .ok (value, rest)) :
    ∃ before, before ≠ [] ∧ cs = before ++ rest ∧
      ∀ tail, BeginsLike ['}'] rest tail → readValue (before ++ tail) = .ok (value, tail) := by
  unfold readValue at h
  split at h
  · next mark inside hOpen =>
    obtain ⟨before, rfl, hBefore⟩ := readQuoted_stable h
    refine ⟨mark.char :: before, List.cons_ne_nil _ _, eq_cons_of_openingMark? hOpen, fun tail _ => ?_⟩
    simp only [readValue, List.cons_append, openingMark?_char, hBefore tail]
  · next hNone =>
    obtain ⟨before, hSome, rfl, hBefore⟩ := readBare_stable h
    refine ⟨before, hSome, rfl, fun tail hTail => ?_⟩
    obtain ⟨c, before, rfl⟩ := List.exists_cons_of_ne_nil hSome
    have hOpen : openingMark? (c :: before ++ tail) = none :=
      openingMark?_eq_none_of_head? hNone rfl (before ++ tail)
    rw [readValue, hOpen]
    exact hBefore tail hTail

/-- The colon behind the name of an attribute, and the value. -/
def readColon (aria : AriaAttribute) (cs : List Char) : Reading Constraint :=
  match cs with
  | ':' :: rest =>
    match readValue (skipBlanks rest) with
    | .error fault => .error fault
    | .ok (value, rest) => .ok (⟨aria, value⟩, rest)
  | rest => .error (.unexpected .colon rest)

theorem readConstraint_eq_readColon {aria : AriaAttribute}
    (hName : AriaAttribute.ofName? (String.ofList (wordOf cs)) = some aria) :
    readConstraint cs = readColon aria (skipBlanks (afterWord cs)) := by
  unfold readConstraint
  rw [hName]
  rfl

/-- Behind the colon and the blanks that follow it, a value is read. -/
theorem readColon_append (aria : AriaAttribute) (h : BeginsLike ['\''] (skipBlanks cs) tail) :
    readColon aria (':' :: leadingBlanks cs ++ tail) =
      (readValue tail).map fun (value, rest) => (⟨aria, value⟩, rest) := by
  rw [List.cons_append]
  simp only [readColon, skipBlanks_append_self ['\''] (List.forall_mem_singleton.mpr (by decide)) h]
  cases readValue tail <;> rfl

theorem readColon_stable {aria : AriaAttribute} {c : Constraint}
    (h : readColon aria cs = .ok (c, rest)) :
    ∃ before, before ≠ [] ∧ cs = before ++ rest ∧
      ∀ tail, BeginsLike ['}'] rest tail → readColon aria (before ++ tail) = .ok (c, tail) := by
  unfold readColon at h
  split at h
  · next beforeValue =>
    split at h
    · cases h
    · next value rest' hValue =>
      obtain ⟨rfl, rfl⟩ := Prod.mk.inj (Except.ok.inj h)
      obtain ⟨before, hSome, hSplit, hBefore⟩ := readValue_stable hValue
      refine ⟨':' :: leadingBlanks beforeValue ++ before, by simp, ?_, fun tail hTail => ?_⟩
      · rw [List.append_assoc, ← hSplit, List.cons_append, leadingBlanks_append_skipBlanks]
      · have hBegins : BeginsLike ['\''] (skipBlanks beforeValue) (before ++ tail) :=
          hSplit ▸ beginsLike_append hSome _ rest' tail
        rw [List.append_assoc, readColon_append aria hBegins, hBefore tail hTail]
        rfl
  · cases h

/-- The name of an attribute and the blanks behind it are read in front of any text that can go on
there. -/
theorem readConstraint_name_append {aria : AriaAttribute}
    (hName : AriaAttribute.ofName? (String.ofList (wordOf cs)) = some aria)
    (h : BeginsLike [':'] (skipBlanks (afterWord cs)) tail) :
    readConstraint (wordOf cs ++ leadingBlanks (afterWord cs) ++ tail) = readColon aria tail := by
  have hBehind := beginsLike_leadingBlanks h
  obtain ⟨hWord, hAfter⟩ : wordOf (wordOf cs ++ (leadingBlanks (afterWord cs) ++ tail)) = wordOf cs ∧
      afterWord (wordOf cs ++ (leadingBlanks (afterWord cs) ++ tail)) =
        leadingBlanks (afterWord cs) ++ tail :=
    scan_stable (List.forall_mem_singleton.mpr (by decide)) hBehind
  rw [← hWord] at hName
  rw [List.append_assoc, readConstraint_eq_readColon hName, hAfter,
    skipBlanks_append_self [':'] (List.forall_mem_singleton.mpr (by decide)) h]

/-- The text in front of the colon of an attribute. -/
theorem name_append_skipBlanks (cs : List Char) :
    wordOf cs ++ leadingBlanks (afterWord cs) ++ skipBlanks (afterWord cs) = cs := by
  rw [List.append_assoc, leadingBlanks_append_skipBlanks, wordOf_append_afterWord]

theorem readConstraint_stable {c : Constraint} (h : readConstraint cs = .ok (c, rest)) :
    ∃ before, before ≠ [] ∧ cs = before ++ rest ∧
      ∀ tail, BeginsLike ['}'] rest tail → readConstraint (before ++ tail) = .ok (c, tail) := by
  cases hName : AriaAttribute.ofName? (String.ofList (wordOf cs)) with
  | none => simp [readConstraint, hName] at h
  | some aria =>
      rw [readConstraint_eq_readColon hName] at h
      obtain ⟨before, hSome, hSplit, hBefore⟩ := readColon_stable h
      refine ⟨wordOf cs ++ leadingBlanks (afterWord cs) ++ before, by simp [hSome], ?_, ?_⟩
      · rw [List.append_assoc _ before, ← hSplit, name_append_skipBlanks]
      · intro tail hTail
        have hBegins : BeginsLike [':'] (skipBlanks (afterWord cs)) (before ++ tail) :=
          hSplit ▸ beginsLike_append hSome _ rest tail
        rw [List.append_assoc _ before, readConstraint_name_append hName hBegins, hBefore tail hTail]

/-- Attributes end at their brace, and any text may follow it. -/
theorem readConstraints_stable {constraints : List Constraint}
    (h : readConstraints cs = .ok (constraints, rest)) :
    ∃ before, before ≠ [] ∧ cs = before ++ rest ∧
      ∀ tail, readConstraints (before ++ tail) = .ok (constraints, tail) := by
  fun_induction readConstraints cs generalizing constraints rest with
  | case1 => cases h
  | case2 cs rest' hSkip =>
      obtain ⟨rfl, rfl⟩ := Prod.mk.inj (Except.ok.inj h)
      refine ⟨leadingBlanks cs ++ ['}'], by simp, ?_, fun tail => ?_⟩
      · simpa using (leadingBlanks_append_cons hSkip).symm
      · simpa using readConstraints_brace (skipBlanks_append_cons hSkip tail)
  | case3 => cases h
  | case4 => cases h
  | case5 cs c inside hSkip _ hLower first next hFirst _ more rest' hMore ih =>
      obtain ⟨rfl, rfl⟩ := Prod.mk.inj (Except.ok.inj h)
      obtain ⟨others, hSome, rfl, hOthers⟩ := ih hMore
      obtain ⟨before, hBefore, hSplit, hRead⟩ := readConstraint_stable hFirst
      obtain ⟨letter, letters, rfl⟩ := List.exists_cons_of_ne_nil hBefore
      rw [List.cons_append] at hSplit
      obtain ⟨rfl, rfl⟩ := List.cons.inj hSplit
      refine ⟨leadingBlanks cs ++ c :: (letters ++ others), by simp, ?_, fun tail => ?_⟩
      · simpa using (leadingBlanks_append_cons hSkip).symm
      · have hFirst' := hRead (others ++ tail) (beginsLike_append hSome _ _ _)
        have hSkip' := skipBlanks_append_cons hSkip (letters ++ (others ++ tail))
        rw [List.append_assoc, List.cons_append, List.append_assoc,
          readConstraints_cons hSkip' hLower hFirst', hOthers tail]
  | case6 => cases h

/-! ## Nodes -/

/-- A name, or that there is none, with the blanks in front. -/
theorem readName?_stable {name? : Option String}
    (h : readName? (skipBlanks cs) = .ok (name?, rest)) :
    ∃ before, cs = before ++ rest ∧ ∀ tail, BeginsLike ['}'] rest tail →
      readName? (skipBlanks (before ++ tail)) = .ok (name?, tail) := by
  unfold readName? at h
  split at h
  · next hNone =>
    obtain ⟨rfl, rfl⟩ := Prod.mk.inj (Except.ok.inj h)
    refine ⟨leadingBlanks cs, (leadingBlanks_append_skipBlanks cs).symm, fun tail hTail => ?_⟩
    rw [skipBlanks_append_self ['}'] (List.forall_mem_singleton.mpr (by decide)) hTail, readName?,
      openingMark?_eq_none_of_beginsLike (List.forall_mem_singleton.mpr (by decide)) hNone hTail]
  · next mark inside hOpen =>
    split at h
    · cases h
    · next name rest' hQuoted =>
      obtain ⟨rfl, rfl⟩ := Prod.mk.inj (Except.ok.inj h)
      obtain ⟨before, rfl, hBefore⟩ := readQuoted_stable hQuoted
      have hSkip := eq_cons_of_openingMark? hOpen
      refine ⟨leadingBlanks cs ++ mark.char :: before, ?_, fun tail _ => ?_⟩
      · simpa using (leadingBlanks_append_cons hSkip).symm
      · rw [List.append_assoc, List.cons_append, skipBlanks_append_cons hSkip]
        simp only [readName?, openingMark?_char, hBefore tail]

theorem readDetails_stable {role : Role} {n : Node} (h : readDetails role cs = .ok (n, rest)) :
    ∃ before, before ≠ [] ∧ cs = before ++ rest ∧
      ∀ tail, readDetails role (before ++ tail) = .ok (n, tail) := by
  unfold readDetails at h
  split at h
  · cases h
  · next name? afterName hName =>
    split at h
    · cases h
    · next constraints rest' hConstraints =>
      obtain ⟨rfl, rfl⟩ := Prod.mk.inj (Except.ok.inj h)
      obtain ⟨name, rfl, hReadName⟩ := readName?_stable hName
      obtain ⟨before, hSome, rfl, hBefore⟩ := readConstraints_stable hConstraints
      refine ⟨name ++ before, by simp [hSome], by simp, fun tail => ?_⟩
      have hName' := hReadName (before ++ tail) (beginsLike_append hSome _ _ _)
      simp only [readDetails, List.append_assoc, hName', hBefore tail]

/-- A role is read in front of any text that does not go on with a small letter. -/
theorem readNode_role_append {role : Role} (openings : List Char)
    (hOpenings : ∀ c ∈ openings, c.isLower = false) (hSome : wordOf (skipBlanks cs) ≠ [])
    (hRole : Role.ofName? (String.ofList (wordOf (skipBlanks cs))) = some role)
    (h : BeginsLike openings (afterWord (skipBlanks cs)) tail) :
    readNode (leadingBlanks cs ++ (wordOf (skipBlanks cs) ++ tail)) = readDetails role tail := by
  have hBegins : BeginsLike [] (skipBlanks cs) (wordOf (skipBlanks cs) ++ tail) := by
    have hAppend := beginsLike_append hSome [] (afterWord (skipBlanks cs)) tail
    rwa [wordOf_append_afterWord] at hAppend
  have hSkip := skipBlanks_append_self [] (by simp) hBegins
  obtain ⟨hWord, hAfter⟩ : wordOf (wordOf (skipBlanks cs) ++ tail) = wordOf (skipBlanks cs) ∧
      afterWord (wordOf (skipBlanks cs) ++ tail) = tail :=
    scan_stable hOpenings h
  simp only [readNode, hSkip, hWord, hAfter, hSome, hRole, if_false]

/-- A node ends at its brace, and any text may follow it. -/
theorem readNode_stable {n : Node} (h : readNode cs = .ok (n, rest)) :
    ∃ before, cs = before ++ rest ∧ ∀ tail, readNode (before ++ tail) = .ok (n, tail) := by
  simp only [readNode] at h
  split at h
  · cases h
  · next hSome =>
    split at h
    · cases h
    · next role hRole =>
      obtain ⟨before, hBefore, hSplit, hDetails⟩ := readDetails_stable h
      refine ⟨leadingBlanks cs ++ (wordOf (skipBlanks cs) ++ before), ?_, fun tail => ?_⟩
      · rw [List.append_assoc, List.append_assoc, ← hSplit, wordOf_append_afterWord,
          leadingBlanks_append_skipBlanks]
      · have hBegins : BeginsLike [] (afterWord (skipBlanks cs)) (before ++ tail) :=
          hSplit ▸ beginsLike_append hBefore [] rest tail
        rw [List.append_assoc, List.append_assoc,
          readNode_role_append [] (by simp) hSome hRole hBegins, hDetails tail]

theorem readNodes_blanks_append (cs tail : List Char) :
    readNodes (leadingBlanks cs ++ tail) = readNodes tail :=
  readNodes_congr (skipBlanks_leadingBlanks_append cs tail)

/-- Nodes that have been read are read in front of any text, and what is read of that text comes
behind them. -/
theorem readNodes_stable {nodes : List Node} (h : readNodes cs = .ok (nodes, rest)) :
    ∃ before, cs = before ++ rest ∧ ∀ tail, readNodes (before ++ tail) =
      (readNodes tail).map fun (more, out) => (nodes ++ more, out) := by
  -- where the nodes end, only blanks are left in front of the rest
  have hNone : ∀ text, ∃ before, text = before ++ skipBlanks text ∧
      ∀ tail, readNodes (before ++ tail) =
        (readNodes tail).map fun (more, out) => ([] ++ more, out) := by
    intro text
    refine ⟨leadingBlanks text, (leadingBlanks_append_skipBlanks text).symm, fun tail => ?_⟩
    rw [readNodes_blanks_append]
    cases readNodes tail <;> rfl
  fun_induction readNodes cs generalizing nodes rest with
  | case1 cs hSkip =>
      obtain ⟨rfl, rfl⟩ := Prod.mk.inj (Except.ok.inj h)
      exact hSkip ▸ hNone cs
  | case2 => cases h
  | case3 => cases h
  | case4 cs inside first next hFirst more rest' hMore hSkip _ ih =>
      obtain ⟨rfl, rfl⟩ := Prod.mk.inj (Except.ok.inj h)
      obtain ⟨others, rfl, hOthers⟩ := ih hMore
      obtain ⟨node, rfl, hNode⟩ := readNode_stable hFirst
      refine ⟨leadingBlanks cs ++ '{' :: (node ++ others), ?_, fun tail => ?_⟩
      · simpa using (leadingBlanks_append_cons hSkip).symm
      · have hSkip' := skipBlanks_append_cons hSkip (node ++ (others ++ tail))
        rw [List.append_assoc, List.cons_append, List.append_assoc,
          readNodes_cons hSkip' (hNode (others ++ tail)), hOthers tail]
        cases readNodes tail <;> rfl
  | case5 cs c inside hSkip hBrace =>
      obtain ⟨rfl, rfl⟩ := Prod.mk.inj (Except.ok.inj h)
      exact hSkip ▸ hNone cs

end Locator

end AriaLocator

import AriaLocator.Proofs.Locator.Stability
import Mathlib

/-!
# Where a syntax error points

The message of a syntax error names a position.  A fault keeps the text at which it was found, and the
position is where that text begins.  So what stands in front of it has been read, and it is shown that
reading it was right: something can be written behind it so that a locator comes out.  An open quote
can be closed, a name can be given its value, a node its brace.  And with the next character in its
place nothing can: reading stops there again, whatever follows.

A part that is read on its own breaks off, in this sense, where its fault is.  If it ends a larger
part, that breaks off there too, provided that what was read in front of it is read in front of its
completions.  This goes up from quoted texts over attributes and nodes to whole texts.

There is one exception.  `outer` is looked for as a whole, so that a word that begins as it does and
goes on otherwise is refused at its first letter.

## Main results

* `readQuoted_breaksOff`, `readConstraints_breaksOff`, `readNode_breaksOff`, `readNodes_breaksOff`,
  `readParts_breaksOff`: whatever is read breaks off where its fault is found.
* `expected_at_viable_prefix`: a syntax error points at the end of a text that can be completed.
-/

namespace AriaLocator

namespace Locator

open Grammar

variable {cs rest used : List Char} {expected : Expectation}

/-! ## Parts that break off -/

/-- A reading function takes a part off the front of a text, up to the rest of it. -/
def Reads {α : Type} (read : List Char → Reading α) (cs rest : List Char) : Prop :=
  ∃ value, read cs = .ok (value, rest)

/-- A part at the front of a text breaks off in front of `rest`: it could have been completed from
there on, and cannot go on as `rest` does.  What is read in front of the part depends on how the part
begins, so the completed one begins as the old one did, or with one of the given characters. -/
def BreaksOff (openings : List Char) (part : List Char → List Char → Prop)
    (cs rest : List Char) : Prop :=
  ∃ used, cs = used ++ rest ∧
    (∃ suffix, ∀ tail, BeginsLike openings cs (used ++ (suffix ++ tail)) ∧
      part (used ++ (suffix ++ tail)) tail) ∧
    ∀ c, rest.head? = some c → ∀ tail out, ¬ part (used ++ c :: tail) out

theorem beginsLike_nil_cons {c : Char} {inside tail : List Char}
    (h : BeginsLike [] (c :: inside) tail) : ∃ behind, tail = c :: behind := by
  obtain ⟨first, hFirst, hSame | hNone⟩ := h
  · obtain rfl : c = first := Option.some.inj hSame
    exact List.head?_eq_some_iff.mp hFirst
  · cases hNone

namespace BreaksOff

variable {openings more before text : List Char} {part whole next : List Char → List Char → Prop}

/-- What can be closed behind a part breaks off where the part does. -/
theorem followed (h : BreaksOff openings part cs rest) (closing : List Char)
    (hClose : ∀ tail, next (closing ++ tail) tail) :
    BreaksOff openings (fun cs out => ∃ mid, part cs mid ∧ next mid out) cs rest := by
  obtain ⟨used, hSplit, ⟨suffix, hSuffix⟩, hBlocked⟩ := h
  refine ⟨used, hSplit, ⟨suffix ++ closing, fun tail => ?_⟩, ?_⟩
  · obtain ⟨hBegins, hPart⟩ := hSuffix (closing ++ tail)
    rw [List.append_assoc]
    exact ⟨hBegins, closing ++ tail, hPart, hClose tail⟩
  · rintro c hc tail out ⟨mid, hPart, -⟩
    exact hBlocked c hc tail mid hPart

/-- A part that ends a larger one breaks off where that one does. -/
theorem behind (h : BreaksOff openings part cs rest) (hText : before ++ cs = text)
    (hWhole : ∀ tail, BeginsLike openings cs tail →
      ∀ out, whole (before ++ tail) out ↔ part tail out)
    (hBefore : before ≠ [] ∨ openings ⊆ more) : BreaksOff more whole text rest := by
  obtain ⟨used, rfl, ⟨suffix, hSuffix⟩, hBlocked⟩ := h
  subst hText
  refine ⟨before ++ used, (List.append_assoc before used rest).symm, ⟨suffix, fun tail => ?_⟩, ?_⟩
  · obtain ⟨hBegins, hPart⟩ := hSuffix tail
    rw [List.append_assoc]
    refine ⟨?_, (hWhole _ hBegins tail).mpr hPart⟩
    cases hBefore with
    | inl hSome => exact beginsLike_append hSome more _ _
    | inr hMore => exact (hBegins.mono hMore).append before
  · intro c hc tail out hRead
    have hBegins : BeginsLike openings (used ++ rest) (used ++ c :: tail) := by
      obtain ⟨behind, rfl⟩ := List.head?_eq_some_iff.mp hc
      exact (beginsLike_cons openings c behind tail).append used
    rw [List.append_assoc, hWhole _ hBegins] at hRead
    exact hBlocked c hc tail out hRead

end BreaksOff

/-- What is read of one text is, up to a function of the value, what is read of the other. -/
theorem reads_map_iff {α β : Type} {read : List Char → Reading α} {part : List Char → Reading β}
    {f : β → α} {tail out : List Char}
    (h : read cs = (part tail).map fun (value, rest) => (f value, rest)) :
    Reads read cs out ↔ Reads part tail out := by
  unfold Reads
  rw [h]
  cases part tail with
  | error fault => simp [Except.map]
  | ok found =>
      obtain ⟨value, behind⟩ := found
      simp [Except.map]

/-- One value is read, and another one behind it. -/
theorem reads_bind_iff {α β γ : Type} {read : List Char → Reading α} {part : List Char → Reading β}
    {next : List Char → Reading γ} {f : β → γ → α} {tail out : List Char}
    (h : read cs = (part tail).bind fun (first, mid) =>
      (next mid).map fun (second, rest) => (f first second, rest)) :
    Reads read cs out ↔ ∃ mid, Reads part tail mid ∧ Reads next mid out := by
  unfold Reads
  rw [h]
  cases part tail with
  | error fault => simp [Except.bind]
  | ok found =>
      obtain ⟨first, behind⟩ := found
      have hNext : Reads (fun cs => (next cs).map fun (second, rest) => (f first second, rest))
          behind out ↔ Reads next behind out := reads_map_iff rfl
      simpa [Except.bind, Reads] using hNext

/-! ## Quoted texts and attributes -/

/-- A quoted text that does not end can be ended, also behind a backslash. -/
theorem inside_completed {mark : QuoteMark} (h : Text.unquote? mark.char cs = none) :
    ∃ suffix, ∀ tail, BeginsLike [mark.char] cs (cs ++ (suffix ++ tail)) ∧
      ∃ value, Inside mark (cs ++ (suffix ++ tail)) value tail := by
  fun_induction Text.unquote? mark.char cs with
  | case1 =>
      refine ⟨[mark.char], fun tail => ⟨?_, [], Inside.close tail⟩⟩
      exact beginsLike_opening List.mem_cons_self [] tail
  | case2 =>
      refine ⟨[mark.char, mark.char], fun tail => ⟨beginsLike_cons _ _ _ _, [mark.char], ?_⟩⟩
      exact Inside.escaped mark.char (Inside.close tail)
  | case3 c cs ih =>
      obtain ⟨suffix, hSuffix⟩ := ih (Option.map_eq_none_iff.mp h)
      refine ⟨suffix, fun tail => ⟨beginsLike_cons _ _ _ _, ?_⟩⟩
      obtain ⟨-, value, hInside⟩ := hSuffix tail
      exact ⟨c :: value, Inside.escaped c hInside⟩
  | case4 => cases h
  | case5 c cs hLone hEscape hMark ih =>
      obtain ⟨suffix, hSuffix⟩ := ih (Option.map_eq_none_iff.mp h)
      refine ⟨suffix, fun tail => ⟨beginsLike_cons _ _ _ _, ?_⟩⟩
      obtain ⟨-, value, hInside⟩ := hSuffix tail
      exact ⟨c :: value, Inside.plain hMark (ne_backslash hLone hEscape) hInside⟩

theorem readQuoted_breaksOff {mark : QuoteMark}
    (h : readQuoted mark cs = .error (.unexpected expected rest)) :
    BreaksOff [mark.char] (Reads (readQuoted mark)) cs rest := by
  unfold readQuoted at h
  split at h
  · cases h
  · next hNone =>
    cases h
    obtain ⟨suffix, hSuffix⟩ := inside_completed hNone
    refine ⟨cs, (List.append_nil cs).symm, ⟨suffix, fun tail => ?_⟩, nofun⟩
    obtain ⟨hBegins, value, hInside⟩ := hSuffix tail
    exact ⟨hBegins, String.ofList value, readQuoted_iff.mpr ⟨value, hInside, rfl⟩⟩

theorem readValue_breaksOff (h : readValue cs = .error (.unexpected expected rest)) :
    BreaksOff ['\''] (Reads readValue) cs rest := by
  unfold readValue at h
  split at h
  · next mark inside hOpen =>
    have hWhole : ∀ tail, BeginsLike [mark.char] inside tail → ∀ out,
        Reads readValue ([mark.char] ++ tail) out ↔ Reads (readQuoted mark) tail out := by
      intro tail _ out
      simp only [Reads, readValue, List.singleton_append, openingMark?_char]
    exact (readQuoted_breaksOff h).behind (eq_cons_of_openingMark? hOpen).symm hWhole
      (Or.inl (List.cons_ne_nil _ _))
  · next hNone =>
    unfold readBare at h
    split at h
    · next hEmpty =>
      cases h
      refine ⟨[], rfl, ⟨['\'', '\''], fun tail => ?_⟩, ?_⟩
      · exact ⟨beginsLike_opening List.mem_cons_self _ _, "", rfl⟩
      · rintro c hc tail out ⟨value, hRead⟩
        have hOpen := openingMark?_eq_none_of_head? hNone hc tail
        obtain ⟨behind, rfl⟩ := List.head?_eq_some_iff.mp hc
        have hStop : Constraint.isBareChar c = false := by
          cases hBare : Constraint.isBareChar c with
          | false => rfl
          | true => simp [hBare] at hEmpty
        simp [readValue, hOpen, readBare, hStop] at hRead
    · cases h

/-- An attribute breaks off at its colon or inside its value. -/
theorem readColon_breaksOff {aria : AriaAttribute}
    (h : readColon aria cs = .error (.unexpected expected rest)) :
    BreaksOff [':'] (Reads (readColon aria)) cs rest := by
  unfold readColon at h
  split at h
  · next beforeValue =>
    split at h
    · next fault hValue =>
      cases h
      have hText : ':' :: leadingBlanks beforeValue ++ skipBlanks beforeValue = ':' :: beforeValue := by
        rw [List.cons_append, leadingBlanks_append_skipBlanks]
      exact (readValue_breaksOff hValue).behind hText
        (fun tail hTail out => reads_map_iff (readColon_append aria hTail))
        (Or.inl (List.cons_ne_nil _ _))
    · cases h
  · next hColon =>
    cases h
    refine ⟨[], rfl, ⟨[':', '\'', '\''], fun tail => ?_⟩, ?_⟩
    · exact ⟨beginsLike_opening List.mem_cons_self _ _, ⟨aria, ""⟩, rfl⟩
    · rintro c hc tail out ⟨value, hRead⟩
      obtain ⟨behind, rfl⟩ := List.head?_eq_some_iff.mp hc
      have hOther : c ≠ ':' := by
        rintro rfl
        exact hColon behind rfl
      simp [readColon, hOther] at hRead

theorem readConstraint_breaksOff (h : readConstraint cs = .error (.unexpected expected rest)) :
    BreaksOff [] (Reads readConstraint) cs rest := by
  cases hName : AriaAttribute.ofName? (String.ofList (wordOf cs)) with
  | none => simp [readConstraint, hName] at h
  | some aria =>
      rw [readConstraint_eq_readColon hName] at h
      have hSome : wordOf cs ≠ [] := by
        intro hNone
        rw [hNone] at hName
        cases hName
      refine (readColon_breaksOff h).behind (name_append_skipBlanks cs) (fun tail hTail out => ?_)
        (Or.inl (by simp [hSome]))
      simp only [Reads, readConstraint_name_append hName hTail]

/-- Attributes begin behind blanks with one attribute. -/
theorem reads_first_constraint {c : Char} {inside tail out : List Char}
    (hSkip : skipBlanks cs = c :: inside) (hLower : c.isLower = true)
    (hTail : BeginsLike [] (c :: inside) tail) :
    Reads readConstraints (leadingBlanks cs ++ tail) out ↔
      ∃ mid, Reads readConstraint tail mid ∧ Reads readConstraints mid out := by
  obtain ⟨tail, rfl⟩ := beginsLike_nil_cons hTail
  exact reads_bind_iff (readConstraints_letter (skipBlanks_append_cons hSkip tail) hLower)

theorem readConstraints_other {c : Char} {inside : List Char} (h : skipBlanks cs = c :: inside)
    (hBrace : c ≠ '}') (hLower : c.isLower = false) :
    readConstraints cs = .error (.unexpected .closingBraceOrAttribute (c :: inside)) := by
  rw [readConstraints]
  split
  · next hSkip => cases h.symm.trans hSkip
  · next hSkip =>
    cases h.symm.trans hSkip
    simp [hBrace, hLower]

theorem reads_no_constraints (tail : List Char) : Reads readConstraints (['}'] ++ tail) tail :=
  ⟨[], readConstraints_brace (skipBlanks_cons tail (by decide))⟩

/-- Where attributes can end and do not, they break off. -/
theorem braceOrAttribute_breaksOff (hSkip : skipBlanks cs = rest)
    (h : ∀ c, rest.head? = some c → c ≠ '}' ∧ c.isLower = false) :
    BreaksOff ['}'] (Reads readConstraints) cs rest := by
  subst hSkip
  have hBegins (tail : List Char) : BeginsLike ['}'] (skipBlanks cs) ('}' :: tail) :=
    beginsLike_opening List.mem_cons_self _ _
  have hBlank : ∀ c ∈ ['}'], Text.isBlank c = false := List.forall_mem_singleton.mpr (by decide)
  refine ⟨leadingBlanks cs, (leadingBlanks_append_skipBlanks cs).symm,
    ⟨['}'], fun tail => ⟨?_, [], ?_⟩⟩, ?_⟩
  · exact beginsLike_leadingBlanks (hBegins tail)
  · exact readConstraints_brace (skipBlanks_append_self ['}'] hBlank (hBegins tail))
  · rintro c hc tail out ⟨value, hRead⟩
    obtain ⟨inside, hSkip⟩ := List.head?_eq_some_iff.mp hc
    rw [readConstraints_other (skipBlanks_append_cons hSkip tail) (h c hc).1 (h c hc).2] at hRead
    cases hRead

theorem readConstraints_breaksOff (h : readConstraints cs = .error (.unexpected expected rest)) :
    BreaksOff ['}'] (Reads readConstraints) cs rest := by
  fun_induction readConstraints cs with
  | case1 cs hSkip =>
      cases h
      exact braceOrAttribute_breaksOff hSkip (by simp)
  | case2 => cases h
  | case3 cs c inside hSkip hBrace hLower fault hFirst =>
      cases h
      have hClosed := (readConstraint_breaksOff hFirst).followed ['}'] reads_no_constraints
      exact hClosed.behind (leadingBlanks_append_cons hSkip)
        (fun tail hTail out => reads_first_constraint hSkip hLower hTail)
        (Or.inr (List.nil_subset _))
  | case4 cs c inside hSkip hBrace hLower first next hFirst hShorter fault hMore ih =>
      cases h
      obtain ⟨before, hSome, hSplit, hBefore⟩ := readConstraint_stable hFirst
      have hText : leadingBlanks cs ++ before ++ next = cs := by
        rw [List.append_assoc, ← hSplit, leadingBlanks_append_cons hSkip]
      refine (ih hMore).behind hText (fun tail hTail out => ?_) (Or.inl (by simp [hSome]))
      have hBegins : BeginsLike [] (c :: inside) (before ++ tail) :=
        hSplit ▸ beginsLike_append hSome [] next tail
      have hFirst' := hBefore tail hTail
      rw [List.append_assoc, reads_first_constraint hSkip hLower hBegins]
      simp [Reads, hFirst']
  | case5 => cases h
  | case6 cs c inside hSkip hBrace hLower =>
      cases h
      exact braceOrAttribute_breaksOff hSkip (by simp [hBrace, hLower])

/-! ## Nodes -/

/-- Behind a role a name can open, and attributes follow it. -/
theorem reads_named_details (role : Role) {mark : QuoteMark} {inside tail out : List Char}
    (hSkip : skipBlanks cs = mark.char :: inside) :
    Reads (readDetails role) (leadingBlanks cs ++ [mark.char] ++ tail) out ↔
      ∃ mid, Reads (readQuoted mark) tail mid ∧ Reads readConstraints mid out := by
  have hSkip' : skipBlanks (leadingBlanks cs ++ [mark.char] ++ tail) = mark.char :: tail := by
    rw [List.append_assoc]
    exact skipBlanks_append_cons hSkip tail
  refine reads_bind_iff (f := fun name constraints =>
    (⟨role, constraints, if name = "" then none else some name⟩ : Node)) ?_
  simp only [readDetails, readName?, hSkip', openingMark?_char]
  cases readQuoted mark tail with
  | error fault => rfl
  | ok found =>
      obtain ⟨name, next⟩ := found
      simp only [Except.bind]
      cases readConstraints next <;> rfl

/-- Behind its role a node breaks off inside its name or behind that. -/
theorem readDetails_breaksOff {role : Role}
    (h : readDetails role cs = .error (.unexpected expected rest)) :
    BreaksOff ['}'] (Reads (readDetails role)) cs rest := by
  unfold readDetails at h
  split at h
  · next fault hName =>
    cases h
    unfold readName? at hName
    split at hName
    · cases hName
    · next mark inside hOpen =>
      split at hName
      · next hQuoted =>
        cases hName
        have hSkip := eq_cons_of_openingMark? hOpen
        have hText : leadingBlanks cs ++ [mark.char] ++ inside = cs := by
          rw [List.append_assoc]
          exact leadingBlanks_append_cons hSkip
        have hClosed := (readQuoted_breaksOff hQuoted).followed ['}'] reads_no_constraints
        exact hClosed.behind hText (fun tail _ out => reads_named_details role hSkip)
          (Or.inl (by simp))
      · cases hName
  · next name? afterName hName =>
    split at h
    · next fault hConstraints =>
      cases h
      obtain ⟨name, hText, hBefore⟩ := readName?_stable hName
      refine (readConstraints_breaksOff hConstraints).behind hText.symm (fun tail hTail out => ?_)
        (Or.inr (List.Subset.refl _))
      refine reads_map_iff (f := fun constraints => (⟨role, constraints, name?⟩ : Node)) ?_
      simp only [readDetails, hBefore tail hTail]
      cases readConstraints tail <;> rfl
    · cases h

theorem readNode_blanks_append (cs tail : List Char) :
    readNode (leadingBlanks cs ++ tail) = readNode tail := by
  simp only [readNode, skipBlanks_leadingBlanks_append]

/-- Behind its brace a button can be read, whatever follows. -/
theorem readNode_button (tail : List Char) :
    readNode ("button\x7d".toList ++ tail) = .ok (Node.ofRole .button, tail) := by
  obtain ⟨inside, hChars, hRead⟩ := readNode_chars none (Node.Built.ofRole .button) tail
  have hInside : "button\x7d".toList ++ tail = inside := (List.cons.inj hChars).2
  rw [hInside]
  exact hRead

/-- A node breaks off where its role should stand. -/
theorem role_breaksOff (hNone : wordOf (skipBlanks cs) = []) :
    BreaksOff ['b'] (Reads readNode) cs (skipBlanks cs) := by
  refine ⟨leadingBlanks cs, (leadingBlanks_append_skipBlanks cs).symm,
    ⟨"button\x7d".toList, fun tail => ⟨?_, Node.ofRole .button, ?_⟩⟩, ?_⟩
  · exact beginsLike_leadingBlanks (beginsLike_opening List.mem_cons_self _ _)
  · rw [readNode_blanks_append, readNode_button]
  · rintro c hc tail out ⟨value, hRead⟩
    obtain ⟨inside, hSkip⟩ := List.head?_eq_some_iff.mp hc
    have hLower : c.isLower = false := by
      cases hLetter : c.isLower with
      | false => rfl
      | true => simp [hSkip, wordOf, hLetter] at hNone
    rw [readNode, skipBlanks_append_cons hSkip tail] at hRead
    simp [wordOf, hLower] at hRead

theorem readNode_breaksOff (h : readNode cs = .error (.unexpected expected rest)) :
    BreaksOff ['b'] (Reads readNode) cs rest := by
  simp only [readNode] at h
  split at h
  · next hNone =>
    cases h
    exact role_breaksOff hNone
  · next hSome =>
    split at h
    · cases h
    · next role hRole =>
      have hText : leadingBlanks cs ++ wordOf (skipBlanks cs) ++ afterWord (skipBlanks cs) = cs := by
        rw [List.append_assoc, wordOf_append_afterWord, leadingBlanks_append_skipBlanks]
      have hLower : ∀ c ∈ ['}'], c.isLower = false := List.forall_mem_singleton.mpr (by decide)
      refine (readDetails_breaksOff h).behind hText (fun tail hTail out => ?_)
        (Or.inl (by simp [hSome]))
      rw [List.append_assoc]
      simp only [Reads, readNode_role_append ['}'] hLower hSome hRole hTail]

/-- Nodes begin behind blanks with one node. -/
theorem reads_first_node {inside : List Char} (hSkip : skipBlanks cs = '{' :: inside)
    (tail out : List Char) : Reads readNodes (leadingBlanks cs ++ '{' :: tail) out ↔
      ∃ mid, Reads readNode tail mid ∧ Reads readNodes mid out :=
  reads_bind_iff (readNodes_brace (skipBlanks_append_cons hSkip tail))

theorem readNodes_nil : readNodes [] = .ok ([], []) := readNodes_stop (by simp [skipBlanks])

/-- Nodes can be brought to an end. -/
def Completable (used : List Char) : Prop :=
  ∃ suffix nodes, readNodes (used ++ suffix) = .ok (nodes, []) ∧ nodes ≠ []

/-- Nodes break off inside the last of them. -/
theorem readNodes_breaksOff (h : readNodes cs = .error (.unexpected expected rest)) :
    ∃ used, cs = used ++ rest ∧ Completable used ∧
      ∀ c, rest.head? = some c → ∀ tail out, ¬ Reads readNodes (used ++ c :: tail) out := by
  fun_induction readNodes cs with
  | case1 => cases h
  | case2 cs inside fault hNode hSkip =>
      cases h
      obtain ⟨used, rfl, ⟨suffix, hSuffix⟩, hBlocked⟩ := readNode_breaksOff hNode
      refine ⟨leadingBlanks cs ++ '{' :: used, ?_, ?_, ?_⟩
      · simpa using (leadingBlanks_append_cons hSkip).symm
      · obtain ⟨-, n, hLast⟩ := hSuffix []
        rw [List.append_nil] at hLast
        refine ⟨suffix, [n], ?_, List.cons_ne_nil _ _⟩
        rw [List.append_assoc, List.cons_append,
          readNodes_cons (skipBlanks_append_cons hSkip _) hLast, readNodes_nil]
      · intro c hc tail out hRead
        rw [List.append_assoc, List.cons_append, reads_first_node hSkip] at hRead
        obtain ⟨mid, hFirst, -⟩ := hRead
        exact hBlocked c hc tail mid hFirst
  | case3 cs inside first next hFirst fault hMore hSkip hShorter ih =>
      cases h
      obtain ⟨used, rfl, ⟨suffix, nodes, hNodes, -⟩, hBlocked⟩ := ih hMore
      obtain ⟨node, rfl, hNode⟩ := readNode_stable hFirst
      refine ⟨leadingBlanks cs ++ '{' :: (node ++ used), ?_, ?_, ?_⟩
      · simpa using (leadingBlanks_append_cons hSkip).symm
      · refine ⟨suffix, first :: nodes, ?_, List.cons_ne_nil _ _⟩
        rw [List.append_assoc, List.cons_append, List.append_assoc,
          readNodes_cons (skipBlanks_append_cons hSkip _) (hNode (used ++ suffix)), hNodes]
      · intro c hc tail out hRead
        rw [List.append_assoc, List.cons_append, List.append_assoc, reads_first_node hSkip] at hRead
        obtain ⟨mid, ⟨n, hFirst'⟩, hRest⟩ := hRead
        cases (hNode (used ++ c :: tail)).symm.trans hFirst'
        exact hBlocked c hc tail out hRest
  | case4 => cases h
  | case5 => cases h

theorem skipBlanks_of_readNodes {nodes : List Node} (h : readNodes cs = .ok (nodes, rest)) :
    skipBlanks rest = rest := by
  obtain ⟨⟨behind, -, rfl⟩, -⟩ := readNodes_iff.mp h
  exact skipBlanks_skipBlanks behind

/-- Where nodes have ended, none begins with the next character. -/
theorem readNodes_next {nodes : List Node} {c : Char} (h : readNodes cs = .ok (nodes, rest))
    (hc : rest.head? = some c) (tail : List Char) : readNodes (c :: tail) = .ok ([], c :: tail) := by
  obtain ⟨⟨behind, -, hRest⟩, hStop⟩ := readNodes_iff.mp h
  obtain ⟨inside, rfl⟩ := List.head?_eq_some_iff.mp hc
  have hHead : (skipBlanks behind).head? = some c := by rw [hRest, List.head?_cons]
  have hSkip := skipBlanks_cons tail (head?_dropWhile_false hHead)
  have hBrace : ∀ text, skipBlanks (c :: tail) ≠ '{' :: text := by
    intro text hOpen
    obtain ⟨rfl, -⟩ := List.cons.inj (hSkip.symm.trans hOpen)
    exact hStop inside rfl
  rw [readNodes_stop hBrace, hSkip]

theorem readNodes_button :
    readNodes ('{' :: ("button\x7d".toList ++ [])) = .ok ([Node.ofRole .button], []) := by
  rw [readNodes_cons (skipBlanks_cons _ (by decide)) (readNode_button []), readNodes_nil]

/-- Behind nodes a button can be read, but nothing that begins with the next character. -/
theorem readNodes_ended {nodes : List Node} (h : readNodes cs = .ok (nodes, rest)) :
    ∃ used, cs = used ++ rest ∧ Completable used ∧ ∀ c, rest.head? = some c → ∀ tail,
      readNodes (used ++ c :: tail) = .ok (nodes, c :: tail) := by
  obtain ⟨used, hSplit, hUsed⟩ := readNodes_stable h
  refine ⟨used, hSplit, ?_, fun c hc tail => ?_⟩
  · have hEnd : readNodes (used ++ '{' :: ("button\x7d".toList ++ [])) =
        .ok (nodes ++ [Node.ofRole .button], []) := by
      rw [hUsed, readNodes_button]
      rfl
    exact ⟨_, _, hEnd, by simp⟩
  · rw [hUsed, readNodes_next h hc tail]
    simp [Except.map]

/-- Where something is left behind nodes, they do not end the text. -/
theorem readNodes_unended {nodes : List Node} (h : readNodes cs = .ok (nodes, rest)) :
    ∃ used, cs = used ++ rest ∧ Completable used ∧ ∀ c, rest.head? = some c → ∀ tail others,
      readNodes (used ++ c :: tail) ≠ .ok (others, []) := by
  obtain ⟨used, hSplit, hUsed, hNext⟩ := readNodes_ended h
  refine ⟨used, hSplit, hUsed, fun c hc tail others hNodes => ?_⟩
  cases (hNext c hc tail).symm.trans hNodes

/-! ## Whole texts -/

/-- The grammar derives a locator with nodes. Where roles with presentational children stand does not
matter. -/
def IsAccepted (cs : List Char) : Prop := ∃ l, LocatorText cs l ∧ l.nodes ≠ []

/-- Some completion of the text is accepted. -/
def Viable (cs : List Char) : Prop := ∃ suffix, IsAccepted (cs ++ suffix)

theorem Viable.of_append {behind : List Char} (h : Viable (cs ++ behind)) : Viable cs := by
  obtain ⟨suffix, hAccepted⟩ := h
  rw [List.append_assoc] at hAccepted
  exact ⟨behind ++ suffix, hAccepted⟩

/-- A text is accepted if its nodes are all of it, or if `outer` and further nodes follow them. -/
theorem isAccepted_iff : IsAccepted cs ↔
    (∃ nodes, readNodes cs = .ok (nodes, []) ∧ nodes ≠ []) ∨
      ∃ preOuter behind postOuter, readNodes cs = .ok (preOuter, outerWord ++ behind) ∧
        readNodes behind = .ok (postOuter, []) ∧ postOuter ≠ [] := by
  constructor
  · rintro ⟨l, hText, hSome⟩
    cases hText with
    | plain hNodes hEnd =>
        refine Or.inl ⟨_, readNodes_iff.mpr ⟨⟨_, hNodes, skipBlanks_eq_nil_iff.mpr hEnd⟩, by simp⟩, ?_⟩
        simpa [nodes] using hSome
    | outer hNodes hWord hOthers hPost hEnd =>
        refine Or.inr ⟨_, _, _, readNodes_iff.mpr ⟨⟨_, hNodes, skipBlanks_eq_outer_iff.mpr hWord⟩, ?_⟩,
          readNodes_iff.mpr ⟨⟨_, hOthers, skipBlanks_eq_nil_iff.mpr hEnd⟩, by simp⟩, hPost⟩
        simp [outerWord]
  · rintro (⟨nodes, hNodes, hSome⟩ | ⟨preOuter, behind, postOuter, hPre, hPost, hSome⟩)
    · obtain ⟨⟨blanks, hText, hEnd⟩, -⟩ := readNodes_iff.mp hNodes
      refine ⟨⟨nodes, []⟩, LocatorText.plain hText (skipBlanks_eq_nil_iff.mp hEnd), ?_⟩
      simpa [Locator.nodes] using hSome
    · obtain ⟨⟨beforeOuter, hText, hWord⟩, -⟩ := readNodes_iff.mp hPre
      obtain ⟨⟨blanks, hOthers, hEnd⟩, -⟩ := readNodes_iff.mp hPost
      refine ⟨⟨preOuter, postOuter⟩, LocatorText.outer hText (skipBlanks_eq_outer_iff.mp hWord) hOthers
        hSome (skipBlanks_eq_nil_iff.mp hEnd), ?_⟩
      simp [Locator.nodes, hSome]

/-- Behind `outer` an accepted text has nodes and nothing else. -/
theorem isAccepted_outer_iff {before tail : List Char} {preOuter : List Node}
    (hBefore : ∀ tail, readNodes (before ++ tail) =
      (readNodes tail).map fun (more, out) => (preOuter ++ more, out)) :
    IsAccepted (before ++ outerWord ++ tail) ↔
      ∃ nodes, readNodes tail = .ok (nodes, []) ∧ nodes ≠ [] := by
  have hOuter : readNodes (outerWord ++ tail) = .ok ([], outerWord ++ tail) := by
    have hSkip : skipBlanks (outerWord ++ tail) = outerWord ++ tail :=
      skipBlanks_cons (c := 'o') _ (by decide)
    have hStop : ∀ inside, skipBlanks (outerWord ++ tail) ≠ '{' :: inside := by
      intro inside
      rw [hSkip]
      simp [outerWord]
    rw [readNodes_stop hStop, hSkip]
  have hRead : readNodes (before ++ outerWord ++ tail) = .ok (preOuter, outerWord ++ tail) := by
    rw [List.append_assoc, hBefore, hOuter]
    simp [Except.map]
  rw [isAccepted_iff, hRead]
  constructor
  · rintro (⟨nodes, hNodes, -⟩ | ⟨pre, behind, post, hPre, hPost, hSome⟩)
    · exact absurd (Prod.mk.inj (Except.ok.inj hNodes)).2 (by simp [outerWord])
    · obtain ⟨-, hBehind⟩ := Prod.mk.inj (Except.ok.inj hPre)
      obtain rfl := List.append_cancel_left hBehind
      exact ⟨post, hPost, hSome⟩
  · rintro ⟨nodes, hNodes, hSome⟩
    exact Or.inr ⟨preOuter, tail, nodes, rfl, hNodes, hSome⟩

theorem Completable.viable (h : Completable used) : Viable used := by
  obtain ⟨suffix, nodes, hNodes, hSome⟩ := h
  exact ⟨suffix, isAccepted_iff.mpr (Or.inl ⟨nodes, hNodes, hSome⟩)⟩

/-- Where the nodes behind `outer` break off, the text does. -/
theorem viable_behind_outer {before : List Char} {preOuter : List Node}
    (hBefore : ∀ tail, readNodes (before ++ tail) =
      (readNodes tail).map fun (more, out) => (preOuter ++ more, out))
    (hUsed : Completable used)
    (hBlocked : ∀ c, rest.head? = some c → ∀ tail nodes,
      readNodes (used ++ c :: tail) ≠ .ok (nodes, [])) :
    Viable (before ++ outerWord ++ used) ∧
      ∀ c, rest.head? = some c → ¬ Viable (before ++ outerWord ++ used ++ [c]) := by
  constructor
  · obtain ⟨suffix, hSuffix⟩ := hUsed
    refine ⟨suffix, ?_⟩
    rw [List.append_assoc _ used, isAccepted_outer_iff hBefore]
    exact hSuffix
  · rintro c hc ⟨suffix, hAccepted⟩
    rw [List.append_assoc, List.append_assoc _ used, isAccepted_outer_iff hBefore] at hAccepted
    obtain ⟨nodes, hNodes, -⟩ := hAccepted
    exact hBlocked c hc suffix nodes hNodes

/-- What is left behind nodes when the text should have ended. -/
theorem rest_of_finish {nodes : List Node × List Node} {behind : List Char}
    (hSkip : skipBlanks behind = behind)
    (h : finish nodes behind = .error (.unexpected expected rest)) :
    behind = rest ∧ expected = if nodes.2.isEmpty then .nodeOuterOrEnd else .nodeOrEnd := by
  unfold finish at h
  rw [hSkip] at h
  split at h
  · cases h
  · cases h
    exact ⟨rfl, rfl⟩

/-- Behind `outer` the text breaks off inside a node, or where one should open. -/
theorem readOuterNodes_breaksOff (h : readOuterNodes cs = .error (.unexpected expected rest)) :
    ∃ used, cs = used ++ rest ∧ Completable used ∧ ∀ c, rest.head? = some c → ∀ tail nodes,
      readNodes (used ++ c :: tail) ≠ .ok (nodes, []) := by
  unfold readOuterNodes at h
  split at h
  · next inside hSkip =>
    rw [← hSkip, readNodes_congr (skipBlanks_skipBlanks cs)] at h
    obtain ⟨used, hSplit, hUsed, hBlocked⟩ := readNodes_breaksOff h
    refine ⟨used, hSplit, hUsed, fun c hc tail nodes hNodes => ?_⟩
    exact hBlocked c hc tail [] ⟨nodes, hNodes⟩
  · next hBrace =>
    cases h
    exact readNodes_unended (readNodes_stop hBrace)

/-- A text that the grammar does not derive breaks off where the fault was found, unless that is in
front of a word that begins as `outer` does. -/
theorem readParts_breaksOff (h : readParts cs = .error (.unexpected expected rest)) :
    ∃ used, cs = used ++ rest ∧ Viable used ∧ ∀ c, rest.head? = some c →
      (expected = .nodeOuterOrEnd ∧ c = 'o') ∨ ¬ Viable (used ++ [c]) := by
  unfold readParts at h
  split at h
  · next fault hNodes =>
    cases h
    obtain ⟨used, hSplit, hUsed, hBlocked⟩ := readNodes_breaksOff hNodes
    refine ⟨used, hSplit, hUsed.viable, fun c hc => Or.inr ?_⟩
    rintro ⟨suffix, hAccepted⟩
    rw [List.append_assoc, isAccepted_iff] at hAccepted
    rcases hAccepted with ⟨nodes, hRead, -⟩ | ⟨preOuter, behind, -, hRead, -⟩
    · exact hBlocked c hc suffix _ ⟨nodes, hRead⟩
    · exact hBlocked c hc suffix _ ⟨preOuter, hRead⟩
  · next preOuter behind hPre =>
    split at h
    · next hOuter =>
      obtain ⟨rfl, hExpected⟩ := rest_of_finish (skipBlanks_of_readNodes hPre) h
      obtain ⟨used, hSplit, hUsed, hNext⟩ := readNodes_ended hPre
      refine ⟨used, hSplit, hUsed.viable, fun c hc => ?_⟩
      by_cases hLetter : c = 'o'
      · exact Or.inl ⟨hExpected, hLetter⟩
      · right
        rintro ⟨suffix, hAccepted⟩
        rw [List.append_assoc, isAccepted_iff] at hAccepted
        have hRest := hNext c hc suffix
        rcases hAccepted with ⟨nodes, hRead, -⟩ | ⟨pre, outer, post, hRead, -⟩
        · cases hRest.symm.trans hRead
        · have hWord := (Prod.mk.inj (Except.ok.inj (hRest.symm.trans hRead))).2
          exact hLetter (List.cons.inj hWord).1
    · next afterOuter hOuter =>
      obtain ⟨before, rfl, hBefore⟩ := readNodes_stable hPre
      rw [afterOuter?_eq_some_iff] at hOuter
      have hPart : ∃ used, afterOuter = used ++ rest ∧ Completable used ∧ ∀ c, rest.head? = some c →
          ∀ tail nodes, readNodes (used ++ c :: tail) ≠ .ok (nodes, []) := by
        split at h
        · next fault hPost =>
          cases h
          exact readOuterNodes_breaksOff hPost
        · next postOuter behindPost hPost =>
          obtain ⟨hNodes, -⟩ := readOuterNodes_iff.mp hPost
          obtain ⟨rfl, -⟩ := rest_of_finish (skipBlanks_of_readNodes hNodes) h
          exact readNodes_unended hNodes
      obtain ⟨used, hSplit, hUsed, hBlocked⟩ := hPart
      obtain ⟨hViable, hStuck⟩ := viable_behind_outer hBefore hUsed hBlocked
      refine ⟨before ++ outerWord ++ used, ?_, hViable, fun c hc => Or.inr (hStuck c hc)⟩
      simp [hOuter, hSplit]

/-! ## Messages -/

/-- A position is written in digits, and a space stands in front of it. -/
theorem eq_of_positions {what what' : String} {position position' : Nat}
    (h : what ++ " at position " ++ toString position =
      what' ++ " at position " ++ toString position') : what = what' ∧ position = position' := by
  have hDigits : ∀ n : Nat, ∀ c ∈ (toString n).toList.reverse, c.isDigit = true := by
    intro n c hc
    rw [List.mem_reverse, Nat.toString_eq_repr, Nat.toList_repr] at hc
    exact Nat.isDigit_of_mem_toDigits (by decide) (by decide) hc
  have hSpan : ∀ (what : String) (n : Nat),
      (what ++ " at position " ++ toString n).toList.reverse.takeWhile Char.isDigit =
        (toString n).toList.reverse := by
    intro what n
    have hSplit : (what ++ " at position " ++ toString n).toList.reverse =
        (toString n).toList.reverse ++ (what ++ " at position ").toList.reverse := by
      simp [String.toList_append]
    rw [hSplit]
    refine (span_append (hDigits n) ?_).1
    simp [String.toList_append]
  have hNumber : (toString position).toList.reverse = (toString position').toList.reverse := by
    rw [← hSpan what position, h, hSpan]
  have hSame : toString position = toString position' :=
    String.toList_injective (List.reverse_injective hNumber)
  constructor
  · rw [hSame, String.append_left_inj, String.append_left_inj] at h
    exact h
  · exact Nat.repr_inj.mp hSame

/-- Syntax errors alone have messages that begin with this letter. -/
theorem unexpected_of_head? {m : Malformed} (h : m.message.toList.head? = some 'F') :
    ∃ text expected position, m = .unexpected text expected position := by
  unfold Malformed.message at h
  cases m with
  | unexpected text expected position => exact ⟨text, expected, position, rfl⟩
  | empty => simp at h
  | unknownRole word => simp [String.toList_append] at h
  | unsupportedAttribute word => simp [String.toList_append] at h
  | presentational locator role => simp [String.toList_append] at h

/-- The message of a syntax error tells what was expected and where. -/
theorem unexpected_of_message {m : Malformed} {text what : String} {position : Nat}
    (h : m.message = "Failed to parse semantic locator \"" ++ text ++
      "\". Error message: Expected " ++ what ++ " at position " ++ toString position) :
    ∃ text' expected position', m = .unexpected text' expected position' ∧
      (text' = text → expected.text = what ∧ position' = position) := by
  have hFirst : m.message.toList.head? = some 'F' := by
    rw [h]
    simp [String.toList_append]
  obtain ⟨text', expected, position', rfl⟩ := unexpected_of_head? hFirst
  refine ⟨text', expected, position', rfl, fun hText => ?_⟩
  subst hText
  obtain ⟨hWhat, hPosition⟩ := eq_of_positions h
  exact ⟨(String.append_right_inj _).mp hWhat, hPosition⟩

/-- A syntax error is a fault at its position in the text. -/
theorem readParts_of_unexpected {text text' : String} {expected : Expectation} {position : Nat}
    (h : parse text = .error (.unexpected text' expected position)) :
    text' = text ∧ ∃ rest, readParts text.toList = .error (.unexpected expected rest) ∧
      position = text.toList.length - rest.length := by
  unfold parse at h
  split at h
  · cases h
  · split at h
    · next fault hFault =>
      cases fault with
      | unexpected expected' rest =>
          cases h
          exact ⟨rfl, rest, hFault, rfl⟩
      | unknownRole word => cases h
      | unsupportedAttribute word => cases h
    · unfold make at h
      simp only at h
      split at h
      · cases h
      · split at h
        · cases h
        · cases h

/-- A syntax error points at the end of what can be completed: its position lies in the text or right
behind it, and whatever stands in front of that begins some locator.  With the next character nothing
does, except where a word begins as `outer` does and goes on otherwise. -/
theorem expected_at_viable_prefix (text what : String) (position : Nat)
    (h : ofText text = .error (.invalidLocator ("Failed to parse semantic locator \"" ++ text ++
      "\". Error message: Expected " ++ what ++ " at position " ++ toString position))) :
    position ≤ text.toList.length ∧ (∀ n ≤ position, Viable (text.toList.take n)) ∧
      ∀ c, text.toList[position]? = some c →
        (what = Expectation.nodeOuterOrEnd.text ∧ c = 'o') ∨
          ¬ Viable (text.toList.take (position + 1)) := by
  obtain ⟨m, hParse, hMessage⟩ : ∃ m, parse text = .error m ∧ m.message =
      "Failed to parse semantic locator \"" ++ text ++
        "\". Error message: Expected " ++ what ++ " at position " ++ toString position := by
    unfold ofText at h
    split at h
    · next m hParse => exact ⟨m, hParse, Error.invalidLocator.inj (Except.error.inj h)⟩
    · cases h
  obtain ⟨text', expected, position', rfl, hSame⟩ := unexpected_of_message hMessage
  obtain ⟨hText, rest, hParts, hPosition⟩ := readParts_of_unexpected hParse
  obtain ⟨rfl, rfl⟩ := hSame hText
  obtain ⟨used, hSplit, hViable, hStuck⟩ := readParts_breaksOff hParts
  have hLength : position' = used.length := by
    rw [hPosition, hSplit, List.length_append]
    omega
  have hTake : ∀ n ≤ position', text.toList.take n = used.take n := by
    intro n hn
    rw [hSplit, List.take_append_of_le_length (by omega)]
  refine ⟨by omega, fun n hn => ?_, fun c hc => ?_⟩
  · have hPrefix : Viable (used.take n ++ used.drop n) := by
      rw [List.take_append_drop]
      exact hViable
    rw [hTake n hn]
    exact hPrefix.of_append
  · have hHead : rest.head? = some c := by
      rw [hSplit, hLength, List.getElem?_append_right (Nat.le_refl _), Nat.sub_self] at hc
      rwa [List.head?_eq_getElem?]
    have hNext : text.toList.take (position' + 1) = used ++ [c] := by
      obtain ⟨behind, rfl⟩ := List.head?_eq_some_iff.mp hHead
      rw [hSplit, hLength]
      simp [List.take_append]
    rw [hNext]
    cases hStuck c hHead with
    | inl hOuter => exact Or.inl ⟨hOuter.1 ▸ rfl, hOuter.2⟩
    | inr hNot => exact Or.inr hNot

/-- Where the brace of the last node is missing, the position is counted in characters. -/
theorem expected_at_viable_prefix_behind_outer :
    ofText "\x7blist 'é'\x7d outer \x7bbutton OK\x7d" =
        .error (.invalidLocator ("Failed to parse semantic locator \"" ++
          "\x7blist 'é'\x7d outer \x7bbutton OK\x7d" ++ "\". Error message: Expected " ++
          "\"\x7d\" or attribute" ++ " at position " ++ toString 25)) ∧
      Viable "\x7blist 'é'\x7d outer \x7bbutton ".toList ∧
      ¬ Viable "\x7blist 'é'\x7d outer \x7bbutton O".toList := by
  refine ⟨by decide +kernel, ?_⟩
  obtain ⟨-, hViable, hStuck⟩ := expected_at_viable_prefix
    "\x7blist 'é'\x7d outer \x7bbutton OK\x7d" "\"\x7d\" or attribute" 25 (by decide +kernel)
  refine ⟨hViable 25 (Nat.le_refl 25), ?_⟩
  cases hStuck 'O' rfl with
  | inl hOuter => exact absurd hOuter.2 (by decide)
  | inr hNot => exact hNot

end Locator

end AriaLocator

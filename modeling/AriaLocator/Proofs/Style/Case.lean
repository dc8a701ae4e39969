import Mathlib
import AriaLocator.Style

/-!
# The case of letters in inline style

Everything that is scanned in a `style` attribute is scanned without regard to the case of ASCII
letters: blanks, semicolons and colons are no letters, a name may hold letters of both kinds, and
names are compared by their small letters.  So the last declaration of a property is found in the
same place whatever the case of the letters, and the value that is read is made small in the end.

One step looks at the case before that.  A priority mark is taken off the end of a value only if it is
spelled in small letters.  With a mark in other letters the value keeps it, so that `none !IMPORTANT`
is not `none`.  Each mark that is kept makes the value longer, and therefore the values are the same
exactly if the same number of marks is taken off.

Lowering letters commutes with each scanning function.  This reduces two texts that differ in case
to one, their common text in small letters, and to the numbers of marks that are taken off.

## Main results

* `declarations_lower`: the declarations of a text in small letters.
* `cleanValue_eq_iff`: values that differ in case are read alike exactly if as many marks are taken
  off.
* `value?_eq_iff`: so are the values of properties.
* `style_case_iff`: documents whose `style` attributes differ in case have the same inline style
  exactly where as many marks are taken off, and then the same elements are hidden.
-/

namespace AriaLocator

namespace Text

/-! ## Scanning without regard to case -/

/-- A test that a letter passes in small form exactly if it passes as it is. -/
def IgnoresCase (test : Char → Bool) : Prop := ∀ c, test c.toLower = test c

/-- A test that no letter passes ignores case. -/
theorem ignoresCase_of_not_alpha {test : Char → Bool}
    (h : ∀ c, c.isAlpha = true → test c = false) : IgnoresCase test := by
  intro c
  by_cases hUpper : c.isUpper = true
  · have hAlpha : c.isAlpha = true := by rw [Char.isAlpha, hUpper, Bool.true_or]
    have hLower : c.toLower.isAlpha = true := by rw [Char.isAlpha_toLower_eq_isAlpha, hAlpha]
    rw [h c hAlpha, h c.toLower hLower]
  · rw [Char.toLower_eq_of_not_isUpper hUpper]

theorem ignoresCase_beq {mark : Char} (h : mark.isAlpha = false) : IgnoresCase (· == mark) := by
  refine ignoresCase_of_not_alpha fun c hAlpha => beq_eq_false_iff_ne.mpr ?_
  rintro rfl
  rw [hAlpha] at h
  cases h

theorem ignoresCase_isBlank : IgnoresCase isBlank := by
  refine ignoresCase_of_not_alpha fun c hAlpha => ?_
  have hLetter : (65 ≤ c.toNat ∧ c.toNat ≤ 90) ∨ (97 ≤ c.toNat ∧ c.toNat ≤ 122) := by
    simpa [Char.isAlpha, Char.isUpper, Char.isLower, UInt32.le_iff_toNat_le, Char.toNat_val]
      using hAlpha
  simp only [isBlank, Bool.or_eq_false_iff, Bool.and_eq_false_iff, beq_eq_false_iff_ne,
    decide_eq_false_iff_not]
  omega

section Scanning

variable {test : Char → Bool} (h : IgnoresCase test) (cs : List Char)

include h

theorem takeWhile_lower :
    (cs.map Char.toLower).takeWhile test = (cs.takeWhile test).map Char.toLower := by
  have hSame : test ∘ Char.toLower = test := funext h
  rw [List.takeWhile_map, hSame]

theorem dropWhile_lower :
    (cs.map Char.toLower).dropWhile test = (cs.dropWhile test).map Char.toLower := by
  have hSame : test ∘ Char.toLower = test := funext h
  rw [List.dropWhile_map, hSame]

theorem fields_lower :
    fields test (cs.map Char.toLower) = (fields test cs).map (List.map Char.toLower) := by
  induction cs with
  | nil => rfl
  | cons c cs ih =>
      rw [List.map_cons, fields, fields, h c, ih]
      cases fields test cs <;> split <;> rfl

end Scanning

theorem trimChars_lower (cs : List Char) :
    trimChars (cs.map Char.toLower) = (trimChars cs).map Char.toLower := by
  rw [trimChars, trimChars, dropEndWhile, dropEndWhile, dropWhile_lower ignoresCase_isBlank,
    ← List.map_reverse, dropWhile_lower ignoresCase_isBlank, List.map_reverse]

/-! ## Trimmed texts -/

/-- A trimmed text does not begin with a blank. -/
theorem not_blank_of_head?_trimChars {cs : List Char} {c : Char}
    (h : (trimChars cs).head? = some c) : isBlank c = false := by
  have hPrefix : trimChars cs <+: cs.dropWhile isBlank := List.rdropWhile_prefix isBlank _
  obtain ⟨tail, hTail⟩ := hPrefix
  have hStop := List.head?_dropWhile_not isBlank cs
  rw [← hTail, List.head?_append, h] at hStop
  simpa using hStop

/-- A text that neither begins nor ends with a blank is trimmed. -/
theorem trimChars_eq_self {cs : List Char} (hFirst : ∀ c, cs.head? = some c → isBlank c = false)
    (hLast : ∀ c, cs.reverse.head? = some c → isBlank c = false) : trimChars cs = cs := by
  have hNone : ∀ c ∈ ([] : List Char), isBlank c = true := by simp
  have hCore := trimChars_surrounded hNone hNone hFirst (by rwa [← List.head?_reverse])
  rwa [List.nil_append, List.append_nil] at hCore

end Text

namespace Style

/-! ## Declarations -/

theorem ignoresCase_isNameChar : Text.IgnoresCase isNameChar := by
  have hOther : Text.IgnoresCase fun c => c == '-' || c == '\u017f' || c == '\u212a' := by
    refine Text.ignoresCase_of_not_alpha fun c hAlpha => ?_
    simp only [Bool.or_eq_false_iff, beq_eq_false_iff_ne]
    refine ⟨⟨?_, ?_⟩, ?_⟩ <;> (rintro rfl; exact absurd hAlpha (by decide))
  intro c
  have hSame := hOther c
  simp only [isNameChar, Bool.or_assoc, Char.isAlpha_toLower_eq_isAlpha] at hSame ⊢
  rw [hSame]

/-- A declaration in small letters. -/
def lowerDeclaration (declaration : String × List Char) : String × List Char :=
  (Text.lower declaration.1, declaration.2.map Char.toLower)

theorem declaration?_lower (cs : List Char) :
    declaration? (cs.map Char.toLower) = (declaration? cs).map lowerDeclaration := by
  have hName := ignoresCase_isNameChar
  have hBlank := Text.ignoresCase_isBlank
  unfold declaration?
  simp only [Text.dropWhile_lower hBlank, Text.takeWhile_lower hName, Text.dropWhile_lower hName]
  generalize (cs.dropWhile Text.isBlank).takeWhile isNameChar = name
  generalize ((cs.dropWhile Text.isBlank).dropWhile isNameChar).dropWhile Text.isBlank = rest
  cases rest with
  | nil => rfl
  | cons c value =>
      have hColon : (c.toLower == ':') = (c == ':') := Text.ignoresCase_beq (by decide) c
      by_cases hMark : c = ':'
      · subst hMark
        cases name with
        | nil => rfl
        | cons first name => simp [lowerDeclaration, Text.lower]
      · have hOther : c.toLower ≠ ':' := by simpa [hMark] using hColon
        simp [hMark, hOther]

theorem declarations_lower (style : String) :
    declarations (Text.lower style) = (declarations style).map lowerDeclaration := by
  rw [declarations, declarations, Text.lower, String.toList_ofList,
    Text.fields_lower (Text.ignoresCase_beq (by decide)), List.filterMap_map, List.map_filterMap]
  exact congrArg (List.filterMap · _) (funext declaration?_lower)

/-- The value of the last declaration of a property, as it is written. -/
def lastDeclared? (style property : String) : Option (List Char) :=
  ((declarations style).filter fun (name, _) => Text.eqIgnoringCase name property).getLast?.map (·.2)

theorem value?_eq (style property : String) :
    value? style property = (lastDeclared? style property).map cleanValue := by
  rw [value?, lastDeclared?, Option.map_map]
  rfl

theorem lastDeclared?_lower (style property : String) :
    lastDeclared? (Text.lower style) property =
      (lastDeclared? style property).map (List.map Char.toLower) := by
  have hName (name : String) :
      Text.eqIgnoringCase (Text.lower name) property = Text.eqIgnoringCase name property := by
    simp [Text.eqIgnoringCase, Text.lower, Function.comp_def]
  rw [lastDeclared?, lastDeclared?, declarations_lower, List.filter_map, List.getLast?_map,
    Option.map_map, Option.map_map]
  simp only [Function.comp_def, lowerDeclaration, hName]

/-! ## Priority marks -/

/-- How often `part` stands at the front of a text, one after the other. -/
def repetitions (part cs : List Char) : Nat :=
  if h : part.isPrefixOf cs = true ∧ cs.length - part.length < cs.length then
    have := h.2
    repetitions part (cs.drop part.length) + 1
  else 0
termination_by cs.length
decreasing_by
  rw [List.length_drop]
  assumption

theorem dropRepeated_eq_drop (part cs : List Char) :
    dropRepeated part cs = cs.drop (repetitions part cs * part.length) := by
  fun_induction repetitions part cs with
  | case1 cs h _ ih => rw [dropRepeated, dif_pos h, ih, List.drop_drop, Nat.add_one_mul, Nat.add_comm]
  | case2 cs h => rw [dropRepeated, dif_neg h, Nat.zero_mul, List.drop_zero]

/-- Behind fewer repetitions than there are stands another one. -/
theorem prefix_of_lt_repetitions {part cs : List Char} {k : Nat} (h : k < repetitions part cs) :
    part <+: cs.drop (k * part.length) := by
  fun_induction repetitions part cs generalizing k with
  | case1 cs hFront _ ih =>
      cases k with
      | zero => simpa using List.isPrefixOf_iff_prefix.mp hFront.1
      | succ k =>
          have hNext := ih (Nat.lt_of_succ_lt_succ h)
          rwa [List.drop_drop, Nat.add_comm, ← Nat.add_one_mul] at hNext
  | case2 => exact absurd h (Nat.not_lt_zero k)

/-- The number of priority marks that are taken off a value, which are those in small letters. -/
def priorityMarks (value : List Char) : Nat :=
  repetitions importantReversed (Text.trimChars value).reverse

/-- A value in small letters without that many marks. -/
def withoutMarks (value : List Char) (marks : Nat) : List Char :=
  Text.trimChars ((Text.trimChars value).rdrop (marks * importantReversed.length))

/-- What is read of a value depends on its small letters and on the number of marks. -/
theorem cleanValue_eq (value : List Char) :
    cleanValue value =
      String.ofList (withoutMarks (value.map Char.toLower) (priorityMarks value)) := by
  rw [withoutMarks, Text.trimChars_lower, cleanValue, dropRepeated_eq_drop,
    ← List.rdrop_eq_reverse_drop_reverse, Text.lower, String.toList_ofList, ← Text.trimChars_lower]
  simp only [List.rdrop, List.map_take, List.length_map, priorityMarks]

/-- Small letters do not hide a mark. -/
theorem mark_of_lt_priorityMarks {value : List Char} {k : Nat} (h : k < priorityMarks value) :
    importantReversed <+:
      (Text.trimChars (value.map Char.toLower)).reverse.drop (k * importantReversed.length) := by
  have hSmall : importantReversed.map Char.toLower = importantReversed := by decide
  have hMark := (prefix_of_lt_repetitions h).map Char.toLower
  rwa [hSmall, List.map_drop, List.map_reverse, ← Text.trimChars_lower] at hMark

/-- In front of a mark nothing is trimmed, as the mark that is left ends the text. -/
theorem length_withoutMarks {value : List Char} {k : Nat}
    (h : importantReversed <+: (Text.trimChars value).reverse.drop (k * importantReversed.length)) :
    (withoutMarks value k).length =
      (Text.trimChars value).length - k * importantReversed.length := by
  have hReverse : ((Text.trimChars value).rdrop (k * importantReversed.length)).reverse =
      (Text.trimChars value).reverse.drop (k * importantReversed.length) := by
    rw [List.rdrop_eq_reverse_drop_reverse, List.reverse_reverse]
  have hTrimmed : withoutMarks value k =
      (Text.trimChars value).rdrop (k * importantReversed.length) := by
    refine Text.trimChars_eq_self (fun c hc => ?_) (fun c hc => ?_)
    · rw [List.rdrop, List.head?_take] at hc
      split at hc
      · cases hc
      · exact Text.not_blank_of_head?_trimChars hc
    · obtain ⟨tail, hTail⟩ := h
      rw [hReverse, ← hTail] at hc
      obtain rfl : 't' = c := Option.some.inj hc
      decide
  rw [hTrimmed, List.rdrop, List.length_take]
  omega

/-- The more marks are taken off, the shorter is what is left. -/
theorem length_withoutMarks_lt {value : List Char} {j k : Nat} (hLess : j < k)
    (h : ∀ i < k, importantReversed <+:
      (Text.trimChars value).reverse.drop (i * importantReversed.length)) :
    (withoutMarks value k).length < (withoutMarks value j).length := by
  have hShort : (withoutMarks value k).length ≤
      (Text.trimChars value).length - k * importantReversed.length := by
    have hTrim (cs : List Char) : (Text.trimChars cs).length ≤ cs.length :=
      (List.rdropWhile_prefix _ _).length_le.trans (List.dropWhile_sublist _).length_le
    refine (hTrim _).trans ?_
    rw [List.rdrop, List.length_take]
    exact Nat.min_le_left _ _
  have hRoom := (h j hLess).length_le
  have hMark : importantReversed.length = 10 := by decide
  rw [length_withoutMarks (h j hLess)]
  rw [List.length_drop, List.length_reverse] at hRoom
  rw [hMark] at hShort hRoom ⊢
  omega

/-- Values that differ in case are read alike exactly if as many marks are taken off. -/
theorem cleanValue_eq_iff {value value' : List Char}
    (h : value.map Char.toLower = value'.map Char.toLower) :
    cleanValue value = cleanValue value' ↔ priorityMarks value = priorityMarks value' := by
  rw [cleanValue_eq, cleanValue_eq, ← h, String.ofList_inj]
  constructor
  · intro hSame
    have hLength := congrArg List.length hSame
    rcases Nat.lt_trichotomy (priorityMarks value) (priorityMarks value') with hLess | hEq | hMore
    · have hShorter := length_withoutMarks_lt hLess fun i hi => h ▸ mark_of_lt_priorityMarks hi
      omega
    · exact hEq
    · have hShorter := length_withoutMarks_lt hMore fun i hi => mark_of_lt_priorityMarks hi
      omega
  · intro hMarks
    rw [hMarks]

/-! ## Values of properties -/

/-- Style texts that differ in case give a property the same value exactly if as many marks are taken
off its last declaration. -/
theorem value?_eq_iff {style style' : String} (h : Text.lower style = Text.lower style')
    (property : String) :
    value? style property = value? style' property ↔
      (lastDeclared? style property).map priorityMarks =
        (lastDeclared? style' property).map priorityMarks := by
  have hLast := lastDeclared?_lower style property
  rw [h, lastDeclared?_lower] at hLast
  rw [value?_eq, value?_eq]
  cases hOne : lastDeclared? style property with
  | none =>
      rw [hOne, Option.map_none, Option.map_eq_none_iff] at hLast
      rw [hLast]
      exact ⟨fun _ => rfl, fun _ => rfl⟩
  | some value =>
      rw [hOne] at hLast
      obtain ⟨value', hOther, hSame⟩ := Option.map_eq_some_iff.mp hLast
      rw [hOther, Option.map_some, Option.map_some, Option.map_some, Option.map_some,
        Option.some.injEq, Option.some.injEq]
      exact cleanValue_eq_iff hSame.symm

end Style

namespace Document

variable {d d' : Document}

/-! ## Documents -/

/-- Two documents differ at most in the case of letters in `style` attributes. -/
structure SameButStyleCase (d d' : Document) : Prop where
  /-- The tables are the same. -/
  slots : d.slots = d'.slots
  /-- The same elements have been detached. -/
  detached : d.detached = d'.detached
  /-- The other attributes are the same. -/
  attributes : ∀ e name, name ≠ "style" → d.attribute? e name = d'.attribute? e name
  /-- The `style` attributes are the same in small letters. -/
  styles : ∀ e, (d.attribute? e "style").map Text.lower = (d'.attribute? e "style").map Text.lower

/-- The number of priority marks that are taken off the last declaration of a property. -/
def priorityMarks? (d : Document) (e : Element) (property : String) : Option Nat :=
  (d.attribute? e "style").bind fun style =>
    (Style.lastDeclared? style property).map Style.priorityMarks

/-- Whatever the document, the case of the letters in one `style` attribute may be changed. -/
theorem sameButStyleCase_setAttribute (d : Document) (e : Element) {style style' : String}
    (h : Text.lower style = Text.lower style') :
    SameButStyleCase (d.setAttribute e "style" style) (d.setAttribute e "style" style') where
  slots := rfl
  detached := rfl
  attributes a name hName := by
    simp only [attribute?, setAttribute, Array.getElem?_modify]
    split
    · cases d.attributes[a]? with
      | none => rfl
      | some own => simp [List.lookup_append, List.lookup_cons, beq_false_of_ne hName]
    · rfl
  styles a := by
    simp only [attribute?, setAttribute, Array.getElem?_modify]
    split
    · cases d.attributes[a]? with
      | none => rfl
      | some own =>
          have hNone : (own.filter (·.1 != "style")).lookup "style" = none := by
            rw [List.lookup_eq_none_iff]
            intro entry hEntry
            rw [bne_comm]
            exact (List.mem_filter.mp hEntry).2
          simp [List.lookup_append, hNone, h]
    · rfl

namespace SameButStyleCase

variable (h : SameButStyleCase d d')

include h

theorem inlineStyle?_eq_iff (e : Element) (property : String) :
    d.inlineStyle? e property = d'.inlineStyle? e property ↔
      d.priorityMarks? e property = d'.priorityMarks? e property := by
  have hStyles := h.styles e
  unfold inlineStyle? priorityMarks?
  cases hOwn : d.attribute? e "style" with
  | none =>
      rw [hOwn, Option.map_none, eq_comm, Option.map_eq_none_iff] at hStyles
      rw [hStyles]
      exact ⟨fun _ => rfl, fun _ => rfl⟩
  | some style =>
      rw [hOwn, eq_comm] at hStyles
      obtain ⟨style', hOther, hSame⟩ := Option.map_eq_some_iff.mp hStyles
      rw [hOther]
      exact Style.value?_eq_iff hSame.symm property

theorem forest_eq : d.forest = d'.forest := by
  simp only [forest, tree, holdsFragment, hasParentNode, h.slots, h.detached]

theorem lineage_eq (e : Element) : d.lineage e = d'.lineage e := by
  rw [lineage, lineage, h.forest_eq]

theorem isDisplayNone_eq {e : Element}
    (hMarks : d.priorityMarks? e "display" = d'.priorityMarks? e "display") :
    d.isDisplayNone e = d'.isDisplayNone e := by
  rw [isDisplayNone, isDisplayNone, (h.inlineStyle?_eq_iff e "display").mpr hMarks, hasAttribute,
    hasAttribute, h.attributes e "hidden" (by decide), tag, tag, h.slots]

theorem isVisibilityHidden_eq {e : Element}
    (hMarks : ∀ a, d.priorityMarks? a "visibility" = d'.priorityMarks? a "visibility") :
    d.isVisibilityHidden e = d'.isVisibilityHidden e := by
  have hStyle : (d.inlineStyle? · "visibility") = (d'.inlineStyle? · "visibility") :=
    funext fun a => (h.inlineStyle?_eq_iff a "visibility").mpr (hMarks a)
  rw [isVisibilityHidden, isVisibilityHidden, h.lineage_eq, hStyle]

end SameButStyleCase

/--
Where `style` attributes differ in the case of letters alone, a property has the same value exactly if
as many priority marks are taken off its last declaration.  If that is so for `display` and
`visibility`, the same elements are displayed, visible and hidden.
-/
theorem style_case_iff (h : SameButStyleCase d d') :
    (∀ e property, d.inlineStyle? e property = d'.inlineStyle? e property ↔
        d.priorityMarks? e property = d'.priorityMarks? e property) ∧
      ((∀ e, ∀ property ∈ ["display", "visibility"],
          d.priorityMarks? e property = d'.priorityMarks? e property) →
        ∀ e, d.isDisplayNone e = d'.isDisplayNone e ∧
          d.isVisibilityHidden e = d'.isVisibilityHidden e ∧ d.isHidden e = d'.isHidden e) := by
  refine ⟨h.inlineStyle?_eq_iff, fun hMarks e => ?_⟩
  have hDisplay (a : Element) : d.isDisplayNone a = d'.isDisplayNone a :=
    h.isDisplayNone_eq (hMarks a "display" (by decide))
  have hVisibility : d.isVisibilityHidden e = d'.isVisibilityHidden e :=
    h.isVisibilityHidden_eq fun a => hMarks a "visibility" (by decide)
  refine ⟨hDisplay e, hVisibility, ?_⟩
  have hAria (a : Element) : d.attribute? a "aria-hidden" = d'.attribute? a "aria-hidden" :=
    h.attributes a "aria-hidden" (by decide)
  rw [isHidden, isHidden, hVisibility, h.lineage_eq]
  simp only [hAria, hDisplay]

/-- Of two declarations with a mark the last one counts, whatever the letters around the mark. -/
theorem style_case_iff_last_declaration :
    let page := fun style => (ofElement "p" [] []).setAttribute 0 "style" style
    let d := page "display:block; DISPLAY:None !important"
    let d' := page "Display:BLOCK; display:NONE !important"
    SameButStyleCase d d' ∧
      (∀ e, ∀ property ∈ ["display", "visibility"],
        d.priorityMarks? e property = d'.priorityMarks? e property) ∧
      d.inlineStyle? 0 "display" = d'.inlineStyle? 0 "display" ∧
      d.priorityMarks? 0 "display" = some 1 ∧ d.isHidden 0 = true ∧ d'.isHidden 0 = true := by
  intro page d d'
  have hCase : SameButStyleCase d d' := sameButStyleCase_setAttribute _ 0 (by decide)
  have hMarks : ∀ e, ∀ property ∈ ["display", "visibility"],
      d.priorityMarks? e property = d'.priorityMarks? e property := by
    intro e
    cases e with
    | zero => decide +kernel
    | succ e => exact fun _ _ => rfl
  have hHidden : d.isHidden 0 = true := by decide +kernel
  have hSame := style_case_iff hCase
  exact ⟨hCase, hMarks, (hSame.1 0 "display").mpr (hMarks 0 "display" (by decide)),
    by decide +kernel, hHidden, (hSame.2 hMarks 0).2.2 ▸ hHidden⟩

/-- A priority mark in capitals stays in the value: the paragraph is displayed. -/
theorem capital_mark_stays :
    let page := fun style => ofElement "p" [("style", style)] []
    let d := page "display:none !important"
    let d' := page "display:none !IMPORTANT"
    Text.lower "display:none !important" = Text.lower "display:none !IMPORTANT" ∧
      d.inlineStyle? 0 "display" = some "none" ∧
      d'.inlineStyle? 0 "display" = some "none !important" ∧
      d.isDisplayNone 0 = true ∧ d'.isDisplayNone 0 = false ∧
      d.isHidden 0 = true ∧ d'.isHidden 0 = false := by
  decide +kernel

end Document

end AriaLocator

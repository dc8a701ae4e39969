import AriaLocator.Css.Parser
import AriaLocator.Role.Resolve
import Mathlib.Data.List.Nodup

/-!
# The index by tag, and the patterns as they are written

A selector matches only elements with the tag of its last compound, so the role table is searched
through an index by tag.  The tags need no parser: they can be cut out of a written pattern at its
commas, spaces and greater signs.  Cutting goes wrong where a value holds one of these signs, and
knows nothing of what the parser makes of the same text.  It is right for every list of plain
chains, by induction on the list and whatever stands before the last compound of a chain.  The
patterns of the table are plain, and are what the parser reads from their texts.

The other half is about matching.  What fits a chain passes its last compound, whatever combinators
and tests stand around it, so the index leaves out no entry that an element fits.  The conditions of
some rules ask for the roles of ancestors, which come from the index too; an induction on the number
of the element shows that trying every entry, here and above, gives the same roles.

## Main results

* `tagsInText_text`: cutting a written list of plain chains finds the tags that they ask for.
* `rolesInTexts_eq`: cutting the written patterns makes the index by tag.
* `scannedRole?_eq`: an element takes the first role of the table that it fits, index or not.
* `hasRole_without_index`: having a role is passing the full test of its entry.
-/

namespace AriaLocator

namespace Css

/-! ## Cutting a written selector -/

/-- The tag that a written chain ends with: the letters and digits that open its last part, where a
space or a greater sign ends a part and blanks around the chain do not count. -/
def tagInMember? (part : List Char) : Option String :=
  let subject := (Text.fields (fun c => c == ' ' || c == '>') (Text.trimChars part)).getLastD []
  let tag := subject.takeWhile Char.isAlphanum
  if tag.isEmpty then none else some (String.ofList tag)

/-- The tags in a written selector, which is cut at its commas. -/
def tagsInText (text : String) : List String :=
  (Text.fields (· == ',') text.toList).filterMap tagInMember?

/-- Whether a compound opens with a tag of letters and digits that ends where these end. -/
def Compound.opensWithTag : Compound → Bool
  | .type name :: tests =>
    name != "" && name.toList.all Char.isAlphanum &&
      (testsText tests).toList.head?.all (!·.isAlphanum)
  | _ => false

/-- Whether cutting does not hurt a chain: it is written without a comma, and its last compound
opens with a tag and is written without a blank and a greater sign. -/
def Chain.isPlain (member : Chain) : Bool :=
  member.text.toList.all (· != ',') && Compound.opensWithTag member.subject &&
    (testsText member.subject).toList.all fun c => !Text.isBlank c && c != '>'

theorem Chain.isPlain_iff {member : Chain} :
    member.isPlain = true ↔
      (∀ c ∈ member.text.toList, (c == ',') = false) ∧
        Compound.opensWithTag member.subject = true ∧
        ∀ c ∈ (testsText member.subject).toList, Text.isBlank c = false ∧ c ≠ '>' := by
  simp [Chain.isPlain, and_assoc]

/-- What stands before the last part of a chain: nothing, or a text with a space at its end. -/
def IsFront (front : List Char) : Prop := ∀ c, front.getLast? = some c → c = ' '

theorem IsFront.eq_nil_or_concat {front : List Char} (h : IsFront front) :
    front = [] ∨ ∃ before, front = before ++ [' '] := by
  rcases front.eq_nil_or_concat with rfl | ⟨before, last, rfl⟩
  · exact .inl rfl
  · obtain rfl : last = ' ' := h last (by simp)
    exact .inr ⟨before, by simp⟩

theorem IsFront.append {front behind : List Char} (h : IsFront front) (hBehind : IsFront behind) :
    IsFront (front ++ behind) := by
  intro c hc
  rw [List.getLast?_append] at hc
  cases hLast : behind.getLast? with
  | none => exact h c (by simpa [hLast] using hc)
  | some last => exact hBehind c (by simpa [hLast] using hc)

theorem IsFront.dropWhile {front : List Char} (h : IsFront front) (p : Char → Bool) :
    IsFront (front.dropWhile p) := by
  intro c hc
  refine h c ?_
  rw [← List.takeWhile_append_dropWhile (p := p) (l := front), List.getLast?_append, hc]
  rfl

/-- Cutting finds the last part behind a front. -/
theorem getLastD_fields {isCut : Char → Bool} {front core : List Char} (hFront : IsFront front)
    (hSpace : isCut ' ' = true) (hCore : ∀ c ∈ core, isCut c = false) :
    (Text.fields isCut (front ++ core)).getLastD [] = core := by
  rw [Text.fields_eq_splitOnP]
  rcases hFront.eq_nil_or_concat with rfl | ⟨before, rfl⟩
  · rw [List.nil_append, List.splitOnP_eq_singleton hCore]
    rfl
  · rw [List.append_assoc, List.singleton_append, List.splitOnP_append_cons _ _ hSpace,
      List.splitOnP_eq_singleton hCore]
    simp

/-- The letters and digits that open a compound are its tag. -/
theorem takeWhile_testsText {subject : Compound} (h : Compound.opensWithTag subject = true) :
    ∃ name, Compound.tag? subject = some name ∧ name.toList ≠ [] ∧
      (testsText subject).toList.takeWhile Char.isAlphanum = name.toList := by
  unfold Compound.opensWithTag at h
  split at h
  · rename_i name tests
    simp only [Bool.and_eq_true, bne_iff_ne, List.all_eq_true] at h
    refine ⟨name, rfl, by simpa using h.1.1, ?_⟩
    have hRest : (testsText tests).toList.takeWhile Char.isAlphanum = [] := by
      cases hText : (testsText tests).toList with
      | nil => rfl
      | cons c cs =>
          have hStop : c.isAlphanum = false := by simpa [hText] using h.2
          rw [List.takeWhile_cons_of_neg (by simp [hStop])]
    rw [testsText, Simple.text, String.toList_append, List.takeWhile_append_of_pos h.1.2, hRest,
      List.append_nil]
  · cases h

/-- A chain is written with its last compound behind a front. -/
theorem Chain.exists_front (member : Chain) :
    ∃ front, IsFront front ∧ member.text.toList = front ++ (testsText member.subject).toList := by
  cases member with
  | only subject => exact ⟨[], by simp [IsFront], rfl⟩
  | combined left relation subject =>
      refine ⟨left.text.toList ++ relation.text.toList, ?_, by simp [Chain.text, Chain.subject]⟩
      cases relation <;> simp [IsFront, Combinator.text]

/-- Cutting a plain chain, with or without a space before it, finds the tag that its last compound
asks for. -/
theorem tagInMember?_of_isPlain {member : Chain} (h : member.isPlain = true) (lead : List Char)
    (hLead : IsFront lead) :
    tagInMember? (lead ++ member.text.toList) = Compound.tag? member.subject := by
  obtain ⟨-, hOpens, hSolid⟩ := Chain.isPlain_iff.mp h
  obtain ⟨front, hFront, hText⟩ := member.exists_front
  obtain ⟨name, hTag, hSome, hName⟩ := takeWhile_testsText hOpens
  have hCore : (testsText member.subject).toList ≠ [] := by
    intro hNil
    exact hSome (by rw [← hName, hNil, List.takeWhile_nil])
  have hCut : ∀ c ∈ (testsText member.subject).toList, (c == ' ' || c == '>') = false := by
    intro c hc
    have hBlank : c ≠ ' ' := fun hSpace => absurd (hSolid c hc).1 (by rw [hSpace]; decide)
    simp [hBlank, (hSolid c hc).2]
  have hTrim := Text.trimChars_append (lead ++ front) hCore fun c hc => (hSolid c hc).1
  have hLast := getLastD_fields ((hLead.append hFront).dropWhile Text.isBlank) (by rfl) hCut
  rw [hText, ← List.append_assoc, tagInMember?, hTrim, hLast, hName, hTag]
  simp [hSome]

/-- The commas of a written list leave its parts, all but the first with a space before them. -/
theorem fields_intercalate {first : List Char} {rest : List (List Char)}
    (h : ∀ part ∈ first :: rest, ∀ c ∈ part, (c == ',') = false) :
    Text.fields (· == ',') ([',', ' '].intercalate (first :: rest)) =
      first :: rest.map fun part => ' ' :: part := by
  have hFirst := List.splitOnP_eq_singleton (h first List.mem_cons_self)
  rw [Text.fields_eq_splitOnP]
  induction rest generalizing first with
  | nil => simpa using hFirst
  | cons next rest ih =>
      have hNext := List.splitOnP_eq_singleton (h next (by simp))
      have ihNext := ih (fun part hPart => h part (List.mem_cons_of_mem _ hPart)) hNext
      rw [List.intercalate_cons_cons, List.append_assoc, List.cons_append, List.cons_append,
        List.splitOnP_append_cons _ _ (by rfl), hFirst, List.splitOnP_cons_eq_if_modifyHead,
        List.nil_append, ihNext]
      rfl

/-- The commas of a written list of plain chains leave the chains. -/
theorem fields_text {first : Chain} {rest : List Chain}
    (h : ∀ member ∈ first :: rest, member.isPlain = true) :
    Text.fields (· == ',') (Selector.mk (first :: rest)).text.toList =
      first.text.toList :: rest.map fun member => ' ' :: member.text.toList := by
  have hComma : ∀ part ∈ (first :: rest).map (String.toList ∘ Chain.text), ∀ c ∈ part,
      (c == ',') = false := by
    intro part hPart
    obtain ⟨member, hMember, rfl⟩ := List.mem_map.mp hPart
    exact (Chain.isPlain_iff.mp (h member hMember)).1
  rw [Selector.text, String.toList_intercalate, List.map_map, List.map_cons]
  exact (fields_intercalate hComma).trans (by simp)

/-- Cutting a written list of plain chains finds the tags that the list asks for. -/
theorem tagsInText_text {s : Selector} (h : ∀ member ∈ s.members, member.isPlain = true) :
    tagsInText s.text = s.subjectTags := by
  obtain ⟨members⟩ := s
  cases members with
  | nil => rfl
  | cons first rest =>
      have hFirst : tagInMember? first.text.toList = Compound.tag? first.subject :=
        tagInMember?_of_isPlain (h first List.mem_cons_self) [] (by simp [IsFront])
      have hRest : rest.filterMap (tagInMember? ∘ fun member => ' ' :: member.text.toList) =
          rest.filterMap fun member => Compound.tag? member.subject := by
        refine List.filterMap_congr fun member hMember => ?_
        exact tagInMember?_of_isPlain (h member (List.mem_cons_of_mem _ hMember)) [' ']
          (by simp [IsFront])
      rw [tagsInText, fields_text h, Selector.subjectTags, List.filterMap_cons,
        List.filterMap_cons, hFirst, List.filterMap_map, hRest]

/-- A comma in a value is taken for the end of a member. -/
example :
    let s : Selector := ⟨[.only [.type "a", .hasValue "title" .equals "x,b"]]⟩
    s.subjectTags = ["a"] ∧ tagsInText s.text = ["a", "b"] := by
  decide

end Css

open Css

/-! ## The index -/

/-- The roles under a tag, in the order of the table, when the tags are cut out of the written
patterns. -/
def rolesInTexts (tag : String) : List Role :=
  (roleTable.filter fun entry =>
    (entry.patterns.flatMap fun pattern => tagsInText pattern.text).contains tag).map RoleEntry.role

/-- Cutting does not hurt the patterns of the table. -/
theorem patterns_plain :
    ∀ entry ∈ roleTable, ∀ pattern ∈ entry.patterns, ∀ member ∈ pattern.members,
      member.isPlain = true := by
  decide +kernel

/-- The patterns of the table are read from their written forms. -/
theorem parse?_patterns :
    ∀ entry ∈ roleTable, ∀ pattern ∈ entry.patterns,
      Selector.parse? pattern.text = some pattern := by
  decide +kernel

/-- Cutting the written patterns and asking the patterns for their tags make the same index. -/
theorem rolesInTexts_eq (tag : String) : rolesInTexts tag = rolesForTag tag := by
  have hTags (entry : RoleEntry) (hEntry : entry ∈ roleTable) :
      (entry.patterns.flatMap fun pattern => tagsInText pattern.text) = entry.tags :=
    List.flatMap_congr fun pattern hPattern =>
      tagsInText_text (patterns_plain entry hEntry pattern hPattern)
  rw [rolesForTag, tagIndex, List.filter_map, List.map_map, rolesInTexts]
  refine congrArg _ (List.filter_congr fun entry hEntry => ?_)
  rw [hTags entry hEntry]
  rfl

theorem roleEntryOf?_of_mem {entry : RoleEntry} (hEntry : entry ∈ roleTable) :
    roleEntryOf? entry.role = some entry := by
  have hDistinct : (roleTable.map RoleEntry.role).Nodup := by decide
  rw [roleEntryOf?_eq]
  cases hFound : roleTable.find? fun other => other.role == entry.role with
  | none => exact absurd (List.find?_eq_none.mp hFound entry hEntry) (by simp)
  | some found =>
      have hRole : found.role = entry.role := by simpa using List.find?_some hFound
      exact congrArg some
        (List.inj_on_of_nodup_map hDistinct (List.mem_of_find?_eq_some hFound) hEntry hRole)

namespace Document

variable {d : Document} {e : Element}

/-! ## Trying every entry -/

/-- The role of an element, found by trying every entry of the table. -/
def scannedRole? (d : Document) (e : Element) : Option Role :=
  match d.explicitRole? e with
  | some name => if Role.ignoredNames.contains name then none else Role.ofName? name
  | none =>
    (roleTable.find? (d.fitsGiven e fun a (_ : a < e) => d.scannedRole? a)).map RoleEntry.role
termination_by e

theorem fitsRole_of_mem {entry : RoleEntry} (hEntry : entry ∈ roleTable) :
    d.fitsRole e entry.role = d.fits e entry := by
  rw [fitsRole, roleEntryOf?_of_mem hEntry, Option.any_some]

/-- The first role under the tag that an element fits belongs to the first entry that it fits. -/
theorem find?_rolesForTag (d : Document) (e : Element) :
    (rolesForTag (d.tag e)).find? (d.fitsRole e) =
      (roleTable.find? (d.fits e)).map RoleEntry.role := by
  have hSame (entry : RoleEntry) (hEntry : entry ∈ roleTable) :
      (entry.tags.contains (d.tag e) && d.fitsRole e entry.role) = d.fits e entry := by
    rw [fitsRole_of_mem hEntry]
    cases hFits : d.fits e entry with
    | false => rw [Bool.and_false]
    | true => simpa using tag_mem_tags_of_fits hEntry hFits
  rw [← List.head?_filter (p := d.fits e), ← List.filter_congr hSame, List.head?_filter]
  simp [rolesForTag, tagIndex, List.filter_map, List.find?_map, List.find?_filter,
    Function.comp_def]

/-- Trying every entry, for the element and for all above it, finds the same roles. -/
theorem scannedRole?_eq (d : Document) (e : Element) : d.scannedRole? e = d.role? e := by
  induction e using Nat.strongRecOn with
  | _ e ih =>
      have hAbove : (fun a (_ : a < e) => d.scannedRole? a) = fun a _ => d.role? a :=
        funext fun a => funext (ih a)
      rw [scannedRole?, hAbove, role?_eq, find?_rolesForTag]
      rfl

/-- Whether an element fits a member of a written selector. -/
def FitsText (d : Document) (e : Element) (text : String) : Prop :=
  ∃ s, Selector.parse? text = some s ∧ ∃ member ∈ s.members, d.Fits member e

/-- Whether an element passes the full test of an entry: it fits the exact pattern, or the
pattern of a rule and all its conditions. -/
def PassesEntry (d : Document) (e : Element) (entry : RoleEntry) : Prop :=
  (∃ certain, entry.certain? = some certain ∧ d.FitsText e certain.text) ∨
    ∃ rule ∈ entry.rules, d.FitsText e rule.pattern.text ∧
      ∀ condition ∈ rule.conditions,
        d.holdsGiven e (fun a _ => d.scannedRole? a) condition = true

/-- Whether an element passes the full test of the entry of a role. -/
def PassesRole (d : Document) (e : Element) (role : Role) : Prop :=
  ∃ entry ∈ roleTable, entry.role = role ∧ d.PassesEntry e entry

theorem fitsText_iff {entry : RoleEntry} (hEntry : entry ∈ roleTable) {pattern : Selector}
    (hPattern : pattern ∈ entry.patterns) :
    d.FitsText e pattern.text ↔ d.matchesSelector pattern e = true := by
  rw [FitsText, parse?_patterns entry hEntry pattern hPattern, matchesSelector_iff]
  simp

theorem passesEntry_iff {entry : RoleEntry} (hEntry : entry ∈ roleTable) :
    d.PassesEntry e entry ↔ d.fits e entry = true := by
  have hAbove : (d.holdsGiven e fun a _ => d.scannedRole? a) = d.holds e := by
    simp only [scannedRole?_eq]
    rfl
  rw [PassesEntry, hAbove, fits_iff]
  refine or_congr (exists_congr fun certain => and_congr_right fun hCertain => ?_)
    (exists_congr fun rule => and_congr_right fun hRule => and_congr_left fun _ => ?_)
  · exact fitsText_iff hEntry (List.mem_append_left _ (Option.mem_toList.mpr hCertain))
  · exact fitsText_iff hEntry (List.mem_append_right _ (List.mem_map_of_mem hRule))

theorem passesRole_iff {role : Role} : d.PassesRole e role ↔ d.fitsRole e role = true := by
  constructor
  · rintro ⟨entry, hEntry, rfl, hPasses⟩
    rw [fitsRole_of_mem hEntry]
    exact (passesEntry_iff hEntry).mp hPasses
  · intro hFits
    obtain ⟨entry, hEntry, hRole, hFits⟩ := exists_entry_of_fitsRole hFits
    exact ⟨entry, hEntry, hRole, (passesEntry_iff hEntry).mpr hFits⟩

/-- The index drops no role: an element without a `role` attribute passes the full test of a role
only if the role is listed under its tag, by the tags that are cut out of the written patterns, and
so it has the roles whose full test it passes. -/
theorem hasRole_without_index (hImplicit : d.explicitRole? e = none) (role : Role) :
    (d.PassesRole e role → role ∈ rolesInTexts (d.tag e)) ∧
      rolesForTag (d.tag e) = rolesInTexts (d.tag e) ∧
      (d.hasRole e role = true ↔ d.PassesRole e role) := by
  refine ⟨fun hPasses => ?_, (rolesInTexts_eq _).symm, ?_⟩
  · rw [rolesInTexts_eq]
    exact mem_rolesForTag_of_fitsRole (passesRole_iff.mp hPasses)
  · rw [hasRole_of_implicit hImplicit, passesRole_iff]

/-- The second pattern of an option names two tags above its own. -/
theorem hasRole_without_index_grouped_option :
    let d := ofElement "select" [] [.element "optgroup" [] [.element "option" [] []]]
    d.explicitRole? 2 = none ∧ d.tag 2 = "option" ∧ d.PassesRole 2 .option ∧
      .option ∈ rolesInTexts (d.tag 2) ∧ ¬ d.PassesRole 2 .listItem := by
  intro d
  have hImplicit : d.explicitRole? 2 = none := by decide +kernel
  have hRoles : d.hasRole 2 .option = true ∧ d.hasRole 2 .listItem = false := by decide +kernel
  obtain ⟨hListed, -, hOption⟩ := hasRole_without_index hImplicit .option
  obtain ⟨-, -, hListItem⟩ := hasRole_without_index hImplicit .listItem
  have hPasses := hOption.mp hRoles.1
  refine ⟨hImplicit, rfl, hPasses, hListed hPasses, fun hOther => ?_⟩
  rw [← hListItem, hRoles.2] at hOther
  cases hOther

end Document

end AriaLocator

import AriaLocator.Proofs.Document.Sorting
import AriaLocator.Proofs.Lookup.Specificity
import AriaLocator.Proofs.Text.Rounding

/-!
# The branches that are reported

How far a branch got is a pair: the nodes that matched, and the conditions of the next node that
matched behind them.  Pairs are compared by nodes first.  The report is made by one number instead,
a fiftieth for each condition, on the ground that no node has anywhere near fifty of them.  Nothing
in the syntax of a locator keeps it from having more.

The number is worked out in doubles, and both steps round.  Below `2 ^ 48` fiftieths the error stays
under half a fiftieth, so that the branch of the greater weight always has the greater number, where
the *weight* of a branch is fifty for each node and one for each condition.  So the reported
branches are among those of the greatest weight.  They are the branches that got furthest if these
outweigh all others, as they do if no partial node has fifty conditions.  Behind a node with more
conditions than that they may be left out.

Branches of one weight that got differently far need not come out the same: of `57` conditions, and
one node with `7` conditions, the second is the greater number, by its last digit.

## Main results

* `specificity_near`: the number of a branch is a fiftieth of its weight, within half a fiftieth.
* `specificity_lt_of_weight_lt`: the greater weight has the greater number.
* `mem_reported_iff`: the reported branches are those that no branch exceeds.
* `report_of_furthest`: which branches a report is made from, and when these got furthest.
-/

namespace AriaLocator

open Text

namespace Miss

variable {miss other : Miss} {misses : List Miss}

/-! ## Numbers and weights -/

/-- Fifty for each node that matched, and one for each condition of the next. -/
def weight (miss : Miss) : Nat := 50 * miss.closestFind.length + miss.partialCount

theorem isNormal_fifty : IsNormal (50 * 2 ^ 47) (-47) := by constructor <;> decide

theorem unpack_fifty :
    (50.0 : Float).toModel.unpack = .finite .positive (50 * 2 ^ 47) (-47) isNormal_fifty.pos := rfl

theorem value_fifty : value 50.0 = 50 := by
  rw [value_of_finite unpack_fifty, scaled]
  norm_num

/-- A fiftieth for each condition: none at all, or not too few to keep their digits. -/
theorem fiftieths_near {conditions : Nat} (hRoom : conditions < 2 ^ 48) :
    IsPlain (Float.ofNat conditions / 50.0) ∧
      Near (value (Float.ofNat conditions / 50.0)) (conditions / 50) := by
  have hCount := value_ofNat (n := conditions) (by omega)
  have hRoomQ : (conditions : ℚ) < 2 ^ 48 := by exact_mod_cast hRoom
  have hSmall : value (Float.ofNat conditions) = 0 ∨
      1 / 64 ≤ value (Float.ofNat conditions) / value 50.0 := by
    rw [hCount, value_fifty]
    rcases Nat.eq_zero_or_pos conditions with hZero | hPos
    · exact Or.inl (by rw [hZero, Nat.cast_zero])
    · have hOne : (1 : ℚ) ≤ conditions := by exact_mod_cast hPos
      exact Or.inr (by linarith)
  have hLarge : value (Float.ofNat conditions) / value 50.0 < 2 ^ 53 := by
    rw [hCount, value_fifty]
    linarith
  have hNear := div_near (isPlain_ofNat (by omega)) isNormal_fifty unpack_fifty hSmall hLarge
  rwa [hCount, value_fifty] at hNear

/-- The number of a branch is a fiftieth of its weight, within half a fiftieth. -/
theorem specificity_near (hRoom : miss.weight < 2 ^ 48) :
    IsPlain miss.specificity ∧ |value miss.specificity - miss.weight / 50| < 1 / 100 := by
  rw [weight] at hRoom ⊢
  rw [specificity]
  generalize miss.closestFind.length = nodes at *
  generalize miss.partialCount = conditions at *
  have hRoomQ : (50 * nodes + conditions : ℚ) < 2 ^ 48 := by exact_mod_cast hRoom
  have hNodes : (0 : ℚ) ≤ nodes := Nat.cast_nonneg nodes
  have hConditions : (0 : ℚ) ≤ conditions := Nat.cast_nonneg conditions
  have hFew : conditions < 2 ^ 48 := by omega
  obtain ⟨hPart, hPartNear⟩ := fiftieths_near hFew
  rw [Near, abs_le] at hPartNear
  have hWhole := value_ofNat (n := nodes) (by omega)
  have hSmall : value (Float.ofNat nodes) + value (Float.ofNat conditions / 50.0) = 0 ∨
      1 / 64 ≤ value (Float.ofNat nodes) + value (Float.ofNat conditions / 50.0) := by
    rw [hWhole]
    rcases Nat.eq_zero_or_pos (nodes + conditions) with hZero | hPos
    · have hNone : (nodes + conditions : ℚ) = 0 := by exact_mod_cast hZero
      exact Or.inl (by linarith)
    · have hOne : (1 : ℚ) ≤ nodes + conditions := by exact_mod_cast hPos
      exact Or.inr (by linarith)
  have hLarge : value (Float.ofNat nodes) + value (Float.ofNat conditions / 50.0) < 2 ^ 53 := by
    rw [hWhole]
    linarith
  obtain ⟨hSum, hSumNear⟩ := add_near (isPlain_ofNat (by omega)) hPart hSmall hLarge
  rw [hWhole, Near, abs_le] at hSumNear
  rw [abs_lt]
  push_cast
  exact ⟨hSum, by linarith, by linarith⟩

/-- The greater weight has the greater number. -/
theorem specificity_lt_of_weight_lt (hMiss : miss.weight < 2 ^ 48) (hOther : other.weight < 2 ^ 48)
    (h : miss.weight < other.weight) : value miss.specificity < value other.specificity := by
  have hStep : (miss.weight + 1 : ℚ) ≤ other.weight := by exact_mod_cast h
  have hBelow := abs_lt.mp (specificity_near hMiss).2
  have hAbove := abs_lt.mp (specificity_near hOther).2
  linarith

/-! ## The greatest number -/

theorem isPlain_largerFloat {a b : Float} (ha : IsPlain a) (hb : IsPlain b) :
    IsPlain (largerFloat a b) ∧ value (largerFloat a b) = max (value a) (value b) := by
  rw [largerFloat]
  split
  · next hLt =>
    have hValue := (lt_iff_value_lt ha hb).mp hLt
    exact ⟨hb, (max_eq_right hValue.le).symm⟩
  · next hLt =>
    have hValue := not_lt.mp (mt (lt_iff_value_lt ha hb).mpr hLt)
    exact ⟨ha, (max_eq_left hValue).symm⟩

/-- The search for the greatest passes over none that is greater. -/
theorem le_foldl_largerFloat {start : Float} {xs : List Float} (hStart : IsPlain start)
    (hAll : ∀ x ∈ xs, IsPlain x) :
    IsPlain (xs.foldl largerFloat start) ∧
      ∀ x ∈ start :: xs, value x ≤ value (xs.foldl largerFloat start) := by
  induction xs generalizing start with
  | nil => exact ⟨hStart, by simp⟩
  | cons x xs ih =>
      obtain ⟨hPlain, hMax⟩ := isPlain_largerFloat hStart (hAll x List.mem_cons_self)
      obtain ⟨hFold, hLe⟩ := ih hPlain fun y hy => hAll y (List.mem_cons_of_mem x hy)
      refine ⟨hFold, fun y hy => ?_⟩
      have hHead := hLe _ List.mem_cons_self
      rw [hMax] at hHead
      rcases List.mem_cons.mp hy with rfl | hy
      · exact (le_max_left _ _).trans hHead
      rcases List.mem_cons.mp hy with rfl | hy
      · exact (le_max_right _ _).trans hHead
      · exact hLe y (List.mem_cons_of_mem _ hy)

/-- Counts that leave room for fiftieths.  A locator with more nodes would not fit into the memory
that a machine of 64 bits can address. -/
def Room (misses : List Miss) : Prop := ∀ miss ∈ misses, miss.weight < 2 ^ 48

theorem Room.isPlain (hRoom : Room misses) (hMem : miss ∈ misses) : IsPlain miss.specificity :=
  (specificity_near (hRoom miss hMem)).1

theorem Room.greatest (hRoom : Room misses) (hMem : miss ∈ misses) :
    IsPlain (greatestSpecificity misses) ∧
      value miss.specificity ≤ value (greatestSpecificity misses) := by
  cases misses with
  | nil => exact absurd hMem List.not_mem_nil
  | cons first rest =>
      have hRest : ∀ x ∈ rest.map specificity, IsPlain x := by
        intro x hx
        obtain ⟨other, hOther, rfl⟩ := List.mem_map.mp hx
        exact hRoom.isPlain (List.mem_cons_of_mem first hOther)
      obtain ⟨hPlain, hLe⟩ := le_foldl_largerFloat (hRoom.isPlain List.mem_cons_self) hRest
      rw [← greatestSpecificity_cons, ← List.map_cons] at hLe
      rw [← greatestSpecificity_cons] at hPlain
      exact ⟨hPlain, hLe _ (List.mem_map_of_mem hMem)⟩

/-! ## The reported branches -/

/-- The branches that the report is made from. -/
def reported (misses : List Miss) : List Miss :=
  misses.filter fun miss => miss.specificity == greatestSpecificity misses

/-- The reported branches are those that no branch exceeds. -/
theorem mem_reported_iff (hRoom : Room misses) : miss ∈ reported misses ↔
    miss ∈ misses ∧ ∀ other ∈ misses, value other.specificity ≤ value miss.specificity := by
  rw [reported, List.mem_filter]
  refine and_congr_right fun hMem => ?_
  rw [beq_iff_value_eq (hRoom.isPlain hMem) (hRoom.greatest hMem).1]
  constructor
  · intro hGreatest other hOther
    rw [hGreatest]
    exact (hRoom.greatest hOther).2
  · intro hNone
    obtain ⟨greatest, hGreatestMem, hGreatest⟩ := greatestSpecificity_mem (List.ne_nil_of_mem hMem)
    exact le_antisymm (hRoom.greatest hMem).2 (hGreatest ▸ hNone greatest hGreatestMem)

/-- The reported branches have the greatest weight. -/
theorem weight_le_of_reported (hRoom : Room misses) (hMiss : miss ∈ reported misses)
    (hOther : other ∈ misses) : other.weight ≤ miss.weight := by
  obtain ⟨hMem, hNone⟩ := (mem_reported_iff hRoom).mp hMiss
  by_contra hMore
  have hLess := specificity_lt_of_weight_lt (hRoom miss hMem) (hRoom other hOther)
    (Nat.lt_of_not_le hMore)
  exact not_lt_of_ge (hNone other hOther) hLess

/-! ## The branches that got furthest -/

/-- How far a branch got: nodes first, then conditions of the next. -/
def progress (miss : Miss) : Nat ×ₗ Nat := toLex (miss.closestFind.length, miss.partialCount)

/-- The branches that got furthest. -/
def furthest (misses : List Miss) : List Miss :=
  misses.filter fun miss => misses.all fun other => other.progress ≤ miss.progress

theorem mem_furthest_iff : miss ∈ furthest misses ↔
    miss ∈ misses ∧ ∀ other ∈ misses, other.progress ≤ miss.progress := by
  simp [furthest]

theorem progress_lt_iff : other.progress < miss.progress ↔
    other.closestFind.length < miss.closestFind.length ∨
      other.closestFind.length = miss.closestFind.length ∧
        other.partialCount < miss.partialCount :=
  Prod.Lex.toLex_lt_toLex

/-- How far a branch got decides its number. -/
theorem specificity_of_progress_eq (h : other.progress = miss.progress) :
    other.specificity = miss.specificity := by
  have hPair := toLex.injective h
  rw [specificity, specificity, (Prod.mk.inj hPair).1, (Prod.mk.inj hPair).2]

/-- With fewer than fifty conditions, a node outweighs all of them. -/
theorem weight_lt_of_progress_lt (hFew : other.partialCount < 50)
    (h : other.progress < miss.progress) : other.weight < miss.weight := by
  rw [weight, weight]
  rcases progress_lt_iff.mp h with hNodes | ⟨hNodes, hConditions⟩ <;> omega

theorem exists_furthest (hSome : misses ≠ []) : ∃ miss, miss ∈ furthest misses := by
  obtain ⟨miss, hMem, hMax⟩ := misses.toFinset.exists_max_image progress
    (List.toFinset_nonempty_iff misses |>.mpr hSome)
  refine ⟨miss, mem_furthest_iff.mpr ⟨List.mem_toFinset.mp hMem, fun other hOther => ?_⟩⟩
  exact hMax other (List.mem_toFinset.mpr hOther)

/-- Whether the branches that got furthest outweigh all others. -/
def Outweigh (misses : List Miss) : Prop :=
  ∀ miss ∈ furthest misses, ∀ other ∈ misses,
    other.progress < miss.progress → other.weight < miss.weight

/-- A branch that got furthest has the greatest number, if such branches outweigh all others, and
then no other branch has it. -/
theorem mem_reported_iff_furthest (hRoom : Room misses) (hOutweigh : Outweigh misses) :
    miss ∈ reported misses ↔ miss ∈ furthest misses := by
  have hLess {top low : Miss} (hTop : top ∈ furthest misses) (hLow : low ∈ misses)
      (h : low.progress < top.progress) : value low.specificity < value top.specificity :=
    specificity_lt_of_weight_lt (hRoom low hLow) (hRoom top (mem_furthest_iff.mp hTop).1)
      (hOutweigh top hTop low hLow h)
  constructor
  · intro hMiss
    obtain ⟨hMem, hNone⟩ := (mem_reported_iff hRoom).mp hMiss
    obtain ⟨top, hTop⟩ := exists_furthest (List.ne_nil_of_mem hMem)
    obtain ⟨hTopMem, hTopMax⟩ := mem_furthest_iff.mp hTop
    refine mem_furthest_iff.mpr ⟨hMem, fun other hOther => (hTopMax other hOther).trans ?_⟩
    by_contra hShort
    exact not_lt_of_ge (hNone top hTopMem) (hLess hTop hMem (lt_of_not_ge hShort))
  · intro hMiss
    obtain ⟨hMem, hMax⟩ := mem_furthest_iff.mp hMiss
    refine (mem_reported_iff hRoom).mpr ⟨hMem, fun other hOther => ?_⟩
    rcases lt_or_eq_of_le (hMax other hOther) with hShort | hSame
    · exact (hLess hMiss hOther hShort).le
    · rw [specificity_of_progress_eq hSame]

/-- The reported branches are those that got furthest, if these outweigh all others. -/
theorem reported_eq_furthest (hRoom : Room misses) (hOutweigh : Outweigh misses) :
    reported misses = furthest misses := by
  refine List.filter_congr fun miss hMem => Bool.eq_iff_iff.mpr ?_
  have hSame : miss ∈ reported misses ↔ miss ∈ furthest misses :=
    mem_reported_iff_furthest hRoom hOutweigh
  rwa [reported, furthest, List.mem_filter, List.mem_filter, and_iff_right hMem,
    and_iff_right hMem] at hSame

/-! ## Reports -/

/-- A report on some branches: their elements put together, and the rest from the first of them. -/
structure IsReportOf (d : Document) (branches : List Miss) (report : Miss) : Prop where
  /-- The first branch gives all but the elements. -/
  first : ∃ first, branches.head? = some first ∧ report.closestFind = first.closestFind ∧
    report.partialFind? = first.partialFind? ∧ report.notFound = first.notFound
  /-- The elements are those of the branches. -/
  elements (e : Element) : e ∈ report.elementsFound ↔ ∃ branch ∈ branches, e ∈ branch.elementsFound
  /-- They stand in document order, each once, if they can be sorted by it: below one root they can. -/
  ordered : d.Sortable (branches.flatMap elementsFound) →
    report.elementsFound.Pairwise fun a b => d.order a b = .lt

/-- From one branch or more a report is made, on those that are reported. -/
theorem exists_report (d : Document) (hSome : misses ≠ []) :
    ∃ report, mostSpecific? d misses = some report ∧ IsReportOf d (reported misses) report := by
  cases hReported : reported misses with
  | nil =>
      have hMade := mostSpecific_isSome d hSome
      rw [mostSpecific?, ← reported, hReported] at hMade
      exact absurd hMade Bool.false_ne_true
  | cons first others =>
      rw [mostSpecific?, ← reported, hReported]
      refine ⟨_, rfl, ⟨first, rfl, rfl, rfl, rfl⟩, fun e => ?_, fun hSortable => ?_⟩
      · rw [Document.mem_sorted, List.mem_append, List.mem_flatMap, List.exists_mem_cons_iff]
      · rw [List.flatMap_cons] at hSortable
        exact hSortable.increasing_sorted

/-- A report is made from branches of the greatest weight.  These are the branches that got
furthest, if they outweigh all others, and so if no partial node has fifty conditions. -/
theorem report_of_furthest (d : Document) {misses : List Miss} (hSome : misses ≠ [])
    (hRoom : Room misses) :
    (∃ report, mostSpecific? d misses = some report ∧ IsReportOf d (reported misses) report) ∧
      (∀ miss ∈ reported misses, ∀ other ∈ misses, other.weight ≤ miss.weight) ∧
      (Outweigh misses → reported misses = furthest misses) ∧
      ((∀ miss ∈ misses, miss.partialCount < 50) → reported misses = furthest misses) := by
  refine ⟨exists_report d hSome, fun miss hMiss other hOther => ?_, reported_eq_furthest hRoom,
    fun hFew => reported_eq_furthest hRoom fun miss _ other hOther => ?_⟩
  · exact weight_le_of_reported hRoom hMiss hOther
  · exact weight_lt_of_progress_lt (hFew other hOther)

/-- A branch on which a list was found, and no button in it. -/
def withoutButton : Miss := ⟨[.ofRole .list], none, [4], .role .button⟩

/-- A branch on which a list was found that has a value asked for any number of times, but not the
last one asked for. -/
def crowded (conditions : Nat) : Miss :=
  ⟨[], some ⟨.list, List.replicate conditions ⟨.current, "page"⟩⟩, [3],
    .constraint ⟨.disabled, "true"⟩⟩

/-- Behind a node with a few conditions, the branch that got furthest is reported. -/
theorem report_of_furthest_few : [crowded 2, withoutButton] ≠ [] ∧ Room [crowded 2, withoutButton] ∧
    (∀ miss ∈ [crowded 2, withoutButton], miss.partialCount < 50) ∧
    reported [crowded 2, withoutButton] = furthest [crowded 2, withoutButton] := by
  have hRoom : Room [crowded 2, withoutButton] := by
    unfold Room
    decide
  have hFew : ∀ miss ∈ [crowded 2, withoutButton], miss.partialCount < 50 := by decide
  have hReport := report_of_furthest (Document.ofElement "body" [] []) (by decide) hRoom
  exact ⟨by decide, hRoom, hFew, hReport.2.2.2 hFew⟩

/-- With fifty conditions beside its role, a branch that found no node is reported in place of one
that found it. -/
theorem furthest_not_reported :
    let d := Document.ofElement "html" []
      [.element "head" [] [], .element "body" [] [.element "ul" [] [], .element "ul" [] []]]
    (crowded 50).progress < withoutButton.progress ∧
      ¬ ∃ report, mostSpecific? d [crowded 50, withoutButton] = some report ∧
        IsReportOf d (furthest [crowded 50, withoutButton]) report := by
  intro d
  have hReport : mostSpecific? d [crowded 50, withoutButton] = some (crowded 50) := by
    decide +kernel
  have hFurthest : furthest [crowded 50, withoutButton] = [withoutButton] := by decide +kernel
  refine ⟨by decide +kernel, ?_⟩
  rintro ⟨report, hMade, hReportOf⟩
  obtain ⟨first, hFirst, hClosest, -⟩ := hReportOf.first
  rw [hReport, Option.some.injEq] at hMade
  rw [hFurthest, List.head?_cons, Option.some.injEq] at hFirst
  rw [← hMade, ← hFirst] at hClosest
  exact absurd hClosest (by decide)

end Miss

end AriaLocator

import AriaLocator.Document.Markup

/-!
# Children and subtrees in a table

A table says of each element which one is its parent. Read the other way, it gives the children of
an element, which are gathered for all elements in one pass, and the size of a subtree: in document
order a subtree is the range of numbers behind its top, up to the first that hangs further up.

## Main results

* `getElem?_kidTable`: one pass gathers the children of every element.
* `filter_subtree`: what is looked for below an element need only be looked for in its range.
-/

namespace AriaLocator

/-! ## Children -/

/-- The numbers that a table lists below `p`, in order. -/
def slotChildren (slots : Array Slot) (p : Nat) : List Nat :=
  (List.range slots.size).filter fun e => slotParent? slots e == some p

/-- Puts a number in front of the children of its parent. -/
def addChild (slots : Array Slot) (e : Nat) (kids : Array (List Nat)) : Array (List Nat) :=
  match slotParent? slots e with
  | none => kids
  | some p => kids.modify p (e :: ·)

/-- The children of every number, gathered in one pass. -/
def kidTable (slots : Array Slot) : Array (List Nat) :=
  (List.range slots.size).foldr (addChild slots) (Array.replicate slots.size [])

theorem getElem?_foldr_addChild {slots : Array Slot} {numbers : List Nat} {size p : Nat} :
    (numbers.foldr (addChild slots) (Array.replicate size []))[p]? =
      if p < size then some (numbers.filter fun e => slotParent? slots e == some p) else none := by
  induction numbers with
  | nil => simp [Array.getElem?_replicate]
  | cons e numbers ih =>
    rw [List.foldr_cons, addChild]
    cases hp : slotParent? slots e with
    | none => simp [ih, hp]
    | some q =>
      simp only [Array.getElem?_modify, ih, List.filter_cons, hp]
      by_cases hq : q = p <;> by_cases hSize : p < size <;> simp [hq, hSize]

/-- The table holds the children that the slots give. -/
theorem getElem?_kidTable {slots : Array Slot} {p : Nat} :
    (kidTable slots)[p]? = if p < slots.size then some (slotChildren slots p) else none :=
  getElem?_foldr_addChild

/-! ## Subtrees -/

/-- How many numbers from `start` on pass a test, up to the first that does not. -/
def countFrom (test : Nat → Bool) (start : Nat) : (limit : Nat) → Nat
  | 0 => 0
  | limit + 1 => if test start then countFrom test (start + 1) limit + 1 else 0

theorem countFrom_le (test : Nat → Bool) (start limit : Nat) :
    countFrom test start limit ≤ limit := by
  induction limit generalizing start with
  | zero => exact Nat.le_refl _
  | succ limit ih =>
    unfold countFrom
    split
    · exact Nat.succ_le_succ (ih (start + 1))
    · exact Nat.zero_le _

theorem not_of_countFrom_lt {test : Nat → Bool} {start limit : Nat}
    (h : countFrom test start limit < limit) :
    test (start + countFrom test start limit) = false := by
  induction limit generalizing start with
  | zero => exact absurd h (Nat.not_lt_zero _)
  | succ limit ih =>
    unfold countFrom at h ⊢
    split at h
    · next hstart =>
      have hstep : start + (countFrom test (start + 1) limit + 1) =
          start + 1 + countFrom test (start + 1) limit := by omega
      rw [if_pos hstart, hstep]
      exact ih (by omega)
    · next hstart =>
      rw [if_neg hstart]
      simpa using hstart

/-- How many numbers behind `a` a table puts into its subtree. -/
def subtreeSize (slots : Array Slot) (a : Nat) : Nat :=
  countFrom (fun e => (slotParent? slots e).any (a ≤ ·)) (a + 1) (slots.size - (a + 1))

/-- What stands behind a subtree is not in it. -/
theorem not_mem_lineage_of_behind {slots : Array Slot} {a e : Nat}
    (hOrder : (slotForest slots).Preorder slots.size) (hSize : e < slots.size)
    (h : a + 1 + subtreeSize slots a ≤ e) : a ∉ (slotForest slots).lineage e := by
  intro hmem
  have hlt : subtreeSize slots a < slots.size - (a + 1) := by omega
  have hstop : (slotParent? slots (a + 1 + subtreeSize slots a)).any (a ≤ ·) = false :=
    not_of_countFrom_lt hlt
  have habove := hOrder.mem_lineage_of_between hSize hmem (by omega) h
  rcases Forest.mem_lineage_iff.mp habove with heq | habove
  · omega
  · cases hp : slotParent? slots (a + 1 + subtreeSize slots a) with
    | none =>
      have hp : (slotForest slots).parent? (a + 1 + subtreeSize slots a) = none := hp
      simp [Forest.ancestors_of_root hp] at habove
    | some p =>
      have hp' : (slotForest slots).parent? (a + 1 + subtreeSize slots a) = some p := hp
      rw [Forest.ancestors_of_parent hp'] at habove
      simp [hp, Forest.lineage_le habove] at hstop

/-- To look for what passes a test only in a subtree is enough if nothing else passes it. -/
theorem filter_subtree {slots : Array Slot} {a : Nat} {test : Nat → Bool}
    (hBefore : ∀ e, e ≤ a → test e = false)
    (hBehind : ∀ e, a + 1 + subtreeSize slots a ≤ e → e < slots.size → test e = false) :
    (List.range' (a + 1) (subtreeSize slots a)).filter test =
      (List.range slots.size).filter test := by
  have hle : subtreeSize slots a ≤ slots.size - (a + 1) := countFrom_le _ _ _
  by_cases hSize : a + 1 ≤ slots.size
  · have hsplit : List.range slots.size = List.range' 0 (a + 1) ++
        (List.range' (a + 1) (subtreeSize slots a) ++
          List.range' (a + 1 + subtreeSize slots a)
            (slots.size - (a + 1 + subtreeSize slots a))) := by
      have hjoin := @List.range'_append_1 0 (a + 1)
        (subtreeSize slots a + (slots.size - (a + 1 + subtreeSize slots a)))
      rw [Nat.zero_add] at hjoin
      rw [List.range'_append_1, hjoin, List.range_eq_range']
      congr 1
      omega
    have hfirst : (List.range' 0 (a + 1)).filter test = [] := by
      rw [List.filter_eq_nil_iff]
      intro e he
      have := List.mem_range'_1.mp he
      simp [hBefore e (by omega)]
    have hlast : (List.range' (a + 1 + subtreeSize slots a)
        (slots.size - (a + 1 + subtreeSize slots a))).filter test = [] := by
      rw [List.filter_eq_nil_iff]
      intro e he
      have := List.mem_range'_1.mp he
      simp [hBehind e (by omega) (by omega)]
    rw [hsplit, List.filter_append, List.filter_append, hfirst, hlast, List.nil_append,
      List.append_nil]
  · have hzero : subtreeSize slots a = 0 := by omega
    rw [hzero, List.range'_zero, List.filter_nil, eq_comm, List.filter_eq_nil_iff]
    intro e he
    have := List.mem_range.mp he
    simp [hBefore e (by omega)]

end AriaLocator

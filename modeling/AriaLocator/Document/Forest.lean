/-!
# Forests on natural numbers

The elements of a document are numbered by their places in the tree, so an element's parent always has
the smaller number. `Forest` keeps just that: a partial parent function that decreases. Walking up from
an element therefore ends, and `lineage` is the walk: the element, its parent, and so on.

Links can be left out, where an element has been cut off or where a fragment stands in between. That
makes nothing an ancestor that was none, and up to whatever is still reached nothing changes.

## Main results

* `descendantsAmong_eq`: what lies below a number can be gathered in one pass.
* `lineage_eq`, `mem_lineage_self`, `lineage_le`: the walk starts at its element and decreases.
* `mem_lineage_trans`, `mem_lineage_or`: lineages are chains.
* `ancestors_eq_of_append`: a walk that has come to an ancestor goes on as the walk from there.
* `Preorder.mem_lineage_of_between`: in document order, subtrees are ranges.
* `mem_lineage_of_restrict`, `mem_lineage_restrict_of_top`: what leaving out links does to walks.
-/

namespace AriaLocator

/-- A partial parent function under which every parent is smaller than its child. -/
structure Forest where
  /-- The parent of a number, if it has one. -/
  parent? : Nat → Option Nat
  /-- Parents come first. -/
  parent_lt : ∀ {e p : Nat}, parent? e = some p → p < e

namespace Forest

/-- The walk upwards: an element and its ancestors, nearest first. -/
def lineage (f : Forest) (e : Nat) : List Nat :=
  e :: match h : f.parent? e with
    | none => []
    | some p =>
      have : p < e := f.parent_lt h
      f.lineage p
termination_by e

/-- The ancestors of an element without itself, nearest first. -/
def ancestors (f : Forest) (e : Nat) : List Nat :=
  match f.parent? e with
  | none => []
  | some p => f.lineage p

theorem lineage_eq (f : Forest) (e : Nat) : f.lineage e = e :: f.ancestors e := by
  rw [lineage, ancestors]
  split <;> simp_all

theorem ancestors_of_parent {f : Forest} {e p : Nat} (h : f.parent? e = some p) :
    f.ancestors e = f.lineage p := by
  simp [ancestors, h]

theorem ancestors_of_root {f : Forest} {e : Nat} (h : f.parent? e = none) :
    f.ancestors e = [] := by
  simp [ancestors, h]

theorem mem_lineage_self (f : Forest) (e : Nat) : e ∈ f.lineage e := by
  rw [lineage_eq]; exact List.mem_cons_self

theorem lineage_le {f : Forest} {a e : Nat} (h : a ∈ f.lineage e) : a ≤ e := by
  induction e using Nat.strongRecOn with
  | _ e ih =>
    rw [lineage_eq] at h
    rcases List.mem_cons.mp h with rfl | h
    · exact Nat.le_refl _
    · cases hp : f.parent? e with
      | none => simp [ancestors_of_root hp] at h
      | some p =>
        rw [ancestors_of_parent hp] at h
        have hlt := f.parent_lt hp
        have := ih p hlt h
        omega

theorem ancestors_lt {f : Forest} {a e : Nat} (h : a ∈ f.ancestors e) : a < e := by
  cases hp : f.parent? e with
  | none => simp [ancestors_of_root hp] at h
  | some p =>
    rw [ancestors_of_parent hp] at h
    have hlt := f.parent_lt hp
    have := lineage_le h
    omega

theorem mem_lineage_iff {f : Forest} {a e : Nat} :
    a ∈ f.lineage e ↔ a = e ∨ a ∈ f.ancestors e := by
  rw [lineage_eq, List.mem_cons]

theorem mem_lineage_of_parent {f : Forest} {a e p : Nat} (hp : f.parent? e = some p)
    (h : a ∈ f.lineage p) : a ∈ f.lineage e := by
  rw [mem_lineage_iff, ancestors_of_parent hp]; exact Or.inr h

theorem contains_ancestors {f : Forest} {a e : Nat} :
    (f.ancestors e).contains a =
      (f.parent? e).any fun p => a == p || (f.ancestors p).contains a := by
  cases hp : f.parent? e with
  | none => simp [ancestors_of_root hp]
  | some p => rw [ancestors_of_parent hp, lineage_eq, List.contains_cons, Option.any_some]

/-- For the `count` numbers behind `a`, whether they lie below `a`. Since parents come first, what is
known of the parent settles each. -/
def below (f : Forest) (a count : Nat) : Array Bool :=
  (List.range count).foldl
    (fun marks i => marks.push <| (f.parent? (a + 1 + i)).any fun p =>
      a == p || (a < p && marks[p - (a + 1)]?.getD false)) #[]

theorem getElem?_below {f : Forest} {a count i : Nat} :
    (f.below a count)[i]? =
      if i < count then some ((f.ancestors (a + 1 + i)).contains a) else none := by
  induction count generalizing i with
  | zero => simp [below]
  | succ count ih =>
    have hsize : (f.below a count).size = count := by
      have h := fun i => @ih i
      refine Nat.le_antisymm (Nat.le_of_not_lt fun hlt => ?_) (Nat.le_of_not_lt fun hlt => ?_)
      · simpa [hlt] using h count
      · simpa [hlt] using h (f.below a count).size
    have hstep : f.below a (count + 1) = (f.below a count).push
        ((f.parent? (a + 1 + count)).any fun p =>
          a == p || (a < p && (f.below a count)[p - (a + 1)]?.getD false)) := by
      simp [below, List.range_succ]
    rw [hstep, Array.getElem?_push, hsize]
    by_cases hi : i = count
    · subst hi
      rw [if_pos rfl, if_pos (Nat.lt_succ_self _), contains_ancestors]
      cases hp : f.parent? (a + 1 + i) with
      | none => rfl
      | some p =>
        have hlt := f.parent_lt hp
        by_cases hap : a < p
        · have hback : a + 1 + (p - (a + 1)) = p := by omega
          simp only [Option.any_some, hap, decide_true, Bool.true_and, ih, hback]
          rw [if_pos (by omega), Option.getD_some]
        · have hnot : a ∉ f.ancestors p := fun hmem => hap (ancestors_lt hmem)
          simp [hap, hnot]
    · rw [if_neg hi, ih]
      congr 1
      exact propext (by omega)

/-- The numbers below `a` among the `count` numbers behind it. -/
def descendantsAmong (f : Forest) (a count : Nat) : List Nat :=
  let marks := f.below a count
  (List.range' (a + 1) count).filter fun e => marks[e - (a + 1)]?.getD false

theorem descendantsAmong_eq (f : Forest) (a count : Nat) :
    f.descendantsAmong a count =
      (List.range' (a + 1) count).filter fun e => (f.ancestors e).contains a := by
  refine List.filter_congr fun e he => ?_
  have he := List.mem_range'_1.mp he
  have hback : a + 1 + (e - (a + 1)) = e := by omega
  rw [getElem?_below, if_pos (by omega), hback, Option.getD_some]

/-- An ancestor of an ancestor is an ancestor. -/
theorem mem_lineage_trans {f : Forest} {a b c : Nat} (hab : a ∈ f.lineage b)
    (hbc : b ∈ f.lineage c) : a ∈ f.lineage c := by
  induction c using Nat.strongRecOn with
  | _ c ih =>
    rcases mem_lineage_iff.mp hbc with rfl | hbc
    · exact hab
    · cases hp : f.parent? c with
      | none => simp [ancestors_of_root hp] at hbc
      | some p =>
        rw [ancestors_of_parent hp] at hbc
        exact mem_lineage_of_parent hp (ih p (f.parent_lt hp) hbc)

/-- Two members of one lineage are related. -/
theorem mem_lineage_or {f : Forest} {a b c : Nat} (ha : a ∈ f.lineage c) (hb : b ∈ f.lineage c) :
    a ∈ f.lineage b ∨ b ∈ f.lineage a := by
  induction c using Nat.strongRecOn with
  | _ c ih =>
    rcases mem_lineage_iff.mp ha with rfl | ha'
    · exact Or.inr hb
    · rcases mem_lineage_iff.mp hb with rfl | hb'
      · exact Or.inl ha
      · cases hp : f.parent? c with
        | none => simp [ancestors_of_root hp] at ha'
        | some p =>
          rw [ancestors_of_parent hp] at ha' hb'
          exact ih p (f.parent_lt hp) ha' hb'

/-- Behind an ancestor stand its own ancestors. -/
theorem ancestors_eq_of_append {f : Forest} {a e : Nat} {near far : List Nat}
    (h : f.ancestors e = near ++ a :: far) : far = f.ancestors a := by
  induction near generalizing e with
  | nil =>
    cases hp : f.parent? e with
    | none => simp [ancestors_of_root hp] at h
    | some p =>
      rw [ancestors_of_parent hp, lineage_eq, List.nil_append, List.cons.injEq] at h
      rw [← h.1, h.2]
  | cons b near ih =>
    cases hp : f.parent? e with
    | none => simp [ancestors_of_root hp] at h
    | some p =>
      rw [ancestors_of_parent hp, lineage_eq, List.cons_append, List.cons.injEq] at h
      exact ih h.2

/-- Behind a member of a walk stand its ancestors. -/
theorem ancestors_eq_of_lineage {f : Forest} {a e : Nat} {near far : List Nat}
    (h : f.lineage e = near ++ a :: far) : far = f.ancestors a := by
  rw [lineage_eq] at h
  cases near with
  | nil =>
    rw [List.nil_append, List.cons.injEq] at h
    rw [← h.1, h.2]
  | cons b near =>
    rw [List.cons_append, List.cons.injEq] at h
    exact ancestors_eq_of_append h.2

/-- The first of the ancestors is the parent. -/
theorem parent_of_ancestors {f : Forest} {e p : Nat} {far : List Nat}
    (h : f.ancestors e = p :: far) : f.parent? e = some p := by
  cases hp : f.parent? e with
  | none => simp [ancestors_of_root hp] at h
  | some q =>
    rw [ancestors_of_parent hp, lineage_eq, List.cons.injEq] at h
    rw [h.1]

/-! ## Leaving out links -/

/-- The forest without the links that do not pass a test of child and parent. -/
def restrict (f : Forest) (test : Nat → Nat → Bool) : Forest where
  parent? e := (f.parent? e).filter (test e)
  parent_lt := by
    intro e p h
    exact f.parent_lt (Option.filter_eq_some_iff.mp h).1

theorem restrict_parent_eq_some {f : Forest} {test : Nat → Nat → Bool} {e p : Nat} :
    (f.restrict test).parent? e = some p ↔ f.parent? e = some p ∧ test e p = true :=
  Option.filter_eq_some_iff

/-- Leaving out links never makes an element an ancestor. -/
theorem mem_lineage_of_restrict {f : Forest} {test : Nat → Nat → Bool} {a e : Nat}
    (h : a ∈ (f.restrict test).lineage e) : a ∈ f.lineage e := by
  induction e using Nat.strongRecOn with
  | _ e ih =>
    rcases mem_lineage_iff.mp h with rfl | h
    · exact mem_lineage_self _ _
    · cases hp : (f.restrict test).parent? e with
      | none => simp [ancestors_of_root hp] at h
      | some p =>
        rw [ancestors_of_parent hp] at h
        have hp' := (restrict_parent_eq_some.mp hp).1
        exact mem_lineage_of_parent hp' (ih p (f.parent_lt hp') h)

/-- Up to a number that the walk still reaches, it goes on as before. -/
theorem mem_lineage_restrict_of_top {f : Forest} {test : Nat → Nat → Bool} {top a e : Nat}
    (hTop : top ∈ (f.restrict test).lineage e) (ha : a ∈ f.lineage e) (hle : top ≤ a) :
    a ∈ (f.restrict test).lineage e := by
  induction e using Nat.strongRecOn with
  | _ e ih =>
    rcases mem_lineage_iff.mp hTop with rfl | hAbove
    · have heq : a = top := Nat.le_antisymm (lineage_le ha) hle
      exact heq ▸ mem_lineage_self _ _
    · cases hp : (f.restrict test).parent? e with
      | none => simp [ancestors_of_root hp] at hAbove
      | some p =>
        rw [ancestors_of_parent hp] at hAbove
        have hp' := (restrict_parent_eq_some.mp hp).1
        rcases mem_lineage_iff.mp ha with rfl | ha
        · exact mem_lineage_self _ _
        · rw [ancestors_of_parent hp'] at ha
          exact mem_lineage_of_parent hp (ih p (f.parent_lt hp') hAbove ha)

/-! ## Document order -/

/--
The numbers below `size` are one tree in document order: every number but zero hangs below the one
before it or below an ancestor of that one.
-/
def Preorder (f : Forest) (size : Nat) : Prop :=
  ∀ e, 0 < e → e < size → ∃ p, f.parent? e = some p ∧ p ∈ f.lineage (e - 1)

/-- In document order, whatever stands between an element and one below it is below it too. -/
theorem Preorder.mem_lineage_of_between {f : Forest} {size a e b : Nat} (h : f.Preorder size)
    (hb : b < size) (hab : a ∈ f.lineage b) (hae : a ≤ e) (heb : e ≤ b) : a ∈ f.lineage e := by
  induction b with
  | zero =>
    have : e = 0 := by omega
    exact this ▸ hab
  | succ n ih =>
    by_cases he : e = n + 1
    · exact he ▸ hab
    · obtain ⟨p, hp, hmem⟩ := h (n + 1) (Nat.succ_pos n) hb
      refine ih (by omega) (mem_lineage_trans ?_ hmem) (by omega)
      rcases mem_lineage_iff.mp hab with rfl | hab
      · omega
      · rwa [ancestors_of_parent hp] at hab

end Forest

end AriaLocator

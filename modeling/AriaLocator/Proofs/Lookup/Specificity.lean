import Mathlib
import AriaLocator.Lookup.Result

/-!
# The branches that got furthest

How far a branch of a lookup got is a floating-point number, and the report of a miss is made from
the branches where it is greatest.  That there are such branches rests on the arithmetic of floats:
one NaN among the numbers and no branch need be equal to the greatest, since a NaN is not even equal
to itself.

The numbers here never are NaN.  They are sums of a count and a fiftieth of a count, and counts,
fiftieths and sums stay among the *unsigned* floats: zero, the positive numbers, and positive
infinity.  Every unsigned float lies above negative infinity, where the search for the greatest
begins, and equals itself.

## Main results

* `specificity_unsigned`: how far a branch got is an unsigned float, for counts of any size.
* `greatestSpecificity_mem`: the greatest specificity is that of a miss.
* `mostSpecific_isSome`: from one miss or more, a report is made.
-/

namespace AriaLocator

open Float.Model (UnpackedFloat Format)
open Float.Model.UnpackedFloat (Sign Accuracy)

/-! ## Unsigned floats -/

/-- Zero, a positive number or positive infinity. -/
inductive IsUnsigned : UnpackedFloat → Prop where
  | zero : IsUnsigned (.zero .positive)
  | finite (mantissa : Nat) (exponent : Int) (h : 0 < mantissa) :
      IsUnsigned (.finite .positive mantissa exponent h)
  | infinity : IsUnsigned (.infinity .positive)

namespace IsUnsigned

variable {spec : Format}

theorem roundWithAccuracy (mantissa : Nat) (exponent : Int) (accuracy : Accuracy) :
    IsUnsigned (UnpackedFloat.roundWithAccuracy spec .positive mantissa exponent accuracy) := by
  simp only [UnpackedFloat.roundWithAccuracy]
  split
  · exact IsUnsigned.zero
  · exact IsUnsigned.finite _ _ _

theorem normalize {mantissa : Int} (h : 0 ≤ mantissa) (exponent : Int) :
    IsUnsigned (UnpackedFloat.normalize spec mantissa exponent .positive) := by
  rw [UnpackedFloat.normalize]
  split
  · next hlt =>
    have hneg : mantissa < 0 := Int.compare_eq_lt.mp hlt
    omega
  · exact IsUnsigned.zero
  · exact roundWithAccuracy _ _ _

theorem add {a b : UnpackedFloat} (ha : IsUnsigned a) (hb : IsUnsigned b) :
    IsUnsigned (UnpackedFloat.add spec a b) := by
  cases ha with
  | zero => cases hb <;> constructor
  | infinity => cases hb <;> constructor
  | finite m e h =>
      cases hb with
      | zero => exact IsUnsigned.finite m e h
      | infinity => exact IsUnsigned.infinity
      | finite m' e' h' =>
          simp only [UnpackedFloat.add, Sign.apply]
          exact normalize (by omega) _

/-- A quotient by a positive number. -/
theorem div {a : UnpackedFloat} (ha : IsUnsigned a) {m : Nat} {e : Int} (h : 0 < m) :
    IsUnsigned (UnpackedFloat.div spec a (.finite .positive m e h)) := by
  cases ha with
  | zero => exact IsUnsigned.zero
  | infinity => exact IsUnsigned.infinity
  | finite m' e' h' => exact roundWithAccuracy _ _ _

/-- A product with a positive number. -/
theorem mul {a : UnpackedFloat} (ha : IsUnsigned a) {m : Nat} {e : Int} (h : 0 < m) :
    IsUnsigned (UnpackedFloat.mul spec a (.finite .positive m e h)) := by
  cases ha with
  | zero => exact IsUnsigned.zero
  | infinity => exact IsUnsigned.infinity
  | finite m' e' h' => exact roundWithAccuracy _ _ _

theorem ofScientific (m : Nat) (e : Int) :
    IsUnsigned (UnpackedFloat.ofScientific spec m e) := by
  rw [UnpackedFloat.ofScientific]
  split
  · exact IsUnsigned.zero
  · split
    · exact IsUnsigned.infinity
    · split
      · exact IsUnsigned.zero
      · split
        · exact mul (IsUnsigned.finite _ _ _) _
        · exact div (IsUnsigned.finite _ _ _) _

end IsUnsigned

/-! ## Through the bits -/

section Bits

open Float.Model.UnpackedFloat

variable {spec : Format}

theorem unpackSign_positive (exponent : BitVec spec.exponentBits)
    (mantissa : BitVec spec.mantissaBitsWithoutImplicit) :
    Sign.ofBitVec (unpackSign (packComponents spec .positive exponent mantissa)) = .positive := by
  rw [unpackSign_packComponents, Sign.ofBitVec_toBitVec]

/-- Components with a positive sign give an unsigned float, unless they are those of a NaN. -/
theorem isUnsigned_unpack_components {exponent : BitVec spec.exponentBits}
    {mantissa : BitVec spec.mantissaBitsWithoutImplicit}
    (h : exponent ≠ -1#_ ∨ mantissa = 0#_) :
    IsUnsigned (unpack spec (packComponents spec .positive exponent mantissa)) := by
  simp only [unpack, unpackMantissa_packComponents, unpackExponent_packComponents,
    unpackSign_positive]
  split
  · next hOnes =>
    rw [if_pos (h.resolve_left (not_not_intro hOnes))]
    exact IsUnsigned.infinity
  · split
    · split
      · exact IsUnsigned.zero
      · exact IsUnsigned.finite _ _ _
    · exact IsUnsigned.finite _ _ _

/-- Packing may round, underflow or overflow, but never makes a number negative or a NaN. -/
theorem isUnsigned_unpack_pack {u : UnpackedFloat} (h : IsUnsigned u) :
    IsUnsigned (unpack spec (pack spec u)) := by
  have hPos : 0 < spec.exponentBits := spec.he
  cases h with
  | zero => exact isUnsigned_unpack_components (Or.inr rfl)
  | infinity => exact isUnsigned_unpack_components (Or.inr rfl)
  | finite m e h =>
      simp only [pack]
      split
      · exact isUnsigned_unpack_components (Or.inr rfl)
      · next hFits =>
        split
        · refine isUnsigned_unpack_components (Or.inl fun hOnes => ?_)
          have hNat := congrArg BitVec.toNat hOnes
          simp only [BitVec.neg_one_eq_allOnes, BitVec.toNat_ofNat, BitVec.toNat_allOnes] at hNat
          rw [Nat.mod_eq_of_lt (by omega)] at hNat
          omega
        · refine isUnsigned_unpack_components (Or.inl fun hOnes => ?_)
          have hNat := congrArg BitVec.toNat hOnes
          simp only [BitVec.neg_one_eq_allOnes, BitVec.toNat_ofNat, BitVec.toNat_allOnes] at hNat
          have hBits : 2 ^ 1 ≤ 2 ^ spec.exponentBits := Nat.pow_le_pow_right Nat.two_pos hPos
          simp at hNat
          omega

end Bits

/-! ## Counts, fiftieths and sums -/

/-- A float that is unsigned. -/
def Unsigned (x : Float) : Prop := IsUnsigned x.toModel.unpack

/-- A float that is a positive number. -/
def PositiveFinite (x : Float) : Prop :=
  ∃ mantissa exponent h, x.toModel.unpack = .finite .positive mantissa exponent h

theorem unsigned_add {x y : Float} (hx : Unsigned x) (hy : Unsigned y) : Unsigned (x + y) :=
  isUnsigned_unpack_pack (hx.add hy)

theorem unsigned_div {x y : Float} (hx : Unsigned x) (hy : PositiveFinite y) :
    Unsigned (x / y) := by
  obtain ⟨m, e, h, hUnpack⟩ := hy
  have hDiv : IsUnsigned (UnpackedFloat.div .binary64 x.toModel.unpack y.toModel.unpack) := by
    rw [hUnpack]
    exact hx.div h
  exact isUnsigned_unpack_pack hDiv

theorem unsigned_mul {x y : Float} (hx : Unsigned x) (hy : PositiveFinite y) :
    Unsigned (x * y) := by
  obtain ⟨m, e, h, hUnpack⟩ := hy
  have hMul : IsUnsigned (UnpackedFloat.mul .binary64 x.toModel.unpack y.toModel.unpack) := by
    rw [hUnpack]
    exact hx.mul h
  exact isUnsigned_unpack_pack hMul

theorem unsigned_toFloat (n : UInt64) : Unsigned n.toFloat :=
  isUnsigned_unpack_pack (IsUnsigned.normalize (by omega) 0)

theorem positiveFinite_fifty : PositiveFinite 50.0 :=
  ⟨50 * 2 ^ 47, -47, by decide, by rfl⟩

theorem positiveFinite_one : PositiveFinite (Float.ofBits 0x3FF0000000000000) :=
  ⟨2 ^ 52, -52, by decide, by with_unfolding_all rfl⟩

/-- A count is unsigned, also where it exceeds all floats and is rounded to infinity. -/
theorem unsigned_ofNat (n : Nat) : Unsigned (Float.ofNat n) := by
  simp only [Float.ofNat, OfScientific.ofScientific, Float.ofScientific]
  split
  · exact unsigned_mul (unsigned_toFloat _) positiveFinite_one
  · exact isUnsigned_unpack_pack (IsUnsigned.ofScientific n _)

/-- How far a branch got is an unsigned float. -/
theorem specificity_unsigned (miss : Miss) : Unsigned miss.specificity :=
  unsigned_add (unsigned_ofNat _) (unsigned_div (unsigned_ofNat _) positiveFinite_fifty)

/-! ## The greatest -/

theorem IsUnsigned.compare_self {u : UnpackedFloat} (h : IsUnsigned u) :
    u.compare u = some .eq := by
  cases h with
  | zero => rfl
  | infinity => rfl
  | finite m e hPos => simp [UnpackedFloat.compare]

theorem IsUnsigned.bottom_compare {u : UnpackedFloat} (h : IsUnsigned u) :
    (UnpackedFloat.infinity .negative).compare u = some .lt := by
  cases h <;> rfl

/-- An unsigned float equals itself, which a NaN does not. -/
theorem beq_self_of_unsigned {x : Float} (h : Unsigned x) : (x == x) = true := by
  show (x.toModel.unpack.compare x.toModel.unpack == some .eq) = true
  rw [IsUnsigned.compare_self h]
  rfl

/-- The search for the greatest begins below every unsigned float. -/
theorem bottom_lt_of_unsigned {x : Float} (h : Unsigned x) : (-1.0 / 0.0 : Float) < x := by
  have hBottom : (-1.0 / 0.0 : Float).toModel.unpack = .infinity .negative := by rfl
  have hLess : (-1.0 / 0.0 : Float).toModel < x.toModel := by
    show ((-1.0 / 0.0 : Float).toModel.unpack.compare x.toModel.unpack == some .lt) = true
    rw [hBottom, IsUnsigned.bottom_compare h]
    rfl
  exact decide_eq_true hLess

theorem foldl_largerFloat_mem (start : Float) (xs : List Float) :
    xs.foldl largerFloat start ∈ start :: xs := by
  induction xs generalizing start with
  | nil => exact List.mem_cons_self
  | cons x xs ih =>
      have hTail : xs.foldl largerFloat (largerFloat start x) ∈ largerFloat start x :: xs := ih _
      rcases List.mem_cons.mp hTail with hHead | hTail
      · rw [List.foldl_cons, hHead, largerFloat]
        split <;> simp
      · exact List.mem_cons_of_mem _ (List.mem_cons_of_mem _ hTail)

/-- The search for the greatest goes on from the first miss. -/
theorem greatestSpecificity_cons (first : Miss) (rest : List Miss) :
    greatestSpecificity (first :: rest) =
      (rest.map Miss.specificity).foldl largerFloat first.specificity := by
  have hFirst : largerFloat (-1.0 / 0.0) first.specificity = first.specificity :=
    if_pos (bottom_lt_of_unsigned (specificity_unsigned first))
  rw [greatestSpecificity, List.map_cons, List.foldl_cons, hFirst]

/-- The greatest specificity is that of a miss. -/
theorem greatestSpecificity_mem {misses : List Miss} (h : misses ≠ []) :
    ∃ miss ∈ misses, miss.specificity = greatestSpecificity misses := by
  obtain ⟨first, rest, rfl⟩ := List.exists_cons_of_ne_nil h
  have hMem := foldl_largerFloat_mem first.specificity (rest.map Miss.specificity)
  rw [← greatestSpecificity_cons, ← List.map_cons] at hMem
  exact List.mem_map.mp hMem

/-- From one miss or more, a report is made. -/
theorem mostSpecific_isSome (d : Document) {misses : List Miss} (h : misses ≠ []) :
    (Miss.mostSpecific? d misses).isSome = true := by
  obtain ⟨miss, hMem, hGreatest⟩ := greatestSpecificity_mem h
  have hEqual : (miss.specificity == greatestSpecificity misses) = true := by
    rw [← hGreatest]
    exact beq_self_of_unsigned (specificity_unsigned miss)
  have hKept : miss ∈ misses.filter fun miss =>
      miss.specificity == greatestSpecificity misses := List.mem_filter.mpr ⟨hMem, hEqual⟩
  rw [Miss.mostSpecific?]
  cases hFilter : misses.filter fun miss => miss.specificity == greatestSpecificity misses with
  | nil => rw [hFilter] at hKept; exact absurd hKept List.not_mem_nil
  | cons first others => rfl

end AriaLocator

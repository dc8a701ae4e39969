import AriaLocator.Text.Decimal
import Mathlib

/-!
# Whole numbers as doubles

A text of digits can be read as a natural number or as a double.  A double has room for 53 binary
digits, so that it holds every natural number below `2 ^ 53` without rounding, and the two readings
agree on the numbers that fit a word of 32 bits.

A double is worked out by rounding a significand and an exponent, putting the outcome into a word, and
taking it apart again.  None of these changes a pair that has the form of a normal double.  So the
double of a natural number is known as a pair, and pairs compare by exponent and then by significand.

## Main results

* `round_exact`: rounding keeps what has the form of a normal double.
* `unpack_pack`: a normal double is got back from its word.
* `two_le_ofScientific`: the double of a natural number from two on is at least two.
* `comparesWithTwo`: a double is below two, or at least two, or not a number.
* `two_le_number`: a text that is read as a natural number from two on is at least two as a double.
-/

namespace AriaLocator.Text

open Float.Model Float.Model.UnpackedFloat

/-! ## Rounding -/

/-- The form of a normal double: a significand of 53 binary digits, and an exponent in range. -/
structure IsNormal (m : Nat) (e : Int) : Prop where
  /-- The first digit is not zero. -/
  low : 2 ^ 52 ≤ m
  /-- There are no more digits than fit. -/
  high : m < 2 ^ 53
  /-- The exponent is not too small. -/
  exponent_low : -1074 ≤ e
  /-- The exponent is not too large. -/
  exponent_high : e ≤ 971

variable {m : Nat} {e : Int}

theorem IsNormal.pos (h : IsNormal m e) : 0 < m := Nat.lt_of_lt_of_le (by decide) h.low

theorem IsNormal.ne_zero (h : IsNormal m e) : m ≠ 0 := Nat.ne_of_gt h.pos

theorem IsNormal.log2_eq (h : IsNormal m e) : m.log2 = 52 := by
  have hLow : 52 ≤ m.log2 := (Nat.le_log2 h.ne_zero).mpr h.low
  have hHigh : m.log2 < 53 := (Nat.log2_lt h.ne_zero).mpr h.high
  omega

/-- Shifting out zeros loses nothing. -/
theorem repeat_shiftRightOne (m k : Nat) :
    Nat.repeat ExtendedMantissa.shiftRightOne k ⟨m <<< k, false, false⟩ = ⟨m, false, false⟩ := by
  induction k generalizing m with
  | zero => rfl
  | succ k ih =>
    have hSplit : m <<< (k + 1) = (m * 2) <<< k := by
      rw [Nat.shiftLeft_eq, Nat.shiftLeft_eq, Nat.pow_succ, Nat.mul_assoc, Nat.mul_comm 2]
    rw [Nat.repeat, hSplit, ih]
    simp [ExtendedMantissa.shiftRightOne]

theorem log2_shiftLeft (hm : m ≠ 0) (k : Nat) : (m <<< k).log2 = m.log2 + k := by
  have hPower : 0 < 2 ^ k := Nat.two_pow_pos k
  have hNe : m * 2 ^ k ≠ 0 := Nat.mul_ne_zero hm (Nat.ne_of_gt hPower)
  have hLow : m.log2 + k ≤ (m * 2 ^ k).log2 := by
    rw [Nat.le_log2 hNe, Nat.pow_add]
    exact Nat.mul_le_mul_right _ ((Nat.le_log2 hm).mp (Nat.le_refl _))
  have hHigh : (m * 2 ^ k).log2 < m.log2 + k + 1 := by
    rw [Nat.log2_lt hNe, Nat.add_right_comm, Nat.pow_add]
    exact Nat.mul_lt_mul_of_pos_right Nat.lt_log2_self hPower
  rw [Nat.shiftLeft_eq]
  omega

/-- A double has 53 digits, and no digit below `2 ^ -1074`. -/
theorem targetExponent_binary64 (e : Int) :
    Format.binary64.targetExponent e = max (e - 53) (-1074) := rfl

/-- The exponent that a normal double is rounded to is its own. -/
theorem IsNormal.targetExponent_eq (h : IsNormal m e) (k : Nat) :
    Format.binary64.targetExponent (totalExponent (m <<< k) (e - k)) = e := by
  have hLog : (m <<< k).log2 = 52 + k := by rw [log2_shiftLeft h.ne_zero, h.log2_eq]
  have := h.exponent_low
  rw [targetExponent_binary64, totalExponent, hLog]
  omega

theorem IsNormal.shift_eq (h : IsNormal m e) (k : Nat) :
    shiftToTargetExponent .binary64 (m <<< k) (e - k) .exact = (⟨m, false, false⟩, e) := by
  have hShift : (e - (e - k)).toNat = k := by omega
  rw [shiftToTargetExponent, h.targetExponent_eq, shiftToExponent, hShift]
  exact Prod.ext (repeat_shiftRightOne m k) (by simp)

/-- Rounding keeps what has the form of a normal double, however many zeros are written behind. -/
theorem round_exact (h : IsNormal m e) (s : Sign) (k : Nat) :
    roundWithAccuracy .binary64 s (m <<< k) (e - k) .exact = .finite s m e h.pos := by
  have hAgain : shiftToTargetExponent .binary64 m e .exact = (⟨m, false, false⟩, e) := by
    simpa using h.shift_eq 0
  have hRounded : ExtendedMantissa.roundedMantissa ⟨m, false, false⟩ = m := rfl
  simp only [roundWithAccuracy, h.shift_eq, hRounded, hAgain]
  exact dif_neg h.ne_zero

/-! ## Words -/

theorem toNat_ofNat_ne {k : Nat} (hPos : 0 < k) (hMax : k < 2047) :
    BitVec.ofNat 11 k ≠ -1#11 ∧ BitVec.ofNat 11 k ≠ 0#11 := by
  have hNat : (BitVec.ofNat 11 k).toNat = k := by
    rw [BitVec.toNat_ofNat, Nat.mod_eq_of_lt (by omega)]
  constructor
  · intro h
    have hOnes := congrArg BitVec.toNat h
    rw [hNat] at hOnes
    have : (-1#11).toNat = 2047 := by decide
    omega
  · intro h
    have hZero := congrArg BitVec.toNat h
    rw [hNat] at hZero
    have : (0#11).toNat = 0 := by decide
    omega

/-- The first digit of a significand is left out of the word, and put back. -/
theorem IsNormal.toNat_append (h : IsNormal m e) : (1#1 ++ BitVec.ofNat 52 m).toNat = m := by
  have hLow := h.low
  have hHigh := h.high
  rw [BitVec.toNat_append, ← Nat.shiftLeft_add_eq_or_of_lt (BitVec.ofNat 52 m).isLt,
    BitVec.toNat_ofNat, Nat.shiftLeft_eq]
  show 1 * 2 ^ 52 + m % 2 ^ 52 = m
  omega

/-- A normal double is got back from its word. -/
theorem unpack_pack (h : IsNormal m e) (s : Sign) :
    (Float.Model.pack (.finite s m e h.pos)).unpack = .finite s m e h.pos := by
  have hLow := h.exponent_low
  have hHigh := h.exponent_high
  have hBits : Format.binary64.mantissaBits = 53 := by decide
  have hBias : (e + Format.binary64.exponentBias + Format.binary64.mantissaBitsWithoutImplicit) =
      e + 1075 := by
    show e + (2 ^ (11 - 1) - 1 : Nat) + (52 : Nat) = e + 1075
    omega
  obtain ⟨hOnes, hZero⟩ := toNat_ofNat_ne (k := (e + 1075).toNat) (by omega) (by omega)
  have hBack : (BitVec.ofNat 11 (e + 1075).toNat).toNat = (e + 1075).toNat := by
    rw [BitVec.toNat_ofNat, Nat.mod_eq_of_lt (by omega)]
  show UnpackedFloat.unpack .binary64 (UnpackedFloat.pack .binary64 _) = _
  rw [UnpackedFloat.pack]
  simp only [h.log2_eq, hBias, hBits]
  rw [if_neg (by omega), if_pos trivial, UnpackedFloat.unpack]
  simp only [unpackMantissa_packComponents, unpackExponent_packComponents,
    unpackSign_packComponents, Sign.ofBitVec_toBitVec]
  rw [if_neg hOnes, if_neg hZero]
  simp only [h.toNat_append, hBack]
  congr 1
  show ((e + 1075).toNat : Int) - ((2 ^ (11 - 1) - 1 : Nat) + (52 : Nat)) = e
  omega

/-! ## Natural numbers -/

/-- The double of a natural number has its binary digits, and zeros behind them. -/
theorem isNormal_of_nat {n : Nat} (hPos : 0 < n) (hMax : n < 2 ^ 53) :
    IsNormal (n <<< (52 - n.log2)) (n.log2 - 52) := by
  have hLog : n.log2 < 53 := (Nat.log2_lt (Nat.ne_of_gt hPos)).mpr hMax
  have hShifted : (n <<< (52 - n.log2)).log2 = 52 := by
    rw [log2_shiftLeft (Nat.ne_of_gt hPos)]
    omega
  have hNe : n <<< (52 - n.log2) ≠ 0 := by
    intro h
    rw [h] at hShifted
    simp at hShifted
  exact ⟨(Nat.le_log2 hNe).mp (by omega), (Nat.log2_lt hNe).mp (by omega), by omega, by omega⟩

theorem unpack_ofNat {n : Nat} (hPos : 0 < n) (hMax : n < 2 ^ 53) :
    (Float.Model.ofNat n).unpack =
      .finite .positive (n <<< (52 - n.log2)) (n.log2 - 52) (isNormal_of_nat hPos hMax).pos := by
  have h := isNormal_of_nat hPos hMax
  have hLog : n.log2 < 53 := (Nat.log2_lt (Nat.ne_of_gt hPos)).mpr hMax
  have hTarget : Format.binary64.targetExponent (totalExponent n 0) = n.log2 - 52 := by
    rw [targetExponent_binary64, totalExponent]
    omega
  have hAmount : (0 - ((n.log2 : Int) - 52)).toNat = 52 - n.log2 := by omega
  have hBack : (0 : Int) - ((52 - n.log2 : Nat) : Int) = n.log2 - 52 := by omega
  have hCompare : compare (n : Int) 0 = .gt := Int.compare_eq_gt.mpr (by omega)
  have hRound : UnpackedFloat.ofNat .binary64 n =
      .finite .positive (n <<< (52 - n.log2)) (n.log2 - 52) h.pos := by
    simp only [UnpackedFloat.ofNat, UnpackedFloat.ofInt, UnpackedFloat.normalize, hCompare,
      UnpackedFloat.round, Int.toNat_natCast, hTarget, decreaseExponent, hAmount, hBack]
    simpa using round_exact h .positive 0
  show (Float.Model.pack (UnpackedFloat.ofNat .binary64 n)).unpack = _
  rw [hRound, unpack_pack h]

/-- To multiply by one changes nothing. -/
theorem unpack_mul_one {x y : Float.Model} (h : IsNormal m e)
    (hx : x.unpack = .finite .positive m e h.pos)
    (hy : y.unpack = .finite .positive (2 ^ 52) (-52) (by decide)) :
    (x * y).unpack = .finite .positive m e h.pos := by
  have hMul : m * 2 ^ 52 = m <<< 52 := (Nat.shiftLeft_eq m 52).symm
  have hRound := round_exact h .positive 52
  show (Float.Model.pack (UnpackedFloat.mul .binary64 x.unpack y.unpack)).unpack = _
  rw [hx, hy, UnpackedFloat.mul, hMul]
  have hAdd : e + -52 = e - (52 : Nat) := by omega
  rw [hAdd]
  exact (congrArg (fun u => (Float.Model.pack u).unpack) hRound).trans (unpack_pack h _)

theorem unpack_ofScientific {n : Nat} (hPos : 0 < n) (hMax : n < 2 ^ 53) :
    (Float.ofScientific n false 0).toModel.unpack =
      .finite .positive (n <<< (52 - n.log2)) (n.log2 - 52) (isNormal_of_nat hPos hMax).pos := by
  have hWord : n.toUInt64.toNat = n := by
    show n % 2 ^ 64 = n
    omega
  have hFloat : (n.toUInt64.toFloat).toModel = Float.Model.ofNat n := by
    show Float.Model.ofNat n.toUInt64.toNat = _
    rw [hWord]
  have hOne : (Float.exactlyRepresentablePowersOfTen[0]).toModel.unpack =
      .finite .positive (2 ^ 52) (-52) (by decide) := rfl
  rw [Float.ofScientific, dif_pos ⟨hMax, by decide⟩]
  refine unpack_mul_one (isNormal_of_nat hPos hMax) ?_ hOne
  rw [hFloat, unpack_ofNat hPos hMax]

/-! ## Comparing with two -/

theorem unpack_one : (1.0 : Float).toModel.unpack = .finite .positive (2 ^ 52) (-52) (by decide) :=
  rfl

theorem unpack_two : (2.0 : Float).toModel.unpack = .finite .positive (2 ^ 52) (-51) (by decide) :=
  rfl

variable {x : Float}

theorem lt_two_iff : x < 2.0 ↔
    x.toModel.unpack.lt (.finite .positive (2 ^ 52) (-51) (by decide)) = true := by
  show decide (x.toModel < (2.0 : Float).toModel) = true ↔ _
  rw [decide_eq_true_iff, ← unpack_two]
  rfl

theorem two_le_iff : 2.0 ≤ x ↔
    UnpackedFloat.le (.finite .positive (2 ^ 52) (-51) (by decide)) x.toModel.unpack = true := by
  show decide ((2.0 : Float).toModel ≤ x.toModel) = true ↔ _
  rw [decide_eq_true_iff, ← unpack_two]
  rfl

theorem one_lt_iff : 1.0 < x ↔
    UnpackedFloat.lt (.finite .positive (2 ^ 52) (-52) (by decide)) x.toModel.unpack = true := by
  show decide ((1.0 : Float).toModel < x.toModel) = true ↔ _
  rw [decide_eq_true_iff, ← unpack_one]
  rfl

/-- Two positive doubles compare by exponent, and then by significand. -/
theorem lt_finite_iff {m n : Nat} {e f : Int} {hm : 0 < m} {hn : 0 < n} :
    UnpackedFloat.lt (.finite .positive m e hm) (.finite .positive n f hn) = true ↔
      e < f ∨ (e = f ∧ m < n) := by
  show (some ((compare e f).then (compare m n)) == some .lt) = true ↔ _
  rw [beq_iff_eq, Option.some.injEq, Ordering.then_eq_lt, Int.compare_eq_lt, Int.compare_eq_eq,
    Nat.compare_eq_lt]

theorem le_finite_iff {m n : Nat} {e f : Int} {hm : 0 < m} {hn : 0 < n} :
    UnpackedFloat.le (.finite .positive m e hm) (.finite .positive n f hn) = true ↔
      e < f ∨ (e = f ∧ m ≤ n) := by
  show ((compare e f).then (compare m n)).isLE = true ↔ _
  rw [Ordering.isLE_then_iff_or, Int.compare_eq_lt, Int.compare_eq_eq, Nat.isLE_compare]

/-- How a double compares with two, and with one if it is not below two. -/
inductive ComparesWithTwo (x : Float) : Prop where
  | below (hLt : x < 2.0) (hLe : ¬ 2.0 ≤ x) (hNumber : x.isNaN = false)
  | atLeast (hLt : ¬ x < 2.0) (hLe : 2.0 ≤ x) (hOne : 1.0 < x) (hNumber : x.isNaN = false)
  | notANumber (hLt : ¬ x < 2.0) (hLe : ¬ 2.0 ≤ x) (hOne : ¬ 1.0 < x) (hNumber : x.isNaN = true)

theorem comparesWithTwo (x : Float) : ComparesWithTwo x := by
  have hNaN : x.isNaN = x.toModel.unpack.isNaN := rfl
  have hTwo := @lt_two_iff x
  have hLe := @two_le_iff x
  have hOne := @one_lt_iff x
  cases hx : x.toModel.unpack with
  | infinity s =>
    rw [hx] at hNaN hTwo hLe hOne
    cases s with
    | negative => exact .below (hTwo.mpr rfl) (fun h => Bool.false_ne_true (hLe.mp h)) hNaN
    | positive =>
      exact .atLeast (fun h => Bool.false_ne_true (hTwo.mp h)) (hLe.mpr rfl) (hOne.mpr rfl) hNaN
  | notANumber =>
    rw [hx] at hNaN hTwo hLe hOne
    exact .notANumber (fun h => Bool.false_ne_true (hTwo.mp h))
      (fun h => Bool.false_ne_true (hLe.mp h)) (fun h => Bool.false_ne_true (hOne.mp h)) hNaN
  | zero s =>
    rw [hx] at hNaN hTwo hLe
    exact .below (hTwo.mpr rfl) (fun h => Bool.false_ne_true (hLe.mp h)) hNaN
  | finite s m e hm =>
    rw [hx] at hNaN hTwo hLe hOne
    cases s with
    | negative => exact .below (hTwo.mpr rfl) (fun h => Bool.false_ne_true (hLe.mp h)) hNaN
    | positive =>
      rw [lt_finite_iff] at hTwo hOne
      rw [le_finite_iff] at hLe
      by_cases hBelow : e < -51 ∨ (e = -51 ∧ m < 2 ^ 52)
      · exact .below (hTwo.mpr hBelow) (fun h => by have := hLe.mp h; omega) hNaN
      · exact .atLeast (fun h => hBelow (hTwo.mp h)) (hLe.mpr (by omega)) (hOne.mpr (by omega)) hNaN

/-- The double of a natural number from two on is at least two. -/
theorem two_le_ofScientific {n : Nat} (hTwo : 2 ≤ n) (hMax : n < 2 ^ 53) :
    2.0 ≤ Float.ofScientific n false 0 := by
  have hPos : 0 < n := Nat.lt_of_lt_of_le (by decide) hTwo
  have hLog : 1 ≤ n.log2 := (Nat.le_log2 (Nat.ne_of_gt hPos)).mpr hTwo
  have hLow := (isNormal_of_nat hPos hMax).low
  rw [two_le_iff, unpack_ofScientific hPos hMax, le_finite_iff]
  omega

/-! ## Digits -/

/-- A text of digits, with or without a plus sign, is a decimal without fraction and exponent. -/
theorem read?_of_digits {cs : List Char} (hNe : dropPlus cs ≠ [])
    (hDigits : (dropPlus cs).all Char.isDigit = true) :
    Decimal.read? cs = some ⟨false, digitsValue (dropPlus cs), 0⟩ := by
  have hSign : readSign cs = (false, dropPlus cs) := by
    unfold readSign
    split
    · rfl
    · simp [dropPlus, Char.isDigit] at hDigits
    · next hPlus _ =>
      rw [dropPlus]
      exact hPlus
  have hTake : (dropPlus cs).takeWhile Char.isDigit = dropPlus cs :=
    List.takeWhile_eq_self_iff.mpr (List.all_eq_true.mp hDigits)
  have hDrop : (dropPlus cs).dropWhile Char.isDigit = [] :=
    List.dropWhile_eq_nil_iff.mpr (List.all_eq_true.mp hDigits)
  simp [Decimal.read?, hSign, hTake, hDrop, readFraction, readExponent?, hNe]

theorem digitCount_le {n : Nat} (hMax : n < 2 ^ 53) : digitCount n ≤ 16 := by
  rw [digitCount]
  split
  · exact Nat.zero_le _
  · exact (Nat.length_toDigits_le_iff (by decide) (by decide)).mpr (by omega)

/-- A whole decimal is put into a double as it is. -/
theorem toFloat_whole {n : Nat} (hPos : 0 < n) (hMax : n < 2 ^ 53) :
    (Decimal.mk false n 0).toFloat = Float.ofScientific n false 0 := by
  have hCount := digitCount_le hMax
  show Decimal.magnitude ⟨false, n, 0⟩ = _
  unfold Decimal.magnitude
  simp only [Int.add_zero]
  rw [if_neg (by omega), if_neg (by omega), if_pos (Int.le_refl 0), Int.toNat_zero]

/-- A text that is read as a natural number from two on is at least two as a double. -/
theorem two_le_number {largest n : Nat} {s : String} (hLargest : largest < 2 ^ 53)
    (hRead : readNat? largest (trimChars s.toList) = some n) (hTwo : 2 ≤ n) : 2.0 ≤ number s := by
  obtain ⟨hNe, hDigits, hValue, hMax⟩ := readNat?_eq_some_iff.mp hRead
  have hPos : 0 < n := Nat.lt_of_lt_of_le (by decide) hTwo
  have hFloat : number s = Float.ofScientific n false 0 := by
    have hDecimal := read?_of_digits hNe hDigits
    unfold number
    cases hChars : trimChars s.toList with
    | nil =>
      rw [hChars] at hNe
      exact absurd rfl hNe
    | cons c cs =>
      rw [hChars] at hDecimal hValue
      show (Option.map Decimal.toFloat (Decimal.read? (c :: cs))).getD notANumber = _
      rw [hDecimal, hValue]
      exact toFloat_whole hPos (by omega)
  rw [hFloat]
  exact two_le_ofScientific hTwo (by omega)

end AriaLocator.Text

import AriaLocator.Proofs.Text.WholeNumber

/-!
# Sums and quotients of doubles

A sum or a quotient of doubles is worked out in full, cut off after 53 binary digits, and its last
digit is then raised by one or left as it is.  Whichever it is, the outcome differs from the exact
number by no more than one unit of the last digit, and so by no more than a `2 ^ 52`nd part.  That
is twice the error of rounding to the nearest double, and it needs nothing about the digits that are
cut off.

A double is *plain* if it is zero or has the form of a normal double.  Plain doubles compare as the
rational numbers do that they stand for.  Counts are plain and exact, and sums and quotients of
plain doubles are plain again as long as they are neither tiny nor huge.

## Main results

* `lt_iff_value_lt`, `beq_iff_value_eq`: plain doubles compare as their values do.
* `isPlain_ofNat`, `value_ofNat`: a count below `2 ^ 53` is a double without error.
* `roundWithAccuracy_near`: rounding changes a number by a `2 ^ 52`nd part of it at most.
* `add_near`, `div_near`: so do a sum and a quotient of plain doubles.
-/

namespace AriaLocator.Text

open Float.Model Float.Model.UnpackedFloat

/-! ## Values -/

/-- The number that a significand and an exponent stand for. -/
def scaled (m : Nat) (e : Int) : ℚ := m * (2 : ℚ) ^ e

/-- The number that a double stands for, if it has no sign and is finite. -/
def value (x : Float) : ℚ :=
  match x.toModel.unpack with
  | .finite .positive m e _ => scaled m e
  | _ => 0

/-- Zero, or of the form of a normal double. -/
inductive IsPlain (x : Float) : Prop where
  | zero (hx : x.toModel.unpack = .zero .positive)
  | normal (m : Nat) (e : Int) (h : IsNormal m e)
      (hx : x.toModel.unpack = .finite .positive m e h.pos)

variable {m n : Nat} {e f : Int} {v w : ℚ} {x y : Float}

theorem value_of_zero (hx : x.toModel.unpack = .zero .positive) : value x = 0 := by
  rw [value, hx]

theorem value_of_finite {hm : 0 < m} (hx : x.toModel.unpack = .finite .positive m e hm) :
    value x = scaled m e := by
  rw [value, hx]

theorem two_zpow_pos (e : Int) : (0 : ℚ) < 2 ^ e := zpow_pos (by norm_num) e

theorem two_zpow_add (e f : Int) : (2 : ℚ) ^ (e + f) = 2 ^ e * 2 ^ f :=
  zpow_add₀ (by norm_num) e f

theorem scaled_pos (hm : 0 < m) : 0 < scaled m e :=
  mul_pos (by exact_mod_cast hm) (two_zpow_pos e)

theorem scaled_lt_iff_of_same : scaled m e < scaled n e ↔ m < n := by
  rw [scaled, scaled, mul_lt_mul_iff_left₀ (two_zpow_pos e), Nat.cast_lt]

/-- Zeros written behind a significand are taken off by the exponent. -/
theorem scaled_shiftLeft (m k : Nat) (e : Int) : scaled (m <<< k) (e - k) = scaled m e := by
  have hBack : (2 : ℚ) ^ e = 2 ^ (k : Int) * 2 ^ (e - k) := by
    rw [← two_zpow_add, add_sub_cancel]
  rw [scaled, scaled, hBack, Nat.shiftLeft_eq, zpow_natCast]
  push_cast
  ring

theorem scaled_add (m n : Nat) (e : Int) : scaled (m + n) e = scaled m e + scaled n e := by
  rw [scaled, scaled, scaled]
  push_cast
  ring

/-- A number may be written over any smaller exponent. -/
theorem scaled_decrease (h : f ≤ e) : scaled (m <<< (e - f).toNat) f = scaled m e := by
  have hBack : e - ((e - f).toNat : Int) = f := by omega
  rw [← scaled_shiftLeft m (e - f).toNat e, hBack]

/-- The first of 53 digits stands for `2 ^ 52` of the last. -/
theorem le_scaled (hLow : 2 ^ 52 ≤ m) : 2 ^ 52 * 2 ^ e ≤ scaled m e :=
  mul_le_mul_of_nonneg_right (by exact_mod_cast hLow) (two_zpow_pos e).le

/-- There is no digit before the first of 53. -/
theorem scaled_lt (hHigh : m < 2 ^ 53) : scaled m e < 2 ^ 53 * 2 ^ e :=
  mul_lt_mul_of_pos_right (by exact_mod_cast hHigh) (two_zpow_pos e)

/-- A normal double with the smaller exponent is the smaller one. -/
theorem scaled_lt_of_exponent_lt (hm : IsNormal m e) (hn : IsNormal n f) (h : e < f) :
    scaled m e < scaled n f := by
  have hStep : (2 : ℚ) ^ (e + 1) ≤ 2 ^ f := zpow_le_zpow_right₀ (by norm_num) h
  calc scaled m e < 2 ^ 53 * 2 ^ e := scaled_lt hm.high
    _ = 2 ^ 52 * 2 ^ (e + 1) := by rw [two_zpow_add]; ring
    _ ≤ 2 ^ 52 * 2 ^ f := by gcongr
    _ ≤ scaled n f := le_scaled hn.low

theorem scaled_lt_iff (hm : IsNormal m e) (hn : IsNormal n f) :
    scaled m e < scaled n f ↔ e < f ∨ (e = f ∧ m < n) := by
  rcases Int.lt_trichotomy e f with hLt | rfl | hGt
  · exact iff_of_true (scaled_lt_of_exponent_lt hm hn hLt) (Or.inl hLt)
  · rw [scaled_lt_iff_of_same]
    simp
  · refine iff_of_false (not_lt_of_gt (scaled_lt_of_exponent_lt hn hm hGt)) ?_
    omega

theorem scaled_eq_iff (hm : IsNormal m e) (hn : IsNormal n f) :
    scaled m e = scaled n f ↔ e = f ∧ m = n := by
  constructor
  · intro h
    have hLess := mt (scaled_lt_iff hm hn).mpr (Eq.not_lt h)
    have hMore := mt (scaled_lt_iff hn hm).mpr (Eq.not_gt h)
    omega
  · rintro ⟨rfl, rfl⟩
    rfl

/-! ## Comparing -/

theorem lt_iff_unpack : x < y ↔ x.toModel.unpack.lt y.toModel.unpack = true := by
  show decide (x.toModel < y.toModel) = true ↔ _
  rw [decide_eq_true_iff]
  rfl

theorem beq_iff_unpack :
    (x == y) = true ↔ x.toModel.unpack.compare y.toModel.unpack = some .eq := by
  show (x.toModel.unpack.compare y.toModel.unpack == some .eq) = true ↔ _
  rw [beq_iff_eq]

/-- Plain doubles compare as the numbers that they stand for. -/
theorem lt_iff_value_lt (hx : IsPlain x) (hy : IsPlain y) : x < y ↔ value x < value y := by
  rw [lt_iff_unpack]
  cases hx with
  | zero hx =>
      cases hy with
      | zero hy =>
          rw [value_of_zero hx, value_of_zero hy, hx, hy]
          exact iff_of_false Bool.false_ne_true (lt_irrefl 0)
      | normal n f hn hy =>
          rw [value_of_zero hx, value_of_finite hy, hx, hy]
          exact iff_of_true rfl (scaled_pos hn.pos)
  | normal m e hm hx =>
      cases hy with
      | zero hy =>
          rw [value_of_finite hx, value_of_zero hy, hx, hy]
          exact iff_of_false Bool.false_ne_true (not_lt_of_gt (scaled_pos hm.pos))
      | normal n f hn hy =>
          rw [value_of_finite hx, value_of_finite hy, hx, hy, lt_finite_iff, scaled_lt_iff hm hn]

theorem beq_iff_value_eq (hx : IsPlain x) (hy : IsPlain y) :
    (x == y) = true ↔ value x = value y := by
  rw [beq_iff_unpack]
  cases hx with
  | zero hx =>
      cases hy with
      | zero hy =>
          rw [value_of_zero hx, value_of_zero hy, hx, hy]
          exact iff_of_true rfl rfl
      | normal n f hn hy =>
          rw [value_of_zero hx, value_of_finite hy, hx, hy]
          exact iff_of_false (by simp [UnpackedFloat.compare]) (scaled_pos hn.pos).ne
  | normal m e hm hx =>
      cases hy with
      | zero hy =>
          rw [value_of_finite hx, value_of_zero hy, hx, hy]
          exact iff_of_false (by simp [UnpackedFloat.compare]) (scaled_pos hm.pos).ne'
      | normal n f hn hy =>
          rw [value_of_finite hx, value_of_finite hy, hx, hy, scaled_eq_iff hm hn]
          show some ((compare e f).then (compare m n)) = some .eq ↔ _
          rw [Option.some.injEq, Ordering.then_eq_eq, Int.compare_eq_eq, Nat.compare_eq_eq]

/-! ## Counts -/

theorem isPlain_ofNat (hMax : n < 2 ^ 53) : IsPlain (Float.ofNat n) := by
  rcases Nat.eq_zero_or_pos n with rfl | hPos
  · exact .zero rfl
  · exact .normal _ _ (isNormal_of_nat hPos hMax) (unpack_ofScientific hPos hMax)

/-- A count below `2 ^ 53` is a double without error. -/
theorem value_ofNat (hMax : n < 2 ^ 53) : value (Float.ofNat n) = n := by
  rcases Nat.eq_zero_or_pos n with rfl | hPos
  · exact value_of_zero rfl
  · have hLog : n.log2 < 53 := (Nat.log2_lt (Nat.ne_of_gt hPos)).mpr hMax
    have hExponent : (n.log2 - 52 : Int) = 0 - ((52 - n.log2 : Nat) : Int) := by omega
    show value (Float.ofScientific n false 0) = n
    rw [value_of_finite (unpack_ofScientific hPos hMax), hExponent, scaled_shiftLeft, scaled,
      zpow_zero, mul_one]

/-! ## Rounding -/

/-- A number that begins with the given digits. -/
structure Brackets (m : Nat) (e : Int) (v : ℚ) : Prop where
  low : scaled m e ≤ v
  high : v < scaled (m + 1) e

/-- What is off by a `2 ^ 52`nd part at most. -/
def Near (w v : ℚ) : Prop := |w - v| ≤ v / 2 ^ 52

theorem near_self (hv : 0 ≤ v) : Near v v := by
  rw [Near, sub_self, abs_zero]
  positivity

theorem brackets_scaled (m : Nat) (e : Int) : Brackets m e (scaled m e) :=
  ⟨le_refl _, scaled_lt_iff_of_same.mpr (Nat.lt_succ_self m)⟩

/-- Digits that are cut off leave a number between the same digits. -/
theorem Brackets.cut (h : Brackets m e v) (k : Nat) : Brackets (m / 2 ^ k) (e + k) v := by
  have hScale (a : Nat) : scaled a (e + k) = scaled (a * 2 ^ k) e := by
    rw [scaled, scaled, two_zpow_add, zpow_natCast]
    push_cast
    ring
  have hLow : m / 2 ^ k * 2 ^ k ≤ m := Nat.div_mul_le_self m (2 ^ k)
  have hHigh : m + 1 ≤ (m / 2 ^ k + 1) * 2 ^ k := by
    rw [Nat.mul_comm]
    exact Nat.lt_mul_div_succ m (Nat.two_pow_pos k)
  have hMono {a b : Nat} (hab : a ≤ b) : scaled a e ≤ scaled b e :=
    le_of_not_gt (mt scaled_lt_iff_of_same.mp (Nat.not_lt.mpr hab))
  constructor
  · rw [hScale]
    exact (hMono hLow).trans h.low
  · rw [hScale]
    exact h.high.trans_le (hMono hHigh)

theorem mantissa_repeat_shiftRightOne (em : ExtendedMantissa) (k : Nat) :
    (Nat.repeat ExtendedMantissa.shiftRightOne k em).mantissa = em.mantissa / 2 ^ k := by
  induction k with
  | zero => simp [Nat.repeat]
  | succ k ih =>
      rw [Nat.repeat, ExtendedMantissa.shiftRightOne, ih, Nat.div_div_eq_div_mul, Nat.pow_succ]

/-- The last digit is raised by one or left as it is. -/
theorem roundedMantissa_cases (em : ExtendedMantissa) :
    em.roundedMantissa = em.mantissa ∨ em.roundedMantissa = em.mantissa + 1 := by
  obtain ⟨m, half, rest⟩ := em
  cases half <;> cases rest
  · exact Or.inl rfl
  · exact Or.inl rfl
  · show m + m % 2 = m ∨ m + m % 2 = m + 1
    omega
  · exact Or.inr rfl

/-- With 53 digits or more, those behind the first 53 are cut off. -/
theorem shiftToTargetExponent_cut (accuracy : Accuracy) (hDigits : 52 ≤ m.log2)
    (hLow : -1074 ≤ e + (m.log2 - 52 : Nat)) :
    (shiftToTargetExponent .binary64 m e accuracy).1.mantissa = m / 2 ^ (m.log2 - 52) ∧
      (shiftToTargetExponent .binary64 m e accuracy).2 = e + (m.log2 - 52 : Nat) := by
  have hTarget : Format.binary64.targetExponent (totalExponent m e) = e + (m.log2 - 52 : Nat) := by
    rw [targetExponent_binary64, totalExponent]
    omega
  have hAmount : (e + (m.log2 - 52 : Nat) - e).toNat = m.log2 - 52 := by omega
  have hDigitsOf : (ExtendedMantissa.ofMantissaAndAccuracy m accuracy).mantissa = m := by
    cases accuracy with
    | exact => rfl
    | inexact o => cases o <;> rfl
  rw [shiftToTargetExponent, hTarget, shiftToExponent, hAmount]
  refine ⟨?_, rfl⟩
  show (Nat.repeat ExtendedMantissa.shiftRightOne _ _).mantissa = _
  rw [mantissa_repeat_shiftRightOne, hDigitsOf]

/-- The first 53 digits of a significand are a significand of 53 digits. -/
theorem isNormal_cut (hDigits : 52 ≤ m.log2) (hLow : -1074 ≤ e + (m.log2 - 52 : Nat))
    (hHigh : e + (m.log2 - 52 : Nat) ≤ 971) :
    IsNormal (m / 2 ^ (m.log2 - 52)) (e + (m.log2 - 52 : Nat)) := by
  have hNe : m ≠ 0 := by
    rintro rfl
    simp at hDigits
  have hSplit : 52 + (m.log2 - 52) = m.log2 := by omega
  have hBelow : 2 ^ 53 * 2 ^ (m.log2 - 52) = 2 ^ (m.log2 + 1) := by
    rw [← Nat.pow_add]
    congr 1
    omega
  refine ⟨?_, ?_, hLow, hHigh⟩
  · rw [Nat.le_div_iff_mul_le (Nat.two_pow_pos _), ← Nat.pow_add, hSplit]
    exact (Nat.le_log2 hNe).mp (Nat.le_refl _)
  · rw [Nat.div_lt_iff_lt_mul (Nat.two_pow_pos _), hBelow]
    exact Nat.lt_log2_self

/-- What is left of rounding once the digits are cut off: a significand that was raised to 54 digits
is one followed by zeros, and gives one of them away. -/
theorem round_last (h : IsNormal m e) (hHigh : e < 971) {r : Nat} (hr : r = m ∨ r = m + 1) :
    ∃ n f, ∃ _ : IsNormal n f, scaled n f = scaled r e ∧
      (shiftToTargetExponent .binary64 r e .exact).1.mantissa = n ∧
      (shiftToTargetExponent .binary64 r e .exact).2 = f := by
  have hLowM := h.low
  have hHighM := h.high
  have hExponent := h.exponent_low
  by_cases hOver : r < 2 ^ 53
  · have hr' : IsNormal r e := ⟨by omega, hOver, hExponent, by omega⟩
    have hShift : shiftToTargetExponent .binary64 r e .exact = (⟨r, false, false⟩, e) := by
      simpa using hr'.shift_eq 0
    rw [hShift]
    exact ⟨r, e, hr', rfl, rfl, rfl⟩
  · obtain rfl : r = 2 ^ 53 := by omega
    have hr' : IsNormal (2 ^ 52) (e + 1) :=
      ⟨Nat.le_refl _, by decide, by omega, by omega⟩
    have hShift : shiftToTargetExponent .binary64 (2 ^ 53) e .exact =
        (⟨2 ^ 52, false, false⟩, e + 1) := by
      have hOne := hr'.shift_eq 1
      rwa [show (2 ^ 52 <<< 1 : Nat) = 2 ^ 53 by decide,
        show e + 1 - ((1 : Nat) : Int) = e by omega] at hOne
    rw [hShift]
    refine ⟨2 ^ 52, e + 1, hr', ?_, rfl, rfl⟩
    rw [scaled, scaled, two_zpow_add]
    push_cast
    ring

/-- The last of the first 53 digits of a number that is neither tiny nor huge. -/
theorem Brackets.exponent_range (h : Brackets m e v) (hLow : 2 ^ 52 ≤ m) (hHigh : m < 2 ^ 53)
    (hSmall : 1 / 64 ≤ v) (hLarge : v < 2 ^ 53) : -60 < e ∧ e < 1 := by
  have hTwo : (1 : ℚ) < 2 := by norm_num
  have hHighQ : (m : ℚ) + 1 ≤ 2 ^ 53 := by exact_mod_cast hHigh
  constructor
  · have hBound : (2 : ℚ) ^ (-60 : Int) < 2 ^ e := by
      have hBelow : v < 2 ^ 53 * 2 ^ e := by
        refine h.high.trans_le ?_
        rw [scaled]
        push_cast
        exact mul_le_mul_of_nonneg_right hHighQ (two_zpow_pos e).le
      norm_num at *
      linarith
    exact (zpow_lt_zpow_iff_right₀ hTwo).mp hBound
  · have hBound : (2 : ℚ) ^ e < 2 ^ (1 : Int) := by
      have hAbove : 2 ^ 52 * 2 ^ e ≤ v := (le_scaled hLow).trans h.low
      norm_num at *
      linarith
    exact (zpow_lt_zpow_iff_right₀ hTwo).mp hBound

/-- Of 53 digits, the last is a `2 ^ 52`nd part at most. -/
theorem Brackets.near (h : Brackets m e v) (hLow : 2 ^ 52 ≤ m) {r : Nat}
    (hr : r = m ∨ r = m + 1) : Near (scaled r e) v := by
  have hUnit : (2 : ℚ) ^ e ≤ v / 2 ^ 52 := by
    rw [le_div_iff₀ (by norm_num), mul_comm]
    exact (le_scaled hLow).trans h.low
  have hNext : scaled (m + 1) e = scaled m e + 2 ^ e := by
    rw [scaled_add, scaled, scaled, Nat.cast_one, one_mul]
  have hFrom := h.low
  have hTo := h.high
  rw [hNext] at hTo
  rw [Near, abs_le]
  rcases hr with rfl | rfl
  · constructor <;> linarith
  · rw [hNext]
    constructor <;> linarith

/-- Rounding changes a number by a `2 ^ 52`nd part of it at most. -/
theorem roundWithAccuracy_near (accuracy : Accuracy) (hDigits : 52 ≤ m.log2)
    (h : Brackets m e v) (hSmall : 1 / 64 ≤ v) (hLarge : v < 2 ^ 53) :
    ∃ n f, ∃ hn : IsNormal n f,
      roundWithAccuracy .binary64 .positive m e accuracy = .finite .positive n f hn.pos ∧
        Near (scaled n f) v := by
  have hCut := h.cut (m.log2 - 52)
  have hWide : IsNormal (m / 2 ^ (m.log2 - 52)) 0 := by
    have hNormal := isNormal_cut (m := m) (e := -(m.log2 - 52 : Nat)) hDigits (by omega) (by omega)
    rwa [Int.add_left_neg] at hNormal
  obtain ⟨hLow, hHigh⟩ := hCut.exponent_range hWide.low hWide.high hSmall hLarge
  have hFirst : IsNormal (m / 2 ^ (m.log2 - 52)) (e + (m.log2 - 52 : Nat)) :=
    isNormal_cut hDigits (by omega) (by omega)
  obtain ⟨hMantissa, hExponent⟩ := shiftToTargetExponent_cut accuracy hDigits hFirst.exponent_low
  have hRounded := roundedMantissa_cases (shiftToTargetExponent .binary64 m e accuracy).1
  rw [hMantissa] at hRounded
  obtain ⟨n, f, hn, hValue, hLastMantissa, hLastExponent⟩ := round_last hFirst (by omega) hRounded
  refine ⟨n, f, hn, ?_, hValue ▸ hCut.near hWide.low hRounded⟩
  rw [← hExponent] at hLastMantissa hLastExponent
  simp only [roundWithAccuracy, hLastMantissa, hLastExponent]
  exact dif_neg hn.ne_zero

/-! ## Sums and quotients -/

/-- A number with 53 digits or more is not written with more of them before it is rounded. -/
theorem round_near (hDigits : 52 ≤ m.log2) (hSmall : 1 / 64 ≤ scaled m e)
    (hLarge : scaled m e < 2 ^ 53) :
    ∃ n f, ∃ hn : IsNormal n f,
      UnpackedFloat.round .binary64 .positive m e = .finite .positive n f hn.pos ∧
        Near (scaled n f) (scaled m e) := by
  have hTarget : e ≤ Format.binary64.targetExponent (totalExponent m e) := by
    rw [targetExponent_binary64, totalExponent]
    omega
  have hAmount : (e - Format.binary64.targetExponent (totalExponent m e)).toNat = 0 := by omega
  simp only [UnpackedFloat.round, decreaseExponent, hAmount, Nat.shiftLeft_zero, Int.natCast_zero,
    Int.sub_zero]
  exact roundWithAccuracy_near .exact hDigits (brackets_scaled m e) hSmall hLarge

/-- A double with a known number near it. -/
theorem isPlain_near (hn : IsNormal n f) (hNear : Near (scaled n f) v)
    (hx : x.toModel = Float.Model.pack (.finite .positive n f hn.pos)) :
    IsPlain x ∧ Near (value x) v := by
  have hUnpack : x.toModel.unpack = .finite .positive n f hn.pos := by rw [hx, unpack_pack hn]
  exact ⟨.normal n f hn hUnpack, value_of_finite hUnpack ▸ hNear⟩

theorem add_toModel (x y : Float) : (x + y).toModel =
    Float.Model.pack (UnpackedFloat.add .binary64 x.toModel.unpack y.toModel.unpack) := rfl

theorem div_toModel (x y : Float) : (x / y).toModel =
    Float.Model.pack (UnpackedFloat.div .binary64 x.toModel.unpack y.toModel.unpack) := rfl

/-- Two normal doubles are added over the smaller of their exponents. -/
theorem add_normal_near (hm : IsNormal m e) (hn : IsNormal n f)
    (hSmall : 1 / 64 ≤ scaled m e + scaled n f) (hLarge : scaled m e + scaled n f < 2 ^ 53) :
    ∃ k g, ∃ hk : IsNormal k g,
      UnpackedFloat.add .binary64 (.finite .positive m e hm.pos) (.finite .positive n f hn.pos) =
        .finite .positive k g hk.pos ∧ Near (scaled k g) (scaled m e + scaled n f) := by
  obtain ⟨least, hLeast⟩ : ∃ least, least = min e f := ⟨_, rfl⟩
  obtain ⟨sum, hSumOf⟩ : ∃ sum, sum = m <<< (e - least).toNat + n <<< (f - least).toNat := ⟨_, rfl⟩
  have hSum : scaled sum least = scaled m e + scaled n f := by
    rw [hSumOf, scaled_add, scaled_decrease (by omega), scaled_decrease (by omega)]
  have hLow : 2 ^ 52 ≤ sum :=
    hSumOf ▸ (hm.low.trans Nat.le_shiftLeft).trans (Nat.le_add_right _ _)
  have hDigits : 52 ≤ sum.log2 := (Nat.le_log2 (by omega)).mpr hLow
  have hCompare : compare (sum : Int) 0 = .gt := Int.compare_eq_gt.mpr (by omega)
  rw [← hSum] at hSmall hLarge ⊢
  obtain ⟨k, g, hk, hRound, hNear⟩ := round_near hDigits hSmall hLarge
  refine ⟨k, g, hk, ?_, hNear⟩
  have hAdd : UnpackedFloat.add .binary64 (.finite .positive m e hm.pos)
      (.finite .positive n f hn.pos) = UnpackedFloat.normalize .binary64 sum least .positive := by
    rw [hSumOf, hLeast]
    rfl
  rw [hAdd, UnpackedFloat.normalize, hCompare, Int.toNat_natCast]
  exact hRound

/-- A sum of plain doubles is off by a `2 ^ 52`nd part at most. -/
theorem add_near (hx : IsPlain x) (hy : IsPlain y)
    (hSmall : value x + value y = 0 ∨ 1 / 64 ≤ value x + value y)
    (hLarge : value x + value y < 2 ^ 53) :
    IsPlain (x + y) ∧ Near (value (x + y)) (value x + value y) := by
  cases hx with
  | zero hx =>
      rw [value_of_zero hx, zero_add]
      cases hy with
      | zero hy =>
          have hZero : (x + y).toModel.unpack = .zero .positive := by
            rw [add_toModel, hx, hy]
            with_unfolding_all rfl
          rw [value_of_zero hy, value_of_zero hZero]
          exact ⟨.zero hZero, near_self (le_refl 0)⟩
      | normal n f hn hy =>
          rw [value_of_finite hy]
          refine isPlain_near hn (near_self (scaled_pos hn.pos).le) ?_
          rw [add_toModel, hx, hy]
          rfl
  | normal m e hm hx =>
      rw [value_of_finite hx] at hSmall hLarge ⊢
      cases hy with
      | zero hy =>
          rw [value_of_zero hy, add_zero]
          refine isPlain_near hm (near_self (scaled_pos hm.pos).le) ?_
          rw [add_toModel, hx, hy]
          rfl
      | normal n f hn hy =>
          rw [value_of_finite hy] at hSmall hLarge ⊢
          have hPos : 0 < scaled m e + scaled n f := add_pos (scaled_pos hm.pos) (scaled_pos hn.pos)
          obtain ⟨k, g, hk, hAdd, hNear⟩ :=
            add_normal_near hm hn (hSmall.resolve_left hPos.ne') hLarge
          refine isPlain_near hk hNear ?_
          rw [add_toModel, hx, hy, hAdd]

/-- The digits of a quotient of normal doubles, and the exponent that they are written with. -/
theorem brackets_quotient (hn : IsNormal n f) :
    Brackets (m <<< 53 / n) (e - f - 53) (scaled m e / scaled n f) := by
  have hn' := scaled_pos (e := f) hn.pos
  have hTimes (a : Nat) : scaled a (e - f - 53) * scaled n f = scaled (a * n) (e - 53) := by
    have hSplit : (2 : ℚ) ^ (e - 53) = 2 ^ (e - f - 53) * 2 ^ f := by
      rw [← two_zpow_add]
      congr 1
      ring
    rw [scaled, scaled, scaled, hSplit]
    push_cast
    ring
  have hWhole : scaled m e = scaled (m <<< 53) (e - 53) := (scaled_shiftLeft m 53 e).symm
  have hLow : m <<< 53 / n * n ≤ m <<< 53 := Nat.div_mul_le_self _ _
  have hHigh : m <<< 53 < (m <<< 53 / n + 1) * n := by
    rw [Nat.mul_comm]
    exact Nat.lt_mul_div_succ _ hn.pos
  constructor
  · rw [le_div_iff₀ hn', hTimes, hWhole]
    exact le_of_not_gt (mt scaled_lt_iff_of_same.mp (Nat.not_lt.mpr hLow))
  · rw [div_lt_iff₀ hn', hTimes, hWhole]
    exact scaled_lt_iff_of_same.mpr hHigh

/-- A quotient of normal doubles has 53 digits or more before it is rounded. -/
theorem digits_quotient (hm : IsNormal m e) (hn : IsNormal n f) : 52 ≤ (m <<< 53 / n).log2 := by
  have hLow : 2 ^ 52 ≤ m <<< 53 / n := by
    rw [Nat.le_div_iff_mul_le hn.pos, Nat.shiftLeft_eq]
    exact Nat.mul_le_mul hm.low hn.high.le
  exact (Nat.le_log2 (by omega)).mpr hLow

/-- A quotient that is not tiny has an exponent that fits. -/
theorem exponent_quotient (hm : IsNormal m e) (hn : IsNormal n f)
    (hSmall : 1 / 64 ≤ scaled m e / scaled n f) : f < e + 7 := by
  have hBound : (2 : ℚ) ^ f < 2 ^ (e + 7) := by
    have hAbove : 2 ^ 52 * 2 ^ f ≤ scaled n f := le_scaled hn.low
    have hBelow : scaled m e < 2 ^ 53 * 2 ^ e := scaled_lt hm.high
    rw [le_div_iff₀ (scaled_pos hn.pos)] at hSmall
    rw [two_zpow_add]
    norm_num at *
    linarith
  exact (zpow_lt_zpow_iff_right₀ (by norm_num)).mp hBound

theorem div_normal_near (hm : IsNormal m e) (hn : IsNormal n f)
    (hSmall : 1 / 64 ≤ scaled m e / scaled n f) (hLarge : scaled m e / scaled n f < 2 ^ 53) :
    ∃ k g, ∃ hk : IsNormal k g,
      UnpackedFloat.div .binary64 (.finite .positive m e hm.pos) (.finite .positive n f hn.pos) =
        .finite .positive k g hk.pos ∧ Near (scaled k g) (scaled m e / scaled n f) := by
  have hExponent := exponent_quotient hm hn hSmall
  have hTarget : min (e - f)
      (Format.binary64.targetExponent (totalExponent m e - totalExponent n f)) = e - f - 53 := by
    rw [targetExponent_binary64, totalExponent, totalExponent, hm.log2_eq, hn.log2_eq]
    omega
  have hAmount : (e - f - (e - f - 53)).toNat = 53 := by omega
  obtain ⟨k, g, hk, hRound, hNear⟩ := roundWithAccuracy_near
    (accuracyOfFraction (m <<< 53 % n) n) (digits_quotient hm hn) (brackets_quotient hn) hSmall hLarge
  refine ⟨k, g, hk, ?_, hNear⟩
  simp only [UnpackedFloat.div, divCore, hTarget, hAmount]
  exact hRound

/-- A quotient of plain doubles is off by a `2 ^ 52`nd part at most. -/
theorem div_near (hx : IsPlain x) (hn : IsNormal n f)
    (hy : y.toModel.unpack = .finite .positive n f hn.pos)
    (hSmall : value x = 0 ∨ 1 / 64 ≤ value x / value y) (hLarge : value x / value y < 2 ^ 53) :
    IsPlain (x / y) ∧ Near (value (x / y)) (value x / value y) := by
  cases hx with
  | zero hx =>
      have hZero : (x / y).toModel.unpack = .zero .positive := by
        rw [div_toModel, hx, hy]
        show (Float.Model.pack (.zero .positive)).unpack = _
        with_unfolding_all rfl
      rw [value_of_zero hx, zero_div, value_of_zero hZero]
      exact ⟨.zero hZero, near_self (le_refl 0)⟩
  | normal m e hm hx =>
      rw [value_of_finite hx] at hSmall
      rw [value_of_finite hx, value_of_finite hy] at hLarge ⊢
      rw [value_of_finite hy] at hSmall
      obtain ⟨k, g, hk, hDiv, hNear⟩ :=
        div_normal_near hm hn (hSmall.resolve_left (scaled_pos hm.pos).ne') hLarge
      refine isPlain_near hk hNear ?_
      rw [div_toModel, hx, hy, hDiv]

end AriaLocator.Text

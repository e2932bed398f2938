import LoxLang.Proofs.ExactValues

/-!
# Numbers that are too large

A decimal is rounded to infinity if it is not below the point half way between the greatest finite
number, `(2 ^ 53 - 1) * 2 ^ 971`, and `2 ^ 1024`; that point itself is rounded up. The number of a
numeral is finite if and only if its decimal is below that point.
-/

namespace LoxLang
namespace Decimal

/-- The least decimal that is rounded to infinity. -/
def overflowPoint : ℚ := (2 ^ 54 - 1) * 2 ^ (970 : ℤ)

theorem overflowPoint_eq : overflowPoint = (2 ^ 53 - 1 / 2) * 2 ^ (971 : ℤ) := by
  rw [overflowPoint, show (971 : ℤ) = 970 + 1 by norm_num, zpow_add₀ (by norm_num)]
  ring

theorem lt_overflowPoint : (2 : ℚ) ^ (1023 : ℤ) < overflowPoint := by
  rw [overflowPoint_eq, show (1023 : ℤ) = 52 + 971 by norm_num, zpow_add₀ (by norm_num)]
  gcongr
  norm_num

theorem overflowPoint_lt : overflowPoint < 2 ^ (1024 : ℤ) := by
  rw [overflowPoint_eq, show (1024 : ℤ) = 53 + 971 by norm_num, zpow_add₀ (by norm_num)]
  gcongr
  norm_num

theorem overflowPoint_le : overflowPoint ≤ 10 ^ (309 : ℤ) := by
  calc overflowPoint ≤ 2 ^ (1024 : ℤ) := overflowPoint_lt.le
    _ = (2 ^ (10 : ℤ)) ^ (102 : ℤ) * 2 ^ (4 : ℤ) := by
        rw [← zpow_mul, ← zpow_add₀ (by norm_num)]
        norm_num
    _ ≤ (10 ^ (3 : ℤ)) ^ (103 : ℤ) := by norm_num
    _ = 10 ^ (309 : ℤ) := by
        rw [← zpow_mul]
        norm_num

/-! ## Rounding to infinity -/

section Fractions

variable {numerator denominator : ℕ} (positive : 0 < numerator) (positive' : 0 < denominator)
include positive positive'

/-- A fraction is rounded at an exponent at which it has at most 53 bits, and no less unless that is
the least exponent. -/
theorem exists_rounding : ∃ (rounded : ℕ) (exponent : ℤ),
    NearestEven (numerator / denominator / 2 ^ exponent) rounded ∧ -1074 ≤ exponent ∧
    (numerator : ℚ) / denominator < 2 ^ (exponent + 53) ∧
    (exponent = -1074 ∨ (2 : ℚ) ^ (exponent + 52) ≤ numerator / denominator) ∧
    nearestBits numerator denominator =
      min ((exponent + 1074).toNat * 2 ^ 52 + rounded) (2047 * 2 ^ 52) := by
  rcases roundingExponent_spec positive positive' with ⟨found, isFound, low, high⟩
  have least : Binary.leastExponent = -1074 := rfl
  rw [least] at isFound
  refine ⟨_, _, nearestEven_scaleDown numerator positive' (roundingExponent numerator denominator),
    by omega, ?_, ?_, ?_⟩
  · exact high.trans_le (zpow_le_zpow_right₀ (by norm_num) (by omega))
  · rcases max_choice found (-1074) with isMax | isMax
    · exact .inr (by rwa [isFound, isMax])
    · exact .inl (by rw [isFound, isMax])
  · have notZero : (numerator == 0) = false := by simpa using positive.ne'
    simp only [nearestBits, notZero, Bool.false_eq_true, if_false, Binary.fractionBits, least,
      sub_neg_eq_add]

theorem nearestBits_of_lt (small : (numerator : ℚ) / denominator < overflowPoint) :
    nearestBits numerator denominator < 2047 * 2 ^ 52 := by
  rcases exists_rounding positive positive' with
    ⟨rounded, exponent, nearest, least, high, low, isNearest⟩
  have power : (0 : ℚ) < 2 ^ exponent := by positivity
  have notLarge : exponent ≤ 971 := by
    rcases low with isLeast | low
    · omega
    · have := (zpow_lt_zpow_iff_right₀ (by norm_num : (1 : ℚ) < 2)).mp
        (low.trans_lt (small.trans overflowPoint_lt))
      omega
  rw [isNearest, min_lt_iff]
  left
  rcases eq_or_lt_of_le notLarge with isTop | belowTop
  · have isBelow : rounded < 2 ^ 53 := by
      refine nearest.lt ?_
      rw [div_lt_iff₀ power, isTop]
      rw [overflowPoint_eq] at small
      exact_mod_cast small
    omega
  · have atMost : rounded < 2 ^ 53 + 1 := by
      refine nearest.lt ?_
      rw [show exponent + 53 = exponent + (53 : ℕ) by rfl, two_zpow_add,
        ← div_lt_iff₀ power] at high
      push_cast
      linarith
    omega

theorem nearestBits_of_ge (large : overflowPoint ≤ (numerator : ℚ) / denominator) :
    nearestBits numerator denominator = 2047 * 2 ^ 52 := by
  rcases exists_rounding positive positive' with
    ⟨rounded, exponent, nearest, least, high, low, isNearest⟩
  have power : (0 : ℚ) < 2 ^ exponent := by positivity
  have notSmall : (1023 : ℤ) < exponent + 53 :=
    (zpow_lt_zpow_iff_right₀ (by norm_num : (1 : ℚ) < 2)).mp
      (lt_overflowPoint.trans (large.trans_lt high))
  rw [isNearest, min_eq_right_iff]
  rcases eq_or_lt_of_le (show 971 ≤ exponent by omega) with isTop | aboveTop
  · have atLeast : 2 ^ 53 ≤ rounded := by
      refine nearest.le (by norm_num) ?_
      rw [le_div_iff₀ power, ← isTop]
      rw [overflowPoint_eq] at large
      exact_mod_cast large
    omega
  · have atLeast : 2 ^ 52 ≤ rounded := by
      refine nearest.le (by norm_num) ?_
      have isLow := low.resolve_left (by omega)
      rw [show exponent + 52 = exponent + (52 : ℕ) by rfl, two_zpow_add,
        ← le_div_iff₀ power] at isLow
      push_cast
      linarith
    omega

/-- A fraction is rounded to a finite number if and only if it is below the point of overflow. -/
theorem nearestBits_lt_iff :
    nearestBits numerator denominator < 2047 * 2 ^ 52 ↔
      (numerator : ℚ) / denominator < overflowPoint := by
  refine ⟨fun finite => ?_, nearestBits_of_lt positive positive'⟩
  by_contra large
  rw [nearestBits_of_ge positive positive' (not_lt.mp large)] at finite
  exact lt_irrefl _ finite

end Fractions

/-! ## Numerals -/

theorem isFinite_ofBits_iff {bits : ℕ} (small : bits ≤ 2047 * 2 ^ 52) :
    (Float.ofBits (UInt64.ofNat bits)).isFinite = true ↔ bits < 2047 * 2 ^ 52 := by
  refine ⟨lt_of_isFinite small, fun finite => ?_⟩
  rcases ofBits_of_lt finite with ⟨significand, exponent, isContent, -⟩
  rw [← toBits_ofBits small] at isContent
  have isFloor := Binary.floor_ofFloat (Float.ofBits (UInt64.ofNat bits))
  rw [Binary.ofFloat, isContent] at isFloor
  rw [← isSome_exactValue, Option.isSome_iff_exists]
  rcases Option.map_eq_some_iff.mp isFloor.symm with ⟨value, isValue, -⟩
  exact ⟨value, isValue⟩

theorem isFinite_nearest_iff (numerator : ℕ) {denominator : ℕ} (positive : 0 < denominator) :
    (nearest false numerator denominator).isFinite = true ↔
      (numerator : ℚ) / denominator < overflowPoint := by
  have isNearest : nearest false numerator denominator =
      Float.ofBits (UInt64.ofNat (nearestBits numerator denominator)) := by
    simp [nearest]
  rw [isNearest, isFinite_ofBits_iff (nearestBits_le numerator denominator)]
  rcases Nat.eq_zero_or_pos numerator with rfl | someDigits
  · have isZero : nearestBits 0 denominator = 0 := rfl
    have point : 0 < overflowPoint := lt_trans (by positivity) lt_overflowPoint
    simp [isZero, point]
  · exact nearestBits_lt_iff someDigits positive

-- The power is that of the core library, as in the definition of reading.
attribute [local instance (high)] instPowNat in
theorem not_isFinite_nearest_two_pow {exponent : ℕ} (large : 1024 ≤ exponent) :
    ¬ (nearest false (2 ^ exponent) 1).isFinite = true := by
  rw [isFinite_nearest_iff _ one_pos, not_lt, Nat.cast_one, div_one]
  calc overflowPoint ≤ 2 ^ (1024 : ℤ) := overflowPoint_lt.le
    _ ≤ 2 ^ (exponent : ℤ) := zpow_le_zpow_right₀ one_le_two (by exact_mod_cast large)
    _ = ((2 ^ exponent : ℕ) : ℚ) := by
        rw [zpow_natCast]
        exact (Nat.cast_pow 2 exponent).symm

/-- Decimals at whose digits nobody looks are far from the point of overflow. -/
theorem magnitude_of_far {digits : List Char} {scale : ℤ}
    (areDigits : ∀ digit ∈ digits, digit.isDigit) (positive : 0 < digitsValue digits) :
    let magnitude := scale + (digits.dropWhile (· == '0')).length
    (magnitude < -400 → (digitsValue digits : ℚ) * 10 ^ scale < overflowPoint) ∧
      (400 < magnitude → overflowPoint ≤ (digitsValue digits : ℚ) * 10 ^ scale) := by
  intro magnitude
  rcases digitsValue_bounds areDigits positive with ⟨low, high⟩
  have power : (0 : ℚ) < 10 ^ scale := by positivity
  constructor
  · intro small
    calc (digitsValue digits : ℚ) * 10 ^ scale
        < 10 ^ ((digits.dropWhile (· == '0')).length : ℤ) * 10 ^ scale := by gcongr
      _ = 10 ^ magnitude := by rw [← zpow_add₀ (by norm_num), add_comm]
      _ ≤ 10 ^ (0 : ℤ) := zpow_le_zpow_right₀ (by norm_num) (by omega)
      _ ≤ 2 ^ (1023 : ℤ) := by
          rw [zpow_zero]
          exact one_le_zpow₀ (by norm_num) (by norm_num)
      _ ≤ overflowPoint := lt_overflowPoint.le
  · intro large
    calc overflowPoint ≤ 10 ^ (309 : ℤ) := overflowPoint_le
      _ ≤ 10 ^ (((digits.dropWhile (· == '0')).length - 1 : ℤ) + scale) :=
          zpow_le_zpow_right₀ (by norm_num) (by omega)
      _ = 10 ^ ((digits.dropWhile (· == '0')).length - 1 : ℤ) * 10 ^ scale :=
          zpow_add₀ (by norm_num) _ _
      _ ≤ (digitsValue digits : ℚ) * 10 ^ scale := by gcongr

/-- A decimal is read as a finite number if and only if it is below the point of overflow. -/
theorem isFinite_ofDigits_iff {digits : List Char} {scale : ℤ}
    (areDigits : ∀ digit ∈ digits, digit.isDigit) :
    (ofDigits false digits scale).isFinite = true ↔
      (digitsValue digits : ℚ) * 10 ^ scale < overflowPoint := by
  have zeroFinite := isFinite_nearest_iff 0 one_pos
  have point : 0 < overflowPoint := lt_trans (by positivity) lt_overflowPoint
  rw [Nat.cast_zero, zero_div, iff_true_right point] at zeroFinite
  rcases Nat.eq_zero_or_pos (digitsValue digits) with isZero | positive
  · simp [ofDigits, isZero, zeroFinite, point]
  rcases magnitude_of_far areDigits positive with ⟨isSmall, isLarge⟩
  have notZero : (digitsValue digits == 0) = false := by simpa using positive.ne'
  simp only [ofDigits, notZero, Bool.false_or, decide_eq_true_eq]
  split
  · next small => exact iff_of_true zeroFinite (isSmall small)
  split
  · next large =>
      exact iff_of_false (@not_isFinite_nearest_two_pow 2000 (by norm_num))
        (not_lt.mpr (isLarge large))
  split
  · next nonnegative =>
      rcases Int.eq_ofNat_of_zero_le nonnegative with ⟨count, rfl⟩
      rw [isFinite_nearest_iff _ one_pos]
      simp
  · next negative =>
      rcases Int.eq_ofNat_of_zero_le (show 0 ≤ -scale by omega) with ⟨count, isCount⟩
      rw [isFinite_nearest_iff _ (by positivity), isCount, show scale = -(count : ℤ) by omega,
        zpow_neg, ← div_eq_mul_inv]
      simp

end Decimal
end LoxLang

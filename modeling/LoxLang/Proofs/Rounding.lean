import Mathlib
import LoxLang.Decimal.Shortest

/-!
# Rounding is inverse to writing

The shortest decimal of a number lies in the interval of the decimals that are nearer to it than to
any other number, and rounding a decimal of that interval gives the number back.
-/

namespace LoxLang
namespace Decimal

/-! ## Rounding a quotient -/

/-- `NearestEven ratio number` says that a number is at most a half away from a ratio, and is even
if it is exactly a half away. -/
structure NearestEven (ratio : ℚ) (number : ℕ) : Prop where
  low : (number : ℚ) - 1 / 2 ≤ ratio
  high : ratio ≤ number + 1 / 2
  tie : number % 2 = 1 → (number : ℚ) - 1 / 2 < ratio ∧ ratio < number + 1 / 2

namespace NearestEven

variable {ratio : ℚ} {number other : ℕ}

/-- An even number that is at most a half above the ratio is not above the nearest one. -/
theorem le (nearest : NearestEven ratio number) (even : other % 2 = 0)
    (low : (other : ℚ) - 1 / 2 ≤ ratio) : other ≤ number := by
  by_contra less
  have below : (number : ℚ) + 1 ≤ other := by exact_mod_cast not_le.mp less
  have high := nearest.high
  have isNext : other = number + 1 := by exact_mod_cast (by linarith : (other : ℚ) = number + 1)
  have strict := (nearest.tie (by omega)).2
  linarith

/-- A number that is more than a half above the ratio is above the nearest one. -/
theorem lt (nearest : NearestEven ratio number) (high : ratio < other - 1 / 2) :
    number < other := by
  have low := nearest.low
  exact_mod_cast (by linarith : (number : ℚ) < other)

/-- There is only one nearest number: of two neighbours, one is odd and cannot be a half away. -/
theorem unique (first : NearestEven ratio number) (second : NearestEven ratio other) :
    number = other := by
  have noSmaller : ∀ {smaller larger : ℕ}, NearestEven ratio smaller → NearestEven ratio larger →
      ¬ smaller < larger := by
    intro smaller larger isSmaller isLarger less
    have below : (smaller : ℚ) + 1 ≤ larger := by exact_mod_cast less
    have high := isSmaller.high
    have low := isLarger.low
    have isNext : larger = smaller + 1 := by
      exact_mod_cast (by linarith : (larger : ℚ) = smaller + 1)
    rcases Nat.mod_two_eq_zero_or_one larger with even | odd
    · have strict := (isSmaller.tie (by omega)).2
      linarith
    · have strict := (isLarger.tie odd).1
      linarith
  exact le_antisymm (not_lt.mp (noSmaller second first)) (not_lt.mp (noSmaller first second))

end NearestEven

/-- A quotient is rounded to the nearest number. -/
theorem nearestEven_divideToEven (numerator : ℕ) {denominator : ℕ} (positive : 0 < denominator) :
    NearestEven (numerator / denominator) (divideToEven numerator denominator) := by
  have positive' : (0 : ℚ) < denominator := by exact_mod_cast positive
  have division := Nat.div_add_mod numerator denominator
  have remainder := Nat.mod_lt numerator positive
  unfold divideToEven
  set quotient := numerator / denominator
  set rest := numerator % denominator
  have isRatio : (numerator : ℚ) / denominator = quotient + rest / denominator := by
    rw [← division, Nat.cast_add, Nat.cast_mul, add_div, mul_div_cancel_left₀ _ positive'.ne']
  have isLarge : denominator < 2 * rest ↔ (1 / 2 : ℚ) < rest / denominator := by
    rw [lt_div_iff₀ positive', ← Nat.cast_lt (α := ℚ), Nat.cast_mul, Nat.cast_ofNat]
    constructor <;> intro large <;> linarith
  have isHalf : 2 * rest = denominator ↔ (rest / denominator : ℚ) = 1 / 2 := by
    rw [div_eq_iff positive'.ne', ← Nat.cast_inj (R := ℚ), Nat.cast_mul, Nat.cast_ofNat]
    constructor <;> intro half <;> linarith
  have notNegative : (0 : ℚ) ≤ rest / denominator := by positivity
  have belowOne : (rest / denominator : ℚ) < 1 := by
    rw [div_lt_one positive']
    exact_mod_cast remainder
  simp only [Bool.or_eq_true, decide_eq_true_eq, Bool.and_eq_true, beq_iff_eq, isLarge, isHalf]
  rw [isRatio]
  generalize (rest / denominator : ℚ) = fraction at *
  split
  · next isUp =>
      have atLeast : 1 / 2 ≤ fraction := isUp.elim le_of_lt fun isTie => isTie.1.ge
      refine ⟨?_, ?_, fun odd => ?_⟩ <;> push_cast
      · linarith
      · linarith
      · have large : 1 / 2 < fraction := isUp.resolve_right fun isTie => by omega
        constructor <;> linarith
  · next notUp =>
      rw [not_or, not_lt] at notUp
      refine ⟨?_, ?_, fun odd => ?_⟩
      · linarith
      · linarith
      · have small : fraction < 1 / 2 := lt_of_le_of_ne notUp.1 fun half => notUp.2 ⟨half, odd⟩
        constructor <;> linarith

theorem scaleDown_positive {numerator denominator : ℕ} (positive : 0 < denominator)
    (exponent : ℤ) : 0 < (scaleDown numerator denominator exponent).2 := by
  unfold scaleDown
  split
  · positivity
  · exact positive

theorem scaleDown_ratio (numerator denominator : ℕ) (exponent : ℤ) :
    ((scaleDown numerator denominator exponent).1 : ℚ) /
    (scaleDown numerator denominator exponent).2 =
      numerator / denominator / 2 ^ exponent := by
  unfold scaleDown
  split
  · next nonnegative =>
      rcases Int.eq_ofNat_of_zero_le nonnegative with ⟨size, rfl⟩
      simp [div_div]
  · next negative =>
      have isNegative : exponent = -((-exponent).toNat : ℤ) := by omega
      set size := (-exponent).toNat
      rw [isNegative]
      simp only [zpow_neg, zpow_natCast, div_inv_eq_mul]
      push_cast
      ring

/-- A fraction is rounded at an exponent to the number of units that is nearest. -/
theorem nearestEven_scaleDown (numerator : ℕ) {denominator : ℕ} (positive : 0 < denominator)
    (exponent : ℤ) :
    NearestEven (numerator / denominator / 2 ^ exponent)
      (divideToEven (scaleDown numerator denominator exponent).1
        (scaleDown numerator denominator exponent).2) := by
  rw [← scaleDown_ratio]
  exact nearestEven_divideToEven _ (scaleDown_positive positive exponent)

/-! ## Rounding a fraction -/

/-- The exponent for rounding, but for the limit from below, is one at which the fraction has 53
bits. -/
theorem roundingExponent_spec {numerator denominator : ℕ} (positive : 0 < numerator)
    (positive' : 0 < denominator) :
    ∃ found, roundingExponent numerator denominator = max found Binary.leastExponent ∧
      (2 : ℚ) ^ (found + 52) ≤ numerator / denominator ∧
      (numerator : ℚ) / denominator < 2 ^ (found + 53) := by
  have denominatorPositive : (0 : ℚ) < denominator := by exact_mod_cast positive'
  have numeratorLow : (2 : ℚ) ^ (numerator.log2 : ℤ) ≤ numerator := by
    exact_mod_cast Nat.log2_self_le (by omega)
  have numeratorHigh : (numerator : ℚ) < 2 ^ ((numerator.log2 : ℤ) + 1) := by
    exact_mod_cast Nat.lt_log2_self
  have denominatorLow : (2 : ℚ) ^ (denominator.log2 : ℤ) ≤ denominator := by
    exact_mod_cast Nat.log2_self_le (by omega)
  have denominatorHigh : (denominator : ℚ) < 2 ^ ((denominator.log2 : ℤ) + 1) := by
    exact_mod_cast Nat.lt_log2_self
  set estimate : ℤ := (numerator.log2 : ℤ) - denominator.log2 - 53 with isEstimate
  -- At the estimate the fraction has 53 or 54 bits, and the quotient tells which.
  have low : (2 : ℚ) ^ (estimate + 52) < numerator / denominator := by
    rw [lt_div_iff₀ denominatorPositive]
    calc (2 : ℚ) ^ (estimate + 52) * denominator
        < 2 ^ (estimate + 52) * 2 ^ ((denominator.log2 : ℤ) + 1) := by gcongr
      _ = 2 ^ (numerator.log2 : ℤ) := by
          rw [← zpow_add₀ (by norm_num)]
          congr 1
          omega
      _ ≤ numerator := numeratorLow
  have high : (numerator : ℚ) / denominator < 2 ^ (estimate + 54) := by
    rw [div_lt_iff₀ denominatorPositive]
    calc (numerator : ℚ) < 2 ^ ((numerator.log2 : ℤ) + 1) := numeratorHigh
      _ = 2 ^ (estimate + 54) * 2 ^ (denominator.log2 : ℤ) := by
          rw [← zpow_add₀ (by norm_num)]
          congr 1
          omega
      _ ≤ 2 ^ (estimate + 54) * denominator := by gcongr
  have scaledPositive : 0 < (scaleDown numerator denominator estimate).2 :=
    scaleDown_positive positive' estimate
  have test : (scaleDown numerator denominator estimate).1 /
    (scaleDown numerator denominator estimate).2
      < 2 ^ 53 ↔ (numerator : ℚ) / denominator < 2 ^ (estimate + 53) := by
    have scaledPositive' : (0 : ℚ) < (scaleDown numerator denominator estimate).2 := by
      exact_mod_cast scaledPositive
    rw [Nat.div_lt_iff_lt_mul scaledPositive, ← Nat.cast_lt (α := ℚ), Nat.cast_mul,
      ← div_lt_iff₀ scaledPositive', scaleDown_ratio, div_lt_iff₀ (by positivity),
      add_comm estimate, zpow_add₀ (by norm_num)]
    norm_cast
  by_cases small : (numerator : ℚ) / denominator < 2 ^ (estimate + 53)
  · refine ⟨estimate, ?_, low.le, small⟩
    simp only [roundingExponent, ← isEstimate, if_pos (test.mpr small)]
  · refine ⟨estimate + 1, ?_, ?_, ?_⟩
    · simp only [roundingExponent, ← isEstimate, if_neg (mt test.mp small)]
    · rw [show estimate + 1 + 52 = estimate + 53 by omega]
      exact not_lt.mp small
    · rw [show estimate + 1 + 53 = estimate + 54 by omega]
      exact high

/-- The exponent for rounding is the one at which the fraction has 53 bits, or the least one. -/
theorem roundingExponent_eq {numerator denominator : ℕ} {exponent : ℤ} (positive : 0 < numerator)
    (positive' : 0 < denominator) (least : Binary.leastExponent ≤ exponent)
    (below : (numerator : ℚ) / denominator < 2 ^ (exponent + 53))
    (above : exponent = Binary.leastExponent ∨
      (2 : ℚ) ^ (exponent + 52) ≤ numerator / denominator) :
    roundingExponent numerator denominator = exponent := by
  rcases roundingExponent_spec positive positive' with ⟨found, isFound, foundLow, foundHigh⟩
  have notAbove : found + 52 < exponent + 53 :=
    (zpow_lt_zpow_iff_right₀ (by norm_num)).mp (foundLow.trans_lt below)
  rw [isFound]
  rcases above with isLeast | above
  · omega
  · have notBelow : exponent + 52 < found + 53 :=
      (zpow_lt_zpow_iff_right₀ (by norm_num)).mp (above.trans_lt foundHigh)
    omega

/-- The significands and exponents of the positive finite numbers. -/
structure Binary.Canonical (significand : ℕ) (exponent : ℤ) : Prop where
  positive : 0 < significand
  fits : significand < 2 ^ 53
  least : Binary.leastExponent ≤ exponent
  greatest : exponent ≤ 971
  normal : exponent = Binary.leastExponent ∨ 2 ^ 52 ≤ significand

/-- The bits of a positive finite number. -/
def Binary.bits (significand : ℕ) (exponent : ℤ) : ℕ :=
  (exponent - Binary.leastExponent).toNat * 2 ^ 52 + significand

/-- Whether a rational number lies in an interval. -/
def Rounding.Holds (interval : Rounding) (number : ℚ) : Prop :=
  interval.low * 2 ^ interval.exponent ≤ number ∧ number ≤ interval.high * 2 ^ interval.exponent ∧
    (interval.closed = false → interval.low * 2 ^ interval.exponent < number ∧
      number < interval.high * 2 ^ interval.exponent)

/-- A fraction whose number of bits is known is rounded to the significand that is nearest. -/
theorem nearestBits_of_exponent {numerator denominator number : ℕ} {exponent : ℤ}
    (positive : 0 < numerator) (positive' : 0 < denominator)
    (least : Binary.leastExponent ≤ exponent) (greatest : exponent ≤ 971)
    (below : (numerator : ℚ) / denominator < 2 ^ (exponent + 53))
    (above : exponent = Binary.leastExponent ∨ (2 : ℚ) ^ (exponent + 52) ≤ numerator / denominator)
    (low : (number - 1 / 2 : ℚ) * 2 ^ exponent ≤ numerator / denominator)
    (high : (numerator : ℚ) / denominator ≤ (number + 1 / 2) * 2 ^ exponent)
    (tie : number % 2 = 1 → (number - 1 / 2 : ℚ) * 2 ^ exponent < numerator / denominator ∧
      (numerator : ℚ) / denominator < (number + 1 / 2) * 2 ^ exponent)
    (fits : number ≤ 2 ^ 53) : nearestBits numerator denominator = Binary.bits number exponent := by
  have power : (0 : ℚ) < 2 ^ exponent := by positivity
  have isNearest : NearestEven (numerator / denominator / 2 ^ exponent) number := by
    refine ⟨?_, ?_, ?_⟩
    · rwa [le_div_iff₀ power]
    · rwa [div_le_iff₀ power]
    · rwa [lt_div_iff₀ power, div_lt_iff₀ power]
  have rounded := (nearestEven_scaleDown numerator positive' exponent).unique isNearest
  have isExponent := roundingExponent_eq positive positive' least below above
  have notZero : (numerator == 0) = false := by simpa using positive.ne'
  simp only [nearestBits, notZero, Bool.false_eq_true, if_false, isExponent, rounded, Binary.bits,
    Binary.fractionBits]
  apply min_eq_left
  simp only [Binary.leastExponent] at least ⊢
  omega

/-- The lower end of the interval around a number is half way to the number below, and only a
quarter of the way where the numbers below lie twice as dense. -/
theorem Rounding.around_low {significand : ℕ} (positive : 0 < significand) (exponent : ℤ) :
    ((around significand exponent).low : ℚ) =
      if significand = 2 ^ 52 ∧ Binary.leastExponent < exponent then 4 * (significand - 1 / 4 : ℚ)
      else 4 * (significand - 1 / 2 : ℚ) := by
  simp only [around, Binary.fractionBits, Bool.and_eq_true, beq_iff_eq, decide_eq_true_eq]
  split
  · rw [Nat.cast_sub (by omega)]
    push_cast
    ring
  · rw [Nat.cast_sub (by omega)]
    push_cast
    ring

theorem two_zpow_add (exponent : ℤ) (count : ℕ) :
    (2 : ℚ) ^ (exponent + count) = 2 ^ count * 2 ^ exponent := by
  rw [zpow_add₀ (by norm_num), zpow_natCast, mul_comm]

/-- A fraction that is nearest to a power of two and below it has one bit more than the power, and
is rounded up to it. -/
theorem nearestBits_of_belowPower {numerator denominator : ℕ} {exponent : ℤ}
    (positive : 0 < numerator) (positive' : 0 < denominator)
    (notLeast : Binary.leastExponent < exponent) (greatest : exponent ≤ 971)
    (low : (2 ^ 52 - 1 / 4 : ℚ) * 2 ^ exponent ≤ numerator / denominator)
    (small : (numerator : ℚ) / denominator < 2 ^ 52 * 2 ^ exponent) :
    nearestBits numerator denominator = Binary.bits (2 ^ 52) exponent := by
  have power : (0 : ℚ) < 2 ^ exponent := by positivity
  have half : (2 : ℚ) ^ (exponent - 1) = 2 ^ exponent / 2 := by
    rw [zpow_sub₀ (by norm_num)]
    norm_num
  have sameBits : Binary.bits (2 ^ 52) exponent = Binary.bits (2 ^ 53) (exponent - 1) := by
    simp only [Binary.bits, Binary.leastExponent] at notLeast ⊢
    omega
  rw [sameBits]
  apply nearestBits_of_exponent positive positive' (by omega) (by omega)
  · rw [show exponent - 1 + 53 = exponent + (52 : ℕ) by omega, two_zpow_add]
    exact small
  · right
    rw [show exponent - 1 + 52 = exponent + (51 : ℕ) by omega, two_zpow_add]
    linarith
  · rw [half]
    push_cast
    linarith
  · rw [half]
    push_cast
    linarith
  · intro odd
    omega
  · exact le_refl _

/-- What is at most half a unit below a number is not below the least number that has all bits with
the same exponent, unless the number is that least one. -/
theorem Binary.Canonical.le_of_half {significand : ℕ} {exponent : ℤ} {number : ℚ}
    (canonical : Binary.Canonical significand exponent) (notLeast : Binary.leastExponent < exponent)
    (low : (significand - 1 / 2 : ℚ) * 2 ^ exponent ≤ number)
    (notBelow : significand = 2 ^ 52 → 2 ^ 52 * 2 ^ exponent ≤ number) :
    (2 : ℚ) ^ 52 * 2 ^ exponent ≤ number := by
  have large : 2 ^ 52 ≤ significand := canonical.normal.resolve_left notLeast.ne'
  rcases large.eq_or_lt with isPower | larger
  · exact notBelow isPower.symm
  · have larger' : (2 ^ 52 + 1 : ℚ) ≤ significand := by exact_mod_cast larger
    calc (2 : ℚ) ^ 52 * 2 ^ exponent ≤ (significand - 1 / 2) * 2 ^ exponent := by
          gcongr
          linarith
      _ ≤ number := low

/-- A fraction that is at most half a unit away from a number is rounded to it, unless it is below a
power of two. -/
theorem nearestBits_of_half {significand : ℕ} {exponent : ℤ}
    (canonical : Binary.Canonical significand exponent) {numerator denominator : ℕ}
    (positive : 0 < numerator) (positive' : 0 < denominator)
    (notBelow : significand = 2 ^ 52 → Binary.leastExponent < exponent →
      (2 : ℚ) ^ 52 * 2 ^ exponent ≤ numerator / denominator)
    (low : (significand - 1 / 2 : ℚ) * 2 ^ exponent ≤ numerator / denominator)
    (high : (numerator : ℚ) / denominator ≤ (significand + 1 / 2) * 2 ^ exponent)
    (tie : significand % 2 = 1 →
      (significand - 1 / 2 : ℚ) * 2 ^ exponent < numerator / denominator ∧
        (numerator : ℚ) / denominator < (significand + 1 / 2) * 2 ^ exponent) :
    nearestBits numerator denominator = Binary.bits significand exponent := by
  have fits : (significand : ℚ) + 1 ≤ 2 ^ 53 := by exact_mod_cast canonical.fits
  apply nearestBits_of_exponent positive positive' canonical.least canonical.greatest
  · rw [show exponent + 53 = exponent + (53 : ℕ) by rfl, two_zpow_add]
    calc (numerator : ℚ) / denominator ≤ (significand + 1 / 2) * 2 ^ exponent := high
      _ < 2 ^ 53 * 2 ^ exponent := by
          gcongr
          linarith
  · rcases canonical.least.eq_or_lt with isLeast | notLeast
    · exact .inl isLeast.symm
    · right
      rw [show exponent + 52 = exponent + (52 : ℕ) by rfl, two_zpow_add]
      exact canonical.le_of_half notLeast low fun isPower => notBelow isPower notLeast
  · exact low
  · exact high
  · exact tie
  · exact canonical.fits.le

/-- The decimals of the interval around a number are rounded to that number. -/
theorem nearestBits_eq {significand : ℕ} {exponent : ℤ}
    (canonical : Binary.Canonical significand exponent) {numerator denominator : ℕ}
    (positive : 0 < numerator) (positive' : 0 < denominator)
    (holds : (Rounding.around significand exponent).Holds (numerator / denominator)) :
    nearestBits numerator denominator = Binary.bits significand exponent := by
  rcases holds with ⟨low, high, strict⟩
  rw [Rounding.around_low canonical.positive] at low strict
  have power : (0 : ℚ) < 2 ^ exponent := by positivity
  have quarter : (2 : ℚ) ^ (exponent - 2) = 2 ^ exponent / 4 := by
    rw [zpow_sub₀ (by norm_num)]
    norm_num
  simp only [Rounding.around, quarter, Nat.cast_add, Nat.cast_mul, Nat.cast_ofNat]
    at low high strict
  by_cases carries : (significand = 2 ^ 52 ∧ Binary.leastExponent < exponent) ∧
      (numerator : ℚ) / denominator < 2 ^ 52 * 2 ^ exponent
  · rcases carries with ⟨⟨rfl, notLeast⟩, small⟩
    rw [if_pos ⟨rfl, notLeast⟩] at low
    push_cast at low
    exact nearestBits_of_belowPower positive positive' notLeast canonical.greatest (by linarith)
      small
  · apply nearestBits_of_half canonical positive positive'
    · intro isPower notLeast
      exact not_lt.mp fun small => carries ⟨⟨isPower, notLeast⟩, small⟩
    · split at low <;> linarith
    · linarith
    · intro odd
      have isOpen : (significand % 2 == 0) = false := by simp [odd]
      rcases strict isOpen with ⟨strictLow, strictHigh⟩
      split at strictLow
      · next isPower => omega
      · constructor <;> linarith

/-! ## The shortest decimal -/

namespace Rounding

/-- An interval and a grid have a common unit. -/
theorem exists_unit (interval : Rounding) (grid : ℤ) :
    ∃ unit : ℚ, 0 < unit ∧ (interval.binaryUnit grid : ℚ) = unit * 2 ^ interval.exponent ∧
      (interval.decimalUnit grid : ℚ) = unit * 10 ^ grid := by
  have split : ∀ base : ℚ, base ≠ 0 → ∀ exponent : ℤ,
      base ^ exponent.toNat = base ^ (-exponent).toNat * base ^ exponent := by
    intro base notZero exponent
    rw [← zpow_natCast, ← zpow_natCast, ← zpow_add₀ notZero]
    congr 1
    omega
  refine ⟨2 ^ (-interval.exponent).toNat * 10 ^ (-grid).toNat, by positivity, ?_, ?_⟩
  · simp only [binaryUnit, Nat.cast_mul, Nat.cast_pow, Nat.cast_ofNat]
    rw [split 2 (by norm_num)]
    ring
  · simp only [decimalUnit, Nat.cast_mul, Nat.cast_pow, Nat.cast_ofNat]
    rw [split 10 (by norm_num) grid]
    ring

theorem holds_of_contains {interval : Rounding} {grid : ℤ} {digits : ℕ}
    (contained : interval.contains grid digits = true) : interval.Holds (digits * 10 ^ grid) := by
  rcases interval.exists_unit grid with ⟨unit, positive, binary, decimal⟩
  have isBinary : ∀ number : ℕ, ((number * interval.binaryUnit grid : ℕ) : ℚ) =
      unit * (number * 2 ^ interval.exponent) := by
    intro number
    rw [Nat.cast_mul, binary]
    ring
  have isDecimal : ((digits * interval.decimalUnit grid : ℕ) : ℚ) =
    unit * (digits * 10 ^ grid) := by
    rw [Nat.cast_mul, decimal]
    ring
  unfold contains at contained
  cases isClosed : interval.closed with
  | true =>
      simp only [isClosed, if_true, Bool.and_eq_true, decide_eq_true_eq] at contained
      rw [← Nat.cast_le (α := ℚ), ← Nat.cast_le (α := ℚ), isBinary, isBinary, isDecimal,
        mul_le_mul_iff_right₀ positive, mul_le_mul_iff_right₀ positive] at contained
      exact ⟨contained.1, contained.2, by simp [isClosed]⟩
  | false =>
      simp only [isClosed, Bool.false_eq_true, if_false, Bool.and_eq_true, decide_eq_true_eq]
        at contained
      rw [← Nat.cast_lt (α := ℚ), ← Nat.cast_lt (α := ℚ), isBinary, isBinary, isDecimal,
        mul_lt_mul_iff_right₀ positive, mul_lt_mul_iff_right₀ positive] at contained
      exact ⟨contained.1.le, contained.2.le, fun _ => contained⟩

/-- A point that is chosen on a grid lies in the interval. -/
theorem contains_of_nearestOn {interval : Rounding} {grid : ℤ} {digits : ℕ}
    (chosen : interval.nearestOn? grid = some digits) : interval.contains grid digits = true := by
  unfold nearestOn? at chosen
  dsimp only at chosen
  split at chosen
  · simp at chosen
  · next first second => rwa [← Option.some.inj chosen]
  · next first second => rwa [← Option.some.inj chosen]
  · next first second =>
      rw [← Option.some.inj chosen]
      unfold divideToEven
      dsimp only
      split
      · exact second
      · exact first

/-- A grid that is finer than the upper half of the interval has a point in it. -/
theorem nearestOn_of_fine {interval : Rounding} {grid : ℤ} (low : interval.low < interval.value)
    (high : interval.value + 2 ≤ interval.high)
    (fine : (10 : ℚ) ^ grid < 2 * 2 ^ interval.exponent) :
    ∃ digits, interval.nearestOn? grid = some digits := by
  rcases interval.exists_unit grid with ⟨unit, positive, binary, decimal⟩
  set below := interval.value * interval.binaryUnit grid / interval.decimalUnit grid with isBelow
  have unitPositive : 0 < interval.decimalUnit grid := by
    simp only [decimalUnit]
    positivity
  have binaryPositive : 0 < interval.binaryUnit grid := by
    simp only [binaryUnit]
    positivity
  have lowerPoint : below * interval.decimalUnit grid ≤ interval.value * interval.binaryUnit grid :=
    Nat.div_mul_le_self _ _
  have upperPoint : interval.value * interval.binaryUnit grid <
      (below + 1) * interval.decimalUnit grid := by
    rw [mul_comm (below + 1)]
    exact Nat.lt_mul_div_succ _ unitPositive
  have finer : interval.decimalUnit grid < 2 * interval.binaryUnit grid := by
    have scaled : (interval.decimalUnit grid : ℚ) < 2 * interval.binaryUnit grid := by
      rw [binary, decimal]
      nlinarith
    exact_mod_cast scaled
  have isInside : interval.contains grid (below + 1) = true := by
    have above : interval.low * interval.binaryUnit grid <
        (below + 1) * interval.decimalUnit grid := by nlinarith
    have under : (below + 1) * interval.decimalUnit grid <
        interval.high * interval.binaryUnit grid := by nlinarith
    unfold contains
    split
    · simp [above.le, under.le]
    · simp [above, under]
  unfold nearestOn?
  dsimp only
  split
  · next first second => exact absurd second (by simp [← isBelow, isInside])
  · exact ⟨_, rfl⟩
  · exact ⟨_, rfl⟩
  · exact ⟨_, rfl⟩

/-- The search for a grid ends with a point of the interval if one of the grids is fine enough. -/
theorem holds_shortestFrom {interval : Rounding} (low : interval.low < interval.value)
    (high : interval.value + 2 ≤ interval.high) (fuel : ℕ) (grid : ℤ)
    (fine : (10 : ℚ) ^ (grid - fuel) < 2 * 2 ^ interval.exponent) :
    interval.Holds ((interval.shortestFrom grid (fuel + 1)).digits *
      10 ^ (interval.shortestFrom grid (fuel + 1)).exponent) := by
  induction fuel generalizing grid with
  | zero =>
      rcases nearestOn_of_fine low high (by simpa using fine) with ⟨digits, chosen⟩
      simp only [shortestFrom, chosen]
      exact holds_of_contains (contains_of_nearestOn chosen)
  | succ fuel ih =>
      rw [shortestFrom]
      cases chosen : interval.nearestOn? grid with
      | some digits => exact holds_of_contains (contains_of_nearestOn chosen)
      | none =>
          apply ih
          rw [show grid - 1 - (fuel : ℤ) = grid - ((fuel + 1 : ℕ) : ℤ) by omega]
          exact fine

end Rounding

/-- A power of ten with the decimal exponent of a power of two is nearly as large as that power. The
two cases compare `10 ^ 3` with `2 ^ 10` and `10 ^ 13` with `2 ^ 43`. -/
theorem ten_pow_le {binary decimal : ℤ} (low : -1080 ≤ binary) (high : binary ≤ 1030)
    (close : 100000 * decimal ≤ 30103 * binary) : (10 : ℚ) ^ decimal ≤ 2 ^ (binary + 5) := by
  rcases le_or_gt 0 decimal with nonnegative | negative
  · have cubes : ((10 : ℚ) ^ decimal) ^ (3 : ℕ) ≤ (2 ^ (binary + 5)) ^ (3 : ℕ) := by
      rw [← zpow_natCast, ← zpow_natCast, ← zpow_mul, ← zpow_mul]
      calc (10 : ℚ) ^ (decimal * (3 : ℕ)) = ((10 : ℚ) ^ (3 : ℤ)) ^ decimal := by
            rw [← zpow_mul, mul_comm]
            rfl
        _ ≤ ((2 : ℚ) ^ (10 : ℤ)) ^ decimal := by
            apply zpow_le_zpow_left₀ nonnegative (by positivity)
            norm_num
        _ = 2 ^ (10 * decimal) := by rw [← zpow_mul]
        _ ≤ 2 ^ ((binary + 5) * (3 : ℕ)) := by
            apply zpow_le_zpow_right₀ (by norm_num)
            push_cast
            omega
    exact le_of_pow_le_pow_left₀ (by norm_num) (by positivity) cubes
  · have powers : ((10 : ℚ) ^ decimal) ^ (13 : ℕ) ≤ (2 ^ (binary + 5)) ^ (13 : ℕ) := by
      rw [← zpow_natCast, ← zpow_natCast, ← zpow_mul, ← zpow_mul]
      calc (10 : ℚ) ^ (decimal * (13 : ℕ)) = (((10 : ℚ) ^ (13 : ℤ)) ^ (-decimal))⁻¹ := by
            rw [← zpow_mul, ← zpow_neg]
            congr 1
            push_cast
            ring
        _ ≤ (((2 : ℚ) ^ (43 : ℤ)) ^ (-decimal))⁻¹ := by
            apply inv_anti₀ (by positivity)
            apply zpow_le_zpow_left₀ (by omega) (by positivity)
            norm_num
        _ = 2 ^ (43 * decimal) := by
            rw [← zpow_mul, ← zpow_neg]
            congr 1
            ring
        _ ≤ 2 ^ ((binary + 5) * (13 : ℕ)) := by
            apply zpow_le_zpow_right₀ (by norm_num)
            push_cast
            omega
    exact le_of_pow_le_pow_left₀ (by norm_num) (by positivity) powers

/-- The shortest decimal of a number lies in the interval of that number. -/
theorem holds_shortest {significand : ℕ} {exponent : ℤ}
    (canonical : Binary.Canonical significand exponent) :
    (Rounding.around significand exponent).Holds
      ((shortest significand exponent).digits * 10 ^ (shortest significand exponent).exponent) := by
  rcases canonical with ⟨positive, fits, least, greatest, -⟩
  have small : significand.log2 ≤ 52 := by
    have := (Nat.log2_lt positive.ne').mpr fits
    omega
  unfold shortest
  dsimp only
  set magnitude : ℤ := ((significand.log2 + 1 : ℕ) : ℤ) + exponent with isMagnitude
  apply Rounding.holds_shortestFrom
  · simp only [Rounding.around]
    split <;> omega
  · exact le_refl _
  · have close : 100000 * (magnitude * 30103 / 100000) ≤ 30103 * magnitude := by omega
    have power := ten_pow_le (by simp only [Binary.leastExponent] at least; omega) (by omega) close
    calc (10 : ℚ) ^ (magnitude * 30103 / 100000 + 1 - (19 : ℕ))
        = 10 ^ (magnitude * 30103 / 100000) * (10 ^ 18)⁻¹ := by
          rw [← zpow_natCast (10 : ℚ) 18, ← zpow_neg, ← zpow_add₀ (by norm_num)]
          congr 1
          push_cast
          ring
      _ ≤ 2 ^ (magnitude + 5) * (10 ^ 18)⁻¹ := by gcongr
      _ < 2 ^ (magnitude + 5) * (2 ^ 59)⁻¹ := by
          gcongr
          norm_num
      _ = 2 ^ (magnitude - 54) := by
          rw [← zpow_natCast (2 : ℚ) 59, ← zpow_neg, ← zpow_add₀ (by norm_num)]
          congr 1
          push_cast
          ring
      _ ≤ 2 ^ (exponent - 1) := by
          apply zpow_le_zpow_right₀ (by norm_num)
          omega
      _ = 2 * 2 ^ (exponent - 2) := by
          rw [← zpow_one_add₀ (by norm_num)]
          congr 1
          ring

end Decimal
end LoxLang

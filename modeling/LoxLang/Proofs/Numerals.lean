import LoxLang.Decimal.Layout
import LoxLang.Decimal.Reader
import LoxLang.Proofs.Rounding

/-!
# Written numbers are read back

A number that a numeral stands for is written, in source texts, as a numeral of the same number.
-/

namespace LoxLang
namespace Decimal

/-! ## The value of digits -/

theorem foldl_digits (initial : ℕ) (digits : List Char) :
    digits.foldl (fun value digit => value * 10 + (digit.toNat - '0'.toNat)) initial =
      initial * 10 ^ digits.length + digitsValue digits := by
  induction digits generalizing initial with
  | nil => simp [digitsValue]
  | cons digit digits ih =>
      simp only [digitsValue, List.foldl_cons, List.length_cons] at ih ⊢
      rw [ih, ih (0 * 10 + _)]
      ring

theorem digitsValue_append (left right : List Char) :
    digitsValue (left ++ right) = digitsValue left * 10 ^ right.length + digitsValue right := by
  rw [digitsValue, List.foldl_append, foldl_digits]
  rfl

theorem digitsValue_cons (digit : Char) (digits : List Char) :
    digitsValue (digit :: digits) =
      (digit.toNat - '0'.toNat) * 10 ^ digits.length + digitsValue digits := by
  rw [digitsValue, List.foldl_cons, foldl_digits]
  simp

theorem digitsValue_zeros (count : ℕ) : digitsValue (List.replicate count '0') = 0 := by
  induction count with
  | zero => rfl
  | succ count ih => simp [List.replicate_succ, digitsValue_cons, ih]

theorem digitsValue_toDigits (number : ℕ) : digitsValue (Nat.toDigits 10 number) = number := by
  induction number using Nat.strong_induction_on with
  | _ number ih =>
      have single : ∀ digit < 10, digitsValue [Nat.digitChar digit] = digit := by decide
      rw [Nat.toDigits_eq_if (by norm_num)]
      split
      · next small => exact single number small
      · next large =>
          rw [digitsValue_append, ih (number / 10) (by omega),
            single _ (Nat.mod_lt _ (by norm_num))]
          simp only [List.length_singleton, pow_one]
          omega

theorem digit_le_nine {digit : Char} (isDigit : digit.isDigit) : digit.toNat - '0'.toNat ≤ 9 := by
  simp only [Char.isDigit, Bool.and_eq_true, decide_eq_true_eq, UInt32.le_iff_toNat_le] at isDigit
  have upper := isDigit.2
  have lower : '9'.val.toNat = 57 := rfl
  have zero : '0'.toNat = 48 := rfl
  simp only [Char.toNat] at *
  omega

theorem digitsValue_lt {digits : List Char} (areDigits : ∀ digit ∈ digits, digit.isDigit) :
    digitsValue digits < 10 ^ digits.length := by
  induction digits with
  | nil => simp [digitsValue]
  | cons digit digits ih =>
      have small := digit_le_nine (areDigits digit List.mem_cons_self)
      have rest := ih fun other isMember => areDigits other (List.mem_cons_of_mem _ isMember)
      rw [digitsValue_cons, List.length_cons, pow_succ]
      nlinarith

theorem digitsValue_dropZeros (digits : List Char) :
    digitsValue (digits.dropWhile (· == '0')) = digitsValue digits := by
  induction digits with
  | nil => rfl
  | cons digit digits ih =>
      by_cases isZero : digit = '0'
      · simp [isZero, ih, digitsValue_cons]
      · simp [isZero]

theorem le_digitsValue {digits : List Char} (areDigits : ∀ digit ∈ digits, digit.isDigit)
    (positive : 0 < digitsValue digits) :
    10 ^ ((digits.dropWhile (· == '0')).length - 1) ≤ digitsValue digits := by
  rw [← digitsValue_dropZeros] at positive ⊢
  cases shape : digits.dropWhile (· == '0') with
  | nil => simp [shape, digitsValue] at positive
  | cons digit rest =>
      have notZero : digit ≠ '0' := by
        have stopped := List.head?_dropWhile_not (· == '0') digits
        simpa [shape] using stopped
      have isDigit : digit.isDigit := by
        apply areDigits digit
        apply (List.dropWhile_sublist (· == '0')).subset
        simp [shape]
      have large : 1 ≤ digit.toNat - '0'.toNat := by
        simp only [Char.isDigit, Bool.and_eq_true, decide_eq_true_eq,
          UInt32.le_iff_toNat_le] at isDigit
        have different : digit.toNat ≠ '0'.toNat := fun same => notZero (Char.toNat_inj.mp same)
        simp only [Char.toNat] at *
        omega
      rw [digitsValue_cons, List.length_cons]
      calc 10 ^ (rest.length + 1 - 1) = 1 * 10 ^ rest.length := by simp
        _ ≤ (digit.toNat - '0'.toNat) * 10 ^ rest.length := by gcongr
        _ ≤ _ := Nat.le_add_right _ _

/-- Digits have the size of the power of ten that belongs to the first one that is not a zero. -/
theorem digitsValue_bounds {digits : List Char} (areDigits : ∀ digit ∈ digits, digit.isDigit)
    (positive : 0 < digitsValue digits) :
    (10 : ℚ) ^ (((digits.dropWhile (· == '0')).length : ℤ) - 1) ≤ digitsValue digits ∧
      (digitsValue digits : ℚ) < 10 ^ ((digits.dropWhile (· == '0')).length : ℤ) := by
  have low := le_digitsValue areDigits positive
  have high := digitsValue_lt fun digit isMember =>
    areDigits digit ((List.dropWhile_sublist (· == '0')).subset isMember)
  rw [digitsValue_dropZeros] at high
  have sizePositive : 1 ≤ (digits.dropWhile (· == '0')).length := by
    by_contra empty
    have noDigits : digits.dropWhile (· == '0') = [] := List.eq_nil_of_length_eq_zero (by omega)
    rw [← digitsValue_dropZeros, noDigits] at positive
    simp [digitsValue] at positive
  generalize (digits.dropWhile (· == '0')).length = size at low high sizePositive
  constructor
  · rw [show (size : ℤ) - 1 = ((size - 1 : ℕ) : ℤ) by omega, zpow_natCast]
    exact_mod_cast low
  · exact_mod_cast high

/-! ## Reading digits -/

/-- The decimals of the interval around a number are far from the limits at which digits are no
longer looked at. -/
theorem magnitude_bounds {significand : ℕ} {exponent : ℤ}
    (canonical : Binary.Canonical significand exponent) {number : ℚ}
    (holds : (Rounding.around significand exponent).Holds number) :
    (2 : ℚ) ^ (-1200 : ℤ) ≤ number ∧ number < 2 ^ (1200 : ℤ) := by
  rcases canonical with ⟨positive, fits, least, greatest, -⟩
  rcases holds with ⟨low, high, -⟩
  have lowPositive : (1 : ℚ) ≤ (Rounding.around significand exponent).low := by
    have : 1 ≤ (Rounding.around significand exponent).low := by
      simp only [Rounding.around]
      split <;> omega
    exact_mod_cast this
  have highSmall : ((Rounding.around significand exponent).high : ℚ) ≤ 2 ^ (100 : ℤ) := by
    have : (Rounding.around significand exponent).high ≤ 2 ^ 100 := by
      simp only [Rounding.around]
      omega
    exact_mod_cast this
  have isExponent : (Rounding.around significand exponent).exponent = exponent - 2 := rfl
  rw [isExponent] at low high
  simp only [Binary.leastExponent] at least
  constructor
  · calc (2 : ℚ) ^ (-1200 : ℤ) ≤ 2 ^ (exponent - 2) := by
          apply zpow_le_zpow_right₀ (by norm_num)
          omega
      _ = 1 * 2 ^ (exponent - 2) := by ring
      _ ≤ _ := by gcongr
      _ ≤ number := low
  · calc number ≤ _ := high
      _ ≤ 2 ^ (100 : ℤ) * 2 ^ (exponent - 2) := by gcongr
      _ = 2 ^ (100 + (exponent - 2)) := by rw [← zpow_add₀ (by norm_num)]
      _ < 2 ^ (1200 : ℤ) := by
          apply zpow_lt_zpow_right₀ (by norm_num)
          omega

/-- Digits that stand for a decimal of the interval around a number are read as that number. -/
theorem ofDigits_eq {significand : ℕ} {exponent scale : ℤ} {digits : List Char}
    (canonical : Binary.Canonical significand exponent)
    (areDigits : ∀ digit ∈ digits, digit.isDigit)
    (holds : (Rounding.around significand exponent).Holds (digitsValue digits * 10 ^ scale)) :
    ofDigits false digits scale =
      Float.ofBits (UInt64.ofNat (Binary.bits significand exponent)) := by
  rcases magnitude_bounds canonical holds with ⟨low, high⟩
  have power : (0 : ℚ) < 10 ^ scale := by positivity
  have positive : 0 < digitsValue digits := by
    have product : (0 : ℚ) < digitsValue digits * 10 ^ scale := lt_of_lt_of_le (by positivity) low
    exact_mod_cast (mul_pos_iff_of_pos_right power).mp product
  rcases digitsValue_bounds areDigits positive with ⟨valueLow, valueHigh⟩
  set size := (digits.dropWhile (· == '0')).length with isSize
  have hundreds : (2 : ℚ) ^ (1200 : ℤ) ≤ 10 ^ (400 : ℤ) := by
    rw [show (1200 : ℤ) = 3 * 400 by norm_num, zpow_mul]
    exact zpow_le_zpow_left₀ (by norm_num) (by positivity) (by norm_num)
  have notSmall : ¬ scale + size < -400 := by
    intro small
    have tiny : (10 : ℚ) ^ (scale + size) < 2 ^ (-1200 : ℤ) := by
      calc (10 : ℚ) ^ (scale + size) < 10 ^ (-400 : ℤ) := zpow_lt_zpow_right₀ (by norm_num) small
        _ = (10 ^ (400 : ℤ))⁻¹ := zpow_neg _ _
        _ ≤ (2 ^ (1200 : ℤ))⁻¹ := inv_anti₀ (by positivity) hundreds
        _ = 2 ^ (-1200 : ℤ) := (zpow_neg _ _).symm
    rw [add_comm, zpow_add₀ (by norm_num)] at tiny
    nlinarith
  have notLarge : ¬ 400 < scale + size := by
    intro large
    have huge : (2 : ℚ) ^ (1200 : ℤ) ≤ 10 ^ (scale + size - 1) := by
      calc (2 : ℚ) ^ (1200 : ℤ) ≤ 10 ^ (400 : ℤ) := hundreds
        _ ≤ 10 ^ (scale + size - 1) := zpow_le_zpow_right₀ (by norm_num) (by omega)
    rw [show scale + (size : ℤ) - 1 = (size - 1) + scale by ring, zpow_add₀ (by norm_num)] at huge
    nlinarith
  have notZero : (digitsValue digits == 0) = false := by simpa using positive.ne'
  simp only [ofDigits, notZero, ← isSize, Bool.false_or, decide_eq_true_eq, if_neg notSmall,
    if_neg notLarge]
  split
  · next nonnegative =>
      simp only [nearest, Bool.false_eq_true, if_false, Nat.zero_add]
      rw [nearestBits_eq canonical (by positivity) (by norm_num)]
      rcases Int.eq_ofNat_of_zero_le nonnegative with ⟨count, rfl⟩
      simpa using holds
  · next negative =>
      simp only [nearest, Bool.false_eq_true, if_false, Nat.zero_add]
      rw [nearestBits_eq canonical positive (by positivity)]
      rcases Int.eq_ofNat_of_zero_le (show 0 ≤ -scale by omega) with ⟨count, isCount⟩
      rw [show scale = -(count : ℤ) by omega, zpow_neg, ← div_eq_mul_inv] at holds
      simpa [isCount] using holds

/-! ## The bits of a number -/

section Bits

open Float.Model Float.Model.UnpackedFloat

theorem toNat_packComponents (sign : Sign) (exponent : BitVec 11) (mantissa : BitVec 52) :
    (packComponents .binary64 sign exponent mantissa).toNat =
      sign.toBitVec.toNat * 2 ^ 63 + exponent.toNat * 2 ^ 52 + mantissa.toNat := by
  have bound := mantissa.isLt
  have bound' := exponent.isLt
  simp only [packComponents, BitVec.toNat_append]
  rw [← Nat.shiftLeft_add_eq_or_of_lt bound', ← Nat.shiftLeft_add_eq_or_of_lt bound]
  simp only [Nat.shiftLeft_eq]
  omega

theorem toNat_unpackExponent (bits : BitVec Format.binary64.numBits) :
    (unpackExponent bits).toNat = bits.toNat / 2 ^ 52 % 2 ^ 11 := by
  simp [unpackExponent, BitVec.extractLsb, Nat.shiftRight_eq_div_pow]

theorem toNat_unpackMantissa (bits : BitVec Format.binary64.numBits) :
    (unpackMantissa bits).toNat = bits.toNat % 2 ^ 52 := by
  simp [unpackMantissa, BitVec.extractLsb]

theorem toNat_unpackSign (bits : BitVec Format.binary64.numBits) :
    (unpackSign bits).toNat = bits.toNat / 2 ^ 63 % 2 := by
  simp [unpackSign, BitVec.extractLsb, Nat.shiftRight_eq_div_pow]

theorem unpackSign_of_lt {bits : BitVec Format.binary64.numBits} (small : bits.toNat < 2 ^ 63) :
    Sign.ofBitVec (unpackSign bits) = .positive := by
  have isZero : unpackSign bits = 0#1 := by
    apply BitVec.eq_of_toNat_eq
    rw [toNat_unpackSign]
    simp
    omega
  rw [isZero]
  rfl

/-- Bits without a sign are packed from their exponent and their mantissa. -/
theorem packComponents_eq {bits : BitVec Format.binary64.numBits} (exponent : BitVec 11)
    (mantissa : BitVec 52) (isExponent : exponent.toNat = bits.toNat / 2 ^ 52)
    (isMantissa : mantissa.toNat = bits.toNat % 2 ^ 52) :
    packComponents .binary64 .positive exponent mantissa = bits := by
  apply BitVec.eq_of_toNat_eq
  have noSign : (Sign.positive.toBitVec).toNat = 0 := rfl
  rw [toNat_packComponents, isExponent, isMantissa, noSign]
  omega

/-- The significand of a normal number has one more bit than its mantissa. -/
theorem toNat_one_append (mantissa : BitVec 52) :
    (1#1 ++ mantissa).toNat = 2 ^ 52 + mantissa.toNat := by
  rw [BitVec.toNat_append, ← Nat.shiftLeft_add_eq_or_of_lt mantissa.isLt]
  simp [Nat.shiftLeft_eq]

theorem pack_unpack {bits : BitVec Format.binary64.numBits} (small : bits.toNat ≤ 2047 * 2 ^ 52) :
    UnpackedFloat.pack .binary64 (UnpackedFloat.unpack .binary64 bits) = bits := by
  have exponentValue := toNat_unpackExponent bits
  have mantissaValue := toNat_unpackMantissa bits
  have mantissaSmall : (unpackMantissa bits).toNat < 2 ^ 52 := BitVec.isLt _
  have positive := unpackSign_of_lt (show bits.toNat < 2 ^ 63 by omega)
  have bias : Format.binary64.exponentBias = 1023 := by decide
  have width : Format.binary64.mantissaBits = 53 := by decide
  unfold UnpackedFloat.unpack
  simp only [positive]
  split
  · next isTop =>
      have top : (-1#11 : BitVec 11).toNat = 2047 := rfl
      rw [isTop] at exponentValue
      split
      · next isZero =>
          rw [isZero] at mantissaValue
          exact packComponents_eq (-1#11) 0#52 (by omega) mantissaValue
      · next notZero =>
          refine absurd (BitVec.eq_of_toNat_eq ?_) notZero
          rw [mantissaValue]
          simp only [BitVec.toNat_ofNat]
          omega
  · next notTop =>
      split
      · next isZeroExponent =>
          rw [isZeroExponent] at exponentValue
          have noExponent : (0#11 : BitVec 11).toNat = 0 := rfl
          split
          · next isZero =>
              rw [isZero] at mantissaValue
              exact packComponents_eq 0#11 0#52 (by omega) mantissaValue
          · next notZero =>
              have nonzero : (unpackMantissa bits).toNat ≠ 0 :=
                fun isZero => notZero (BitVec.eq_of_toNat_eq isZero)
              have short := (Nat.log2_lt nonzero).mpr mantissaSmall
              simp only [UnpackedFloat.pack, isZeroExponent, bias, width]
              rw [if_neg (by simp), if_neg (by omega)]
              apply packComponents_eq 0#11 _ (by omega)
              rw [BitVec.toNat_ofNat, Nat.mod_eq_of_lt mantissaSmall]
              exact mantissaValue
      · next notZeroExponent =>
          have exponentBound : bits.toNat / 2 ^ 52 < 2 ^ 11 := by omega
          rw [Nat.mod_eq_of_lt exponentBound] at exponentValue
          have notTop' : (unpackExponent bits).toNat ≠ 2047 :=
            fun isTop => notTop (BitVec.eq_of_toNat_eq isTop)
          have withOne := toNat_one_append (unpackMantissa bits)
          have long : (2 ^ 52 + (unpackMantissa bits).toNat).log2 = 52 := by
            rw [Nat.log2_eq_iff (by omega)]
            omega
          simp only [UnpackedFloat.pack, withOne, bias, width, long]
          rw [if_neg (by simp; omega), if_pos trivial]
          apply packComponents_eq
          · rw [BitVec.toNat_ofNat]
            simp
            omega
          · rw [BitVec.toNat_ofNat]
            omega

/-- A number that is neither negative nor undefined has the bits that it was made from. -/
theorem toBits_ofBits {bits : ℕ} (small : bits ≤ 2047 * 2 ^ 52) :
    (Float.ofBits (UInt64.ofNat bits)).toBits = UInt64.ofNat bits := by
  have isSmall : (UInt64.ofNat bits).toBitVec.toNat = bits := by
    rw [UInt64.toNat_toBitVec, UInt64.toNat_ofNat']
    omega
  have unpacked : UnpackedFloat.pack .binary64
      (UnpackedFloat.unpack .binary64 (UInt64.ofNat bits).toBitVec) =
      (UInt64.ofNat bits).toBitVec := by
    apply pack_unpack
    rwa [isSmall]
  exact congrArg UInt64.ofBitVec unpacked

theorem lt_of_isFinite {bits : ℕ} (small : bits ≤ 2047 * 2 ^ 52)
    (finite : (Float.ofBits (UInt64.ofNat bits)).isFinite = true) : bits < 2047 * 2 ^ 52 := by
  by_contra large
  have isInfinite : bits = 2047 * 2 ^ 52 := by omega
  subst isInfinite
  exact absurd finite (by decide)

end Bits

/-- The content of a finite number that is not negative. -/
theorem ofBits_of_lt {bits : ℕ} (small : bits < 2047 * 2 ^ 52) :
    ∃ significand exponent,
      Binary.ofBits (UInt64.ofNat bits) = .finite false significand exponent ∧
      (significand = 0 ∧ bits = 0 ∨
        Binary.Canonical significand exponent ∧ Binary.bits significand exponent = bits) := by
  have isSmall : (UInt64.ofNat bits).toNat = bits := by
    rw [UInt64.toNat_ofNat']
    omega
  have noSign : (bits / 2 ^ 63 == 1) = false := by
    rw [beq_eq_false_iff_ne]
    omega
  have fields : bits % 2 ^ 63 = bits := Nat.mod_eq_of_lt (by omega)
  have notTop : (bits / 2 ^ 52 == 2047) = false := by
    rw [beq_eq_false_iff_ne]
    omega
  simp only [Binary.ofBits, isSmall, noSign, fields, Binary.fractionBits, notTop,
    Bool.false_eq_true,
    if_false]
  by_cases subnormal : bits / 2 ^ 52 = 0
  · refine ⟨bits % 2 ^ 52, Binary.leastExponent, if_pos (beq_iff_eq.mpr subnormal), ?_⟩
    by_cases isZero : bits = 0
    · exact .inl ⟨by simp [isZero], isZero⟩
    · right
      refine ⟨⟨by omega, by omega, le_refl _, by decide, .inl rfl⟩, ?_⟩
      simp only [Binary.bits, Binary.leastExponent]
      omega
  · refine ⟨2 ^ 52 + bits % 2 ^ 52, Binary.leastExponent + ((bits / 2 ^ 52 - 1 : ℕ) : ℤ),
      if_neg (by rwa [beq_iff_eq]), .inr ⟨⟨by omega, by omega, by omega, ?_, .inr (by omega)⟩, ?_⟩⟩
    · simp only [Binary.leastExponent]
      omega
    · simp only [Binary.bits, Binary.leastExponent]
      omega

/-! ## Writing numbers -/

/-- A numeral: the digits before the point, and the point and the digits behind it if there are
any. -/
def numeral (whole fraction : List Char) : List Char :=
  if fraction.isEmpty then whole else whole ++ '.' :: fraction

theorem isDigit_of_mem_zeros {count : ℕ} {digit : Char}
    (isMember : digit ∈ List.replicate count '0') : digit.isDigit := by
  rw [List.eq_of_mem_replicate isMember]
  decide

/-- A decimal that is written without an exponent is a numeral of the same value. -/
theorem Scaled.positional_eq_numeral (decimal : Scaled) :
    ∃ whole fraction, whole ≠ [] ∧ (∀ digit ∈ whole ++ fraction, digit.isDigit) ∧
      decimal.positional false = numeral whole fraction ∧
      (digitsValue (whole ++ fraction) : ℚ) * 10 ^ (-(fraction.length : ℤ)) =
        decimal.digits * 10 ^ decimal.exponent := by
  have areDigits : ∀ digit ∈ decimal.numerals, digit.isDigit := fun digit isMember =>
    Nat.isDigit_of_mem_toDigits (by norm_num) (by norm_num) isMember
  have notEmpty : 0 < decimal.numerals.length := Nat.length_toDigits_pos
  have isValue : digitsValue decimal.numerals = decimal.digits := digitsValue_toDigits _
  unfold positional
  dsimp only
  split
  · next nonnegative =>
      rcases Int.eq_ofNat_of_zero_le nonnegative with ⟨count, isCount⟩
      refine ⟨decimal.numerals ++ List.replicate count '0', [], ?_, ?_, ?_, ?_⟩
      · exact List.append_ne_nil_of_left_ne_nil (List.ne_nil_of_length_pos notEmpty) _
      · rw [List.append_nil]
        exact List.forall_mem_append.mpr ⟨areDigits, fun _ => isDigit_of_mem_zeros⟩
      · simp [numeral, isCount]
      · rw [List.append_nil, digitsValue_append, isValue, digitsValue_zeros, isCount]
        simp
  · next negative =>
      rcases Int.eq_ofNat_of_zero_le (show 0 ≤ -decimal.exponent by omega) with ⟨places, isPlaces⟩
      have isExponent : decimal.exponent = -(places : ℤ) := by omega
      have isToNat : (-decimal.exponent).toNat = places := by omega
      rw [isToNat, isExponent]
      split
      · next few =>
          refine ⟨decimal.numerals.take (decimal.numerals.length - places),
            decimal.numerals.drop (decimal.numerals.length - places), ?_, ?_, ?_, ?_⟩
          · apply List.ne_nil_of_length_pos
            rw [List.length_take]
            omega
          · rwa [List.take_append_drop]
          · have notWhole : (decimal.numerals.drop (decimal.numerals.length - places)).isEmpty =
              false := by
              rw [List.isEmpty_eq_false_iff, List.ne_nil_iff_length_pos, List.length_drop]
              omega
            simp [numeral, notWhole]
          · rw [List.take_append_drop, isValue, List.length_drop]
            congr 3
            omega
      · next many =>
          refine ⟨['0'], List.replicate (places - decimal.numerals.length) '0' ++ decimal.numerals,
            by simp, ?_, ?_, ?_⟩
          · rw [List.singleton_append]
            exact List.forall_mem_cons.mpr ⟨by decide,
              List.forall_mem_append.mpr ⟨fun _ => isDigit_of_mem_zeros, areDigits⟩⟩
          · have notWhole : (List.replicate (places - decimal.numerals.length) '0' ++
                decimal.numerals).isEmpty = false := by
              rw [List.isEmpty_eq_false_iff, List.ne_nil_iff_length_pos, List.length_append]
              omega
            simp only [numeral, notWhole, Bool.false_eq_true, if_false, List.cons_append,
              List.nil_append]
          · rw [digitsValue_append, digitsValue_append, digitsValue_zeros, isValue]
            have zero : digitsValue ['0'] = 0 := by decide
            simp only [zero, List.length_append, List.length_replicate]
            rw [show places - decimal.numerals.length + decimal.numerals.length = places by omega]
            simp

theorem nearestBits_le (numerator denominator : ℕ) :
    nearestBits numerator denominator ≤ 2047 * 2 ^ 52 := by
  unfold nearestBits
  split
  · omega
  · exact min_le_right _ _

/-- A numeral stands for a number that is neither negative nor undefined. -/
theorem exists_bits_of_numeral (whole fraction : List Char) :
    ∃ bits ≤ 2047 * 2 ^ 52, ofNumeral whole fraction = Float.ofBits (UInt64.ofNat bits) := by
  have nearestFalse : ∀ numerator denominator, ∃ bits ≤ 2047 * 2 ^ 52,
      nearest false numerator denominator = Float.ofBits (UInt64.ofNat bits) := by
    intro numerator denominator
    refine ⟨nearestBits numerator denominator, nearestBits_le _ _, ?_⟩
    simp [nearest]
  simp only [ofNumeral, ofDigits]
  split
  · apply nearestFalse
  · split
    · apply nearestFalse
    · split <;> apply nearestFalse

/-- The number of a numeral, if it is finite, is written as a numeral that is read as it. -/
theorem write_ofNumeral {whole fraction : List Char}
    (finite : (ofNumeral whole fraction).isFinite = true) :
    ∃ digits places, digits ≠ [] ∧ (∀ digit ∈ digits ++ places, digit.isDigit) ∧
      (Style.source.write (ofNumeral whole fraction)).toList = numeral digits places ∧
      ofNumeral digits places = ofNumeral whole fraction := by
  rcases exists_bits_of_numeral whole fraction with ⟨bits, small, isBits⟩
  rw [isBits] at finite ⊢
  rcases ofBits_of_lt (lt_of_isFinite small finite) with ⟨significand, exponent, isContent, cases⟩
  rw [← toBits_ofBits small] at isContent
  have written : (Style.source.write (Float.ofBits (UInt64.ofNat bits))).toList =
      if significand == 0 then Scaled.positional false ⟨0, 0⟩
      else (shortest significand exponent).positional false := by
    simp only [Style.write, Binary.ofFloat, isContent, Style.write.sign,
      Bool.false_eq_true, if_false,
      String.empty_append, String.toList_ofList]
    rfl
  rw [written]
  rcases cases with ⟨rfl, rfl⟩ | ⟨canonical, sameBits⟩
  · refine ⟨['0'], [], by simp, by simp, rfl, ?_⟩
    simp [ofNumeral, ofDigits, digitsValue, nearest, nearestBits]
  · rcases (shortest significand exponent).positional_eq_numeral with
      ⟨digits, places, notEmpty, areDigits, isNumeral, isValue⟩
    refine ⟨digits, places, notEmpty, areDigits, ?_, ?_⟩
    · have notZero : (significand == 0) = false := by simpa using canonical.positive.ne'
      rw [notZero]
      exact isNumeral
    · have read : ofDigits false (digits ++ places) (-(places.length : ℤ)) = _ :=
        ofDigits_eq canonical areDigits (by rw [isValue]; exact holds_shortest canonical)
      rw [ofNumeral, read, sameBits]

end Decimal
end LoxLang

import LoxLang.Proofs.Numerals

/-!
# Exact values

A number that is finite is a fraction. Taken apart into its sign, significand and exponent it is the
same as in the core library's model of numbers, and its floor is that of the fraction.
-/

namespace LoxLang
namespace Decimal

open Float.Model Float.Model.UnpackedFloat

/-- The fraction that a number is, unless it is infinite or undefined. -/
def exactValue? (number : Float) : Option ℚ :=
  match number.toModel.unpack with
  | .zero _ => some 0
  | .finite sign significand exponent _ => some (sign.apply (significand : ℤ) * 2 ^ exponent)
  | .infinity _ | .notANumber => none

theorem isSome_exactValue (number : Float) :
    (exactValue? number).isSome = number.isFinite := by
  simp only [exactValue?, Float.isFinite, Float.Model.isFinite]
  cases number.toModel.unpack <;> rfl

/-- What the bits of a number stand for, by the core library's model. -/
def Binary.ofUnpacked : UnpackedFloat → Binary
  | .zero sign => .finite (sign == .negative) 0 Binary.leastExponent
  | .finite sign significand exponent _ => .finite (sign == .negative) significand exponent
  | .infinity sign => .infinite (sign == .negative)
  | .notANumber => .notANumber

theorem beq_negative_unpackSign (bits : BitVec Format.binary64.numBits) :
    (Sign.ofBitVec (unpackSign bits) == .negative) = (bits.toNat / 2 ^ 63 == 1) := by
  have oneBit : ∀ sign : BitVec 1, (Sign.ofBitVec sign == .negative) = (sign.toNat == 1) := by
    decide
  have small : bits.toNat < 2 ^ 64 := bits.isLt
  rw [oneBit, toNat_unpackSign, Nat.mod_eq_of_lt (by omega)]

/-- Bits are taken apart as the core library does it. -/
theorem Binary.ofBits_eq_ofUnpacked (bits : BitVec Format.binary64.numBits) :
    ofBits (UInt64.ofBitVec bits) = .ofUnpacked (UnpackedFloat.unpack .binary64 bits) := by
  have isBits : (UInt64.ofBitVec bits).toNat = bits.toNat := rfl
  have isSign := beq_negative_unpackSign bits
  have isExponent := toNat_unpackExponent bits
  have isMantissa := toNat_unpackMantissa bits
  have mantissaSmall : (unpackMantissa bits).toNat < 2 ^ 52 := (unpackMantissa bits).isLt
  have field : bits.toNat % 2 ^ 63 / 2 ^ 52 = (unpackExponent bits).toNat := by omega
  have fraction : bits.toNat % 2 ^ 63 % 2 ^ 52 = (unpackMantissa bits).toNat := by omega
  have top : (unpackExponent bits).toNat = 2047 ↔ unpackExponent bits = -1#11 :=
    BitVec.toNat_inj (y := -1#11)
  have bottom : (unpackExponent bits).toNat = 0 ↔ unpackExponent bits = 0#11 :=
    BitVec.toNat_inj (y := 0#11)
  have nothing : (unpackMantissa bits).toNat = 0 ↔ unpackMantissa bits = 0#52 :=
    BitVec.toNat_inj (y := 0#52)
  have withOne : (1#1 ++ unpackMantissa bits).toNat = 2 ^ 52 + (unpackMantissa bits).toNat := by
    rw [BitVec.toNat_append, ← Nat.shiftLeft_add_eq_or_of_lt mantissaSmall]
    simp [Nat.shiftLeft_eq]
  have bias : Format.binary64.exponentBias = 1023 := by decide
  simp only [ofBits, isBits, fractionBits, field, fraction, ← isSign, beq_iff_eq, top, bottom,
    nothing]
  unfold UnpackedFloat.unpack
  simp only [bias]
  split
  · split <;> rfl
  · next notTop =>
      split
      · next isBottom =>
          rw [isBottom]
          split
          · next isNothing =>
              rw [isNothing]
              rfl
          · simp [ofUnpacked, leastExponent]
      · next notBottom =>
          have positive := mt bottom.mp notBottom
          simp only [ofUnpacked, leastExponent, withOne]
          congr 1
          omega

/-- A number is taken apart as the core library does it. -/
theorem Binary.ofFloat_eq_ofUnpacked (number : Float) :
    ofFloat number = .ofUnpacked number.toModel.unpack :=
  ofBits_eq_ofUnpacked number.toModel.toBits.toBitVec

/-! ## Floors -/

theorem floor_mul_two_pow (number exponent : ℤ) :
    ⌊(number : ℚ) * 2 ^ exponent⌋ =
      if 0 ≤ exponent then number * 2 ^ exponent.toNat else number / 2 ^ (-exponent).toNat := by
  split
  · next nonnegative =>
      rcases Int.eq_ofNat_of_zero_le nonnegative with ⟨power, rfl⟩
      rw [zpow_natCast, Int.toNat_natCast]
      exact_mod_cast Int.floor_intCast (R := ℚ) (number * 2 ^ power)
  · next negative =>
      rcases Int.eq_ofNat_of_zero_le (show 0 ≤ -exponent by omega) with ⟨power, isPower⟩
      have isExponent : exponent = -(power : ℤ) := by omega
      have quotient := Rat.floor_intCast_div_natCast number (2 ^ power)
      rw [isPower, Int.toNat_natCast, isExponent, zpow_neg, zpow_natCast, ← div_eq_mul_inv]
      push_cast at quotient
      exact quotient

/-- Numbers are rounded down as fractions are. -/
theorem Binary.floor_ofFloat (number : Float) :
    (ofFloat number).floor? = (exactValue? number).map Int.floor := by
  rw [ofFloat_eq_ofUnpacked, exactValue?]
  cases number.toModel.unpack with
  | infinity | notANumber => rfl
  | zero sign =>
      simp only [ofUnpacked, floor?, Nat.cast_zero, neg_zero, ite_self, zero_mul, Int.zero_ediv,
        Option.map_some, Int.floor_zero]
  | finite sign significand exponent =>
      simp only [ofUnpacked, floor?, Option.map_some, floor_mul_two_pow]
      cases sign <;> rfl

end Decimal
end LoxLang

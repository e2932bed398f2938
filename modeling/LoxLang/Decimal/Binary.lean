/-!
# Numbers as exact fractions

A finite number is `± significand · 2 ^ exponent`. This file takes a number apart into that form
and, in the other direction, finds the number nearest to a fraction. Both are exact arithmetic on
natural numbers; only the last step goes through the bits of a `Float`.
-/

namespace LoxLang
namespace Decimal

-- Powers are those of the core library, whichever other instances are in scope.
attribute [local instance (high)] instPowNat

/-- What the bits of a number stand for. -/
inductive Binary
  | finite (negative : Bool) (significand : Nat) (exponent : Int)
  | infinite (negative : Bool)
  | notANumber

namespace Binary

/-- The number of bits of a significand after its leading one. -/
def fractionBits : Nat := 52

/-- The exponent of the least positive number. -/
def leastExponent : Int := -1074

/-- The content of a number given by its 64 bits. -/
def ofBits (bits : UInt64) : Binary :=
  let fields := bits.toNat % 2 ^ (63 : Nat)
  let negative := bits.toNat / 2 ^ (63 : Nat) == 1
  let field := fields / 2 ^ fractionBits
  let fraction := fields % 2 ^ fractionBits
  if field == 2047 then
    if fraction == 0 then .infinite negative else .notANumber
  else if field == 0 then .finite negative fraction leastExponent
  else .finite negative (2 ^ fractionBits + fraction) (leastExponent + (field - 1 : Nat))

/-- The content of a number. -/
def ofFloat (number : Float) : Binary :=
  ofBits number.toBits

/-- The greatest integer that is not above a finite number. -/
def floor? : Binary → Option Int
  | .finite negative significand exponent =>
      let signed : Int := if negative then -significand else significand
      some (if 0 ≤ exponent then signed * 2 ^ exponent.toNat
        else signed / 2 ^ (-exponent).toNat)
  | _ => none

end Binary

/-- A quotient rounded to the nearest natural number, a half going to the even neighbour. -/
def divideToEven (numerator denominator : Nat) : Nat :=
  let quotient := numerator / denominator
  let remainder := numerator % denominator
  if denominator < 2 * remainder || (2 * remainder == denominator && quotient % 2 == 1) then
    quotient + 1
  else quotient

/-- The fraction `numerator / denominator · 2 ^ (- exponent)` as a pair of natural numbers. -/
def scaleDown (numerator denominator : Nat) (exponent : Int) : Nat × Nat :=
  if 0 ≤ exponent then (numerator, denominator * 2 ^ exponent.toNat)
  else (numerator * 2 ^ (-exponent).toNat, denominator)

/-- The exponent at which the integral part of a positive fraction has 53 bits, or the least
exponent where that one is smaller. -/
def roundingExponent (numerator denominator : Nat) : Int :=
  let estimate : Int := (numerator.log2 : Int) - denominator.log2 - 53
  let (above, below) := scaleDown numerator denominator estimate
  let exponent := if above / below < 2 ^ (53 : Nat) then estimate else estimate + 1
  max exponent Binary.leastExponent

/-- The bits of the number nearest to a fraction, without a sign. Numbers grow with their bits,
and rounding up to the next power of two carries into the field of the exponent; what is too large
becomes infinite. -/
def nearestBits (numerator denominator : Nat) : Nat :=
  if numerator == 0 then 0
  else
    let exponent := roundingExponent numerator denominator
    let (above, below) := scaleDown numerator denominator exponent
    let field := (exponent - Binary.leastExponent).toNat
    min (field * 2 ^ Binary.fractionBits + divideToEven above below)
      (2047 * 2 ^ Binary.fractionBits)

/-- The number nearest to a fraction, with a sign. -/
def nearest (negative : Bool) (numerator denominator : Nat) : Float :=
  let sign := if negative then 2 ^ (63 : Nat) else 0
  Float.ofBits (UInt64.ofNat (sign + nearestBits numerator denominator))

end Decimal
end LoxLang

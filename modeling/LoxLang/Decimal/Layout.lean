import LoxLang.Decimal.Shortest

/-!
# Writing numbers

A number is written with the digits of its shortest decimal. What a format decides is collected in
a `Style`: which numbers are written without an exponent, whether an integral number keeps a
fraction, and the words for infinity and for what is not a number.
-/

namespace LoxLang
namespace Decimal

/-- The choices of a format of numbers. A number is written positionally when the power of ten of
its first digit is within the bounds, the second excluded; without bounds, always. -/
structure Style where
  positionalBounds : Option (Int × Int)
  keepsFraction : Bool
  infinity : String
  notANumber : String

namespace Scaled

/-- The digits of a decimal. -/
def numerals (decimal : Scaled) : List Char :=
  Nat.toDigits 10 decimal.digits

/-- The power of ten of the first digit of a decimal. -/
def leadingExponent (decimal : Scaled) : Int :=
  decimal.exponent + decimal.numerals.length - 1

/-- A decimal written without an exponent. -/
def positional (keepsFraction : Bool) (decimal : Scaled) : List Char :=
  let numerals := decimal.numerals
  if 0 ≤ decimal.exponent then
    numerals ++ List.replicate decimal.exponent.toNat '0' ++
      if keepsFraction then ['.', '0'] else []
  else
    let places := (-decimal.exponent).toNat
    if places < numerals.length then
      numerals.take (numerals.length - places) ++ '.' :: numerals.drop (numerals.length - places)
    else '0' :: '.' :: (List.replicate (places - numerals.length) '0' ++ numerals)

/-- A decimal written with an exponent that has a sign and at least two digits. -/
def scientific (decimal : Scaled) : List Char :=
  let mantissa :=
    match decimal.numerals with
    | first :: second :: rest => first :: '.' :: second :: rest
    | numerals => numerals
  let exponent := decimal.leadingExponent
  let size := Nat.toDigits 10 exponent.natAbs
  mantissa ++ 'e' :: (if exponent < 0 then '-' else '+') ::
    (List.replicate (2 - size.length) '0' ++ size)

end Scaled

namespace Style

/-- A positive decimal in a given style. -/
def writeScaled (style : Style) (decimal : Scaled) : List Char :=
  match style.positionalBounds with
  | none => decimal.positional style.keepsFraction
  | some (low, high) =>
      if low ≤ decimal.leadingExponent && decimal.leadingExponent < high then
        decimal.positional style.keepsFraction
      else decimal.scientific

/-- A number in a given style; a negative zero keeps its sign. -/
def write (style : Style) (number : Float) : String :=
  match Binary.ofFloat number with
  | .notANumber => style.notANumber
  | .infinite negative => sign negative ++ style.infinity
  | .finite negative significand exponent =>
      sign negative ++ String.ofList
        (if significand == 0 then Scaled.positional style.keepsFraction ⟨0, 0⟩
        else style.writeScaled (shortest significand exponent))
where
  /-- The sign in front of a number. -/
  sign (negative : Bool) : String := if negative then "-" else ""

/-- Values are shown without an exponent from `0.0001` up to `10 ^ 16`, and integral ones without a
fraction. -/
def display : Style where
  positionalBounds := some (-4, 16)
  keepsFraction := false
  infinity := "inf"
  notANumber := "nan"

/-- Traces show values as `display` does, but with the fraction of integral ones, which tells a
number from a text. -/
def trace : Style where
  positionalBounds := some (-4, 16)
  keepsFraction := true
  infinity := "inf"
  notANumber := "nan"

/-- Source texts have no exponents. -/
def source : Style where
  positionalBounds := none
  keepsFraction := false
  infinity := "Infinity"
  notANumber := "NaN"

end Style

end Decimal
end LoxLang

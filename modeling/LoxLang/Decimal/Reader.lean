import LoxLang.Decimal.Binary
import LoxLang.Text.CharClass

/-!
# Reading numbers

A numeral stands for the number nearest to it. Numerals of a source text are digits with an
optional fraction; written numbers may also have a sign and an exponent, digits of any script,
blanks around them and underscores between digits, and may be one of the words for infinity and for
what is not a number.
-/

namespace LoxLang
namespace Decimal

-- Powers are those of the core library, whichever other instances are in scope.
attribute [local instance (high)] instPowNat

/-- The value of a sequence of digits. -/
def digitsValue (digits : List Char) : Nat :=
  digits.foldl (fun value digit => value * 10 + (digit.toNat - '0'.toNat)) 0

/-- The number nearest to `± digits · 10 ^ exponent`. Decimals far beyond the range of numbers are
infinite or zero whatever their digits. -/
def ofDigits (negative : Bool) (digits : List Char) (exponent : Int) : Float :=
  let value := digitsValue digits
  let magnitude := exponent + (digits.dropWhile (· == '0')).length
  if value == 0 || magnitude < -400 then nearest negative 0 1
  else if 400 < magnitude then nearest negative (2 ^ (2000 : Nat)) 1
  else if 0 ≤ exponent then nearest negative (value * 10 ^ exponent.toNat) 1
  else nearest negative value (10 ^ (-exponent).toNat)

/-- The number that a numeral of a source text stands for. -/
def ofNumeral (whole fraction : List Char) : Float :=
  ofDigits false (whole ++ fraction) (-(fraction.length : Int))

/-- The exponent at the end of a written number, if there is nothing else. -/
def readExponent? : List Char → Option Int
  | [] => some 0
  | mark :: rest =>
      if mark == 'e' || mark == 'E' then
        match rest with
        | '-' :: digits => (value? digits).map fun value => -(value : Int)
        | '+' :: digits => (value? digits).map fun value => (value : Int)
        | digits => (value? digits).map fun value => (value : Int)
      else none
where
  /-- The value of a text that is all digits. -/
  value? (digits : List Char) : Option Nat :=
    if digits.isEmpty || !digits.all Text.isDigit then none else some (digitsValue digits)

/-- The number that a written number without a sign stands for. -/
def readUnsigned? (negative : Bool) (text : List Char) : Option Float :=
  let word := text.map Char.toLower
  if word == "inf".toList || word == "infinity".toList then
    some (nearest negative (2 ^ (2000 : Nat)) 1)
  else if word == "nan".toList then some (0.0 / 0.0)
  else
    let whole := text.takeWhile Text.isDigit
    let afterWhole := text.dropWhile Text.isDigit
    let (fraction, rest) :=
      match afterWhole with
      | '.' :: afterPoint => (afterPoint.takeWhile Text.isDigit, afterPoint.dropWhile Text.isDigit)
      | _ => ([], afterWhole)
    if whole.isEmpty && fraction.isEmpty then none
    else
      (readExponent? rest).map fun exponent =>
        ofDigits negative (whole ++ fraction) (exponent - fraction.length)

/-- A digit of any script as the usual one; other characters as they are. -/
def usualDigit (character : Char) : Char :=
  match Text.decimalDigit? character with
  | some value => Nat.digitChar value
  | none => character

/-- A text without the underscores between digits; `previous` is the character before it. Where an
underscore stands elsewhere, there is no such text. -/
def joinDigits? (previous : Char) : List Char → Option (List Char)
  | [] => some []
  | ['_'] => none
  | '_' :: next :: rest =>
      if Text.isDigit previous && Text.isDigit next then
        (joinDigits? next rest).map (next :: ·)
      else none
  | character :: rest => (joinDigits? character rest).map (character :: ·)

/-- The number that a written number stands for. -/
def read? (text : String) : Option Float :=
  match joinDigits? ' ' ((Text.strip text.toList).map usualDigit) with
  | none => none
  | some ('-' :: rest) => readUnsigned? true rest
  | some ('+' :: rest) => readUnsigned? false rest
  | some rest => readUnsigned? false rest

end Decimal
end LoxLang

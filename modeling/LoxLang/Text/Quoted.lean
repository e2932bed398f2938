import LoxLang.Text.Printable

/-!
# Quoted texts

The quoted form of a text shows every character of it: printable characters stand for themselves,
all others and the quote itself are escaped. Traces and error messages show texts in this form.
-/

namespace LoxLang
namespace Text

/-- A number in hexadecimal with exactly `width` lower-case digits. -/
def hexadecimal (width number : Nat) : String :=
  let digits := Nat.toDigits 16 number
  String.ofList (List.replicate (width - digits.length) '0' ++ digits)

/-- The numeric escape of a character, as short as its code point allows. -/
def numericEscape (character : Char) : String :=
  let code := character.toNat
  if code < 0x100 then "\\x" ++ hexadecimal 2 code
  else if code < 0x10000 then "\\u" ++ hexadecimal 4 code
  else "\\U" ++ hexadecimal 8 code

/-- One character of a quoted text. -/
def escape (quote character : Char) : String :=
  if character == quote || character == '\\' then String.ofList ['\\', character]
  else if character == '\n' then "\\n"
  else if character == '\r' then "\\r"
  else if character == '\t' then "\\t"
  else if isPrintable character then character.toString
  else numericEscape character

/-- The quote around a text: single, unless the text has single quotes and no double ones. -/
def quoteFor (text : String) : Char :=
  let characters := text.toList
  if characters.contains '\'' && !characters.contains '"' then '"' else '\''

/-- The quoted form of a text. -/
def quoted (text : String) : String :=
  let quote := quoteFor text
  quote.toString ++ String.join (text.toList.map (escape quote)) ++ quote.toString

end Text
end LoxLang

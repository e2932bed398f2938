/-!
# Emphasis on a terminal

Reports and traces may be emphasised by escape sequences. The sequences surround a text even if it
is empty.
-/

namespace LoxLang

/-- How a text stands out. -/
inductive Emphasis
  | bold
  | alarm
  | dim

namespace Emphasis

/-- The escape sequence that switches an emphasis on. -/
def code : Emphasis → String
  | .bold => "\x1b[1m"
  | .alarm => "\x1b[1m\x1b[31m"
  | .dim => "\x1b[2m"

/-- The escape sequence that switches every emphasis off. -/
def reset : String := "\x1b[0m"

/-- A text with an emphasis, if colours are wanted. -/
def apply (emphasis : Emphasis) (colored : Bool) (text : String) : String :=
  if colored then emphasis.code ++ text ++ reset else text

end Emphasis

end LoxLang

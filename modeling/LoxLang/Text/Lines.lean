/-!
# Lines of a text

Error reports show a line of the source, and there a line ends at any line break. Files are read
with every line end written as one newline, so that the scanner meets newlines only.
-/

namespace LoxLang
namespace Text

/-- The characters that end a line of an error report. -/
def isLineBreak (character : Char) : Bool :=
  character == '\n' || character == '\r' || character == '\x0b' || character == '\x0c' ||
    character == '\x1c' || character == '\x1d' || character == '\x1e' || character == '\x85' ||
    character == '\u2028' || character == '\u2029'

/-- The lines of a text after `line`, the reversed beginning of its first line. -/
def linesFrom (line : List Char) : List Char → List (List Char)
  | [] => if line.isEmpty then [] else [line.reverse]
  | '\r' :: '\n' :: rest => line.reverse :: linesFrom [] rest
  | character :: rest =>
      if isLineBreak character then line.reverse :: linesFrom [] rest
      else linesFrom (character :: line) rest

/-- The lines of a text without their line breaks, where a carriage return and a newline are one
line break and a line break at the very end starts no further line. -/
def lines (text : List Char) : List (List Char) :=
  linesFrom [] text

/-- A text with every carriage return, alone or before a newline, turned into a newline. -/
def unifyNewlines : List Char → List Char
  | [] => []
  | '\r' :: '\n' :: rest => '\n' :: unifyNewlines rest
  | '\r' :: rest => '\n' :: unifyNewlines rest
  | character :: rest => character :: unifyNewlines rest

/-- The parts of a text between newlines; a newline at the very end starts no further part. -/
def splitAtNewlines (line : List Char) : List Char → List (List Char)
  | [] => if line.isEmpty then [] else [line.reverse]
  | '\n' :: rest => line.reverse :: splitAtNewlines [] rest
  | character :: rest => splitAtNewlines (character :: line) rest

end Text
end LoxLang

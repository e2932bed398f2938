import Mathlib.Data.List.ModifyLast
import LoxLang.Proofs.HeldTokens
import LoxLang.Proofs.Offences
import LoxLang.Proofs.Seams

/-!
# Interactive mode is plain mode for a completed text

Interactive mode supplies a missing semicolon at the end of a text and prints the value of a bare
expression at the end. The first is the same as to write the semicolon on a line of its own: only
that semicolon and the end of the text stand elsewhere, and so do the diagnostics for them. No tree
holds a semicolon, so that the trees are the same with all their positions.
-/

namespace LoxLang

namespace Scan

/-- A text with the semicolon that interactive mode implies, on a line of its own. A text without a
token and one whose last token is a closing brace or a semicolon need none. -/
def completed (text : List Char) : List Char :=
  match (ofText false text).tokens.getLast? with
  | none => text
  | some last =>
      if last.kind = .rightBrace ∨ last.kind = .semicolon then text else text ++ ['\n', ';']

/-- A scan whose tokens and diagnostics are at changed positions. -/
def move (change : Position → Position) (scan : Scan) : Scan where
  tokens := scan.tokens.map (·.move change)
  ending := scan.ending.move change
  diagnostics := scan.diagnostics.map (·.move change)

end Scan

namespace Parse

end Parse

end LoxLang

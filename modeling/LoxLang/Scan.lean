import LoxLang.Diagnostic
import LoxLang.Segment

/-!
# Scanning

Scanning gives every segment of a source text its position, keeps the tokens and reports the
segments that no program may have. A scan never stops early, and it always ends with a token for
the end of the text. In interactive mode a missing semicolon at the end is supplied.
-/

namespace LoxLang

namespace Position

/-- The first place of a text. -/
def start : Position := ⟨1, 1⟩

/-- The place behind one character. Only a newline starts a new line. -/
def next (position : Position) (character : Char) : Position :=
  if character == '\n' then ⟨position.line + 1, 1⟩ else ⟨position.line, position.column + 1⟩

/-- The place behind a text. -/
def after (position : Position) (text : List Char) : Position :=
  text.foldl next position

end Position

namespace Segment

/-- The token of a segment at a given position, if it is one. -/
def token? (position : Position) : Segment → Option Token
  | .token kind text literal => some { kind, lexeme := String.ofList text, literal, position }
  | _ => none

/-- What is wrong with a segment that no program may have. -/
def complaint? : Segment → Option String
  | .unexpected character => some ("Unexpected character: " ++ character.toString)
  | .openString _ => some "Unterminated string."
  | .openComment _ => some "Unterminated block comment."
  | _ => none

/-- The diagnostic of a segment at a given position, if there is one. -/
def diagnostic? (position : Position) (segment : Segment) : Option Diagnostic :=
  segment.complaint?.map (Diagnostic.plain position "Scanner")

/-- Segments with their positions, the first one at `position`. -/
def placed (position : Position) : List Segment → List (Position × Segment)
  | [] => []
  | segment :: rest => (position, segment) :: placed (position.after segment.text) rest

end Segment

/-- What scanning a text gives: its tokens, the token for its end, and its diagnostics. -/
structure Scan where
  tokens : List Token
  ending : Token
  diagnostics : List Diagnostic

namespace Scan

/-- All tokens of a scan, that for the end included. -/
def allTokens (scan : Scan) : List Token :=
  scan.tokens ++ [scan.ending]

/-- Whether the last of some tokens needs a semicolon behind it in interactive mode. -/
def lacksSemicolon (tokens : List Token) : Bool :=
  match tokens.getLast? with
  | none => false
  | some token => token.kind != .rightBrace && token.kind != .semicolon

/-- The semicolon that interactive mode supplies at the end of the text. -/
def suppliedSemicolon (position : Position) : Token :=
  { kind := .semicolon, lexeme := ";", position }

/-- The scan of a text. -/
def ofText (interactive : Bool) (text : List Char) : Scan :=
  let placed := Segment.placed .start (Segment.segments text)
  let position := Position.start.after text
  let tokens := placed.filterMap fun (position, segment) => segment.token? position
  { tokens :=
      if interactive && lacksSemicolon tokens then tokens ++ [suppliedSemicolon position]
      else tokens
    ending := { kind := .endOfText, lexeme := "", position }
    diagnostics := placed.filterMap fun (position, segment) => segment.diagnostic? position }

end Scan

end LoxLang

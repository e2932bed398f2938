import LoxLang.Diagnostic
import LoxLang.Tree

/-!
# Reading tokens

The parser reads tokens from left to right. A rule of the grammar is a computation on a cursor that
either gives a tree or is abandoned, and in both cases it has moved the cursor and may have queued
diagnostics.

Loops of the grammar take their bound from the tokens that are left when they start: every turn
reads a token, so that they always end before the bound does.
-/

namespace LoxLang

/-- What is wrong with a program that does not follow the grammar. -/
inductive GrammarFault
  | expected (phrase : String)
  | tooMany (items : String)
  | invalidTarget
  | tooDeep

namespace GrammarFault

/-- The greatest number of arguments of a call and of parameters of a function. -/
def maxItems : Nat := 255

/-- The wording of a fault. -/
def message : GrammarFault → String
  | .expected phrase => "Expect " ++ phrase ++ "."
  | .tooMany items => "Can't have more than " ++ toString maxItems ++ " " ++ items ++ "."
  | .invalidTarget => "Invalid assignment target."
  | .tooDeep => "Expression nested too deeply."

end GrammarFault

/-- Why a rule was abandoned: the tokens do not follow the grammar, or they are nested too
deeply. -/
inductive Panic
  | fault
  | depth

/-- The place of the parser in a program: the tokens that are left, the token for the end of the
text, and the diagnostics so far. -/
structure Cursor where
  rest : List Token
  ending : Token
  diagnostics : List Diagnostic

/-- A rule of the grammar. -/
abbrev Rule := EStateM Panic Cursor

namespace Cursor

/-- The next token. -/
def peek (cursor : Cursor) : Token :=
  cursor.rest.headD cursor.ending

/-- A cursor with one more diagnostic, located at a token. -/
def report (cursor : Cursor) (token : Token) (fault : GrammarFault) : Cursor :=
  { cursor with
    diagnostics := cursor.diagnostics ++ [Diagnostic.atToken token "Parser" fault.message] }

/-- The tokens that can start a statement, at which parsing goes on after an error. -/
def isBoundary (kind : TokenKind) : Bool :=
  [.classWord, .funWord, .varWord, .forWord, .ifWord, .whileWord, .printWord,
    .returnWord].contains kind

/-- The tokens from the next boundary on: behind a semicolon or before the start of a statement;
`previous` is the token before `rest`. -/
def skipToBoundary (previous : Token) : List Token → List Token
  | [] => []
  | token :: rest =>
      if previous.kind == .semicolon || isBoundary token.kind then token :: rest
      else skipToBoundary token rest

/-- A cursor moved behind the next token and on to a boundary. -/
def synchronize (cursor : Cursor) : Cursor :=
  match cursor.rest with
  | [] => cursor
  | token :: rest => { cursor with rest := skipToBoundary token rest }

end Cursor

namespace Rule

/-- Abandons a rule because of the next token. -/
def fail {α : Type} (fault : GrammarFault) : Rule α :=
  fun cursor => .error .fault (cursor.report cursor.peek fault)

/-- Abandons a rule because too many rules are open. -/
def tooDeep {α : Type} : Rule α :=
  fun cursor => .error .depth cursor

/-- Queues a diagnostic and goes on. -/
def report (token : Token) (fault : GrammarFault) : Rule Unit :=
  fun cursor => .ok () (cursor.report token fault)

/-- Queues a diagnostic at the next token and goes on. -/
def reportNext (fault : GrammarFault) : Rule Unit :=
  fun cursor => .ok () (cursor.report cursor.peek fault)

/-- Whether the next token has a given kind. -/
def isNext (kind : TokenKind) : Rule Bool :=
  fun cursor =>
    match cursor.rest with
    | token :: _ => .ok (token.kind == kind) cursor
    | [] => .ok false cursor

/-- Whether all tokens have been read. -/
def isAtEnd : Rule Bool :=
  fun cursor => .ok cursor.rest.isEmpty cursor

/-- Reads the next token if it has one of the given kinds. -/
def accept? (kinds : List TokenKind) : Rule (Option Token) :=
  fun cursor =>
    match cursor.rest with
    | token :: rest =>
        if kinds.contains token.kind then .ok (some token) { cursor with rest } else .ok none cursor
    | [] => .ok none cursor

/-- Reads a token of a given kind; `phrase` says what is missing where there is none. -/
def expect (kind : TokenKind) (phrase : String) : Rule Token :=
  fun cursor =>
    match cursor.rest with
    | token :: rest =>
        if token.kind == kind then .ok token { cursor with rest }
        else fail (.expected phrase) cursor
    | [] => fail (.expected phrase) cursor

/-- The tokens that are left, as the bound of a loop. -/
def bound : Rule (List Token) :=
  fun cursor => .ok cursor.rest cursor

/-- Follows `step` from a value to the next as long as it gives one. -/
def iterate {α : Type} (step : α → Rule (Option α)) : List Token → α → Rule α
  | [], value => pure value
  | _ :: bound, value => do
      match ← step value with
      | some value => iterate step bound value
      | none => pure value

/-- The values that `item` gives for `index`, `index + 1`, … as long as it gives one. -/
def collect {α : Type} (item : Nat → Rule (Option α)) : List Token → Nat → Rule (List α)
  | [], _ => pure []
  | _ :: bound, index => do
      match ← item index with
      | some value => return value :: (← collect item bound (index + 1))
      | none => pure []

/-- One or more items with commas between them. Items beyond the greatest number are reported at
their first token and read all the same. -/
def separated {α : Type} (items : String) (item : Rule α) : Rule (List α) := do
  let first ← item
  let following : Nat → Rule (Option α) := fun index => do
    match ← accept? [.comma] with
    | none => return none
    | some _ =>
        if GrammarFault.maxItems ≤ index then reportNext (.tooMany items)
        return some (← item)
  return first :: (← collect following (← bound) 1)

/-- Items with commas between them, or none at all, up to a closing parenthesis. -/
def listed {α : Type} (items : String) (item : Rule α) : Rule (List α) := do
  if ← isNext .rightParen then return [] else separated items item

end Rule

end LoxLang

import LoxLang.Token

/-!
# Diagnostics

A diagnostic is an error that can be reported: a position in the source, the part of the program
that found it, a message, and which text is at fault. Two diagnostics are the same report when
they read the same.
-/

namespace LoxLang

/-- A single reportable error. `place` names the offending text where that is a token of the
grammar and is empty otherwise; `length` is the number of offending characters, at least one. -/
structure Diagnostic where
  position : Position
  actor : String
  message : String
  place : String := ""
  length : Nat := 1

namespace Diagnostic

/-- An error with a position but no offending token. -/
def plain (position : Position) (actor message : String) : Diagnostic :=
  { position, actor, message }

/-- A diagnostic for a given number of characters, where at least one is always meant. -/
def spanning (diagnostic : Diagnostic) (length : Int) : Diagnostic :=
  { diagnostic with length := max length.toNat 1 }

/-- An error located at a token. -/
def atToken (token : Token) (actor message : String) : Diagnostic :=
  let place := if token.kind == .endOfText then "at the end" else "'" ++ token.lexeme ++ "'"
  spanning { position := token.position, actor, message, place } token.lexeme.length

/-- What is shown in front of the message: the position, unless there is none, the actor and the
place. -/
def header (diagnostic : Diagnostic) : String :=
  let position :=
    if diagnostic.position.line == 0 then ""
    else "[Line " ++ toString diagnostic.position.line ++ ":" ++
      toString diagnostic.position.column ++ "] "
  let place := if diagnostic.place.isEmpty then "" else " " ++ diagnostic.place
  position ++ "[" ++ diagnostic.actor ++ "]" ++ place ++ ":"

/-- A diagnostic as one text. -/
def text (diagnostic : Diagnostic) : String :=
  diagnostic.header ++ " " ++ diagnostic.message

/-- The form of a diagnostic in a trace. -/
def inspect (diagnostic : Diagnostic) : String :=
  "Diagnostic(" ++ Text.quoted diagnostic.text ++ ")"

/-- Whether two diagnostics read the same. -/
def sameAs (left right : Diagnostic) : Bool :=
  left.text == right.text

end Diagnostic

end LoxLang

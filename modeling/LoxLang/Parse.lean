import LoxLang.Parser.Statements
import LoxLang.Scan

/-!
# Parsing

The rules of the grammar refer to each other, and how many of them may be open at once is limited.
The first argument of each recursive rule is the number of rules that may still be opened: a
ternary expression opens itself and the nine rules of the binary operators before it comes to a
unary one, a unary expression two more before the next full expression, and a declaration up to
five before the next declaration. Chains of operators and of calls nest nothing.

A declaration with a fault is abandoned and leaves a hole, and parsing goes on at the next boundary.
A declaration that is nested too deeply is abandoned as a whole, up to the outermost one.
-/

namespace LoxLang
namespace Grammar

open Rule

mutual

/-- Expressions. -/
def expression : Nat → Rule Expr
  | 0, cursor => tooDeep cursor
  | depth + 1, cursor => assignment depth cursor

/-- Assignments and all that binds tighter. -/
def assignment : Nat → Rule Expr
  | 0, cursor => tooDeep cursor
  | depth + 1, cursor => assignmentRule (ternary depth) (assignment depth) cursor

/-- Conditional expressions and all that binds tighter. -/
def ternary : Nat → Rule Expr
  | depth + 10, cursor => ternaryRule (logical (unary depth)) (ternary (depth + 9)) cursor
  | _, cursor => tooDeep cursor

/-- Signs, negations, calls and primary expressions. -/
def unary : Nat → Rule Expr
  | depth + 3, cursor => unaryRule (unary (depth + 2)) (call (expression depth)) cursor
  | _, cursor => tooDeep cursor

end

/-- Declarations and statements. -/
def declaration : Nat → Rule Stmt
  | depth + 5, cursor =>
      recovering
        (declarationRule (expression (depth + 2)) (declaration (depth + 2)) (declaration depth))
        cursor
  | _, cursor => tooDeep cursor

/-- The outermost declaration at a cursor, a hole if it is nested too deeply. -/
def outermost (limit : Nat) (cursor : Cursor) : Stmt × Cursor :=
  match declaration limit cursor with
  | .ok statement cursor => (statement, cursor)
  | .error _ cursor => (.hole, (cursor.report cursor.peek .tooDeep).synchronize)

/-- All declarations from a cursor on, at most as many as the list has tokens. -/
def declarations (limit : Nat) : List Token → Cursor → List Stmt × Cursor
  | [], cursor => ([], cursor)
  | _ :: bound, cursor =>
      if cursor.rest.isEmpty then ([], cursor)
      else
        let (statement, cursor) := outermost limit cursor
        let (statements, cursor) := declarations limit bound cursor
        (statement :: statements, cursor)

end Grammar

/-- What parsing a program gives: its statements, with a hole for every declaration that could not
be parsed, and its diagnostics. -/
structure Parse where
  statements : List Stmt
  diagnostics : List Diagnostic

namespace Parse

/-- The number of rules that may be open at once. -/
def nestingLimit : Nat := 992

/-- The statements of a program in interactive mode, where a bare expression at the end is
printed. -/
def echoLast : List Stmt → List Stmt
  | [] => []
  | [statement] => [statement.echo]
  | statement :: rest => statement :: echoLast rest

/-- The parse of a list of tokens under a given limit of nesting. -/
def ofTokens (limit : Nat) (interactive : Bool) (tokens : List Token) (ending : Token) : Parse :=
  let (statements, cursor) := Grammar.declarations limit tokens ⟨tokens, ending, []⟩
  { statements := if interactive then echoLast statements else statements
    diagnostics := cursor.diagnostics }

/-- The parse of a scanned text. -/
def ofScan (interactive : Bool) (scan : Scan) : Parse :=
  ofTokens nestingLimit interactive scan.tokens scan.ending

/-- The parse of a source text, with the diagnostics of its scan in front. -/
def ofText (interactive : Bool) (text : List Char) : Parse :=
  let scan := Scan.ofText interactive text
  let parse := ofScan interactive scan
  { parse with diagnostics := scan.diagnostics ++ parse.diagnostics }

end Parse

end LoxLang

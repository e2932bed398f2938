import LoxLang.Tree.Source

/-!
# Printing trees

The printer opens calls for the parts of a tree, one inside the other, and there is room for only so
many of them: a tree that is nested too deeply is not printed at all. A chain of operators is nested
as deeply as it is long, because its operands are grouped to the left.

An expression takes two calls more than its parts, one to find its form and one for the form itself,
and so does a statement. The arguments of a call and the statements of a body are written by loops
of their own, which take two calls more.
-/

namespace LoxLang

/-- What is printed if there is room enough; the argument is the number of calls that may still be
opened. -/
abbrev Printing := ReaderT Nat Option

namespace Printing

/-- Opens some calls, one inside the other, and prints inside of them. -/
def within {α : Type} (calls : Nat) (inner : Printing α) : Printing α :=
  fun room => if calls ≤ room then inner (room - calls) else none

end Printing

namespace Printer

open Printing

/-- The calls that a literal takes. A number takes two more, for its decimal digits. -/
def literalCalls : Value → Nat
  | .number _ _ => 5
  | _ => 3

mutual

/-- Prints an expression. -/
def expression : Expr → Printing String
  | .literal value => within (literalCalls value) (pure value.source)
  | .variable name => within 2 (pure name.lexeme)
  | .assign name value => within 2 do return name.lexeme ++ " = " ++ (← expression value)
  | .unary operator right => within 2 do return operator.lexeme ++ (← expression right)
  | .binary left operator right =>
      within 2 do
        return (← expression left) ++ " " ++ operator.lexeme ++ " " ++ (← expression right)
  | .logical left operator right =>
      within 2 do
        return (← expression left) ++ " " ++ operator.lexeme ++ " " ++ (← expression right)
  | .ternary condition thenBranch elseBranch =>
      within 2 do
        return (← expression condition) ++ " ? " ++ (← expression thenBranch) ++ " : " ++
          (← expression elseBranch)
  | .grouping inner => within 2 do return "(" ++ (← expression inner) ++ ")"
  | .call callee _ arguments =>
      within 2 do
        let arguments ← within 2 (expressions arguments)
        return (← expression callee) ++ "(" ++ ", ".intercalate arguments ++ ")"

/-- Prints expressions one after another. -/
def expressions : List Expr → Printing (List String)
  | [] => pure []
  | first :: rest => do return (← expression first) :: (← expressions rest)

end

/-- Prints an expression that may be absent. -/
def optional : Option Expr → Printing (Option String)
  | none => pure none
  | some value => do return some (← expression value)

/-- Prints the head of a `for` loop; `initializer` is the text of its initializer. -/
def forHead (initializer : String) (condition : Expr) (increment : Option Expr) :
    Printing String := do
  return Stmt.forHead initializer (← expression condition) (← optional increment)

/-- The calls that the head of a loop takes besides those of its clauses. A `while` loop with an
increment is printed as a `for` loop. -/
def loopCalls : Option Expr → Nat
  | none => 0
  | some _ => 1

/-- Prints the head of a `while` loop. -/
def loopHead (condition : Expr) (increment : Option Expr) : Printing String := do
  return Stmt.loopHead (← expression condition) (← optional increment)

mutual

/-- Prints a statement that is nested `depth` times; its first line is not indented. -/
def statement (depth : Int) (tree : Stmt) : Printing String :=
  match tree with
  | .hole => pure Stmt.noInitializer
  | .expression value => within 2 do return (← expression value) ++ ";"
  | .print value => within 2 do return "print " ++ (← expression value) ++ ";"
  | .var name none => within 2 (pure ("var " ++ name.lexeme ++ ";"))
  | .var name (some value) =>
      within 2 do return "var " ++ name.lexeme ++ " = " ++ (← expression value) ++ ";"
  | .block [initializer, .whileLoop condition body increment] =>
      if initializer.isInitializer then
        within 3 do
          let initializer ← statement depth initializer
          return (← forHead initializer condition increment) ++ (← branch depth body)
      else
        within 4 do
          let lines ← lines (depth + 1) [initializer, .whileLoop condition body increment]
          return Stmt.braces depth lines
  | .block statements => within 4 do return Stmt.braces depth (← lines (depth + 1) statements)
  | .ifElse condition thenBranch none =>
      within 2 do
        return "if (" ++ (← expression condition) ++ ") " ++ (← branch depth thenBranch)
  | .ifElse condition thenBranch (some elseBranch) =>
      within 2 do
        return "if (" ++ (← expression condition) ++ ") " ++ (← branch depth thenBranch) ++
          " else " ++ (← branch depth elseBranch)
  | .whileLoop condition body increment =>
      within (2 + loopCalls increment) do
        return (← loopHead condition increment) ++ (← branch depth body)
  | .forLoop none condition increment body =>
      within 5 do
        let condition := condition.getD (.literal (.boolean true))
        return (← forHead Stmt.noInitializer condition increment) ++ (← branch depth body)
  | .forLoop (some initializer) condition increment body =>
      let condition := condition.getD (.literal (.boolean true))
      if initializer.isInitializer then
        within 5 do
          let initializer ← statement depth initializer
          return (← forHead initializer condition increment) ++ (← branch depth body)
      else
        within 6 do
          let initializer ← statement (depth + 1) initializer
          let loop ← within (2 + loopCalls increment) do
            return (← loopHead condition increment) ++ (← branch (depth + 1) body)
          return Stmt.braces depth
            [Stmt.indent (depth + 1) ++ initializer, Stmt.indent (depth + 1) ++ loop]
  | .breakLoop _ => within 2 (pure "break;")
  | .continueLoop _ => within 2 (pure "continue;")
  | .function name parameters body =>
      within 4 do
        return "fun " ++ name.lexeme ++ "(" ++ ", ".intercalate (parameters.map (·.lexeme)) ++
          ") " ++ Stmt.braces depth (← lines (depth + 1) body)
  | .returnValue _ none => within 2 (pure "return;")
  | .returnValue _ (some value) => within 2 do return "return " ++ (← expression value) ++ ";"
termination_by (sizeOf tree, 0)

/-- Prints a branch or the body of a loop, always in braces. -/
def branch (depth : Int) (tree : Stmt) : Printing String :=
  match tree with
  | .block statements => within 3 do return Stmt.braces depth (← lines (depth + 1) statements)
  | .hole => within 3 (pure (Stmt.braces depth []))
  | tree =>
      within 3 do
        return Stmt.braces depth [Stmt.indent (depth + 1) ++ (← statement (depth + 1) tree)]
termination_by (sizeOf tree, 1)

/-- Prints statements that are nested `depth` times, each on a line of its own, without holes. -/
def lines (depth : Int) (trees : List Stmt) : Printing (List String) :=
  match trees with
  | [] => pure []
  | .hole :: rest => lines depth rest
  | first :: rest => do
      return (Stmt.indent depth ++ (← statement depth first)) :: (← lines depth rest)
termination_by (sizeOf trees, 0)

end

/-- The number of calls that the printer may open, one inside the other. The host allows a thousand,
and four of them lead to the printer where a file is run. -/
def callLimit : Nat := 996

/-- Prints a program, one statement after another, without holes. There is no text if it is nested
too deeply. -/
def print (program : List Stmt) : Option String :=
  (within 3 do return "\n".intercalate (← lines 0 program)).run callLimit

end Printer

end LoxLang

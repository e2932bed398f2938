import LoxLang.Token

/-!
# Trees of programs

Expressions and statements, with the tokens that diagnostics point at. A declaration that could not
be parsed leaves a hole in the statement list that it belongs to. Tokens that do nothing else than
to be pointed at, keywords and parentheses, may be absent from a tree that was not parsed.

A `for` loop is an abbreviation: `Stmt.desugarFor` spells it out as a block with a `while` loop, and
a parsed program only has the spelled-out form.
-/

namespace LoxLang

/-- Expressions. A call keeps its closing parenthesis. -/
inductive Expr
  | literal (value : Value)
  | variable (name : Token)
  | assign (name : Token) (value : Expr)
  | unary (operator : Token) (right : Expr)
  | binary (left : Expr) (operator : Token) (right : Expr)
  | logical (left : Expr) (operator : Token) (right : Expr)
  | ternary (condition thenBranch elseBranch : Expr)
  | grouping (inner : Expr)
  | call (callee : Expr) (paren : Option Token) (arguments : List Expr)

/-- Statements. The increment of a `while` loop is evaluated after every iteration, also after one
cut short by `continue`; only a spelled-out `for` loop has one. -/
inductive Stmt
  | hole
  | expression (value : Expr)
  | print (value : Expr)
  | var (name : Token) (initializer : Option Expr)
  | block (statements : List Stmt)
  | ifElse (condition : Expr) (thenBranch : Stmt) (elseBranch : Option Stmt)
  | whileLoop (condition : Expr) (body : Stmt) (increment : Option Expr)
  | forLoop (initializer : Option Stmt) (condition increment : Option Expr) (body : Stmt)
  | breakLoop (keyword : Option Token)
  | continueLoop (keyword : Option Token)
  | function (name : Token) (parameters : List Token) (body : List Stmt)
  | returnValue (keyword : Option Token) (value : Option Expr)

namespace Stmt

/-- A `for` loop spelled out: a block of its initializer and a `while` loop, where a missing
initializer is a hole and a missing condition is `true`. -/
def desugarFor (initializer : Option Stmt) (condition increment : Option Expr) (body : Stmt) :
    Stmt :=
  .block [initializer.getD .hole,
    .whileLoop (condition.getD (.literal (.boolean true))) body increment]

/-- A statement with an outermost `for` loop spelled out. -/
def desugar : Stmt → Stmt
  | .forLoop initializer condition increment body =>
      desugarFor initializer condition increment body
  | statement => statement

/-- In interactive mode the value of a bare expression is printed. -/
def echo : Stmt → Stmt
  | .expression value => .print value
  | statement => statement

end Stmt

end LoxLang

import LoxLang.Parser.Cursor

/-!
# Rules for expressions

Each rule is given the rules that it refers to. From the loosest to the tightest binding:

```
assignment ::= IDENTIFIER "=" assignment | ternary
ternary    ::= logical ("?" ternary ":" ternary)?
logical    ::= equality (("and" | "or") equality)*
equality   ::= comparison (("==" | "!=") comparison)*
comparison ::= term (("<" | ">" | "<=" | ">=") term)*
term       ::= factor (("+" | "-") factor)*
factor     ::= unary (("*" | "/") unary)*
unary      ::= ("!" | "-") unary | call
call       ::= primary ("(" arguments? ")")*
arguments  ::= expression ("," expression)*
primary    ::= "true" | "false" | "nil" | NUMBER | STRING | IDENTIFIER | "(" expression ")"
```
-/

namespace LoxLang
namespace Grammar

open Rule

/-- Operands with operators between them, grouped to the left. -/
def chain (operators : List TokenKind) (join : Expr → Token → Expr → Expr) (operand : Rule Expr) :
    Rule Expr := do
  let first ← operand
  let extend : Expr → Rule (Option Expr) := fun left => do
    match ← accept? operators with
    | none => return none
    | some operator => return some (join left operator (← operand))
  iterate extend (← bound) first

/-- Products and quotients. -/
def factor (unary : Rule Expr) : Rule Expr :=
  chain [.slash, .star] .binary unary

/-- Sums and differences. -/
def term (unary : Rule Expr) : Rule Expr :=
  chain [.minus, .plus] .binary (factor unary)

/-- Order comparisons. -/
def comparison (unary : Rule Expr) : Rule Expr :=
  chain [.greater, .greaterEqual, .less, .lessEqual] .binary (term unary)

/-- Equalities and inequalities. -/
def equality (unary : Rule Expr) : Rule Expr :=
  chain [.bangEqual, .equalEqual] .binary (comparison unary)

/-- Conjunctions and disjunctions, which bind alike. -/
def logical (unary : Rule Expr) : Rule Expr :=
  chain [.andWord, .orWord] .logical (equality unary)

/-- Conditional expressions. -/
def ternaryRule (logical ternary : Rule Expr) : Rule Expr := do
  let condition ← logical
  match ← accept? [.question] with
  | none => return condition
  | some _ =>
      let thenBranch ← ternary
      let _ ← expect .colon "':' in ternary expression"
      let elseBranch ← ternary
      return .ternary condition thenBranch elseBranch

/-- Assignments. What is assigned to something else than a variable is read, reported and
dropped. -/
def assignmentRule (ternary assignment : Rule Expr) : Rule Expr := do
  let target ← ternary
  match ← accept? [.equal] with
  | none => return target
  | some equals =>
      let value ← assignment
      match target with
      | .variable name => return .assign name value
      | _ =>
          report equals .invalidTarget
          return target

/-- Signs and negations. -/
def unaryRule (unary call : Rule Expr) : Rule Expr := do
  match ← accept? [.bang, .minus] with
  | some operator => return .unary operator (← unary)
  | none => call

/-- Constants, variables and groups. -/
def primary (expression : Rule Expr) : Rule Expr := do
  match ← accept? [.falseWord, .trueWord, .nilWord, .number, .string, .identifier, .leftParen] with
  | none => fail (.expected "expression")
  | some token =>
      match token.kind with
      | .falseWord => return .literal (.boolean false)
      | .trueWord => return .literal (.boolean true)
      | .nilWord => return .literal .nil
      | .identifier => return .variable token
      | .leftParen =>
          let inner ← expression
          let _ ← expect .rightParen "')' after expression"
          return .grouping inner
      | _ => return .literal token.literal

/-- The arguments of a call, from behind its opening parenthesis on. -/
def arguments (expression : Rule Expr) (callee : Expr) : Rule Expr := do
  let arguments ← listed "arguments" expression
  let paren ← expect .rightParen "')' after arguments"
  return .call callee (some paren) arguments

/-- Calls of calls of … of a primary expression. -/
def call (expression : Rule Expr) : Rule Expr := do
  let first ← primary expression
  let extend : Expr → Rule (Option Expr) := fun callee => do
    match ← accept? [.leftParen] with
    | none => return none
    | some _ => return some (← arguments expression callee)
  iterate extend (← bound) first

end Grammar
end LoxLang

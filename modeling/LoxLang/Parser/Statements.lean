import LoxLang.Parser.Expressions

/-!
# Rules for statements

Each rule is given the rules that it refers to.

```
declaration   ::= varDecl | funDecl | statement
varDecl       ::= "var" IDENTIFIER ("=" expression)? ";"
funDecl       ::= "fun" IDENTIFIER "(" parameters? ")" block
parameters    ::= IDENTIFIER ("," IDENTIFIER)*
statement     ::= printStmt | block | ifStmt | whileStmt | forStmt | breakStmt | continueStmt
                | returnStmt | exprStmt
printStmt     ::= "print" expression ";"
block         ::= "{" declaration* "}"
ifStmt        ::= "if" condition block ("else" block)?
whileStmt     ::= "while" condition block
condition     ::= "(" expression ")" | expression
forStmt       ::= "for" "(" (varDecl | exprStmt | ";") expression? ";" expression? ")" block
breakStmt     ::= "break" ";"
continueStmt  ::= "continue" ";"
returnStmt    ::= "return" expression? ";"
exprStmt      ::= expression ";"
```

A condition that starts with a parenthesis is always of the first form.
-/

namespace LoxLang
namespace Grammar

open Rule

/-- An expression unless the next token has the kind that ends the place for it. -/
def unlessNext (kind : TokenKind) (expression : Rule Expr) : Rule (Option Expr) := do
  if ← isNext kind then return none else return some (← expression)

/-- A variable declaration, from behind its keyword on. -/
def varDeclaration (expression : Rule Expr) : Rule Stmt := do
  let name ← expect .identifier "variable name"
  let initializer ←
    match ← accept? [.equal] with
    | some _ => some <$> expression
    | none => pure none
  let _ ← expect .semicolon "';' after variable declaration"
  return .var name initializer

/-- An expression statement. -/
def expressionStatement (expression : Rule Expr) : Rule Stmt := do
  let value ← expression
  let _ ← expect .semicolon "';' after expression"
  return .expression value

/-- A print statement, from behind its keyword on. -/
def printStatement (expression : Rule Expr) : Rule Stmt := do
  let value ← expression
  let _ ← expect .semicolon "';' after value"
  return .print value

/-- The statements of a block and its closing brace. -/
def block (declaration : Rule Stmt) : Rule (List Stmt) := do
  let statement : Nat → Rule (Option Stmt) := fun _ => do
    if (← isNext .rightBrace) || (← isAtEnd) then return none else return some (← declaration)
  let statements ← collect statement (← bound) 0
  let _ ← expect .rightBrace "'\x7d' after block"
  return statements

/-- A block with its braces; `phrase` says what it comes after. -/
def bracedBlock (phrase : String) (declaration : Rule Stmt) : Rule Stmt := do
  let _ ← expect .leftBrace ("'\x7b' after " ++ phrase)
  return .block (← block declaration)

/-- A function declaration, from behind its keyword on. -/
def functionDeclaration (declaration : Rule Stmt) : Rule Stmt := do
  let name ← expect .identifier "function name"
  let _ ← expect .leftParen "'(' after function name"
  let parameters ← listed "parameters" (expect .identifier "parameter name")
  let _ ← expect .rightParen "')' after parameters"
  let _ ← expect .leftBrace "'\x7b' before function body"
  return .function name parameters (← block declaration)

/-- The condition of a branch or loop. -/
def condition (expression : Rule Expr) : Rule Expr := do
  match ← accept? [.leftParen] with
  | none => expression
  | some _ =>
      let value ← expression
      let _ ← expect .rightParen "')' after condition"
      return value

/-- An if statement, from behind its keyword on. -/
def ifStatement (expression : Rule Expr) (declaration : Rule Stmt) : Rule Stmt := do
  let condition ← condition expression
  let thenBranch ← bracedBlock "if condition" declaration
  let elseBranch ←
    match ← accept? [.elseWord] with
    | some _ => some <$> bracedBlock "'else'" declaration
    | none => pure none
  return .ifElse condition thenBranch elseBranch

/-- A while statement, from behind its keyword on. -/
def whileStatement (expression : Rule Expr) (declaration : Rule Stmt) : Rule Stmt := do
  let condition ← condition expression
  return .whileLoop condition (← bracedBlock "while condition" declaration) none

/-- The initializer of a for statement and the semicolon behind it. -/
def forInitializer (expression : Rule Expr) : Rule (Option Stmt) := do
  match ← accept? [.semicolon, .varWord] with
  | none => some <$> expressionStatement expression
  | some token =>
      if token.kind == .semicolon then pure none else some <$> varDeclaration expression

/-- A for statement, from behind its keyword on; the tree is the spelled-out loop. -/
def forStatement (expression : Rule Expr) (declaration : Rule Stmt) : Rule Stmt := do
  let _ ← expect .leftParen "'(' after 'for'"
  let initializer ← forInitializer expression
  let condition ← unlessNext .semicolon expression
  let _ ← expect .semicolon "';' after loop condition"
  let increment ← unlessNext .rightParen expression
  let _ ← expect .rightParen "')' after for clauses"
  let body ← bracedBlock "for clauses" declaration
  return Stmt.desugarFor initializer condition increment body

/-- A break or continue statement, from behind its keyword on; `word` is that keyword. -/
def loopExit (word : String) (statement : Stmt) : Rule Stmt := do
  let _ ← expect .semicolon ("';' after '" ++ word ++ "'")
  return statement

/-- A return statement, from behind its keyword on. -/
def returnStatement (keyword : Token) (expression : Rule Expr) : Rule Stmt := do
  let value ← unlessNext .semicolon expression
  let _ ← expect .semicolon "';' after return value"
  return .returnValue (some keyword) value

/-- A declaration or statement; `nested` is the rule for the declarations in the bodies of branches
and loops. -/
def declarationRule (expression : Rule Expr) (declaration nested : Rule Stmt) : Rule Stmt := do
  match ← accept? [.varWord, .funWord, .printWord, .leftBrace, .ifWord, .whileWord, .forWord,
    .breakWord, .continueWord, .returnWord] with
  | none => expressionStatement expression
  | some keyword =>
      match keyword.kind with
      | .varWord => varDeclaration expression
      | .funWord => functionDeclaration declaration
      | .printWord => printStatement expression
      | .leftBrace => return .block (← block declaration)
      | .ifWord => ifStatement expression nested
      | .whileWord => whileStatement expression nested
      | .forWord => forStatement expression nested
      | .breakWord => loopExit "break" (.breakLoop (some keyword))
      | .continueWord => loopExit "continue" (.continueLoop (some keyword))
      | _ => returnStatement keyword expression

/-- A rule for declarations that goes on at the next boundary where it is abandoned because of a
fault, leaving a hole. -/
def recovering (rule : Rule Stmt) : Rule Stmt := fun cursor =>
  match rule cursor with
  | .error .fault cursor => .ok .hole cursor.synchronize
  | reply => reply

end Grammar
end LoxLang

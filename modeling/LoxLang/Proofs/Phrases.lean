import Mathlib
import LoxLang.Tree

/-!
# The grammar

The grammar of the language as a relation between tokens and trees, with no mention of how tokens
are read. A phrase relates the tokens of a construct to its tree; the phrases in the namespace
`Phrase` are the productions, each given the phrases that it refers to, and `Grammar.Expression`,
`Grammar.Declaration` and `Grammar.Program` tie them together.

```
program     ::= declaration*
declaration ::= varDecl | funDecl | statement
varDecl     ::= "var" IDENTIFIER ("=" expression)? ";"
funDecl     ::= "fun" IDENTIFIER "(" parameters? ")" block
statement   ::= "print" expression ";" | block | "if" condition block ("else" block)?
              | "while" condition block
              | "for" "(" (varDecl | exprStmt | ";") expression? ";" expression? ")" block
              | "break" ";" | "continue" ";" | "return" expression? ";" | exprStmt
exprStmt    ::= expression ";"
block       ::= "{" declaration* "}"
condition   ::= "(" expression ")" | expression
```

A condition of the second form does not start with a parenthesis, and calls and functions have at
most 255 arguments and parameters. Operators on one level group to the left.
-/

namespace LoxLang
namespace Grammar

/-- A phrase of the grammar: which tokens stand for which trees. -/
abbrev Phrase (α : Type) := List Token → α → Prop

namespace Phrase

/-- `operand (operator operand)*`, grouped to the left. -/
inductive Chain (operators : List TokenKind) (join : Expr → Token → Expr → Expr)
    (Operand : Phrase Expr) : Phrase Expr
  | operand {tokens : List Token} {tree : Expr} (operand : Operand tokens tree) :
      Chain operators join Operand tokens tree
  | joined {left right : List Token} {operator : Token} {first second : Expr}
      (chain : Chain operators join Operand left first) (isOperator : operator.kind ∈ operators)
      (operand : Operand right second) :
      Chain operators join Operand (left ++ operator :: right) (join first operator second)

/-- `item*`. -/
inductive Many {α : Type} (Item : Phrase α) : Phrase (List α)
  | done : Many Item [] []
  | more {tokens rest : List Token} {tree : α} {trees : List α} (item : Item tokens tree)
      (others : Many Item rest trees) : Many Item (tokens ++ rest) (tree :: trees)

/-- `"," item`. -/
inductive Further {α : Type} (Item : Phrase α) : Phrase α
  | rule {comma : Token} {tokens : List Token} {tree : α} (isComma : comma.kind = .comma)
      (item : Item tokens tree) : Further Item (comma :: tokens) tree

/-- `(item ("," item)*)?` with at most 255 items. -/
inductive Items {α : Type} (Item : Phrase α) : Phrase (List α)
  | absent : Items Item [] []
  | present {tokens rest : List Token} {tree : α} {trees : List α} (item : Item tokens tree)
      (others : Many (Further Item) rest trees) (atMost : (tree :: trees).length ≤ 255) :
      Items Item (tokens ++ rest) (tree :: trees)

/-- `item?`. -/
inductive Optional {α : Type} (Item : Phrase α) : Phrase (Option α)
  | absent : Optional Item [] none
  | present {tokens : List Token} {tree : α} (item : Item tokens tree) :
      Optional Item tokens (some tree)

/-! ### Expressions -/

/-- `"true" | "false" | "nil" | NUMBER | STRING | IDENTIFIER | "(" expression ")"`. -/
inductive Primary (Expression : Phrase Expr) : Phrase Expr
  | trueWord {token : Token} (isTrue : token.kind = .trueWord) :
      Primary Expression [token] (.literal (.boolean true))
  | falseWord {token : Token} (isFalse : token.kind = .falseWord) :
      Primary Expression [token] (.literal (.boolean false))
  | nilWord {token : Token} (isNil : token.kind = .nilWord) :
      Primary Expression [token] (.literal .nil)
  | number {token : Token} (isNumber : token.kind = .number) :
      Primary Expression [token] (.literal token.literal)
  | string {token : Token} (isString : token.kind = .string) :
      Primary Expression [token] (.literal token.literal)
  | identifier {token : Token} (isIdentifier : token.kind = .identifier) :
      Primary Expression [token] (.variable token)
  | group {left right : Token} {tokens : List Token} {tree : Expr}
      (isLeft : left.kind = .leftParen) (inner : Expression tokens tree)
      (isRight : right.kind = .rightParen) :
      Primary Expression (left :: tokens ++ [right]) (.grouping tree)

/-- `primary ("(" arguments? ")")*`. -/
inductive Call (Expression : Phrase Expr) : Phrase Expr
  | primary {tokens : List Token} {tree : Expr} (primary : Primary Expression tokens tree) :
      Call Expression tokens tree
  | call {left right : Token} {tokens arguments : List Token} {callee : Expr} {trees : List Expr}
      (called : Call Expression tokens callee) (isLeft : left.kind = .leftParen)
      (items : Items Expression arguments trees) (isRight : right.kind = .rightParen) :
      Call Expression (tokens ++ left :: arguments ++ [right]) (.call callee (some right) trees)

/-- `("!" | "-") unary | call`. -/
inductive Unary (Operand Call : Phrase Expr) : Phrase Expr
  | signed {operator : Token} {tokens : List Token} {tree : Expr}
      (isOperator : operator.kind ∈ [.bang, .minus]) (operand : Operand tokens tree) :
      Unary Operand Call (operator :: tokens) (.unary operator tree)
  | call {tokens : List Token} {tree : Expr} (call : Call tokens tree) :
      Unary Operand Call tokens tree

/-- The chains of binary operators over unary expressions: `and` and `or`, equalities, comparisons,
sums and products, from the loosest to the tightest. -/
abbrev Logical (Unary : Phrase Expr) : Phrase Expr :=
  Chain [.andWord, .orWord] .logical
    (Chain [.bangEqual, .equalEqual] .binary
      (Chain [.greater, .greaterEqual, .less, .lessEqual] .binary
        (Chain [.minus, .plus] .binary (Chain [.slash, .star] .binary Unary))))

/-- `logical ("?" ternary ":" ternary)?`. -/
inductive Ternary (Logical Branch : Phrase Expr) : Phrase Expr
  | plain {tokens : List Token} {tree : Expr} (logical : Logical tokens tree) :
      Ternary Logical Branch tokens tree
  | choice {question colon : Token} {tokens first second : List Token}
      {condition thenBranch elseBranch : Expr} (logical : Logical tokens condition)
      (isQuestion : question.kind = .question) (thenPart : Branch first thenBranch)
      (isColon : colon.kind = .colon) (elsePart : Branch second elseBranch) :
      Ternary Logical Branch (tokens ++ question :: first ++ colon :: second)
        (.ternary condition thenBranch elseBranch)

/-- `IDENTIFIER "=" assignment | ternary`. -/
inductive Assignment (Ternary Value : Phrase Expr) : Phrase Expr
  | plain {tokens : List Token} {tree : Expr} (ternary : Ternary tokens tree) :
      Assignment Ternary Value tokens tree
  | assign {name equals : Token} {tokens : List Token} {tree : Expr}
      (isIdentifier : name.kind = .identifier) (isEqual : equals.kind = .equal)
      (value : Value tokens tree) :
      Assignment Ternary Value (name :: equals :: tokens) (.assign name tree)

/-! ### Declarations and statements -/

/-- `"var" IDENTIFIER ("=" expression)? ";"`. -/
inductive VarDeclaration (Expression : Phrase Expr) : Phrase Stmt
  | plain {keyword name semicolon : Token} (isVar : keyword.kind = .varWord)
      (isIdentifier : name.kind = .identifier) (isSemicolon : semicolon.kind = .semicolon) :
      VarDeclaration Expression [keyword, name, semicolon] (.var name none)
  | initialized {keyword name equals semicolon : Token} {tokens : List Token} {tree : Expr}
      (isVar : keyword.kind = .varWord) (isIdentifier : name.kind = .identifier)
      (isEqual : equals.kind = .equal) (value : Expression tokens tree)
      (isSemicolon : semicolon.kind = .semicolon) :
      VarDeclaration Expression (keyword :: name :: equals :: tokens ++ [semicolon])
        (.var name (some tree))

/-- `expression ";"`. -/
inductive ExpressionStatement (Expression : Phrase Expr) : Phrase Stmt
  | rule {semicolon : Token} {tokens : List Token} {tree : Expr} (value : Expression tokens tree)
      (isSemicolon : semicolon.kind = .semicolon) :
      ExpressionStatement Expression (tokens ++ [semicolon]) (.expression tree)

/-- `"{" declaration* "}"`. -/
inductive Block (Declaration : Phrase Stmt) : Phrase (List Stmt)
  | rule {left right : Token} {tokens : List Token} {trees : List Stmt}
      (isLeft : left.kind = .leftBrace) (declarations : Many Declaration tokens trees)
      (isRight : right.kind = .rightBrace) :
      Block Declaration (left :: tokens ++ [right]) trees

/-- `"(" expression ")" | expression`, where the second form does not start with a parenthesis. -/
inductive Condition (Expression : Phrase Expr) : Phrase Expr
  | grouped {left right : Token} {tokens : List Token} {tree : Expr}
      (isLeft : left.kind = .leftParen) (inner : Expression tokens tree)
      (isRight : right.kind = .rightParen) :
      Condition Expression (left :: tokens ++ [right]) tree
  | bare {tokens : List Token} {tree : Expr} (value : Expression tokens tree)
      (noParen : ∀ first ∈ tokens.head?, first.kind ≠ .leftParen) :
      Condition Expression tokens tree

/-- `varDecl | exprStmt | ";"`, the initializer of a `for` loop. -/
inductive Initializer (Expression : Phrase Expr) : Phrase (Option Stmt)
  | absent {semicolon : Token} (isSemicolon : semicolon.kind = .semicolon) :
      Initializer Expression [semicolon] none
  | var {tokens : List Token} {tree : Stmt} (declaration : VarDeclaration Expression tokens tree) :
      Initializer Expression tokens (some tree)
  | expression {tokens : List Token} {tree : Stmt}
      (statement : ExpressionStatement Expression tokens tree) :
      Initializer Expression tokens (some tree)

/-- `IDENTIFIER`, as a parameter of a function. -/
inductive Parameter : Phrase Token
  | rule {name : Token} (isIdentifier : name.kind = .identifier) : Parameter [name] name

/-- `varDecl | funDecl | statement`. The declarations in the bodies of branches and loops are given
apart from those in other blocks. -/
inductive Declaration (Expression : Phrase Expr) (Inner Nested : Phrase Stmt) : Phrase Stmt
  | var {tokens : List Token} {tree : Stmt} (declaration : VarDeclaration Expression tokens tree) :
      Declaration Expression Inner Nested tokens tree
  | function {keyword name left right : Token} {parameters body : List Token} {names : List Token}
      {trees : List Stmt} (isFun : keyword.kind = .funWord)
      (isIdentifier : name.kind = .identifier) (isLeft : left.kind = .leftParen)
      (items : Items Parameter parameters names) (isRight : right.kind = .rightParen)
      (block : Block Inner body trees) :
      Declaration Expression Inner Nested
        (keyword :: name :: left :: parameters ++ right :: body) (.function name names trees)
  | print {keyword semicolon : Token} {tokens : List Token} {tree : Expr}
      (isPrint : keyword.kind = .printWord) (value : Expression tokens tree)
      (isSemicolon : semicolon.kind = .semicolon) :
      Declaration Expression Inner Nested (keyword :: tokens ++ [semicolon]) (.print tree)
  | block {tokens : List Token} {trees : List Stmt} (block : Block Inner tokens trees) :
      Declaration Expression Inner Nested tokens (.block trees)
  | ifThen {keyword : Token} {tokens first : List Token} {condition : Expr}
      {thenTrees : List Stmt} (isIf : keyword.kind = .ifWord)
      (tested : Condition Expression tokens condition) (thenBlock : Block Nested first thenTrees) :
      Declaration Expression Inner Nested (keyword :: tokens ++ first)
        (.ifElse condition (.block thenTrees) none)
  | ifElse {keyword otherwise : Token} {tokens first second : List Token} {condition : Expr}
      {thenTrees elseTrees : List Stmt} (isIf : keyword.kind = .ifWord)
      (tested : Condition Expression tokens condition) (thenBlock : Block Nested first thenTrees)
      (isElse : otherwise.kind = .elseWord) (elseBlock : Block Nested second elseTrees) :
      Declaration Expression Inner Nested
        (keyword :: tokens ++ first ++ otherwise :: second)
        (.ifElse condition (.block thenTrees) (some (.block elseTrees)))
  | whileLoop {keyword : Token} {tokens body : List Token} {condition : Expr}
      {trees : List Stmt} (isWhile : keyword.kind = .whileWord)
      (tested : Condition Expression tokens condition) (block : Block Nested body trees) :
      Declaration Expression Inner Nested (keyword :: tokens ++ body)
        (.whileLoop condition (.block trees) none)
  | forLoop {keyword left semicolon right : Token} {first second third body : List Token}
      {initializer : Option Stmt} {condition increment : Option Expr} {trees : List Stmt}
      (isFor : keyword.kind = .forWord) (isLeft : left.kind = .leftParen)
      (started : Initializer Expression first initializer)
      (tested : Optional Expression second condition)
      (isSemicolon : semicolon.kind = .semicolon)
      (stepped : Optional Expression third increment) (isRight : right.kind = .rightParen)
      (block : Block Nested body trees) :
      Declaration Expression Inner Nested
        (keyword :: left :: first ++ second ++ semicolon :: third ++ right :: body)
        (Stmt.desugarFor initializer condition increment (.block trees))
  | breakLoop {keyword semicolon : Token} (isBreak : keyword.kind = .breakWord)
      (isSemicolon : semicolon.kind = .semicolon) :
      Declaration Expression Inner Nested [keyword, semicolon] (.breakLoop (some keyword))
  | continueLoop {keyword semicolon : Token} (isContinue : keyword.kind = .continueWord)
      (isSemicolon : semicolon.kind = .semicolon) :
      Declaration Expression Inner Nested [keyword, semicolon]
        (.continueLoop (some keyword))
  | returnValue {keyword semicolon : Token} {tokens : List Token} {value : Option Expr}
      (isReturn : keyword.kind = .returnWord) (given : Optional Expression tokens value)
      (isSemicolon : semicolon.kind = .semicolon) :
      Declaration Expression Inner Nested (keyword :: tokens ++ [semicolon])
        (.returnValue (some keyword) value)
  | expression {tokens : List Token} {tree : Stmt}
      (statement : ExpressionStatement Expression tokens tree) :
      Declaration Expression Inner Nested tokens tree

end Phrase

mutual

/-- Expressions: `assignment`. -/
inductive Expression : Phrase Expr
  | rule {tokens : List Token} {tree : Expr}
      (assignment : Phrase.Assignment Ternary Expression tokens tree) : Expression tokens tree

/-- Conditional expressions and all that binds tighter; the chains are those of
`Phrase.Logical`. -/
inductive Ternary : Phrase Expr
  | rule {tokens : List Token} {tree : Expr}
      (ternary : Phrase.Ternary
        (Phrase.Chain [.andWord, .orWord] .logical
          (Phrase.Chain [.bangEqual, .equalEqual] .binary
            (Phrase.Chain [.greater, .greaterEqual, .less, .lessEqual] .binary
              (Phrase.Chain [.minus, .plus] .binary
                (Phrase.Chain [.slash, .star] .binary Unary)))))
        Ternary tokens tree) : Ternary tokens tree

/-- Signs, negations, calls and primary expressions. -/
inductive Unary : Phrase Expr
  | rule {tokens : List Token} {tree : Expr}
      (unary : Phrase.Unary Unary (Phrase.Call Expression) tokens tree) : Unary tokens tree

end

/-- Declarations and statements. -/
inductive Declaration : Phrase Stmt
  | rule {tokens : List Token} {tree : Stmt}
      (declaration : Phrase.Declaration Expression Declaration Declaration tokens tree) :
      Declaration tokens tree

/-- Programs: any number of declarations. -/
def Program : Phrase (List Stmt) := Phrase.Many Declaration

end Grammar
end LoxLang

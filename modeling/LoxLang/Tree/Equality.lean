import LoxLang.Tree

/-!
# Equality of trees

Two trees are the same when they have the same forms, the same constants and the same tokens, where
the positions of tokens do not count: differently laid out source texts give the same trees.
-/

namespace LoxLang

namespace Token

/-- Whether two lists of tokens are the same. -/
def allSame : List Token → List Token → Bool
  | [], [] => true
  | left :: lefts, right :: rights => left.sameAs right && allSame lefts rights
  | _, _ => false

/-- Whether two optional tokens are the same. -/
def optionSame : Option Token → Option Token → Bool
  | none, none => true
  | some left, some right => left.sameAs right
  | _, _ => false

end Token

namespace Expr

mutual

/-- Whether two expressions are the same. -/
def sameAs : Expr → Expr → Bool
  | .literal left, .literal right => left.sameAs right
  | .variable left, .variable right => left.sameAs right
  | .assign leftName left, .assign rightName right => leftName.sameAs rightName && left.sameAs right
  | .unary leftOperator left, .unary rightOperator right =>
      leftOperator.sameAs rightOperator && left.sameAs right
  | .binary left₁ leftOperator left₂, .binary right₁ rightOperator right₂ =>
      left₁.sameAs right₁ && leftOperator.sameAs rightOperator && left₂.sameAs right₂
  | .logical left₁ leftOperator left₂, .logical right₁ rightOperator right₂ =>
      left₁.sameAs right₁ && leftOperator.sameAs rightOperator && left₂.sameAs right₂
  | .ternary left₁ left₂ left₃, .ternary right₁ right₂ right₃ =>
      left₁.sameAs right₁ && left₂.sameAs right₂ && left₃.sameAs right₃
  | .grouping left, .grouping right => left.sameAs right
  | .call left leftParen lefts, .call right rightParen rights =>
      left.sameAs right && Token.optionSame leftParen rightParen && allSame lefts rights
  | _, _ => false

/-- Whether two lists of expressions are the same. -/
def allSame : List Expr → List Expr → Bool
  | [], [] => true
  | left :: lefts, right :: rights => left.sameAs right && allSame lefts rights
  | _, _ => false

end

/-- Whether two optional expressions are the same. -/
def optionSame : Option Expr → Option Expr → Bool
  | none, none => true
  | some left, some right => left.sameAs right
  | _, _ => false

end Expr

namespace Stmt

mutual

/-- Whether two statements are the same. -/
def sameAs : Stmt → Stmt → Bool
  | .hole, .hole => true
  | .expression left, .expression right => left.sameAs right
  | .print left, .print right => left.sameAs right
  | .var leftName left, .var rightName right =>
      leftName.sameAs rightName && Expr.optionSame left right
  | .block lefts, .block rights => allSame lefts rights
  | .ifElse left leftThen leftElse, .ifElse right rightThen rightElse =>
      left.sameAs right && leftThen.sameAs rightThen && optionSame leftElse rightElse
  | .whileLoop left leftBody leftIncrement, .whileLoop right rightBody rightIncrement =>
      left.sameAs right && leftBody.sameAs rightBody &&
        Expr.optionSame leftIncrement rightIncrement
  | .forLoop leftInitializer left leftIncrement leftBody,
    .forLoop rightInitializer right rightIncrement rightBody =>
      optionSame leftInitializer rightInitializer && Expr.optionSame left right &&
        Expr.optionSame leftIncrement rightIncrement && leftBody.sameAs rightBody
  | .breakLoop left, .breakLoop right => Token.optionSame left right
  | .continueLoop left, .continueLoop right => Token.optionSame left right
  | .function left leftParameters leftBody, .function right rightParameters rightBody =>
      left.sameAs right && Token.allSame leftParameters rightParameters &&
        allSame leftBody rightBody
  | .returnValue leftKeyword left, .returnValue rightKeyword right =>
      Token.optionSame leftKeyword rightKeyword && Expr.optionSame left right
  | _, _ => false

/-- Whether two lists of statements are the same. -/
def allSame : List Stmt → List Stmt → Bool
  | [], [] => true
  | left :: lefts, right :: rights => left.sameAs right && allSame lefts rights
  | _, _ => false

/-- Whether two optional statements are the same. -/
def optionSame : Option Stmt → Option Stmt → Bool
  | none, none => true
  | some left, some right => left.sameAs right
  | _, _ => false

end

end Stmt

/-- A tree of either family. -/
inductive Node
  | expression (value : Expr)
  | statement (value : Stmt)

namespace Node

/-- Whether two trees are the same; trees of different families never are. -/
def sameAs : Node → Node → Bool
  | .expression left, .expression right => left.sameAs right
  | .statement left, .statement right => left.sameAs right
  | _, _ => false

end Node

end LoxLang

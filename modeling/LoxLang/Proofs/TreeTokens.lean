import LoxLang.Callable
import LoxLang.Proofs.Acceptance
import LoxLang.Proofs.Relocation

/-!
# The tokens of a tree

The tokens that a tree holds are all that a change of positions changes in it: it leaves alone
exactly the trees whose tokens stand at places that it leaves alone. So the tokens of a tree that
was parsed stand where tokens of the text stand.
-/

namespace LoxLang

/-! ## Tokens of trees and callables -/

mutual

/-- The tokens of an expression. -/
def Expr.tokens : Expr → List Token
  | .literal _ => []
  | .variable name => [name]
  | .assign name value => name :: value.tokens
  | .unary operator right => operator :: right.tokens
  | .binary left operator right => left.tokens ++ operator :: right.tokens
  | .logical left operator right => left.tokens ++ operator :: right.tokens
  | .ternary condition thenBranch elseBranch =>
      condition.tokens ++ (thenBranch.tokens ++ elseBranch.tokens)
  | .grouping inner => inner.tokens
  | .call callee paren arguments => callee.tokens ++ (paren.toList ++ Expr.allTokens arguments)

/-- The tokens of some expressions. -/
def Expr.allTokens : List Expr → List Token
  | [] => []
  | expression :: rest => expression.tokens ++ Expr.allTokens rest

end

/-- The tokens of an expression that may be absent. -/
def Expr.optionalTokens (expression : Option Expr) : List Token :=
  expression.elim [] tokens

mutual

/-- The tokens of a statement. -/
def Stmt.tokens : Stmt → List Token
  | .hole => []
  | .expression value | .print value => value.tokens
  | .var name initializer => name :: Expr.optionalTokens initializer
  | .block statements => Stmt.allTokens statements
  | .ifElse condition thenBranch elseBranch =>
      condition.tokens ++ (thenBranch.tokens ++ Stmt.optionalTokens elseBranch)
  | .whileLoop condition body increment =>
      condition.tokens ++ (body.tokens ++ Expr.optionalTokens increment)
  | .forLoop initializer condition increment body =>
      Stmt.optionalTokens initializer ++
        (Expr.optionalTokens condition ++ (Expr.optionalTokens increment ++ body.tokens))
  | .breakLoop keyword | .continueLoop keyword => keyword.toList
  | .function name parameters body => name :: (parameters ++ Stmt.allTokens body)
  | .returnValue keyword value => keyword.toList ++ Expr.optionalTokens value

/-- The tokens of some statements. -/
def Stmt.allTokens : List Stmt → List Token
  | [] => []
  | statement :: rest => statement.tokens ++ Stmt.allTokens rest

/-- The tokens of a statement that may be absent. -/
def Stmt.optionalTokens : Option Stmt → List Token
  | none => []
  | some statement => statement.tokens

end

mutual

/-- The tokens of a callable: those of a function, and those of what a native makes or ends with. -/
def Callable.tokens : Callable → List Token
  | .native _ _ action => action.tokens
  | .function name parameters body _ => name :: (parameters ++ Stmt.allTokens body)

/-- The tokens of what a native makes or ends with. -/
def Action.tokens : Action → List Token
  | .clock | .pick _ => []
  | .produce recipe => recipe.tokens
  | .abort (.fault fault) => fault.token.toList
  | .abort _ => []

/-- The tokens of what is made. -/
def Recipe.tokens : Recipe → List Token
  | .constant _ => []
  | .callable target => target.tokens

end

/-! ## Positions that are left alone -/

variable {change : Position → Position}

theorem Token.move_eq_self_iff {token : Token} :
    token.move change = token ↔ change token.position = token.position := by
  constructor
  · intro same
    exact congrArg Token.position same
  · intro same
    rw [Token.move, same]

theorem Token.map_move_eq_self_iff {tokens : List Token} :
    tokens.map (·.move change) = tokens ↔
      ∀ token ∈ tokens, change token.position = token.position := by
  induction tokens with
  | nil => simp
  | cons token rest ih => simp [Token.move_eq_self_iff, ih]

theorem Token.optional_move_eq_self_iff {token : Option Token} :
    token.map (·.move change) = token ↔
      ∀ present ∈ token.toList, change present.position = present.position := by
  cases token with
  | none => simp
  | some token => simp [Token.move_eq_self_iff]

mutual

theorem Expr.move_eq_self_iff : ∀ expression : Expr,
    expression.move change = expression ↔
      ∀ token ∈ expression.tokens, change token.position = token.position
  | .literal _ => by simp [Expr.move, Expr.tokens]
  | .variable name => by simp [Expr.move, Expr.tokens, Token.move_eq_self_iff]
  | .assign name value => by
      simp [Expr.move, Expr.tokens, Token.move_eq_self_iff, Expr.move_eq_self_iff value]
  | .unary operator right => by
      simp [Expr.move, Expr.tokens, Token.move_eq_self_iff, Expr.move_eq_self_iff right]
  | .binary left operator right | .logical left operator right => by
      simp only [Expr.move, Expr.tokens, List.forall_mem_append, List.forall_mem_cons,
        Expr.binary.injEq, Expr.logical.injEq, Token.move_eq_self_iff,
        Expr.move_eq_self_iff left, Expr.move_eq_self_iff right]
  | .ternary condition thenBranch elseBranch => by
      simp only [Expr.move, Expr.tokens, List.forall_mem_append, Expr.ternary.injEq,
        Expr.move_eq_self_iff condition, Expr.move_eq_self_iff thenBranch,
        Expr.move_eq_self_iff elseBranch]
  | .grouping inner => by simp [Expr.move, Expr.tokens, Expr.move_eq_self_iff inner]
  | .call callee paren arguments => by
      simp only [Expr.move, Expr.tokens, List.forall_mem_append, Expr.call.injEq,
        Token.optional_move_eq_self_iff, Expr.move_eq_self_iff callee,
        Expr.moveAll_eq_self_iff arguments]

theorem Expr.moveAll_eq_self_iff : ∀ expressions : List Expr,
    Expr.moveAll change expressions = expressions ↔
      ∀ token ∈ Expr.allTokens expressions, change token.position = token.position
  | [] => by simp [Expr.moveAll, Expr.allTokens]
  | expression :: rest => by
      simp only [Expr.moveAll, Expr.allTokens, List.forall_mem_append, List.cons.injEq,
        Expr.move_eq_self_iff expression, Expr.moveAll_eq_self_iff rest]

end

theorem Expr.optional_move_eq_self_iff (expression : Option Expr) :
    expression.map (·.move change) = expression ↔
      ∀ token ∈ Expr.optionalTokens expression, change token.position = token.position := by
  cases expression with
  | none => simp [Expr.optionalTokens]
  | some expression => simp [Expr.optionalTokens, Expr.move_eq_self_iff]

mutual

theorem Stmt.move_eq_self_iff : ∀ statement : Stmt,
    statement.move change = statement ↔
      ∀ token ∈ statement.tokens, change token.position = token.position
  | .hole => by simp [Stmt.move, Stmt.tokens]
  | .expression value | .print value => by
      simp [Stmt.move, Stmt.tokens, Expr.move_eq_self_iff value]
  | .var name initializer => by
      simp only [Stmt.move, Stmt.tokens, List.forall_mem_cons, Stmt.var.injEq,
        Token.move_eq_self_iff, Expr.optional_move_eq_self_iff]
  | .block statements => by
      simp only [Stmt.move, Stmt.tokens, Stmt.block.injEq, Stmt.moveAll_eq_self_iff statements]
  | .ifElse condition thenBranch elseBranch => by
      simp only [Stmt.move, Stmt.tokens, List.forall_mem_append, Stmt.ifElse.injEq,
        Expr.move_eq_self_iff condition, Stmt.move_eq_self_iff thenBranch,
        Stmt.moveOptional_eq_self_iff elseBranch]
  | .whileLoop condition body increment => by
      simp only [Stmt.move, Stmt.tokens, List.forall_mem_append, Stmt.whileLoop.injEq,
        Expr.move_eq_self_iff condition, Stmt.move_eq_self_iff body,
        Expr.optional_move_eq_self_iff]
  | .forLoop initializer condition increment body => by
      simp only [Stmt.move, Stmt.tokens, List.forall_mem_append, Stmt.forLoop.injEq,
        Stmt.moveOptional_eq_self_iff initializer, Stmt.move_eq_self_iff body,
        Expr.optional_move_eq_self_iff]
  | .breakLoop keyword | .continueLoop keyword => by
      simp [Stmt.move, Stmt.tokens, Token.optional_move_eq_self_iff]
  | .function name parameters body => by
      simp only [Stmt.move, Stmt.tokens, List.forall_mem_append, List.forall_mem_cons,
        Stmt.function.injEq, Token.move_eq_self_iff, Token.map_move_eq_self_iff,
        Stmt.moveAll_eq_self_iff body]
  | .returnValue keyword value => by
      simp only [Stmt.move, Stmt.tokens, List.forall_mem_append, Stmt.returnValue.injEq,
        Token.optional_move_eq_self_iff, Expr.optional_move_eq_self_iff]

theorem Stmt.moveAll_eq_self_iff : ∀ statements : List Stmt,
    Stmt.moveAll change statements = statements ↔
      ∀ token ∈ Stmt.allTokens statements, change token.position = token.position
  | [] => by simp [Stmt.moveAll, Stmt.allTokens]
  | statement :: rest => by
      simp only [Stmt.moveAll, Stmt.allTokens, List.forall_mem_append, List.cons.injEq,
        Stmt.move_eq_self_iff statement, Stmt.moveAll_eq_self_iff rest]

theorem Stmt.moveOptional_eq_self_iff : ∀ statement : Option Stmt,
    Stmt.moveOptional change statement = statement ↔
      ∀ token ∈ Stmt.optionalTokens statement, change token.position = token.position
  | none => by simp [Stmt.moveOptional, Stmt.optionalTokens]
  | some statement => by
      simp only [Stmt.moveOptional, Stmt.optionalTokens, Option.some.injEq,
        Stmt.move_eq_self_iff statement]

end

/-- The tokens of a program that is parsed without a diagnostic stand where tokens of the text
stand. -/
theorem Parse.position_of_token {limit : Nat} {tokens : List Token} {ending token : Token}
    (quiet : (ofTokens limit false tokens ending).diagnostics = [])
    (isToken : token ∈ Stmt.allTokens (ofTokens limit false tokens ending).statements) :
    ∃ read ∈ tokens, read.position = token.position := by
  by_contra notRead
  -- A change of positions that leaves alone all tokens of the text, but not this one.
  let elsewhere : Position → Position := fun position =>
    if position = token.position then ⟨position.line, position.column + 1⟩ else position
  have leftAlone : tokens.map (·.move elsewhere) = tokens :=
    Token.map_move_eq_self_iff.mpr fun read isRead =>
      if_neg fun same => notRead ⟨read, isRead, same⟩
  have moved : ofTokens limit false (tokens.map (·.move elsewhere)) (ending.move elsewhere) = _ :=
    ofTokens_move limit false tokens ending
  rw [leftAlone, ofTokens_of_manyWithin (manyWithin_of_quiet quiet)] at moved
  have sameTrees : Stmt.moveAll elsewhere (ofTokens limit false tokens ending).statements =
      (ofTokens limit false tokens ending).statements := by
    rw [Stmt.moveAll_eq_map]
    exact (congrArg Parse.statements moved).symm
  have same := (Stmt.moveAll_eq_self_iff _).mp sameTrees token isToken
  simp only [elsewhere, if_true] at same
  have sameColumn := congrArg Position.column same
  dsimp only at sameColumn
  omega

end LoxLang

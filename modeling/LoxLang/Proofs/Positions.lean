import LoxLang.Parse
import LoxLang.Proofs.RuleSoundness
import LoxLang.Tree.Source

/-!
# Positions do not matter

Moving the tokens of a program to other positions moves the tokens of its tree and the places of its
diagnostics, and changes nothing else. A printed tree shows no positions at all.
-/

namespace LoxLang

variable (change : Position → Position)

/-! ## Moving tokens, trees and diagnostics -/

/-- A token at a changed position. -/
def Token.move (token : Token) : Token :=
  { token with position := change token.position }

@[simp]
theorem Token.move_kind (token : Token) : (token.move change).kind = token.kind := rfl

@[simp]
theorem Token.move_lexeme (token : Token) : (token.move change).lexeme = token.lexeme := rfl

@[simp]
theorem Token.move_literal (token : Token) : (token.move change).literal = token.literal := rfl

/-- A diagnostic at a changed position. -/
def Diagnostic.move (diagnostic : Diagnostic) : Diagnostic :=
  { diagnostic with position := change diagnostic.position }

mutual

/-- An expression whose tokens are at changed positions. -/
def Expr.move : Expr → Expr
  | .literal value => .literal value
  | .variable name => .variable (name.move change)
  | .assign name value => .assign (name.move change) value.move
  | .unary operator right => .unary (operator.move change) right.move
  | .binary left operator right => .binary left.move (operator.move change) right.move
  | .logical left operator right => .logical left.move (operator.move change) right.move
  | .ternary condition thenBranch elseBranch =>
      .ternary condition.move thenBranch.move elseBranch.move
  | .grouping inner => .grouping inner.move
  | .call callee paren arguments =>
      .call callee.move (paren.map (·.move change)) (Expr.moveAll arguments)

/-- Expressions whose tokens are at changed positions. -/
def Expr.moveAll : List Expr → List Expr
  | [] => []
  | expression :: rest => expression.move :: Expr.moveAll rest

end

mutual

/-- A statement whose tokens are at changed positions. -/
def Stmt.move : Stmt → Stmt
  | .hole => .hole
  | .expression value => .expression (value.move change)
  | .print value => .print (value.move change)
  | .var name initializer => .var (name.move change) (initializer.map (·.move change))
  | .block statements => .block (Stmt.moveAll statements)
  | .ifElse condition thenBranch elseBranch =>
      .ifElse (condition.move change) thenBranch.move (Stmt.moveOptional elseBranch)
  | .whileLoop condition body increment =>
      .whileLoop (condition.move change) body.move (increment.map (·.move change))
  | .forLoop initializer condition increment body =>
      .forLoop (Stmt.moveOptional initializer) (condition.map (·.move change))
        (increment.map (·.move change)) body.move
  | .breakLoop keyword => .breakLoop (keyword.map (·.move change))
  | .continueLoop keyword => .continueLoop (keyword.map (·.move change))
  | .function name parameters body =>
      .function (name.move change) (parameters.map (·.move change)) (Stmt.moveAll body)
  | .returnValue keyword value =>
      .returnValue (keyword.map (·.move change)) (value.map (·.move change))

/-- Statements whose tokens are at changed positions. -/
def Stmt.moveAll : List Stmt → List Stmt
  | [] => []
  | statement :: rest => statement.move :: Stmt.moveAll rest

/-- A statement that may be absent, with its tokens at changed positions. -/
def Stmt.moveOptional : Option Stmt → Option Stmt
  | none => none
  | some statement => some statement.move

end

@[simp]
theorem Expr.moveAll_eq_map (expressions : List Expr) :
    Expr.moveAll change expressions = expressions.map (·.move change) := by
  induction expressions with
  | nil => rfl
  | cons expression rest ih => simp [moveAll, ih]

@[simp]
theorem Stmt.moveAll_eq_map (statements : List Stmt) :
    Stmt.moveAll change statements = statements.map (·.move change) := by
  induction statements with
  | nil => rfl
  | cons statement rest ih => simp [moveAll, ih]

@[simp]
theorem Stmt.moveOptional_eq_map (statement : Option Stmt) :
    Stmt.moveOptional change statement = statement.map (·.move change) := by
  cases statement <;> rfl

/-! ## Printing -/

mutual

@[simp]
theorem Expr.source_move : ∀ expression : Expr, (expression.move change).source = expression.source
  | .literal _ | .variable _ => by simp [Expr.move, Expr.source]
  | .assign _ value => by simp [Expr.move, Expr.source, Expr.source_move value]
  | .unary _ right => by simp [Expr.move, Expr.source, Expr.source_move right]
  | .binary left _ right | .logical left _ right => by
      simp [Expr.move, Expr.source, Expr.source_move left, Expr.source_move right]
  | .ternary condition thenBranch elseBranch => by
      simp [Expr.move, Expr.source, Expr.source_move condition, Expr.source_move thenBranch,
        Expr.source_move elseBranch]
  | .grouping inner => by simp [Expr.move, Expr.source, Expr.source_move inner]
  | .call callee _ arguments => by
      rw [Expr.move, Expr.source, Expr.source, Expr.source_move callee, Expr.sources_move arguments]

theorem Expr.sources_move :
    ∀ expressions : List Expr, Expr.sources (Expr.moveAll change expressions) =
      Expr.sources expressions
  | [] => rfl
  | expression :: rest => by
      rw [Expr.moveAll, Expr.sources, Expr.sources, Expr.source_move expression,
        Expr.sources_move rest]

end

namespace Stmt

/-- Whether some statements have the shape of a spelled-out `for` loop. -/
def IsFor (statements : List Stmt) : Prop :=
  ∃ initializer condition body increment,
    statements = [initializer, .whileLoop condition body increment] ∧
      initializer.isInitializer = true

theorem source_for (depth : Int) {initializer : Stmt}
    (isInitializer : initializer.isInitializer = true)
    (condition : Expr) (body : Stmt) (increment : Option Expr) :
    source depth (.block [initializer, .whileLoop condition body increment]) =
      forHead (source depth initializer) condition.source (increment.map Expr.source) ++
        branch depth body := by
  rw [source]
  simp [isInitializer]

theorem source_block (depth : Int) {statements : List Stmt} (noFor : ¬ IsFor statements) :
    source depth (.block statements) = braces depth (lines (depth + 1) statements) := by
  by_cases shape : ∃ initializer condition body increment,
      statements = [initializer, .whileLoop condition body increment]
  · rcases shape with ⟨initializer, condition, body, increment, rfl⟩
    have noInitializer : ¬ initializer.isInitializer = true :=
      fun isInitializer => noFor ⟨initializer, condition, body, increment, rfl, isInitializer⟩
    rw [source]
    simp [noInitializer]
  · rw [source]
    intro initializer condition body increment isShape
    exact shape ⟨initializer, condition, body, increment, isShape⟩

@[simp]
theorem isInitializer_move (statement : Stmt) :
    (statement.move change).isInitializer = statement.isInitializer := by
  cases statement <;> simp [move, isInitializer]

@[simp]
theorem source_comp_move : (Expr.source ∘ fun expression => expression.move change) = Expr.source :=
  funext fun expression => Expr.source_move change expression

theorem isFor_of_move {statements : List Stmt} (isFor : IsFor (statements.map (·.move change))) :
    IsFor statements := by
  rcases isFor with ⟨initializer, condition, body, increment, shape, isInitializer⟩
  match statements with
  | [first, second] =>
      simp only [List.map_cons, List.map_nil, List.cons.injEq, and_true] at shape
      rcases shape with ⟨rfl, isLoop⟩
      cases second with
      | whileLoop condition body increment =>
          exact ⟨first, condition, body, increment, rfl, by simpa using isInitializer⟩
      | _ => simp [move] at isLoop
  | [] | [_] | _ :: _ :: _ :: _ => simp at shape

mutual

theorem source_move (depth : Int) (statement : Stmt) :
    source depth (statement.move change) = source depth statement := by
  cases statement with
  | hole => rfl
  | expression value => simp [move, source]
  | print value => simp [move, source]
  | var name initializer => cases initializer <;> simp [move, source]
  | block statements =>
      by_cases isFor : IsFor statements
      · rcases isFor with ⟨initializer, condition, body, increment, rfl, isInitializer⟩
        have moved : (initializer.move change).isInitializer = true := by simpa using isInitializer
        simp only [move, moveAll]
        rw [source_for depth moved, source_for depth isInitializer, Option.map_map,
          source_comp_move, Expr.source_move, source_move depth initializer, branch_move depth body]
      · rw [move, source_block depth isFor, moveAll_eq_map,
          source_block depth fun isFor' => isFor (isFor_of_move change isFor'),
          lines_move (depth + 1) statements]
  | ifElse condition thenBranch elseBranch =>
      cases elseBranch with
      | none => simp [move, source, branch_move depth thenBranch]
      | some elseBranch =>
          simp [move, source, branch_move depth thenBranch, branch_move depth elseBranch]
  | whileLoop condition body increment => simp [move, source, branch_move depth body]
  | forLoop initializer condition increment body =>
      have conditionMove : (condition.map (·.move change)).getD (.literal (.boolean true)) =
          (condition.getD (.literal (.boolean true))).move change := by
        cases condition <;> rfl
      cases initializer with
      | none => simp [move, source, conditionMove, branch_move depth body]
      | some initializer =>
          simp only [move, moveOptional, source, conditionMove, isInitializer_move]
          rw [Option.map_map, source_comp_move, Expr.source_move, source_move depth initializer,
            source_move (depth + 1) initializer, branch_move depth body,
            branch_move (depth + 1) body]
  | breakLoop keyword => simp [move, source]
  | continueLoop keyword => simp [move, source]
  | function name parameters body =>
      simp [move, source, lines_move (depth + 1) body, Function.comp_def]
  | returnValue keyword value => cases value <;> simp [move, source]
termination_by (sizeOf statement, 0)

theorem branch_move (depth : Int) (statement : Stmt) :
    branch depth (statement.move change) = branch depth statement := by
  have source := source_move (depth + 1) statement
  cases statement with
  | block statements => simp [move, branch, lines_move (depth + 1) statements]
  | hole => rfl
  | _ =>
      simp only [move] at source ⊢
      simp only [branch, source]
termination_by (sizeOf statement, 1)

theorem lines_move (depth : Int) (statements : List Stmt) :
    lines depth (statements.map (·.move change)) = lines depth statements := by
  cases statements with
  | nil => rfl
  | cons statement rest =>
      have source := source_move depth statement
      have others := lines_move depth rest
      cases statement with
      | hole => simpa [move, lines] using others
      | _ =>
          simp only [move, List.map_cons] at source ⊢
          simp only [lines, source, others]
termination_by (sizeOf statements, 0)

end

theorem program_move (statements : List Stmt) :
    program (statements.map (·.move change)) = program statements := by
  rw [program, lines_move, program]

end Stmt

end LoxLang

import LoxLang.Proofs.Nesting
import LoxLang.Proofs.Positions

/-!
# The nesting of trees

How many rules the parser opens at once for the text of a tree, counted on the tree itself.
A primary expression is found fifteen rules below `expression`, and a declaration opens three rules
on the way to its expressions and to the declarations of a block, and five on the way to those of a
branch or of the body of a loop. A block with the shape of a `for` loop counts as one.
-/

namespace LoxLang

mutual

/-- The number of rules that are opened for an expression. -/
def Expr.nesting : Expr → Nat
  | .literal _ | .variable _ => 15
  | .assign _ value => value.nesting + 1
  | .unary _ right => right.nesting + 1
  | .binary left _ right | .logical left _ right => max left.nesting right.nesting
  | .ternary condition thenBranch elseBranch =>
      max condition.nesting (max thenBranch.nesting elseBranch.nesting + 1)
  | .grouping inner => inner.nesting + 15
  | .call callee _ arguments => max callee.nesting (Expr.nestingAll arguments + 15)

/-- The largest number of rules that are opened for one of some expressions. -/
def Expr.nestingAll : List Expr → Nat
  | [] => 0
  | expression :: rest => max expression.nesting (Expr.nestingAll rest)

end

/-- The number of rules that are opened for an expression that may be absent. -/
def Expr.nestingOption : Option Expr → Nat
  | none => 0
  | some expression => expression.nesting

namespace Stmt

/-- Whether some statements have the shape of a spelled-out `for` loop. -/
def hasForShape : List Stmt → Bool
  | [initializer, .whileLoop _ _ _] => initializer.isInitializer
  | _ => false

theorem hasForShape_iff {statements : List Stmt} :
    hasForShape statements = true ↔ IsFor statements := by
  constructor
  · intro shape
    unfold hasForShape at shape
    split at shape
    · exact ⟨_, _, _, _, rfl, shape⟩
    · cases shape
  · rintro ⟨initializer, condition, body, increment, rfl, isInitializer⟩
    exact isInitializer

/-- The number of rules that are opened for a declaration with the given nesting of its expressions
and of the declarations in its blocks. -/
def declarationNesting (expressions inner : Nat) : Nat :=
  max 5 (max expressions inner + 3)

/-- The number of rules that are opened for a branch or a loop with the given nesting of its
expressions and of the declarations in its bodies. -/
def nestedNesting (expressions nested : Nat) : Nat :=
  max 5 (max (expressions + 3) (nested + 5))

mutual

/-- The number of rules that are opened for a statement. -/
def nesting : Stmt → Nat
  | .hole => 0
  | .expression value | .print value => declarationNesting value.nesting 0
  | .var _ value | .returnValue _ value => declarationNesting (Expr.nestingOption value) 0
  | .block statements =>
      if hasForShape statements then nestingAll statements
      else declarationNesting 0 (nestingAll statements)
  | .ifElse condition thenBranch none => nestedNesting condition.nesting (bodyNesting thenBranch)
  | .ifElse condition thenBranch (some elseBranch) =>
      nestedNesting condition.nesting (max (bodyNesting thenBranch) (bodyNesting elseBranch))
  | .whileLoop condition body increment =>
      nestedNesting (max condition.nesting (Expr.nestingOption increment)) (bodyNesting body)
  | .forLoop none condition increment body =>
      nestedNesting (max (condition.getD (.literal .nil)).nesting (Expr.nestingOption increment))
        (bodyNesting body)
  | .forLoop (some initializer) condition increment body =>
      let loop := nestedNesting
        (max (condition.getD (.literal .nil)).nesting (Expr.nestingOption increment))
          (bodyNesting body)
      if initializer.isInitializer then max (nesting initializer) loop
      else declarationNesting 0 (max (nesting initializer) loop)
  | .breakLoop _ | .continueLoop _ => 5
  | .function _ _ body => declarationNesting 0 (nestingAll body)

/-- The largest number of rules that are opened for a statement in the braces of a body. -/
def bodyNesting : Stmt → Nat
  | .block statements => nestingAll statements
  | statement => nesting statement

/-- The largest number of rules that are opened for one of some statements. -/
def nestingAll : List Stmt → Nat
  | [] => 0
  | statement :: rest => max (nesting statement) (nestingAll rest)

end

theorem nesting_whileLoop (condition : Expr) (trees : List Stmt) (increment : Option Expr) :
    (whileLoop condition (.block trees) increment).nesting =
      nestedNesting (max condition.nesting (Expr.nestingOption increment)) (nestingAll trees) := by
  simp only [nesting, bodyNesting]

theorem nesting_for {initializer : Stmt} (isInitializer : initializer.isInitializer = true)
    (condition : Expr) (trees : List Stmt) (increment : Option Expr) :
    (block [initializer, .whileLoop condition (.block trees) increment]).nesting =
      max initializer.nesting
        (nestedNesting (max condition.nesting (Expr.nestingOption increment))
          (nestingAll trees)) := by
  rw [nesting, if_pos (hasForShape_iff.mpr ⟨_, _, _, _, rfl, isInitializer⟩)]
  simp [nestingAll, nesting_whileLoop]

/-- A declaration opens five rules at least. -/
theorem five_le_nesting {statement : Stmt} (noHole : statement ≠ .hole) :
    5 ≤ statement.nesting := by
  cases statement with
  | hole => exact absurd rfl noHole
  | block statements =>
      rw [nesting]
      split
      · next shape =>
          rcases hasForShape_iff.mp shape with ⟨initializer, condition, body, increment, rfl, -⟩
          simp only [nestingAll, nesting, nestedNesting]
          omega
      · exact Nat.le_max_left _ _
  | ifElse condition thenBranch elseBranch =>
      cases elseBranch <;> simp only [nesting] <;> exact Nat.le_max_left _ _
  | forLoop initializer condition increment body =>
      cases initializer with
      | none =>
          simp only [nesting]
          exact Nat.le_max_left _ _
      | some initializer =>
          simp only [nesting, declarationNesting, nestedNesting]
          split <;> omega
  | breakLoop keyword => simp only [nesting, Nat.le_refl]
  | continueLoop keyword => simp only [nesting, Nat.le_refl]
  | _ =>
      simp only [nesting]
      exact Nat.le_max_left _ _

end Stmt

theorem Expr.fifteen_le_nesting (expression : Expr) : 15 ≤ expression.nesting := by
  cases expression with
  | literal value => simp [Expr.nesting]
  | «variable» name => simp [Expr.nesting]
  | assign name value =>
      have := Expr.fifteen_le_nesting value
      simp only [Expr.nesting]
      omega
  | unary operator right =>
      have := Expr.fifteen_le_nesting right
      simp only [Expr.nesting]
      omega
  | binary left operator right | logical left operator right =>
      have := Expr.fifteen_le_nesting left
      simp only [Expr.nesting]
      omega
  | ternary condition thenBranch elseBranch =>
      have := Expr.fifteen_le_nesting condition
      simp only [Expr.nesting]
      omega
  | grouping inner =>
      simp only [Expr.nesting]
      omega
  | call callee paren arguments =>
      have := Expr.fifteen_le_nesting callee
      simp only [Expr.nesting]
      omega

namespace Grammar

/-! ## Expressions are parsed within their nesting -/

/-- `Lifts bound narrow wide` says that a phrase for a tree of bounded nesting is a phrase of
another kind. -/
def Lifts (bound : Nat) (narrow wide : Phrase Expr) : Prop :=
  ∀ tokens tree, narrow tokens tree → tree.nesting ≤ bound → wide tokens tree

theorem Lifts.chain {bound : Nat} {narrow wide : Phrase Expr} {operators : List TokenKind}
    {join : Expr → Token → Expr → Expr} (lifts : Lifts bound narrow wide)
    (joins : ∀ left operator right,
      (join left operator right).nesting = max left.nesting right.nesting) :
    Lifts bound (Phrase.Chain operators join narrow) (Phrase.Chain operators join wide) := by
  intro tokens tree chain
  induction chain with
  | operand operand => exact fun bounded => .operand (lifts _ _ operand bounded)
  | joined _ isOperator operand ih =>
      intro bounded
      rw [joins] at bounded
      exact .joined (ih (by omega)) isOperator (lifts _ _ operand (by omega))

theorem Lifts.logical {bound : Nat} {narrow wide : Phrase Expr} (lifts : Lifts bound narrow wide) :
    Lifts bound (Phrase.Logical narrow) (Phrase.Logical wide) := by
  have binary : ∀ left operator right,
      (Expr.binary left operator right).nesting = max left.nesting right.nesting := by
    intro left operator right
    simp only [Expr.nesting]
  refine ((((lifts.chain binary).chain binary).chain binary).chain binary).chain ?_
  intro left operator right
  simp only [Expr.nesting]

theorem Lifts.items {bound : Nat} {narrow wide : Phrase Expr} (lifts : Lifts bound narrow wide)
    {tokens : List Token} {trees : List Expr} (items : Phrase.Items narrow tokens trees)
    (bounded : Expr.nestingAll trees ≤ bound) : Phrase.Items wide tokens trees := by
  cases items with
  | absent => exact .absent
  | @present _ _ tree trees item others atMost =>
      simp only [Expr.nestingAll] at bounded
      refine .present (lifts _ _ item (by omega)) ?_ atMost
      have boundedOthers : Expr.nestingAll trees ≤ bound := by omega
      clear atMost bounded item
      induction others with
      | done => exact .done
      | more further _ ih =>
          rcases further with ⟨isComma, item⟩
          simp only [Expr.nestingAll] at boundedOthers
          exact .more (.rule isComma (lifts _ _ item (by omega))) (ih (by omega))

theorem Lifts.call {bound : Nat} {narrow wide : Phrase Expr} (lifts : Lifts bound narrow wide) :
    Lifts (bound + 15) (Phrase.Call narrow) (Phrase.Call wide) := by
  intro tokens tree call
  induction call with
  | primary primary =>
      intro bounded
      cases primary with
      | trueWord isTrue => exact .primary (.trueWord isTrue)
      | falseWord isFalse => exact .primary (.falseWord isFalse)
      | nilWord isNil => exact .primary (.nilWord isNil)
      | number isNumber => exact .primary (.number isNumber)
      | string isString => exact .primary (.string isString)
      | identifier isIdentifier => exact .primary (.identifier isIdentifier)
      | group isLeft inner isRight =>
          simp only [Expr.nesting] at bounded
          exact .primary (.group isLeft (lifts _ _ inner (by omega)) isRight)
  | call _ isLeft items isRight ih =>
      intro bounded
      simp only [Expr.nesting] at bounded
      exact .call (ih (by omega)) isLeft (lifts.items items (by omega)) isRight

theorem Lifts.unary {bound : Nat} {narrow wide narrowCall wideCall : Phrase Expr}
    (lifts : Lifts bound narrow wide) (calls : Lifts (bound + 1) narrowCall wideCall) :
    Lifts (bound + 1) (Phrase.Unary narrow narrowCall) (Phrase.Unary wide wideCall) := by
  intro tokens tree unary bounded
  cases unary with
  | call call => exact .call (calls _ _ call bounded)
  | signed isOperator operand =>
      simp only [Expr.nesting] at bounded
      exact .signed isOperator (lifts _ _ operand (by omega))

theorem Lifts.ternary {bound : Nat} {narrow wide narrowBranch wideBranch : Phrase Expr}
    (lifts : Lifts (bound + 1) narrow wide) (branches : Lifts bound narrowBranch wideBranch) :
    Lifts (bound + 1) (Phrase.Ternary narrow narrowBranch) (Phrase.Ternary wide wideBranch) := by
  intro tokens tree ternary bounded
  cases ternary with
  | plain logical => exact .plain (lifts _ _ logical bounded)
  | choice logical isQuestion thenPart isColon elsePart =>
      simp only [Expr.nesting] at bounded
      exact .choice (lifts _ _ logical (by omega)) isQuestion (branches _ _ thenPart (by omega))
        isColon (branches _ _ elsePart (by omega))

theorem Lifts.assignment {bound : Nat} {narrow wide narrowValue wideValue : Phrase Expr}
    (lifts : Lifts (bound + 1) narrow wide) (values : Lifts bound narrowValue wideValue) :
    Lifts (bound + 1) (Phrase.Assignment narrow narrowValue)
      (Phrase.Assignment wide wideValue) := by
  intro tokens tree assignment bounded
  cases assignment with
  | plain ternary => exact .plain (lifts _ _ ternary bounded)
  | assign isIdentifier isEqual value =>
      simp only [Expr.nesting] at bounded
      exact .assign isIdentifier isEqual (values _ _ value (by omega))

mutual

theorem lifts_expression :
    ∀ depth limit, Lifts limit (ExpressionWithin depth) (ExpressionWithin limit)
  | 0, _ => fun _ _ impossible => impossible.elim
  | depth + 1, limit => by
      intro tokens tree read bounded
      have enough := tree.fifteen_le_nesting
      rcases Nat.exists_eq_add_of_le' (by omega : 1 ≤ limit) with ⟨less, rfl⟩
      exact lifts_assignment depth less tokens tree read bounded

theorem lifts_assignment :
    ∀ depth limit, Lifts (limit + 1) (AssignmentWithin depth) (AssignmentWithin limit)
  | 0, _ => fun _ _ impossible => impossible.elim
  | depth + 1, limit => by
      intro tokens tree read bounded
      have enough := tree.fifteen_le_nesting
      rcases Nat.exists_eq_add_of_le' (by omega : 1 ≤ limit) with ⟨less, rfl⟩
      exact (lifts_ternary depth less).assignment (lifts_assignment depth less) tokens tree
        read bounded

theorem lifts_ternary :
    ∀ depth limit, Lifts (limit + 2) (TernaryWithin depth) (TernaryWithin limit)
  | 0, _ | 1, _ | 2, _ | 3, _ | 4, _ | 5, _ | 6, _ | 7, _ | 8, _ | 9, _ =>
      fun _ _ impossible => impossible.elim
  | depth + 10, limit => by
      intro tokens tree read bounded
      have enough := tree.fifteen_le_nesting
      rcases Nat.exists_eq_add_of_le' (by omega : 10 ≤ limit) with ⟨less, rfl⟩
      exact (lifts_unary depth less).logical.ternary
        (lifts_ternary (depth + 9) (less + 9)) tokens tree
        read bounded

theorem lifts_unary : ∀ depth limit, Lifts (limit + 12) (UnaryWithin depth) (UnaryWithin limit)
  | 0, _ | 1, _ | 2, _ => fun _ _ impossible => impossible.elim
  | depth + 3, limit => by
      intro tokens tree read bounded
      have enough := tree.fifteen_le_nesting
      rcases Nat.exists_eq_add_of_le' (by omega : 3 ≤ limit) with ⟨less, rfl⟩
      exact (lifts_unary (depth + 2) (less + 2)).unary
        (lifts_expression depth less).call tokens tree
        read bounded

end

end Grammar
end LoxLang

import LoxLang.Parse
import LoxLang.Proofs.RuleSoundness

/-!
# Phrases within a limit of nesting

The grammar with a bound on how many of its rules may be open at once, counted as the parser counts
them. A phrase within a limit is a phrase of the grammar, and it stays one within a greater limit.
What the parser reads without a report is a phrase within its limit.
-/

namespace LoxLang
namespace Grammar

namespace Phrase

variable {α : Type}

/-! ## Wider phrases make wider productions -/

theorem Chain.mono {operators : List TokenKind} {join : Expr → Token → Expr → Expr}
    {narrow wide : Phrase Expr} (included : ∀ tokens tree, narrow tokens tree → wide tokens tree)
    {tokens : List Token} {tree : Expr} (chain : Chain operators join narrow tokens tree) :
    Chain operators join wide tokens tree := by
  induction chain with
  | operand operand => exact .operand (included _ _ operand)
  | joined _ isOperator operand ih => exact .joined ih isOperator (included _ _ operand)

theorem Many.mono {narrow wide : Phrase α}
    (included : ∀ tokens tree, narrow tokens tree → wide tokens tree) {tokens : List Token}
    {trees : List α} (many : Many narrow tokens trees) : Many wide tokens trees := by
  induction many with
  | done => exact .done
  | more item _ ih => exact .more (included _ _ item) ih

theorem Items.mono {narrow wide : Phrase α}
    (included : ∀ tokens tree, narrow tokens tree → wide tokens tree) {tokens : List Token}
    {trees : List α} (items : Items narrow tokens trees) : Items wide tokens trees := by
  cases items with
  | absent => exact .absent
  | present item others atMost =>
      refine .present (included _ _ item) (others.mono ?_) atMost
      rintro tokens tree ⟨isComma, item⟩
      exact .rule isComma (included _ _ item)

theorem Optional.mono {narrow wide : Phrase α}
    (included : ∀ tokens tree, narrow tokens tree → wide tokens tree) {tokens : List Token}
    {tree : Option α} (given : Optional narrow tokens tree) : Optional wide tokens tree := by
  cases given with
  | absent => exact .absent
  | present item => exact .present (included _ _ item)

theorem Primary.mono {narrow wide : Phrase Expr}
    (included : ∀ tokens tree, narrow tokens tree → wide tokens tree) {tokens : List Token}
    {tree : Expr} (primary : Primary narrow tokens tree) : Primary wide tokens tree := by
  cases primary with
  | trueWord isTrue => exact .trueWord isTrue
  | falseWord isFalse => exact .falseWord isFalse
  | nilWord isNil => exact .nilWord isNil
  | number isNumber => exact .number isNumber
  | string isString => exact .string isString
  | identifier isIdentifier => exact .identifier isIdentifier
  | group isLeft inner isRight => exact .group isLeft (included _ _ inner) isRight

theorem Call.mono {narrow wide : Phrase Expr}
    (included : ∀ tokens tree, narrow tokens tree → wide tokens tree) {tokens : List Token}
    {tree : Expr} (call : Call narrow tokens tree) : Call wide tokens tree := by
  induction call with
  | primary primary => exact .primary (primary.mono included)
  | call _ isLeft items isRight ih => exact .call ih isLeft (items.mono included) isRight

theorem Unary.mono {narrow wide narrowCall wideCall : Phrase Expr}
    (included : ∀ tokens tree, narrow tokens tree → wide tokens tree)
    (includedCall : ∀ tokens tree, narrowCall tokens tree → wideCall tokens tree)
    {tokens : List Token} {tree : Expr} (unary : Unary narrow narrowCall tokens tree) :
    Unary wide wideCall tokens tree := by
  cases unary with
  | signed isOperator operand => exact .signed isOperator (included _ _ operand)
  | call call => exact .call (includedCall _ _ call)

theorem Logical.mono {narrow wide : Phrase Expr}
    (included : ∀ tokens tree, narrow tokens tree → wide tokens tree) {tokens : List Token}
    {tree : Expr} (logical : Logical narrow tokens tree) : Logical wide tokens tree :=
  Chain.mono (fun _ _ => Chain.mono fun _ _ => Chain.mono fun _ _ => Chain.mono fun _ _ =>
    Chain.mono included) logical

theorem Ternary.mono {narrow wide narrowBranch wideBranch : Phrase Expr}
    (included : ∀ tokens tree, narrow tokens tree → wide tokens tree)
    (includedBranch : ∀ tokens tree, narrowBranch tokens tree → wideBranch tokens tree)
    {tokens : List Token} {tree : Expr} (ternary : Ternary narrow narrowBranch tokens tree) :
    Ternary wide wideBranch tokens tree := by
  cases ternary with
  | plain logical => exact .plain (included _ _ logical)
  | choice logical isQuestion thenPart isColon elsePart =>
      exact .choice (included _ _ logical) isQuestion (includedBranch _ _ thenPart) isColon
        (includedBranch _ _ elsePart)

theorem Assignment.mono {narrow wide narrowValue wideValue : Phrase Expr}
    (included : ∀ tokens tree, narrow tokens tree → wide tokens tree)
    (includedValue : ∀ tokens tree, narrowValue tokens tree → wideValue tokens tree)
    {tokens : List Token} {tree : Expr} (assignment : Assignment narrow narrowValue tokens tree) :
    Assignment wide wideValue tokens tree := by
  cases assignment with
  | plain ternary => exact .plain (included _ _ ternary)
  | assign isIdentifier isEqual value =>
      exact .assign isIdentifier isEqual (includedValue _ _ value)

theorem VarDeclaration.mono {narrow wide : Phrase Expr}
    (included : ∀ tokens tree, narrow tokens tree → wide tokens tree) {tokens : List Token}
    {tree : Stmt} (declaration : VarDeclaration narrow tokens tree) :
    VarDeclaration wide tokens tree := by
  cases declaration with
  | plain isVar isIdentifier isSemicolon => exact .plain isVar isIdentifier isSemicolon
  | initialized isVar isIdentifier isEqual value isSemicolon =>
      exact .initialized isVar isIdentifier isEqual (included _ _ value) isSemicolon

theorem ExpressionStatement.mono {narrow wide : Phrase Expr}
    (included : ∀ tokens tree, narrow tokens tree → wide tokens tree) {tokens : List Token}
    {tree : Stmt} (statement : ExpressionStatement narrow tokens tree) :
    ExpressionStatement wide tokens tree := by
  cases statement with
  | rule value isSemicolon => exact .rule (included _ _ value) isSemicolon

theorem Block.mono {narrow wide : Phrase Stmt}
    (included : ∀ tokens tree, narrow tokens tree → wide tokens tree) {tokens : List Token}
    {trees : List Stmt} (block : Block narrow tokens trees) : Block wide tokens trees := by
  cases block with
  | rule isLeft declarations isRight => exact .rule isLeft (declarations.mono included) isRight

theorem Condition.mono {narrow wide : Phrase Expr}
    (included : ∀ tokens tree, narrow tokens tree → wide tokens tree) {tokens : List Token}
    {tree : Expr} (condition : Condition narrow tokens tree) : Condition wide tokens tree := by
  cases condition with
  | grouped isLeft inner isRight => exact .grouped isLeft (included _ _ inner) isRight
  | bare value noParen => exact .bare (included _ _ value) noParen

theorem Initializer.mono {narrow wide : Phrase Expr}
    (included : ∀ tokens tree, narrow tokens tree → wide tokens tree) {tokens : List Token}
    {tree : Option Stmt} (initializer : Initializer narrow tokens tree) :
    Initializer wide tokens tree := by
  cases initializer with
  | absent isSemicolon => exact .absent isSemicolon
  | var declaration => exact .var (declaration.mono included)
  | expression statement => exact .expression (statement.mono included)

theorem Declaration.mono {narrow wide : Phrase Expr}
    {narrowInner wideInner narrowNested wideNested : Phrase Stmt}
    (included : ∀ tokens tree, narrow tokens tree → wide tokens tree)
    (includedInner : ∀ tokens tree, narrowInner tokens tree → wideInner tokens tree)
    (includedNested : ∀ tokens tree, narrowNested tokens tree → wideNested tokens tree)
    {tokens : List Token} {tree : Stmt}
    (declaration : Declaration narrow narrowInner narrowNested tokens tree) :
    Declaration wide wideInner wideNested tokens tree := by
  cases declaration with
  | var declaration => exact .var (declaration.mono included)
  | function isFun isIdentifier isLeft items isRight block =>
      exact .function isFun isIdentifier isLeft items isRight (block.mono includedInner)
  | print isPrint value isSemicolon => exact .print isPrint (included _ _ value) isSemicolon
  | block block => exact .block (block.mono includedInner)
  | ifThen isIf tested thenBlock =>
      exact .ifThen isIf (tested.mono included) (thenBlock.mono includedNested)
  | ifElse isIf tested thenBlock isElse elseBlock =>
      exact .ifElse isIf (tested.mono included) (thenBlock.mono includedNested) isElse
        (elseBlock.mono includedNested)
  | whileLoop isWhile tested block =>
      exact .whileLoop isWhile (tested.mono included) (block.mono includedNested)
  | forLoop isFor isLeft started tested isSemicolon stepped isRight block =>
      exact .forLoop isFor isLeft (started.mono included) (tested.mono included) isSemicolon
        (stepped.mono included) isRight (block.mono includedNested)
  | breakLoop isBreak isSemicolon => exact .breakLoop isBreak isSemicolon
  | continueLoop isContinue isSemicolon => exact .continueLoop isContinue isSemicolon
  | returnValue isReturn given isSemicolon =>
      exact .returnValue isReturn (given.mono included) isSemicolon
  | expression statement => exact .expression (statement.mono included)

end Phrase

/-! ## The grammar within a limit -/

mutual

/-- Expressions for which a number of rules may be opened. -/
def ExpressionWithin : Nat → Phrase Expr
  | 0 => fun _ _ => False
  | depth + 1 => AssignmentWithin depth

/-- Assignments for which a number of rules may be opened. -/
def AssignmentWithin : Nat → Phrase Expr
  | 0 => fun _ _ => False
  | depth + 1 => Phrase.Assignment (TernaryWithin depth) (AssignmentWithin depth)

/-- Conditional expressions for which a number of rules may be opened. -/
def TernaryWithin : Nat → Phrase Expr
  | depth + 10 => Phrase.Ternary (Phrase.Logical (UnaryWithin depth)) (TernaryWithin (depth + 9))
  | _ => fun _ _ => False

/-- Unary expressions for which a number of rules may be opened. -/
def UnaryWithin : Nat → Phrase Expr
  | depth + 3 => Phrase.Unary (UnaryWithin (depth + 2)) (Phrase.Call (ExpressionWithin depth))
  | _ => fun _ _ => False

end

/-- Declarations for which a number of rules may be opened. -/
def DeclarationWithin : Nat → Phrase Stmt
  | depth + 5 => Phrase.Declaration (ExpressionWithin (depth + 2)) (DeclarationWithin (depth + 2))
      (DeclarationWithin depth)
  | _ => fun _ _ => False

mutual

theorem expression_of_within :
    ∀ depth tokens tree, ExpressionWithin depth tokens tree → Expression tokens tree
  | 0, _, _, impossible => impossible.elim
  | depth + 1, tokens, tree, assignment => expression_of_assignmentWithin depth tokens
    tree assignment

theorem expression_of_assignmentWithin :
    ∀ depth tokens tree, AssignmentWithin depth tokens tree → Expression tokens tree
  | 0, _, _, impossible => impossible.elim
  | depth + 1, _, _, assignment =>
      .rule (assignment.mono (ternary_of_within depth) (expression_of_assignmentWithin depth))

theorem ternary_of_within :
    ∀ depth tokens tree, TernaryWithin depth tokens tree → Ternary tokens tree
  | depth + 10, _, _, ternary =>
      .rule (ternary.mono (fun _ _ => Phrase.Logical.mono (unary_of_within depth))
        (ternary_of_within (depth + 9)))

theorem unary_of_within : ∀ depth tokens tree, UnaryWithin depth tokens tree → Unary tokens tree
  | depth + 3, _, _, unary =>
      .rule (unary.mono (unary_of_within (depth + 2))
        (fun _ _ => Phrase.Call.mono (expression_of_within depth)))

end

theorem declaration_of_within :
    ∀ depth tokens tree, DeclarationWithin depth tokens tree → Declaration tokens tree
  | depth + 5, _, _, declaration =>
      .rule (declaration.mono (expression_of_within (depth + 2)) (declaration_of_within (depth + 2))
        (declaration_of_within depth))

mutual

theorem expressionWithin_succ :
    ∀ depth tokens tree, ExpressionWithin depth tokens tree →
      ExpressionWithin (depth + 1) tokens tree
  | 0, _, _, impossible => impossible.elim
  | depth + 1, tokens, tree, assignment => assignmentWithin_succ depth tokens tree assignment

theorem assignmentWithin_succ :
    ∀ depth tokens tree, AssignmentWithin depth tokens tree →
      AssignmentWithin (depth + 1) tokens tree
  | 0, _, _, impossible => impossible.elim
  | depth + 1, _, _, assignment =>
      assignment.mono (ternaryWithin_succ depth) (assignmentWithin_succ depth)

theorem ternaryWithin_succ :
    ∀ depth tokens tree, TernaryWithin depth tokens tree → TernaryWithin (depth + 1) tokens tree
  | depth + 10, _, _, ternary =>
      ternary.mono (fun _ _ => Phrase.Logical.mono (unaryWithin_succ depth))
        (ternaryWithin_succ (depth + 9))

theorem unaryWithin_succ :
    ∀ depth tokens tree, UnaryWithin depth tokens tree → UnaryWithin (depth + 1) tokens tree
  | depth + 3, _, _, unary =>
      unary.mono (unaryWithin_succ (depth + 2))
        (fun _ _ => Phrase.Call.mono (expressionWithin_succ depth))

end

theorem declarationWithin_succ :
    ∀ depth tokens tree, DeclarationWithin depth tokens tree →
      DeclarationWithin (depth + 1) tokens tree
  | depth + 5, _, _, declaration =>
      declaration.mono (expressionWithin_succ (depth + 2)) (declarationWithin_succ (depth + 2))
        (declarationWithin_succ depth)

/-! ## What the parser reads without a report -/

theorem namesVariables_call (Expression : Phrase Expr) :
    NamesVariables (Phrase.Call Expression) := by
  rintro tokens name (⟨⟨⟩⟩ | _)
  next isIdentifier => exact ⟨rfl, isIdentifier⟩

theorem namesVariables_unary {Operand Call : Phrase Expr} (names : NamesVariables Call) :
    NamesVariables (Phrase.Unary Operand Call) := by
  rintro tokens name (_ | call)
  exact names tokens name call

theorem namesVariables_chain {operators : List TokenKind} {join : Expr → Token → Expr → Expr}
    {Operand : Phrase Expr} (noVariable : ∀ left operator right name,
      join left operator right ≠ .variable name) (names : NamesVariables Operand) :
    NamesVariables (Phrase.Chain operators join Operand) := by
  intro tokens name chain
  generalize isVariable : Expr.variable name = tree at chain
  cases chain with
  | operand operand => exact names tokens name (isVariable ▸ operand)
  | joined => exact absurd isVariable.symm (noVariable _ _ _ _)

theorem namesVariables_logical {Unary : Phrase Expr} (names : NamesVariables Unary) :
    NamesVariables (Phrase.Logical Unary) :=
  namesVariables_chain (by simp) (namesVariables_chain (by simp) (namesVariables_chain (by simp)
    (namesVariables_chain (by simp) (namesVariables_chain (by simp) names))))

theorem namesVariables_ternary : NamesVariables Ternary := by
  have names : NamesVariables Unary := by
    rintro tokens name ⟨unary⟩
    exact namesVariables_unary (namesVariables_call _) tokens name unary
  rintro tokens name ⟨logical | _⟩
  exact namesVariables_logical names tokens name logical

theorem namesVariables_ternaryWithin (depth : Nat) : NamesVariables (TernaryWithin depth) :=
  fun tokens name read => namesVariables_ternary tokens name (ternary_of_within depth _ _ read)

mutual

theorem sound_expression : ∀ depth, Sound (expression depth) (ExpressionWithin depth)
  | 0 => sound_tooDeep _
  | depth + 1 => sound_assignment depth

theorem sound_assignment : ∀ depth, Sound (assignment depth) (AssignmentWithin depth)
  | 0 => sound_tooDeep _
  | depth + 1 => sound_assignmentRule (sound_ternary depth) (namesVariables_ternaryWithin depth)
      (sound_assignment depth)

theorem sound_ternary : ∀ depth, Sound (ternary depth) (TernaryWithin depth)
  | 0 | 1 | 2 | 3 | 4 | 5 | 6 | 7 | 8 | 9 => sound_tooDeep _
  | depth + 10 => sound_ternaryRule (sound_logical (sound_unary depth)) (sound_ternary (depth + 9))

theorem sound_unary : ∀ depth, Sound (unary depth) (UnaryWithin depth)
  | 0 | 1 | 2 => sound_tooDeep _
  | depth + 3 => sound_unaryRule (sound_unary (depth + 2)) (sound_call (sound_expression depth))

end

theorem sound_declaration : ∀ depth, Sound (declaration depth) (DeclarationWithin depth)
  | 0 | 1 | 2 | 3 | 4 => sound_tooDeep _
  | depth + 5 => sound_recovering (sound_declarationRule (sound_expression (depth + 2))
      (sound_declaration (depth + 2)) (sound_declaration depth))

end Grammar
end LoxLang

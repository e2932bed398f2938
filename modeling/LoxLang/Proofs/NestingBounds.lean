import LoxLang.Proofs.Acceptance
import LoxLang.Proofs.ExpressionTokens
import LoxLang.Proofs.TreeNesting

/-!
# Trees are no deeper than their tokens

What is read within a limit of nesting is a tree that is not nested more deeply than the limit. For
one thing this is not so. The condition of a `for` loop may be left out, and then the tree has a
condition that no token stands for. The tokens tell where: two semicolons follow on each other.
-/

namespace LoxLang
namespace Grammar

/-! ## Semicolons -/

/-- Whether no semicolon stands right behind another one. -/
def SemicolonsApart (tokens : List Token) : Prop :=
  tokens.IsChain fun token next => ¬ (token.kind = .semicolon ∧ next.kind = .semicolon)

instance (tokens : List Token) : Decidable (SemicolonsApart tokens) :=
  inferInstanceAs (Decidable (tokens.IsChain _))

namespace SemicolonsApart

variable {first second : List Token}

theorem left (apart : SemicolonsApart (first ++ second)) : SemicolonsApart first :=
  (List.isChain_append.mp apart).1

theorem right (apart : SemicolonsApart (first ++ second)) : SemicolonsApart second :=
  (List.isChain_append.mp apart).2.1

theorem tail {token : Token} (apart : SemicolonsApart (token :: second)) :
    SemicolonsApart second :=
  List.IsChain.tail apart

theorem singleton (token : Token) : SemicolonsApart [token] :=
  List.isChain_singleton token

/-- Tokens are appended if those behind do not start with a semicolon. -/
theorem append (apart : SemicolonsApart first) (apart' : SemicolonsApart second)
    (noSemicolon : ∀ token ∈ second.head?, token.kind ≠ .semicolon) :
    SemicolonsApart (first ++ second) :=
  List.isChain_append.mpr ⟨apart, apart', fun _ _ token isFirst both =>
    noSemicolon token isFirst both.2⟩

theorem cons {token : Token} (noSemicolon : token.kind ≠ .semicolon)
    (apart : SemicolonsApart second) : SemicolonsApart (token :: second) :=
  List.isChain_cons.mpr ⟨fun _ _ both => noSemicolon both.1, apart⟩

/-- Tokens are appended if those in front have no semicolons. -/
theorem behind (noSemicolons : ∀ token ∈ first, token.kind ≠ .semicolon)
    (apart : SemicolonsApart second) : SemicolonsApart (first ++ second) := by
  induction first with
  | nil => exact apart
  | cons token rest ih =>
      rw [List.forall_mem_cons] at noSemicolons
      exact (ih noSemicolons.2).cons noSemicolons.1

/-- Tokens with one semicolon, at their end. -/
theorem concat (noSemicolons : ∀ token ∈ first, token.kind ≠ .semicolon) (semicolon : Token) :
    SemicolonsApart (first ++ [semicolon]) :=
  behind noSemicolons (singleton semicolon)

end SemicolonsApart

theorem noSemicolons_of_madeOf {α : Type} {phrase : Phrase α}
    (made : MadeOf expressionKinds phrase) {tokens : List Token} {tree : α}
    (read : phrase tokens tree) : ∀ token ∈ tokens, token.kind ≠ .semicolon := by
  intro token isToken isSemicolon
  have isKind := made tokens tree read token isToken
  rw [isSemicolon] at isKind
  exact absurd isKind (by decide)

/-- No declaration starts with a semicolon. -/
theorem head_ne_semicolon {depth : Nat} {tokens : List Token} {trees : List Stmt}
    (read : Phrase.Many (DeclarationWithin depth) tokens trees) :
    ∀ token ∈ tokens.head?, token.kind ≠ .semicolon := by
  cases read with
  | done => simp
  | more item _ =>
      rcases (startsIn_declarationWithin depth).append item _ with ⟨first, rest, shape, isKind⟩
      rw [shape, List.head?_cons]
      rintro token ⟨⟩ isSemicolon
      rw [isSemicolon] at isKind
      exact absurd isKind (by decide)

theorem apart_varDeclaration {depth : Nat} {tokens : List Token} {tree : Stmt}
    (read : Phrase.VarDeclaration (ExpressionWithin depth) tokens tree) :
    SemicolonsApart tokens := by
  cases read with
  | @plain keyword name semicolon isVar isIdentifier _ =>
      have noSemicolons : ∀ token ∈ [keyword, name], token.kind ≠ .semicolon := by
        simp [isVar, isIdentifier]
      exact .concat noSemicolons semicolon
  | initialized isVar isIdentifier isEqual value _ =>
      refine .concat ?_ _
      simp only [List.forall_mem_cons, isVar, isIdentifier, isEqual]
      exact ⟨by decide, by decide, by decide,
        noSemicolons_of_madeOf (madeOf_expression depth) value⟩

theorem apart_expressionStatement {depth : Nat} {tokens : List Token} {tree : Stmt}
    (read : Phrase.ExpressionStatement (ExpressionWithin depth) tokens tree) :
    SemicolonsApart tokens := by
  rcases read with ⟨value, -⟩
  exact .concat (noSemicolons_of_madeOf (madeOf_expression depth) value) _

/-- The initializer of a `for` loop ends with a semicolon. -/
theorem exists_semicolon_of_initializer {Expression : Phrase Expr} {tokens : List Token}
    {tree : Option Stmt} (started : Phrase.Initializer Expression tokens tree) :
    ∃ front semicolon, tokens = front ++ [semicolon] ∧ semicolon.kind = .semicolon := by
  cases started with
  | absent isSemicolon => exact ⟨[], _, rfl, isSemicolon⟩
  | var declaration =>
      cases declaration with
      | @plain keyword name semicolon _ _ isSemicolon =>
          exact ⟨[keyword, name], semicolon, rfl, isSemicolon⟩
      | initialized _ _ _ _ isSemicolon => exact ⟨_, _, rfl, isSemicolon⟩
  | expression statement =>
      cases statement with
      | rule _ isSemicolon => exact ⟨_, _, rfl, isSemicolon⟩

theorem isInitializer_of_initializer {Expression : Phrase Expr} {tokens : List Token}
    {tree : Option Stmt} (started : Phrase.Initializer Expression tokens tree) :
    (tree.getD .hole).isInitializer = true := by
  cases started with
  | absent => rfl
  | var declaration => cases declaration <;> rfl
  | expression statement => cases statement; rfl

/-- A loop of semicolons that stand apart has a condition. -/
theorem exists_condition {Expression : Phrase Expr} {first second rest : List Token}
    {semicolon : Token} {initializer : Option Stmt} {condition : Option Expr}
    (started : Phrase.Initializer Expression first initializer)
    (tested : Phrase.Optional Expression second condition)
    (isSemicolon : semicolon.kind = .semicolon)
    (apart : SemicolonsApart (first ++ second ++ semicolon :: rest)) :
    ∃ tree, condition = some tree ∧ Expression second tree := by
  cases tested with
  | present item => exact ⟨_, rfl, item⟩
  | absent =>
      rcases exists_semicolon_of_initializer started with ⟨front, last, rfl, isLast⟩
      rw [List.append_nil, List.append_assoc] at apart
      exact absurd ⟨isLast, isSemicolon⟩ (List.isChain_cons_cons.mp apart.right).1

/-! ## Expressions -/

/-- What the phrases stand for is not nested more deeply than the bound. -/
def Bounds (bound : Nat) (phrase : Phrase Expr) : Prop :=
  ∀ tokens tree, phrase tokens tree → tree.nesting ≤ bound

namespace Bounds

variable {bound : Nat} {Expression Operand : Phrase Expr}

theorem chain {operators : List TokenKind} {join : Expr → Token → Expr → Expr}
    (operands : Bounds bound Operand)
    (joins : ∀ left operator right,
      (join left operator right).nesting = max left.nesting right.nesting) :
    Bounds bound (Phrase.Chain operators join Operand) := by
  intro tokens tree chain
  induction chain with
  | operand operand => exact operands _ _ operand
  | joined _ _ operand ih =>
      rw [joins]
      exact Nat.max_le.mpr ⟨ih, operands _ _ operand⟩

theorem logical (operands : Bounds bound Operand) : Bounds bound (Phrase.Logical Operand) := by
  have binary : ∀ left operator right,
      (Expr.binary left operator right).nesting = max left.nesting right.nesting := by
    intro left operator right
    simp only [Expr.nesting]
  refine ((((operands.chain binary).chain binary).chain binary).chain binary).chain ?_
  intro left operator right
  simp only [Expr.nesting]

theorem items (inner : Bounds bound Expression) {tokens : List Token} {trees : List Expr}
    (items : Phrase.Items Expression tokens trees) : Expr.nestingAll trees ≤ bound := by
  cases items with
  | absent => exact Nat.zero_le _
  | @present _ _ tree trees item others atMost =>
      rw [Expr.nestingAll]
      refine Nat.max_le.mpr ⟨inner _ _ item, ?_⟩
      clear item atMost
      induction others with
      | done => exact Nat.zero_le _
      | more further _ ih =>
          rcases further with ⟨-, item⟩
          rw [Expr.nestingAll]
          exact Nat.max_le.mpr ⟨inner _ _ item, ih⟩

theorem call (inner : Bounds bound Expression) :
    Bounds (bound + 15) (Phrase.Call Expression) := by
  intro tokens tree call
  induction call with
  | primary primary =>
      cases primary with
      | group _ read _ =>
          have bounded := inner _ _ read
          rw [Expr.nesting]
          omega
      | _ =>
          rw [Expr.nesting]
          omega
  | call _ _ items _ ih =>
      have bounded := inner.items items
      rw [Expr.nesting]
      omega

theorem unary {Call : Phrase Expr} (operands : Bounds bound Operand)
    (calls : Bounds (bound + 1) Call) : Bounds (bound + 1) (Phrase.Unary Operand Call) := by
  intro tokens tree unary
  cases unary with
  | call call => exact calls _ _ call
  | signed _ operand =>
      rw [Expr.nesting]
      exact Nat.succ_le_succ (operands _ _ operand)

theorem ternary {Logical Branch : Phrase Expr} (conditions : Bounds (bound + 1) Logical)
    (branches : Bounds bound Branch) : Bounds (bound + 1) (Phrase.Ternary Logical Branch) := by
  intro tokens tree ternary
  cases ternary with
  | plain logical => exact conditions _ _ logical
  | choice logical _ thenPart _ elsePart =>
      have boundedThen := branches _ _ thenPart
      have boundedElse := branches _ _ elsePart
      rw [Expr.nesting]
      exact Nat.max_le.mpr ⟨conditions _ _ logical, by omega⟩

theorem assignment {Ternary Value : Phrase Expr} (targets : Bounds (bound + 1) Ternary)
    (values : Bounds bound Value) : Bounds (bound + 1) (Phrase.Assignment Ternary Value) := by
  intro tokens tree assignment
  cases assignment with
  | plain ternary => exact targets _ _ ternary
  | assign _ _ value =>
      rw [Expr.nesting]
      exact Nat.succ_le_succ (values _ _ value)

theorem condition (inner : Bounds bound Expression) :
    Bounds bound (Phrase.Condition Expression) := by
  rintro tokens tree (⟨_, read, _⟩ | ⟨read, _⟩)
  · exact inner _ _ read
  · exact inner _ _ read

theorem optional (inner : Bounds bound Expression) {tokens : List Token} {tree : Option Expr}
    (given : Phrase.Optional Expression tokens tree) : Expr.nestingOption tree ≤ bound := by
  cases given with
  | absent => exact Nat.zero_le _
  | present read => exact inner _ _ read

end Bounds

mutual

theorem bounds_expression : ∀ depth, Bounds depth (ExpressionWithin depth)
  | 0 => fun _ _ impossible => impossible.elim
  | depth + 1 => bounds_assignment depth

theorem bounds_assignment : ∀ depth, Bounds (depth + 1) (AssignmentWithin depth)
  | 0 => fun _ _ impossible => impossible.elim
  | depth + 1 => (bounds_ternary depth).assignment (bounds_assignment depth)

theorem bounds_ternary : ∀ depth, Bounds (depth + 2) (TernaryWithin depth)
  | 0 | 1 | 2 | 3 | 4 | 5 | 6 | 7 | 8 | 9 => fun _ _ impossible => impossible.elim
  | depth + 10 => (bounds_unary depth).logical.ternary (bounds_ternary (depth + 9))

theorem bounds_unary : ∀ depth, Bounds (depth + 12) (UnaryWithin depth)
  | 0 | 1 | 2 => fun _ _ impossible => impossible.elim
  | depth + 3 => (bounds_unary (depth + 2)).unary (bounds_expression depth).call

end

/-! ## Statements -/

/-- What the phrases stand for is not nested more deeply than the bound, if semicolons stand
apart. -/
def BoundsApart (bound : Nat) (phrase : Phrase Stmt) : Prop :=
  ∀ tokens tree, phrase tokens tree → SemicolonsApart tokens → tree.nesting ≤ bound

namespace BoundsApart

variable {bound : Nat} {Inner : Phrase Stmt} {tokens : List Token} {trees : List Stmt}

theorem many (inner : BoundsApart bound Inner) (many : Phrase.Many Inner tokens trees) :
    SemicolonsApart tokens → Stmt.nestingAll trees ≤ bound := by
  induction many with
  | done =>
      intro _
      rw [Stmt.nestingAll]
      exact Nat.zero_le _
  | more item _ ih =>
      intro apart
      rw [Stmt.nestingAll]
      exact Nat.max_le.mpr ⟨inner _ _ item apart.left, ih apart.right⟩

theorem block (inner : BoundsApart bound Inner) (block : Phrase.Block Inner tokens trees)
    (apart : SemicolonsApart tokens) : Stmt.nestingAll trees ≤ bound := by
  cases block with
  | rule _ declarations _ => exact inner.many declarations apart.left.tail

end BoundsApart

open Stmt

section Clauses

variable {depth : Nat} {Expression : Phrase Expr} (inner : Bounds (depth + 2) Expression)
  {tokens : List Token}
include inner

theorem nesting_le_of_varDeclaration {tree : Stmt}
    (read : Phrase.VarDeclaration Expression tokens tree) : tree.nesting ≤ depth + 5 := by
  cases read with
  | plain =>
      simp only [nesting, declarationNesting, Expr.nestingOption]
      omega
  | initialized _ _ _ value _ =>
      have bounded := inner _ _ value
      simp only [nesting, declarationNesting, Expr.nestingOption]
      omega

theorem nesting_le_of_expressionStatement {tree : Stmt}
    (read : Phrase.ExpressionStatement Expression tokens tree) : tree.nesting ≤ depth + 5 := by
  rcases read with ⟨value, -⟩
  have bounded := inner _ _ value
  simp only [nesting, declarationNesting]
  omega

theorem nesting_le_of_initializer {tree : Option Stmt}
    (started : Phrase.Initializer Expression tokens tree) :
    (tree.getD .hole).nesting ≤ depth + 5 := by
  cases started with
  | absent =>
      rw [Option.getD_none, nesting]
      exact Nat.zero_le _
  | var declaration => exact nesting_le_of_varDeclaration inner declaration
  | expression statement => exact nesting_le_of_expressionStatement inner statement

end Clauses

/-- A declaration that is read within a limit is not nested more deeply, if none of its loops is
without a condition. -/
theorem boundsApart_declaration : ∀ depth, BoundsApart depth (DeclarationWithin depth)
  | 0 | 1 | 2 | 3 | 4 => fun _ _ impossible => impossible.elim
  | depth + 5 => by
      intro tokens tree read apart
      have expressions := bounds_expression (depth + 2)
      have declarations := boundsApart_declaration (depth + 2)
      have nested := boundsApart_declaration depth
      cases read with
      | var declaration => exact nesting_le_of_varDeclaration expressions declaration
      | function _ _ _ _ _ block =>
          have bounded := declarations.block block apart.right.tail
          rw [nesting, declarationNesting]
          omega
      | print _ value _ =>
          have bounded := expressions _ _ value
          rw [nesting, declarationNesting]
          omega
      | block block =>
          have bounded := declarations.block block apart
          rw [nesting, declarationNesting]
          split <;> omega
      | ifThen _ tested thenBlock =>
          have boundedTest := expressions.condition _ _ tested
          have boundedThen := nested.block thenBlock apart.right
          rw [nesting, nestedNesting, bodyNesting]
          omega
      | ifElse _ tested thenBlock _ elseBlock =>
          have boundedTest := expressions.condition _ _ tested
          have boundedThen := nested.block thenBlock apart.left.right
          have boundedElse := nested.block elseBlock apart.right.tail
          rw [nesting, nestedNesting, bodyNesting, bodyNesting]
          omega
      | whileLoop _ tested block =>
          have boundedTest := expressions.condition _ _ tested
          have boundedBody := nested.block block apart.right
          rw [nesting_whileLoop, nestedNesting, Expr.nestingOption]
          omega
      | forLoop _ _ started tested isSemicolon stepped _ block =>
          rcases exists_condition started tested isSemicolon apart.left.tail.tail with
            ⟨condition, rfl, isCondition⟩
          have boundedStart := nesting_le_of_initializer expressions started
          have boundedTest := expressions _ _ isCondition
          have boundedStep := expressions.optional stepped
          have boundedBody := nested.block block apart.right.tail
          rw [desugarFor, nesting_for (isInitializer_of_initializer started), nestedNesting,
            Option.getD_some]
          omega
      | breakLoop | continueLoop =>
          rw [nesting]
          omega
      | returnValue _ given _ =>
          have bounded := expressions.optional given
          rw [nesting, declarationNesting]
          omega
      | expression statement => exact nesting_le_of_expressionStatement expressions statement

/-- A program is not nested more deeply than the limit within which it is read, if none of its loops
is without a condition. -/
theorem nestingAll_le_of_manyWithin {depth : Nat} {tokens : List Token} {trees : List Stmt}
    (read : Phrase.Many (DeclarationWithin depth) tokens trees) (apart : SemicolonsApart tokens) :
    nestingAll trees ≤ depth :=
  (boundsApart_declaration depth).many read apart

end Grammar
end LoxLang

import LoxLang.Proofs.Abandonment
import LoxLang.Proofs.Recovery

/-!
# Conditions that start with a parenthesis

A branch or loop tests an expression in parentheses or a bare one, and a bare one may start with a
parenthesis as well. One token of lookahead does not tell them apart: the rule for conditions takes
every parenthesis for the first form. So a bare condition is read whenever it does not start with a
parenthesis, and a condition that is a group as a whole is read for what is in the group. A
condition that starts with a group and goes on behind it is no condition to the parser: the
statement is abandoned behind the group.
-/

namespace LoxLang

namespace Grammar

open Rule

/-! ## Expressions that start with a group -/

/-- How an expression starts: with something else than an opening parenthesis, or with a group. If
there is more behind the group, it goes on with one of the kinds. -/
inductive Opening (Inner : Phrase Expr) (kinds : List TokenKind) : Phrase Expr
  | plain {first : Token} {rest : List Token} {tree : Expr} (noParen : first.kind ≠ .leftParen) :
      Opening Inner kinds (first :: rest) tree
  | group {left right : Token} {tokens : List Token} {tree : Expr}
      (isLeft : left.kind = .leftParen) (inner : Inner tokens tree)
      (isRight : right.kind = .rightParen) :
      Opening Inner kinds (left :: tokens ++ [right]) (.grouping tree)
  | further {left right next : Token} {tokens rest : List Token} {innerTree tree : Expr}
      (isLeft : left.kind = .leftParen) (inner : Inner tokens innerTree)
      (isRight : right.kind = .rightParen) (goesOn : next.kind ∈ kinds) :
      Opening Inner kinds (left :: tokens ++ right :: next :: rest) tree

namespace Opening

variable {Inner : Phrase Expr} {kinds wider : List TokenKind} {tokens : List Token} {tree : Expr}

theorem mono {Wider : Phrase Expr} (opening : Opening Inner kinds tokens tree)
    (included : ∀ tokens tree, Inner tokens tree → Wider tokens tree) (widened : kinds ⊆ wider) :
    Opening Wider wider tokens tree := by
  cases opening with
  | plain noParen => exact .plain noParen
  | group isLeft inner isRight => exact .group isLeft (included _ _ inner) isRight
  | further isLeft inner isRight goesOn =>
      exact .further isLeft (included _ _ inner) isRight (widened goesOn)

/-- What starts with a group still does if it goes on. -/
theorem append (opening : Opening Inner kinds tokens tree) {next : Token}
    (goesOn : next.kind ∈ kinds) (rest : List Token) (whole : Expr) :
    Opening Inner kinds (tokens ++ next :: rest) whole := by
  cases opening with
  | plain noParen => exact .plain noParen
  | group isLeft inner isRight =>
      rw [List.append_assoc]
      exact .further isLeft inner isRight goesOn
  | further isLeft inner isRight isNext =>
      rw [List.append_assoc]
      exact .further isLeft inner isRight isNext

theorem primary (read : Phrase.Primary Inner tokens tree) : Opening Inner kinds tokens tree := by
  cases read with
  | group isLeft inner isRight => exact .group isLeft inner isRight
  | trueWord isKind | falseWord isKind | nilWord isKind | number isKind | string isKind
  | identifier isKind => exact .plain (by simp [isKind])

theorem call (read : Phrase.Call Inner tokens tree) :
    Opening Inner [.leftParen] tokens tree := by
  induction read with
  | primary read => exact primary read
  | call _ isLeft _ _ ih =>
      rw [List.append_assoc]
      exact ih.append (List.mem_singleton.mpr isLeft) _ _

theorem unary {Operand : Phrase Expr}
    (read : Phrase.Unary Operand (Phrase.Call Inner) tokens tree) :
    Opening Inner [.leftParen] tokens tree := by
  cases read with
  | call read => exact call read
  | signed isOperator =>
      refine .plain fun isLeft => ?_
      rw [isLeft] at isOperator
      exact absurd isOperator (by decide)

theorem chain {operators : List TokenKind} {join : Expr → Token → Expr → Expr}
    {Operand : Phrase Expr}
    (opens : ∀ tokens tree, Operand tokens tree → Opening Inner kinds tokens tree)
    (read : Phrase.Chain operators join Operand tokens tree) :
    Opening Inner (operators ++ kinds) tokens tree := by
  induction read with
  | operand read => exact (opens _ _ read).mono (fun _ _ => id) (List.subset_append_right _ _)
  | joined _ isOperator _ ih => exact ih.append (List.mem_append_left _ isOperator) _ _

theorem logical {Unary : Phrase Expr}
    (opens : ∀ tokens tree, Unary tokens tree → Opening Inner [.leftParen] tokens tree)
    (read : Phrase.Logical Unary tokens tree) : Opening Inner logicalStops tokens tree :=
  chain (fun _ _ => chain fun _ _ => chain fun _ _ => chain fun _ _ => chain opens) read

theorem ternary {Logical Branch : Phrase Expr}
    (opens : ∀ tokens tree, Logical tokens tree → Opening Inner logicalStops tokens tree)
    (read : Phrase.Ternary Logical Branch tokens tree) :
    Opening Inner ternaryStops tokens tree := by
  have widened : ∀ {tokens tree}, Logical tokens tree → Opening Inner ternaryStops tokens tree :=
    fun read => (opens _ _ read).mono (fun _ _ => id) (List.subset_cons_self _ _)
  cases read with
  | plain read => exact widened read
  | choice read isQuestion =>
      rw [List.append_assoc]
      exact (widened read).append (by simp [isQuestion]) _ _

end Opening

theorem expressionWithin_mono {depth greater : Nat} (atMost : depth ≤ greater) :
    ∀ tokens tree, ExpressionWithin depth tokens tree → ExpressionWithin greater tokens tree := by
  induction atMost with
  | refl => exact fun _ _ => id
  | step _ ih => exact fun tokens tree read => expressionWithin_succ _ _ _ (ih tokens tree read)

theorem opening_of_unaryWithin {depth : Nat} {tokens : List Token} {tree : Expr}
    (read : UnaryWithin depth tokens tree) :
    Opening (ExpressionWithin depth) [.leftParen] tokens tree := by
  rcases Nat.exists_eq_add_of_le' (three_le_of_unaryWithin read) with ⟨less, rfl⟩
  exact (Opening.unary read).mono (expressionWithin_mono (Nat.le_add_right less 3))
    (List.Subset.refl _)

/-- An expression starts with a group if it starts with a parenthesis, and in the group there is an
expression that needs no more room. -/
theorem opening_of_expressionWithin : ∀ {depth tokens tree}, ExpressionWithin depth tokens tree →
    Opening (ExpressionWithin depth) ternaryStops tokens tree
  | depth + 2, _, _, .assign isIdentifier _ _ => .plain (by simp [isIdentifier])
  | depth + 12, _, _, .plain read =>
      (Opening.ternary (fun _ _ => Opening.logical fun _ _ => opening_of_unaryWithin) read).mono
        (expressionWithin_mono (Nat.le_add_right depth 12)) (List.Subset.refl _)

/-! ## Branches and loops -/

/-- The statements that are a condition and a block. -/
inductive Tested
  | branch
  | loop

namespace Tested

/-- The keyword that starts such a statement. -/
def keyword : Tested → TokenKind
  | branch => .ifWord
  | loop => .whileWord

/-- How a report calls what the block has to come after. -/
def condition : Tested → String
  | branch => "if condition"
  | loop => "while condition"

/-- The tree of such a statement. -/
def statement (condition : Expr) (body : List Stmt) : Tested → Stmt
  | branch => .ifElse condition (.block body) none
  | loop => .whileLoop condition (.block body) none

variable {tested : Tested} {keyword : Token} {depth : Nat}

/-- A statement with a condition that the parser reads. -/
theorem parse_eq (isKeyword : keyword.kind = tested.keyword) {tokens body : List Token}
    {tree : Expr} {trees : List Stmt}
    (isCondition : Phrase.Condition (ExpressionWithin (depth + 2)) tokens tree)
    (isBlock : Phrase.Block (DeclarationWithin depth) body trees) (ending : Token) :
    Parse.ofTokens (depth + 5) false (keyword :: tokens ++ body) ending =
      ⟨[tested.statement tree trees], []⟩ := by
  have read : DeclarationWithin (depth + 5) (keyword :: tokens ++ body)
      (tested.statement tree trees) := by
    cases tested with
    | branch => exact .ifThen isKeyword isCondition isBlock
    | loop => exact .whileLoop isKeyword isCondition isBlock
  have program := Phrase.Many.more read .done
  rw [List.append_nil] at program
  exact Parse.ofTokens_of_manyWithin program ending

/-- A statement whose condition goes on behind a group is abandoned there. -/
theorem abandons {expression : Rule Expr} (declaration nested : Rule Stmt)
    {Expression : Phrase Expr} (complete : Complete False expression Expression expressionStops)
    (isKeyword : keyword.kind = tested.keyword) {left right next : Token}
    {tokens : List Token} {tree : Expr} (isLeft : left.kind = .leftParen)
    (inner : Expression tokens tree) (isRight : right.kind = .rightParen)
    {rest : List Token} (noBrace : Follows [.leftBrace] (next :: rest)) :
    Abandons (declarationRule expression declaration nested)
      (keyword :: (left :: tokens ++ right :: next :: rest))
      (.expected ("'\x7b' after " ++ tested.condition)) (next :: rest) := by
  have group := reads_group complete isLeft inner isRight (next :: rest)
  have noBlock : Abandons (bracedBlock tested.condition nested) (next :: rest)
      (.expected ("'\x7b' after " ++ tested.condition)) (next :: rest) :=
    (abandons_expect _ noBrace).bind
  cases tested with
  | branch =>
      refine (reads_accept_some (by simp [isKeyword, Tested.keyword])).leads ?_
      simp only [isKeyword, Tested.keyword]
      exact group.leads noBlock.bind
  | loop =>
      refine (reads_accept_some (by simp [isKeyword, Tested.keyword])).leads ?_
      simp only [isKeyword, Tested.keyword]
      exact group.leads (noBlock.map _)

end Tested

end Grammar

namespace Parse

open Grammar

/-- What the parser makes of a branch or a loop over any condition and any block within its limit. A
condition that does not start with a parenthesis is read as it is, and one that is a group as a
whole is read without its parentheses. A condition that starts with a group and goes on behind it is
not read at all, although it is an expression: the statement is a hole, the token behind the group
is reported in place of the block, and the program goes on at the next boundary behind that
token. -/
theorem ofTokens_condition (depth : Nat) (tested : Tested) {keyword : Token}
    (isKeyword : keyword.kind = tested.keyword) {condition body : List Token} {tree : Expr}
    {trees : List Stmt} (isCondition : ExpressionWithin (depth + 2) condition tree)
    (isBlock : Phrase.Block (DeclarationWithin depth) body trees) (ending : Token) :
    let parse := ofTokens (depth + 5) false (keyword :: condition ++ body) ending
    (∀ first ∈ condition.head?, first.kind ≠ .leftParen) ∧
        parse = ⟨[tested.statement tree trees], []⟩ ∨
      (∃ left inner right innerTree, condition = left :: inner ++ [right] ∧
        left.kind = .leftParen ∧ ExpressionWithin (depth + 2) inner innerTree ∧
        right.kind = .rightParen ∧ tree = .grouping innerTree ∧
        parse = ⟨[tested.statement innerTree trees], []⟩) ∨
      ∃ left inner right next rest innerTree, condition = left :: inner ++ right :: next :: rest ∧
        left.kind = .leftParen ∧ ExpressionWithin (depth + 2) inner innerTree ∧
        right.kind = .rightParen ∧ next.kind ∈ ternaryStops ∧
        let others := ofTokens (depth + 5) false (Cursor.skipToBoundary next (rest ++ body)) ending
        parse = ⟨.hole :: others.statements, .atToken next "Parser"
          ("Expect '\x7b' after " ++ tested.condition ++ ".") :: others.diagnostics⟩ := by
  intro parse
  cases opening_of_expressionWithin isCondition with
  | @plain first rest _ noParen =>
      have isBare : ∀ token ∈ (first :: rest).head?, token.kind ≠ .leftParen := by
        simpa using noParen
      exact .inl ⟨isBare, Tested.parse_eq isKeyword (.bare isCondition isBare) isBlock ending⟩
  | group isLeft inner isRight =>
      exact .inr (.inl ⟨_, _, _, _, rfl, isLeft, inner, isRight, rfl,
        Tested.parse_eq isKeyword (.grouped isLeft inner isRight) isBlock ending⟩)
  | @further left right next inner rest innerTree _ isLeft isInner isRight goesOn =>
      refine .inr (.inr ⟨left, inner, right, next, rest, innerTree, rfl, isLeft, isInner, isRight,
        goesOn, ?_⟩)
      have noBrace : Follows [.leftBrace] (next :: (rest ++ body)) := .of_mem goesOn (by decide) _
      have abandoned := Tested.abandons (declaration (depth + 2)) (declaration depth)
        (complete_expressionWithin (depth + 2)) isKeyword isLeft isInner isRight noBrace
      have isMessage : (GrammarFault.expected ("'\x7b' after " ++ tested.condition)).message =
          "Expect '\x7b' after " ++ tested.condition ++ "." := by
        cases tested <;> rfl
      have parsed := ofTokens_of_abandons (List.cons_ne_nil _ _) abandoned ending
      rw [isMessage] at parsed
      simpa [parse, resumed] using parsed

/-- A loop over `(a)` tests `a`. -/
theorem ofTokens_condition_loop :
    ofTokens nestingLimit false
        ([.whileWord, .leftParen, .identifier, .rightParen, .leftBrace, .rightBrace].map Piece.sign)
        (Piece.sign .endOfText) =
      ⟨[.whileLoop (.variable (Piece.sign .identifier)) (.block []) none], []⟩ := by
  have name : ExpressionWithin 974 [Piece.sign .identifier] (.variable (Piece.sign .identifier)) :=
    .plain (show TernaryWithin 972 _ _ from ternaryWithin_of_identifier rfl (by decide))
  have unary : UnaryWithin 977 ([.leftParen, .identifier, .rightParen].map Piece.sign)
      (.grouping (.variable (Piece.sign .identifier))) := .call (.primary (.group rfl name rfl))
  have group : ExpressionWithin (987 + 2) ([.leftParen, .identifier, .rightParen].map Piece.sign)
      (.grouping (.variable (Piece.sign .identifier))) :=
    .plain (.plain (.operand (.operand (.operand (.operand (.operand unary))))))
  have body : Phrase.Block (DeclarationWithin 987) ([.leftBrace, .rightBrace].map Piece.sign) [] :=
    .rule rfl .done rfl
  have isWhile : (Piece.sign .whileWord).kind = Tested.loop.keyword := rfl
  rcases ofTokens_condition 987 .loop isWhile group body (Piece.sign .endOfText) with
    ⟨noParen, -⟩ | isWhole | isFurther
  · exact absurd rfl (noParen _ rfl)
  · rcases isWhole with ⟨left, inner, right, innerTree, -, -, -, -, isTree, parsed⟩
    rw [← Expr.grouping.inj isTree] at parsed
    exact parsed
  · rcases isFurther with ⟨left, inner, right, next, rest, innerTree, isCondition, -, isInner, -⟩
    rcases startsIn_expressionWithin _ _ _ isInner with ⟨first, others, rfl, -⟩
    have tooLong := congrArg List.length isCondition
    simp at tooLong
    omega

/-- The expression `(a) + b` is not read as a condition. -/
theorem ofTokens_condition_cutShort :
    (∃ tree, Expression
        ([.leftParen, .identifier, .rightParen, .plus, .identifier].map Piece.sign) tree) ∧
      Phrase.Block Declaration ([.leftBrace, .rightBrace].map Piece.sign) [] ∧
      ofTokens nestingLimit false
          ([.ifWord, .leftParen, .identifier, .rightParen, .plus, .identifier, .leftBrace,
            .rightBrace].map Piece.sign) (Piece.sign .endOfText) =
        ⟨[.hole], [.atToken (Piece.sign .plus) "Parser" "Expect '\x7b' after if condition."]⟩ := by
  have name : Expression [Piece.sign .identifier] (.variable (Piece.sign .identifier)) :=
    .rule (.plain (ternary_of_identifier rfl))
  have group : Unary ([.leftParen, .identifier, .rightParen].map Piece.sign)
      (.grouping (.variable (Piece.sign .identifier))) :=
    .rule (.call (.primary (.group rfl name rfl)))
  have isOperator : (Piece.sign .plus).kind ∈ [TokenKind.minus, .plus] := by decide
  have sum : Phrase.Chain [.minus, .plus] .binary (Phrase.Chain [.slash, .star] .binary Unary)
      ([.leftParen, .identifier, .rightParen].map Piece.sign ++
        Piece.sign .plus :: [Piece.sign .identifier])
      (.binary (.grouping (.variable (Piece.sign .identifier))) (Piece.sign .plus)
        (.variable (Piece.sign .identifier))) :=
    .joined (.operand (.operand group)) isOperator (.operand (unary_of_identifier rfl))
  refine ⟨⟨_, .rule (.plain (.rule (.plain (.operand (.operand (.operand sum))))))⟩,
    .rule rfl .done rfl, rfl⟩

end Parse

end LoxLang

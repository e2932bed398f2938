import LoxLang.Proofs.Holes

/-!
# The tokens of expressions

An expression has no semicolon and no brace in it and no keyword that starts a statement. So the
search for a boundary finds nothing in a statement that is a keyword and an expression, and it stops
behind the semicolon of it.
-/

namespace LoxLang

namespace Grammar

open Rule

/-- Whether every phrase is made of tokens of the given kinds. -/
def MadeOf {α : Type} (kinds : List TokenKind) (phrase : Phrase α) : Prop :=
  ∀ tokens tree, phrase tokens tree → ∀ token ∈ tokens, token.kind ∈ kinds

/-- The kinds of the tokens that an expression is made of. -/
def expressionKinds : List TokenKind :=
  operandKinds ++ expressionStops ++ [.comma, .colon, .rightParen]

namespace MadeOf

theorem chain {operators : List TokenKind} {join : Expr → Token → Expr → Expr}
    {Operand : Phrase Expr} (made : MadeOf expressionKinds Operand)
    (included : operators ⊆ expressionKinds) :
    MadeOf expressionKinds (Phrase.Chain operators join Operand) := by
  intro tokens tree read
  induction read with
  | operand read => exact made _ _ read
  | joined _ isOperator read ih =>
      rw [List.forall_mem_append, List.forall_mem_cons]
      exact ⟨ih, included isOperator, made _ _ read⟩

theorem logical {Unary : Phrase Expr} (made : MadeOf expressionKinds Unary) :
    MadeOf expressionKinds (Phrase.Logical Unary) :=
  chain (chain (chain (chain (chain made (by decide)) (by decide)) (by decide)) (by decide))
    (by decide)

theorem ternary {Logical Branch : Phrase Expr} (made : MadeOf expressionKinds Logical)
    (branches : MadeOf expressionKinds Branch) :
    MadeOf expressionKinds (Phrase.Ternary Logical Branch) := by
  rintro tokens tree (read | ⟨read, isQuestion, thenPart, isColon, elsePart⟩)
  · exact made _ _ read
  · simp only [List.append_assoc, List.cons_append, List.forall_mem_append, List.forall_mem_cons,
      isQuestion, isColon]
    exact ⟨made _ _ read, by decide, branches _ _ thenPart, by decide, branches _ _ elsePart⟩

theorem assignment {Ternary Value : Phrase Expr} (made : MadeOf expressionKinds Ternary)
    (values : MadeOf expressionKinds Value) :
    MadeOf expressionKinds (Phrase.Assignment Ternary Value) := by
  rintro tokens tree (read | ⟨isIdentifier, isEqual, value⟩)
  · exact made _ _ read
  · simp only [List.forall_mem_cons, isIdentifier, isEqual]
    exact ⟨by decide, by decide, values _ _ value⟩

theorem items {α : Type} {Item : Phrase α} (made : MadeOf expressionKinds Item) :
    MadeOf expressionKinds (Phrase.Items Item) := by
  have further : MadeOf expressionKinds (Phrase.Many (Phrase.Further Item)) := by
    intro tokens trees read
    induction read with
    | done => simp
    | more read _ ih =>
        rcases read with ⟨isComma, item⟩
        simp only [List.cons_append, List.forall_mem_cons, List.forall_mem_append, isComma]
        exact ⟨by decide, made _ _ item, ih⟩
  rintro tokens trees (_ | ⟨item, others, -⟩)
  · simp
  · rw [List.forall_mem_append]
    exact ⟨made _ _ item, further _ _ others⟩

theorem primary {Expression : Phrase Expr} (made : MadeOf expressionKinds Expression) :
    MadeOf expressionKinds (Phrase.Primary Expression) := by
  intro tokens tree read
  cases read with
  | group isLeft inner isRight =>
      simp only [List.cons_append, List.forall_mem_cons, List.forall_mem_append, isLeft, isRight,
        List.not_mem_nil, false_imp_iff, implies_true, and_true]
      exact ⟨by decide, made _ _ inner, by decide⟩
  | trueWord isKind | falseWord isKind | nilWord isKind | number isKind | string isKind
  | identifier isKind =>
      simp only [List.mem_singleton, forall_eq, isKind]
      decide

theorem call {Expression : Phrase Expr} (made : MadeOf expressionKinds Expression) :
    MadeOf expressionKinds (Phrase.Call Expression) := by
  intro tokens tree read
  induction read with
  | primary read => exact made.primary _ _ read
  | call _ isLeft read isRight ih =>
      simp only [List.append_assoc, List.cons_append, List.forall_mem_append, List.forall_mem_cons,
        isLeft, isRight, List.not_mem_nil, false_imp_iff, implies_true, and_true]
      exact ⟨ih, by decide, made.items _ _ read, by decide⟩

theorem unary {Operand Call : Phrase Expr} (made : MadeOf expressionKinds Operand)
    (calls : MadeOf expressionKinds Call) :
    MadeOf expressionKinds (Phrase.Unary Operand Call) := by
  rintro tokens tree (⟨isOperator, operand⟩ | read)
  · have included : [TokenKind.bang, .minus] ⊆ expressionKinds := by decide
    rw [List.forall_mem_cons]
    exact ⟨included isOperator, made _ _ operand⟩
  · exact calls _ _ read

theorem condition {Expression : Phrase Expr} (made : MadeOf expressionKinds Expression) :
    MadeOf expressionKinds (Phrase.Condition Expression) := by
  rintro tokens tree (⟨isLeft, inner, isRight⟩ | ⟨value, -⟩)
  · simp only [List.cons_append, List.forall_mem_cons, List.forall_mem_append, isLeft, isRight,
      List.not_mem_nil, false_imp_iff, implies_true, and_true]
    exact ⟨by decide, made _ _ inner, by decide⟩
  · exact made _ _ value

theorem optional {Expression : Phrase Expr} (made : MadeOf expressionKinds Expression) :
    MadeOf expressionKinds (Phrase.Optional Expression) := by
  rintro tokens tree (_ | value)
  · simp
  · exact made _ _ value

theorem parameter : MadeOf expressionKinds Phrase.Parameter := by
  rintro tokens name ⟨isIdentifier⟩
  simp only [List.mem_singleton, forall_eq, isIdentifier]
  decide

end MadeOf

mutual

theorem madeOf_expression : ∀ depth, MadeOf expressionKinds (ExpressionWithin depth)
  | 0 => fun _ _ impossible => impossible.elim
  | depth + 1 => madeOf_assignment depth

theorem madeOf_assignment : ∀ depth, MadeOf expressionKinds (AssignmentWithin depth)
  | 0 => fun _ _ impossible => impossible.elim
  | depth + 1 => .assignment (madeOf_ternary depth) (madeOf_assignment depth)

theorem madeOf_ternary : ∀ depth, MadeOf expressionKinds (TernaryWithin depth)
  | 0 | 1 | 2 | 3 | 4 | 5 | 6 | 7 | 8 | 9 => fun _ _ impossible => impossible.elim
  | depth + 10 => .ternary (.logical (madeOf_unary depth)) (madeOf_ternary (depth + 9))

theorem madeOf_unary : ∀ depth, MadeOf expressionKinds (UnaryWithin depth)
  | 0 | 1 | 2 => fun _ _ impossible => impossible.elim
  | depth + 3 => .unary (madeOf_unary (depth + 2)) (.call (madeOf_expression depth))

end

/-! ## Searching for a boundary -/

/-- The search for a boundary passes over an expression and stops behind the semicolon. -/
theorem skipToBoundary_expression {previous semicolon : Token} {tokens : List Token}
    (made : ∀ token ∈ tokens, token.kind ∈ expressionKinds)
    (isSemicolon : semicolon.kind = .semicolon) (notSemicolon : previous.kind ≠ .semicolon)
    (rest : List Token) : Cursor.skipToBoundary previous (tokens ++ semicolon :: rest) = rest := by
  induction tokens generalizing previous with
  | nil =>
      have notBoundary : Cursor.isBoundary semicolon.kind = false := by
        rw [isSemicolon]
        decide
      rw [List.nil_append, Cursor.skipToBoundary]
      simp only [notSemicolon, notBoundary, beq_eq_false_iff_ne.mpr, Bool.or_self, ne_eq,
        not_false_eq_true, Bool.false_eq_true, if_false]
      cases rest <;> simp [Cursor.skipToBoundary, isSemicolon]
  | cons token tokens ih =>
      rw [List.forall_mem_cons] at made
      have noBoundary : ∀ kind ∈ expressionKinds,
          kind ≠ .semicolon ∧ Cursor.isBoundary kind = false := by
        decide
      rcases noBoundary _ made.1 with ⟨isOther, notBoundary⟩
      rw [List.cons_append, Cursor.skipToBoundary]
      simp only [notSemicolon, notBoundary, beq_eq_false_iff_ne.mpr, Bool.or_self, ne_eq,
        not_false_eq_true, Bool.false_eq_true, if_false]
      exact ih made.2 isOther

/-- The keywords of the statements that are a keyword and an expression. -/
def plainKeywords : List TokenKind :=
  [.varWord, .printWord, .returnWord]

theorem resumed_statement {keyword semicolon : Token} {tokens : List Token}
    (isPlain : keyword.kind ∈ plainKeywords)
    (made : ∀ token ∈ tokens, token.kind ∈ expressionKinds)
    (isSemicolon : semicolon.kind = .semicolon) (rest : List Token) :
    resumed (keyword :: tokens ++ [semicolon] ++ rest) = rest := by
  have notSemicolon : keyword.kind ≠ .semicolon := by
    intro isSemicolon
    rw [isSemicolon] at isPlain
    exact absurd isPlain (by decide)
  rw [List.append_assoc]
  exact skipToBoundary_expression made isSemicolon notSemicolon rest

/-- From the first token of a statement on that is a keyword and an expression, the search for a
boundary passes over that statement and no more. -/
theorem resumed_plain : ∀ {depth : Nat} {tokens : List Token} {tree : Stmt},
    DeclarationWithin depth tokens tree →
      (∀ first ∈ tokens.head?, first.kind ∈ plainKeywords) → ∀ rest, resumed (tokens ++ rest) = rest
  | depth + 5, tokens, _, read, isPlain, rest => by
      have other : ∀ kind ∉ plainKeywords, ∀ first ∈ tokens.head?, first.kind ≠ kind := by
        rintro kind notPlain first isFirst rfl
        exact notPlain (isPlain first isFirst)
      cases read with
      | var declaration =>
          cases declaration with
          | @plain keyword name semicolon _ isIdentifier isSemicolon =>
              change resumed (keyword :: [name] ++ [semicolon] ++ rest) = rest
              refine resumed_statement (isPlain _ rfl) (fun token isToken => ?_) isSemicolon rest
              rw [List.mem_singleton.mp isToken, isIdentifier]
              decide
          | initialized _ isIdentifier isEqual value isSemicolon =>
              refine resumed_statement (isPlain _ rfl) ?_ isSemicolon rest
              simp only [List.forall_mem_cons, isIdentifier, isEqual]
              exact ⟨by decide, by decide, madeOf_expression _ _ _ value⟩
      | print _ value isSemicolon =>
          exact resumed_statement (isPlain _ rfl) (madeOf_expression _ _ _ value) isSemicolon rest
      | returnValue _ given isSemicolon =>
          exact resumed_statement (isPlain _ rfl) ((madeOf_expression _).optional _ _ given)
            isSemicolon rest
      | block read =>
          rcases StartsIn.block _ _ _ read with ⟨first, others, rfl, isLeft⟩
          exact absurd (List.mem_singleton.mp isLeft) (other _ (by decide) _ rfl)
      | expression statement =>
          rcases (startsIn_expressionWithin _).expressionStatement _ _ statement with
            ⟨first, others, rfl, isOperand⟩
          have noKeyword : ∀ kind ∈ operandKinds, kind ∉ plainKeywords := by decide
          exact absurd (isPlain first rfl) (noKeyword _ isOperand)
      | function isKind | ifThen isKind | ifElse isKind | whileLoop isKind | forLoop isKind
      | breakLoop isKind | continueLoop isKind =>
          exact absurd isKind (other _ (by decide) _ rfl)

end Grammar

end LoxLang

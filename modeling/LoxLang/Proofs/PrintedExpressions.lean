import LoxLang.Proofs.Acceptance
import LoxLang.Proofs.Spelling

/-!
# Printed expressions

The text of an expression spells tokens that stand for the same expression. They need not be the
tokens that it was parsed from: a number may be written in another way.
-/

namespace LoxLang
namespace Grammar

/-- What a phrase stands for is printed as a text that spells the phrase again. -/
def Reprints {α : Type} (write : α → List Char) (phrase : Phrase α) : Prop :=
  ∀ tokens tree, phrase tokens tree → (∀ token ∈ tokens, token.Genuine) →
    ∃ printed, phrase printed tree ∧ ∀ rest, Ends rest → Spells rest (write tree) printed

/-- The text of an expression. -/
def written (expression : Expr) : List Char := expression.source.toList

theorem reprints_literal {Expression : Phrase Expr} {token : Token} {kind : TokenKind}
    {value : Value}
    (genuine : token.Genuine) (isKind : token.kind = kind)
    (known : (kind, value.source.toList) ∈ Token.spellings)
    (primary : Phrase.Primary Expression [token] (.literal value)) :
    ∃ printed, Phrase.Primary Expression printed (.literal value) ∧
      ∀ rest, Ends rest → Spells rest (written (.literal value)) printed := by
  refine ⟨[token], primary, ?_⟩
  intro rest ends
  have spelled := genuine.spellsAlone ends
  rw [genuine.toList_lexeme isKind known] at spelled
  simpa [written, Expr.source] using spelled

theorem Reprints.primary {Expression : Phrase Expr} (inner : Reprints written Expression) :
    Reprints written (Phrase.Primary Expression) := by
  intro tokens tree primary genuine
  cases primary with
  | trueWord isTrue =>
      exact reprints_literal (genuine _ (by simp)) isTrue (by decide) (.trueWord isTrue)
  | falseWord isFalse =>
      exact reprints_literal (genuine _ (by simp)) isFalse (by decide) (.falseWord isFalse)
  | nilWord isNil => exact reprints_literal (genuine _ (by simp)) isNil (by decide) (.nilWord isNil)
  | @number token isNumber =>
      rcases (genuine token (by simp)).exists_numeral isNumber with
        ⟨numeral, isNumeral, sameLiteral, isLexeme, genuineNumeral⟩
      refine ⟨[numeral], ?_, ?_⟩
      · rw [← sameLiteral]
        exact .number isNumeral
      · intro rest ends
        have spelled := genuineNumeral.spellsAlone ends
        simpa [written, Expr.source, isLexeme] using spelled
  | @string token isString =>
      refine ⟨[token], .string isString, ?_⟩
      intro rest ends
      have spelled := (genuine token (by simp)).spellsAlone ends
      rw [← (genuine token (by simp)).source_string isString] at spelled
      simpa [written, Expr.source] using spelled
  | @identifier token isIdentifier =>
      refine ⟨[token], .identifier isIdentifier, ?_⟩
      intro rest ends
      have spelled := (genuine token (by simp)).spellsAlone ends
      simpa [written, Expr.source] using spelled
  | @group left right tokens tree isLeft group isRight =>
      simp only [List.forall_mem_append, List.forall_mem_cons] at genuine
      rcases genuine with ⟨⟨genuineLeft, genuineInner⟩, genuineRight, -⟩
      rcases inner tokens tree group genuineInner with ⟨printed, reads, spells⟩
      refine ⟨left :: printed ++ [right], .group isLeft reads isRight, ?_⟩
      intro rest ends
      have text : written (.grouping tree) = '(' :: (written tree ++ [')']) := by
        simp [written, Expr.source]
      rw [text]
      refine genuineLeft.spellsMark isLeft (by decide) ((spells _ (by simp)).append ?_)
      exact genuineRight.spellsMark isRight (by decide) .done

/-! ## Lists of items -/

section Items

variable {α : Type} (write : α → String)

/-- The texts of the items behind the first one. -/
def writtenFurther (trees : List α) : List Char :=
  trees.flatMap fun tree => ',' :: ' ' :: (write tree).toList

theorem toList_intercalate_cons (tree : α) (trees : List α) :
    (", ".intercalate ((tree :: trees).map write)).toList =
      (write tree).toList ++ writtenFurther write trees := by
  induction trees generalizing tree with
  | nil => simp [writtenFurther]
  | cons next trees ih =>
      have further := ih next
      simp only [List.map_cons, writtenFurther, List.flatMap_cons] at further ⊢
      rw [String.intercalate_cons_cons]
      simp [further]

theorem ends_further {rest : List Char} (ends : Ends rest) (trees : List α) :
    Ends (writtenFurther write trees ++ rest) := by
  cases trees with
  | nil => exact ends
  | cons tree trees => simp [writtenFurther]

theorem Reprints.further {Item : Phrase α}
    (inner : Reprints (fun tree => (write tree).toList) Item) :
    Reprints (writtenFurther write) (Phrase.Many (Phrase.Further Item)) := by
  intro tokens trees many
  induction many with
  | done => exact fun _ => ⟨[], .done, fun _ _ => .done⟩
  | @more _ others tree trees item _ ih =>
      rcases item with ⟨isComma, item⟩
      intro genuine
      simp only [List.forall_mem_append, List.forall_mem_cons] at genuine
      rcases genuine with ⟨⟨genuineComma, genuineItem⟩, genuineOthers⟩
      rcases inner _ _ item genuineItem with ⟨printed, reads, spells⟩
      rcases ih genuineOthers with ⟨printedOthers, readsOthers, spellsOthers⟩
      refine ⟨_, .more (.rule isComma reads) readsOthers, ?_⟩
      intro rest ends
      have text : writtenFurther write (tree :: trees) =
          ',' :: ' ' :: ((write tree).toList ++ writtenFurther write trees) := by
        simp [writtenFurther]
      rw [text]
      refine genuineComma.spellsMark isComma (by decide) (.space ?_)
      exact (spells _ (ends_further write ends trees)).append (spellsOthers rest ends)

theorem Reprints.items {Item : Phrase α} (inner : Reprints (fun tree => (write tree).toList) Item) :
    Reprints (fun trees => (", ".intercalate (trees.map write)).toList) (Phrase.Items Item) := by
  intro tokens trees items genuine
  cases items with
  | absent => exact ⟨[], .absent, fun _ _ => by simpa using .done⟩
  | @present _ _ tree trees item others atMost =>
      simp only [List.forall_mem_append] at genuine
      rcases inner _ _ item genuine.1 with ⟨printed, reads, spells⟩
      rcases inner.further write _ _ others genuine.2 with
        ⟨printedOthers, readsOthers, spellsOthers⟩
      refine ⟨_, .present reads readsOthers atMost, ?_⟩
      intro rest ends
      simp only [toList_intercalate_cons]
      exact (spells _ (ends_further write ends trees)).append (spellsOthers rest ends)

end Items

theorem sources_eq_map (expressions : List Expr) :
    Expr.sources expressions = expressions.map Expr.source := by
  induction expressions with
  | nil => rfl
  | cons expression rest ih => rw [Expr.sources, ih, List.map_cons]

/-! ## Operators and calls -/

theorem Reprints.call {Expression : Phrase Expr} (inner : Reprints written Expression) :
    Reprints written (Phrase.Call Expression) := by
  intro tokens tree call
  induction call with
  | primary primary =>
      intro genuine
      rcases inner.primary _ _ primary genuine with ⟨printed, reads, spells⟩
      exact ⟨printed, .primary reads, spells⟩
  | @call left right tokens arguments callee trees _ isLeft items isRight ih =>
      intro genuine
      simp only [List.forall_mem_append, List.forall_mem_cons] at genuine
      rcases genuine with ⟨⟨genuineCallee, genuineLeft, genuineItems⟩, genuineRight, -⟩
      rcases ih genuineCallee with ⟨printed, reads, spells⟩
      rcases Reprints.items Expr.source inner _ _ items genuineItems with
        ⟨printedItems, readsItems, spellsItems⟩
      refine ⟨_, .call reads isLeft readsItems isRight, ?_⟩
      intro rest ends
      have text : written (.call callee (some right) trees) = written callee ++
          '(' :: ((", ".intercalate (trees.map Expr.source)).toList ++ [')']) := by
        simp [written, Expr.source, sources_eq_map]
      rw [text, List.append_assoc]
      refine (spells _ (by simp)).append (genuineLeft.spellsMark isLeft (by decide) ?_)
      refine (spellsItems _ (by simp)).append ?_
      exact genuineRight.spellsMark isRight (by decide) .done

theorem Reprints.unary {Operand Call : Phrase Expr} (operands : Reprints written Operand)
    (starts : StartsIn operandKinds Operand) (calls : Reprints written Call) :
    Reprints written (Phrase.Unary Operand Call) := by
  intro tokens tree unary genuine
  cases unary with
  | call call =>
      rcases calls _ _ call genuine with ⟨printed, reads, spells⟩
      exact ⟨printed, .call reads, spells⟩
  | @signed operator _ operandTree isOperator operand =>
      simp only [List.forall_mem_cons] at genuine
      rcases operands _ _ operand genuine.2 with ⟨printed, reads, spells⟩
      refine ⟨operator :: printed, .signed isOperator reads, ?_⟩
      intro rest ends
      have text : written (.unary operator operandTree) =
          operator.lexeme.toList ++ written operandTree := by
        simp [written, Expr.source]
      rw [text]
      -- an operand does not start with an equals sign, which would belong to the operator
      have stops : Segment.Stops (· == '=') (written operandTree ++ rest) := by
        rcases starts _ _ reads with ⟨first, others, rfl, isFirst⟩
        have noEqual : first.kind ≠ .equal ∧ first.kind ≠ .equalEqual := by
          constructor <;> intro isEqual <;> rw [isEqual] at isFirst <;>
            exact absurd isFirst (by decide)
        exact (spells rest ends).stops_equal noEqual.1 noEqual.2
      exact genuine.1.spellsSign isOperator stops (spells rest ends)

theorem Reprints.chain {operators : List TokenKind} {join : Expr → Token → Expr → Expr}
    {Operand : Phrase Expr} (operands : Reprints written Operand)
    (joins : ∀ left operator right, (join left operator right).source =
      left.source ++ " " ++ operator.lexeme ++ " " ++ right.source) :
    Reprints written (Phrase.Chain operators join Operand) := by
  intro tokens tree chain
  induction chain with
  | operand operand =>
      intro genuine
      rcases operands _ _ operand genuine with ⟨printed, reads, spells⟩
      exact ⟨printed, .operand reads, spells⟩
  | @joined left right operator first second _ isOperator operand ih =>
      intro genuine
      simp only [List.forall_mem_append, List.forall_mem_cons] at genuine
      rcases genuine with ⟨genuineLeft, genuineOperator, genuineRight⟩
      rcases ih genuineLeft with ⟨printed, reads, spells⟩
      rcases operands _ _ operand genuineRight with ⟨printedRight, readsRight, spellsRight⟩
      refine ⟨_, .joined reads isOperator readsRight, ?_⟩
      intro rest ends
      have text : written (join first operator second) = written first ++
          ' ' :: (operator.lexeme.toList ++ ' ' :: written second) := by
        simp [written, joins]
      rw [text]
      refine (spells _ (by simp)).append (.space ?_)
      exact genuineOperator.spells (by simp) (.space (spellsRight rest ends))

theorem Reprints.logical {Unary : Phrase Expr} (unary : Reprints written Unary) :
    Reprints written (Phrase.Logical Unary) := by
  have binary : ∀ left operator right, (Expr.binary left operator right).source =
      left.source ++ " " ++ operator.lexeme ++ " " ++ right.source := fun _ _ _ => rfl
  exact ((((unary.chain binary).chain binary).chain binary).chain binary).chain fun _ _ _ => rfl

theorem Reprints.ternary {Logical Branch : Phrase Expr} (conditions : Reprints written Logical)
    (branches : Reprints written Branch) : Reprints written (Phrase.Ternary Logical Branch) := by
  intro tokens tree ternary genuine
  cases ternary with
  | plain logical =>
      rcases conditions _ _ logical genuine with ⟨printed, reads, spells⟩
      exact ⟨printed, .plain reads, spells⟩
  | @choice question colon _ _ _ condition thenBranch elseBranch logical isQuestion thenPart isColon
      elsePart =>
      simp only [List.forall_mem_append, List.forall_mem_cons] at genuine
      rcases genuine with
        ⟨⟨genuineCondition, genuineQuestion, genuineThen⟩, genuineColon, genuineElse⟩
      rcases conditions _ _ logical genuineCondition with ⟨printed, reads, spells⟩
      rcases branches _ _ thenPart genuineThen with ⟨printedThen, readsThen, spellsThen⟩
      rcases branches _ _ elsePart genuineElse with ⟨printedElse, readsElse, spellsElse⟩
      refine ⟨_, .choice reads isQuestion readsThen isColon readsElse, ?_⟩
      intro rest ends
      have text : written (.ternary condition thenBranch elseBranch) = written condition ++
          ' ' :: '?' :: ' ' :: (written thenBranch ++ ' ' :: ':' :: ' ' :: written elseBranch) := by
        simp [written, Expr.source]
      rw [text, List.append_assoc]
      refine (spells _ (by simp)).append (.space ?_)
      refine genuineQuestion.spellsMark isQuestion (by decide) (.space ?_)
      refine (spellsThen _ (by simp)).append (.space ?_)
      exact genuineColon.spellsMark isColon (by decide) (.space (spellsElse rest ends))

theorem Reprints.assignment {Ternary Value : Phrase Expr} (targets : Reprints written Ternary)
    (values : Reprints written Value) : Reprints written (Phrase.Assignment Ternary Value) := by
  intro tokens tree assignment genuine
  cases assignment with
  | plain ternary =>
      rcases targets _ _ ternary genuine with ⟨printed, reads, spells⟩
      exact ⟨printed, .plain reads, spells⟩
  | @assign name equals _ valueTree isIdentifier isEqual value =>
      simp only [List.forall_mem_cons] at genuine
      rcases genuine with ⟨genuineName, genuineEquals, genuineValue⟩
      rcases values _ _ value genuineValue with ⟨printed, reads, spells⟩
      refine ⟨_, .assign isIdentifier isEqual reads, ?_⟩
      intro rest ends
      have text : written (.assign name valueTree) =
          name.lexeme.toList ++ ' ' :: (['='] ++ ' ' :: written valueTree) := by
        simp [written, Expr.source]
      rw [text]
      refine genuineName.spells (by simp) (.space ?_)
      exact genuineEquals.spellsFixed isEqual (by decide) (by simp) (.space (spells rest ends))

mutual

theorem reprints_expression : ∀ depth, Reprints written (ExpressionWithin depth)
  | 0 => fun _ _ impossible => impossible.elim
  | depth + 1 => reprints_assignment depth

theorem reprints_assignment : ∀ depth, Reprints written (AssignmentWithin depth)
  | 0 => fun _ _ impossible => impossible.elim
  | depth + 1 => (reprints_ternary depth).assignment (reprints_assignment depth)

theorem reprints_ternary : ∀ depth, Reprints written (TernaryWithin depth)
  | 0 | 1 | 2 | 3 | 4 | 5 | 6 | 7 | 8 | 9 => fun _ _ impossible => impossible.elim
  | depth + 10 => (reprints_unary depth).logical.ternary (reprints_ternary (depth + 9))

theorem reprints_unary : ∀ depth, Reprints written (UnaryWithin depth)
  | 0 | 1 | 2 => fun _ _ impossible => impossible.elim
  | depth + 3 => (reprints_unary (depth + 2)).unary
      (fun _ _ unary => startsIn_unary _ _ (unary_of_within _ _ _ unary))
      (reprints_expression depth).call

end

end Grammar
end LoxLang

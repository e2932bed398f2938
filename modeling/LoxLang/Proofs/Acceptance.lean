import LoxLang.Proofs.Nesting
import LoxLang.Proofs.RuleCompleteness

/-!
# The parser accepts exactly the grammar

The rules of the parser are complete, in two ways: for the grammar, except where they run into the
limit of nesting, and for the grammar within that limit, without any exception. Together with their
soundness this says which lists of tokens are parsed without a diagnostic, and to which trees.
-/

namespace LoxLang
namespace Grammar

open Rule

/-! ## How the phrases of the grammar start -/

theorem startsIn_unary : StartsIn operandKinds Unary := by
  rintro tokens tree ⟨unary⟩
  exact StartsIn.unary Unary Expression tokens tree unary

theorem startsIn_ternary : StartsIn operandKinds Ternary := by
  rintro tokens tree ⟨ternary⟩
  exact startsIn_unary.chain.chain.chain.chain.chain.ternary tokens tree ternary

theorem startsIn_expression : StartsIn operandKinds Expression := by
  rintro tokens tree ⟨assignment⟩
  exact startsIn_ternary.assignment (by decide) tokens tree assignment

theorem startsIn_declaration : StartsIn (keywordKinds ++ operandKinds) Declaration := by
  rintro tokens tree ⟨declaration⟩
  exact startsIn_expression.declaration Declaration Declaration tokens tree declaration

theorem startsIn_expressionWithin (depth : Nat) : StartsIn operandKinds (ExpressionWithin depth) :=
  fun tokens tree read => startsIn_expression tokens tree (expression_of_within depth _ _ read)

theorem startsIn_declarationWithin (depth : Nat) :
    StartsIn (keywordKinds ++ operandKinds) (DeclarationWithin depth) :=
  fun tokens tree read => startsIn_declaration tokens tree (declaration_of_within depth _ _ read)

/-! ## Completeness up to the limit of nesting -/

theorem complete_tooDeep {α : Type} (phrase : Phrase α) (stops : List TokenKind) :
    Complete True tooDeep phrase stops :=
  fun _ _ _ _ _ _ _ => .inr ⟨trivial, _, rfl⟩

theorem unary_of_identifier {name : Token} (isIdentifier : name.kind = .identifier) :
    Unary [name] (.variable name) :=
  .rule (.call (.primary (.identifier isIdentifier)))

theorem ternary_of_identifier {name : Token} (isIdentifier : name.kind = .identifier) :
    Ternary [name] (.variable name) :=
  .rule (.plain (.operand (.operand (.operand
    (.operand (.operand (unary_of_identifier isIdentifier)))))))

mutual

theorem complete_expression :
    ∀ depth, Complete True (expression depth) Expression expressionStops
  | 0 => complete_tooDeep _ _
  | depth + 1 => complete_assignment depth

theorem complete_assignment :
    ∀ depth, Complete True (assignment depth) Expression expressionStops
  | 0 => complete_tooDeep _ _
  | depth + 1 => by
      rintro tokens tree rest ⟨read⟩ follows
      exact complete_assignmentRule (complete_ternary depth) (complete_assignment depth)
        (fun _ _ _ isIdentifier _ => ternary_of_identifier isIdentifier) tokens tree rest
          read follows

theorem complete_ternary : ∀ depth, Complete True (ternary depth) Ternary ternaryStops
  | 0 | 1 | 2 | 3 | 4 | 5 | 6 | 7 | 8 | 9 => complete_tooDeep _ _
  | depth + 10 => by
      rintro tokens tree rest ⟨read⟩ follows
      exact complete_ternaryRule (complete_logical (complete_unary depth))
        (complete_ternary (depth + 9)) tokens tree rest read follows

theorem complete_unary : ∀ depth, Complete True (unary depth) Unary [.leftParen]
  | 0 | 1 | 2 => complete_tooDeep _ _
  | depth + 3 => by
      rintro tokens tree rest ⟨read⟩ follows
      exact complete_unaryRule (complete_unary (depth + 2))
        (complete_call (complete_expression depth) startsIn_expression) (StartsIn.call Expression)
        tokens tree rest read follows

end

theorem complete_declaration : ∀ depth, Complete True (declaration depth) Declaration [.elseWord]
  | 0 | 1 | 2 | 3 | 4 => complete_tooDeep _ _
  | depth + 5 => by
      rintro tokens tree rest ⟨read⟩ follows
      exact complete_recovering (complete_declarationRule (complete_expression (depth + 2))
        startsIn_expression (complete_declaration (depth + 2)) startsIn_declaration
        (complete_declaration depth) startsIn_declaration) tokens tree rest read follows

/-! ## Completeness within the limit of nesting -/

theorem Phrase.Chain.exists_operand {operators : List TokenKind} {join : Expr → Token → Expr → Expr}
    {Operand : Phrase Expr} {tokens : List Token} {tree : Expr}
    (chain : Chain operators join Operand tokens tree) : ∃ tokens tree, Operand tokens tree := by
  cases chain with
  | operand operand => exact ⟨_, _, operand⟩
  | joined _ _ operand => exact ⟨_, _, operand⟩

theorem three_le_of_unaryWithin {depth : Nat} {tokens : List Token} {tree : Expr}
    (unary : UnaryWithin depth tokens tree) : 3 ≤ depth := by
  by_contra! shallow
  interval_cases depth <;> exact unary.elim

theorem le_of_ternaryWithin {depth : Nat} {tokens : List Token} {tree : Expr}
    (ternary : TernaryWithin depth tokens tree) : 13 ≤ depth := by
  by_cases shallow : depth < 10
  · interval_cases depth <;> exact ternary.elim
  rcases Nat.exists_eq_add_of_le' (Nat.not_lt.mp shallow) with ⟨depth, rfl⟩
  have operand : ∃ tokens tree, Phrase.Logical (UnaryWithin depth) tokens tree := by
    cases ternary with
    | plain logical => exact ⟨_, _, logical⟩
    | choice logical => exact ⟨_, _, logical⟩
  rcases operand with ⟨_, _, logical⟩
  rcases logical.exists_operand with ⟨_, _, equality⟩
  rcases equality.exists_operand with ⟨_, _, comparison⟩
  rcases comparison.exists_operand with ⟨_, _, term⟩
  rcases term.exists_operand with ⟨_, _, factor⟩
  rcases factor.exists_operand with ⟨_, _, unary⟩
  have enough := three_le_of_unaryWithin unary
  omega

theorem le_of_assignmentWithin :
    ∀ {depth tokens tree}, AssignmentWithin depth tokens tree → 13 ≤ depth
  | depth + 1, _, _, assignment => by
      cases assignment with
      | plain ternary => exact Nat.le_succ_of_le (le_of_ternaryWithin ternary)
      | assign _ _ value => exact Nat.le_succ_of_le (le_of_assignmentWithin value)

theorem ternaryWithin_of_identifier {name : Token} (isIdentifier : name.kind = .identifier)
    {depth : Nat} (enough : 13 ≤ depth) : TernaryWithin depth [name] (.variable name) := by
  rcases Nat.exists_eq_add_of_le' enough with ⟨depth, rfl⟩
  have unary : UnaryWithin (depth + 3) [name] (.variable name) :=
    .call (.primary (.identifier isIdentifier))
  exact .plain (.operand (.operand (.operand (.operand (.operand unary)))))

mutual

theorem complete_expressionWithin :
    ∀ depth, Complete False (expression depth) (ExpressionWithin depth) expressionStops
  | 0 => fun _ _ _ impossible => impossible.elim
  | depth + 1 => complete_assignmentWithin depth

theorem complete_assignmentWithin :
    ∀ depth, Complete False (assignment depth) (AssignmentWithin depth) expressionStops
  | 0 => fun _ _ _ impossible => impossible.elim
  | depth + 1 => complete_assignmentRule (complete_ternaryWithin depth)
      (complete_assignmentWithin depth) fun _ _ _ isIdentifier value =>
        ternaryWithin_of_identifier isIdentifier (le_of_assignmentWithin value)

theorem complete_ternaryWithin :
    ∀ depth, Complete False (ternary depth) (TernaryWithin depth) ternaryStops
  | 0 | 1 | 2 | 3 | 4 | 5 | 6 | 7 | 8 | 9 => fun _ _ _ impossible => impossible.elim
  | depth + 10 => complete_ternaryRule (complete_logical (complete_unaryWithin depth))
      (complete_ternaryWithin (depth + 9))

theorem complete_unaryWithin :
    ∀ depth, Complete False (unary depth) (UnaryWithin depth) [.leftParen]
  | 0 | 1 | 2 => fun _ _ _ impossible => impossible.elim
  | depth + 3 => complete_unaryRule (complete_unaryWithin (depth + 2))
      (complete_call (complete_expressionWithin depth) (startsIn_expressionWithin depth))
      (StartsIn.call _)

end

theorem complete_declarationWithin :
    ∀ depth, Complete False (declaration depth) (DeclarationWithin depth) [.elseWord]
  | 0 | 1 | 2 | 3 | 4 => fun _ _ _ impossible => impossible.elim
  | depth + 5 => complete_recovering
    (complete_declarationRule (complete_expressionWithin (depth + 2))
      (startsIn_expressionWithin _) (complete_declarationWithin (depth + 2))
      (startsIn_declarationWithin _) (complete_declarationWithin depth)
      (startsIn_declarationWithin _))

/-! ## Whole programs -/

/-- Whether the limit of nesting was in the way of a parse. -/
def TooDeep (diagnostics : List Diagnostic) : Prop :=
  ∃ diagnostic ∈ diagnostics, diagnostic.message = GrammarFault.tooDeep.message

@[simp]
theorem synchronize_diagnostics (cursor : Cursor) :
    cursor.synchronize.diagnostics = cursor.diagnostics := by
  unfold Cursor.synchronize
  split <;> rfl

/-- An outermost declaration adds diagnostics, or what was read is a declaration. -/
theorem outermost_sound (limit : Nat) (cursor : Cursor) :
    ∃ new, (outermost limit cursor).2.diagnostics = cursor.diagnostics ++ new ∧
      (new = [] → ∃ tokens, cursor.rest = tokens ++ (outermost limit cursor).2.rest ∧
        DeclarationWithin limit tokens (outermost limit cursor).1) := by
  have kept := sound_declaration limit cursor
  unfold outermost
  cases result : declaration limit cursor with
  | ok tree next =>
      rw [result] at kept
      exact kept
  | error panic next =>
      rw [result] at kept
      rcases kept with ⟨new, grown, -⟩
      simp only [synchronize_diagnostics, Cursor.report, grown, List.append_assoc]
      exact ⟨_, rfl, by simp⟩

/-- The declarations of a program add diagnostics, or all of it was read. -/
theorem declarations_sound (limit : Nat) (bound : List Token) (cursor : Cursor) :
    ∃ new, (declarations limit bound cursor).2.diagnostics = cursor.diagnostics ++ new ∧
      (new = [] → cursor.rest.length ≤ bound.length →
        Phrase.Many (DeclarationWithin limit) cursor.rest (declarations limit bound cursor).1) := by
  induction bound generalizing cursor with
  | nil =>
      refine ⟨[], by simp [declarations], fun _ enough => ?_⟩
      rw [List.eq_nil_of_length_eq_zero (Nat.le_zero.mp enough)]
      exact .done
  | cons _ bound ih =>
      unfold declarations
      split
      · next isEnd =>
          refine ⟨[], by simp, fun _ _ => ?_⟩
          rw [List.isEmpty_iff.mp isEnd]
          exact .done
      · rcases outermost_sound limit cursor with ⟨new, grown, read⟩
        rcases ih (outermost limit cursor).2 with ⟨new', grown', readAll⟩
        refine ⟨new ++ new', by simp [grown', grown], fun quiet enough => ?_⟩
        rcases List.append_eq_nil_iff.mp quiet with ⟨rfl, rfl⟩
        rcases read rfl with ⟨tokens, consumed, declaration⟩
        rcases startsIn_declarationWithin limit _ _ declaration with ⟨first, others, rfl, -⟩
        rw [consumed] at enough ⊢
        refine .more declaration (readAll rfl ?_)
        simp only [List.length_append, List.length_cons] at enough
        omega

/-- A program is read as a whole if its declarations are, or one of them is too deep. -/
theorem declarations_complete {cut : Prop} {Item : Phrase Stmt} {limit : Nat}
    (complete : Complete cut (declaration limit) Item [.elseWord])
    (starts : StartsIn (keywordKinds ++ operandKinds) Item) (ending : Token)
    {tokens : List Token} {trees : List Stmt} (program : Phrase.Many Item tokens trees) :
    ∀ (bound : List Token) (diagnostics : List Diagnostic), tokens.length ≤ bound.length →
      declarations limit bound ⟨tokens, ending, diagnostics⟩ = (trees, ⟨[], ending, diagnostics⟩) ∨
        cut ∧ TooDeep (declarations limit bound ⟨tokens, ending, diagnostics⟩).2.diagnostics := by
  induction program with
  | done =>
      intro bound diagnostics _
      cases bound <;> exact .inl rfl
  | more read others ih =>
      rename_i itemTokens rest tree trees
      intro bound diagnostics enough
      rcases starts _ _ read with ⟨first, following, shape, -⟩
      have notEnd : (itemTokens ++ rest).isEmpty = false := by rw [shape]; rfl
      cases bound with
      | nil => simp [shape] at enough
      | cons _ bound =>
          have follows : Follows [.elseWord] rest := by
            have behind : Follows [.elseWord] (rest ++ []) :=
              Follows.many starts (by decide) (by simp [Follows]) others
            simpa using behind
          have shorter : rest.length ≤ bound.length := by
            simp only [shape, List.length_append, List.length_cons] at enough
            omega
          simp only [declarations, notEnd, Bool.false_eq_true, if_false]
          rcases complete _ _ rest read follows ending diagnostics with
            result | ⟨isCut, next, result⟩
          · have first : outermost limit ⟨itemTokens ++ rest, ending, diagnostics⟩ =
                (tree, ⟨rest, ending, diagnostics⟩) := by
              simp [outermost, result]
            simp only [first]
            rcases ih bound diagnostics shorter with all | ⟨isCut, tooDeep⟩
            · exact .inl (by rw [all])
            · exact .inr ⟨isCut, tooDeep⟩
          · refine .inr ⟨isCut, ?_⟩
            have first : outermost limit ⟨itemTokens ++ rest, ending, diagnostics⟩ =
                (.hole, (next.report next.peek .tooDeep).synchronize) := by
              simp [outermost, result]
            simp only [first]
            rcases declarations_sound limit bound (next.report next.peek .tooDeep).synchronize
              with ⟨new, grown, -⟩
            rw [grown, synchronize_diagnostics]
            exact ⟨_, List.mem_append_left _ (List.mem_append_right _ List.mem_cons_self), rfl⟩

end Grammar

namespace Parse

open Grammar

/-- What is parsed without a diagnostic is a program within the limit of nesting. -/
theorem manyWithin_of_quiet {limit : Nat} {tokens : List Token} {ending : Token}
    (quiet : (ofTokens limit false tokens ending).diagnostics = []) :
    Phrase.Many (DeclarationWithin limit) tokens
      (ofTokens limit false tokens ending).statements := by
  rcases declarations_sound limit tokens ⟨tokens, ending, []⟩ with ⟨new, grown, read⟩
  exact read (by simpa using grown.symm.trans quiet) (Nat.le_refl _)

/-- A program within the limit of nesting is parsed without a diagnostic. -/
theorem ofTokens_of_manyWithin {limit : Nat} {tokens : List Token} {trees : List Stmt}
    (program : Phrase.Many (DeclarationWithin limit) tokens trees) (ending : Token) :
    ofTokens limit false tokens ending = ⟨trees, []⟩ := by
  rcases declarations_complete (complete_declarationWithin limit) (startsIn_declarationWithin limit)
    ending program tokens [] (Nat.le_refl _) with result | ⟨impossible, -⟩
  · simp [ofTokens, result]
  · exact impossible.elim

/-- The parser accepts exactly the programs of the grammar, and gives their trees, wherever it does
not run into the limit of nesting. -/
theorem ofTokens_accepts_iff_program (limit : Nat) (tokens : List Token) (ending : Token)
    (shallow : ¬ TooDeep (ofTokens limit false tokens ending).diagnostics) :
    ((ofTokens limit false tokens ending).diagnostics = [] ↔ ∃ trees, Program tokens trees) ∧
      ∀ trees, Program tokens trees → (ofTokens limit false tokens ending).statements = trees := by
  have complete : ∀ trees, Program tokens trees →
      ofTokens limit false tokens ending = ⟨trees, []⟩ := by
    intro trees program
    rcases declarations_complete (complete_declaration limit) startsIn_declaration ending program
      tokens [] (Nat.le_refl _) with result | ⟨-, tooDeep⟩
    · simp [ofTokens, result]
    · exact absurd tooDeep shallow
  refine ⟨⟨fun quiet => ?_, ?_⟩, fun trees program => by rw [complete trees program]⟩
  · exact ⟨_, (manyWithin_of_quiet quiet).mono (declaration_of_within limit)⟩
  · rintro ⟨trees, program⟩
    rw [complete trees program]

/-- The tokens of `if a < b { } else { x = y; }`. -/
def branch : List Token :=
  [.ifWord, .identifier, .less, .identifier, .leftBrace, .rightBrace, .elseWord, .leftBrace,
    .identifier, .equal, .identifier, .semicolon, .rightBrace].map fun kind =>
      { kind, lexeme := "" }

theorem ofTokens_accepts_branch :
    ¬ TooDeep (ofTokens nestingLimit false branch ⟨.endOfText, "", .nil, ⟨1, 1⟩⟩).diagnostics ∧
      ∃ trees, Program branch trees := by
  have quiet :
      (ofTokens nestingLimit false branch ⟨.endOfText, "", .nil, ⟨1, 1⟩⟩).diagnostics = [] := rfl
  have shallow :
      ¬ TooDeep (ofTokens nestingLimit false branch
        ⟨.endOfText, "", .nil, ⟨1, 1⟩⟩).diagnostics := by
    simp [quiet, TooDeep]
  exact ⟨shallow, (ofTokens_accepts_iff_program nestingLimit branch _ shallow).1.mp quiet⟩

end Parse
end LoxLang

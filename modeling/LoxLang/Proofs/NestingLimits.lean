import LoxLang.Proofs.Acceptance
import LoxLang.Proofs.Holes

/-!
# Limits of nesting

How many rules of the grammar may be open at once is a limit of the parser and not of the language.
With a greater limit a rule does what it does with a smaller one, unless it gives up there because
too many rules are open. What is given up for this reason is reported, so that a program for which
this is not reported has the same parse with every greater limit.
-/

namespace LoxLang
namespace Grammar

open Rule

/-- Whether a rule does the same as another one, as long as it does not give up because too many
rules are open. -/
def Narrows {α : Type} (narrow wide : Rule α) : Prop :=
  ∀ cursor, narrow cursor = wide cursor ∨ ∃ after, narrow cursor = .error .depth after

namespace Narrows

variable {α β : Type} {narrow wide : Rule α}

theorem refl (rule : Rule α) : Narrows rule rule :=
  fun _ => .inl rfl

theorem tooDeep (wide : Rule α) : Narrows tooDeep wide :=
  fun cursor => .inr ⟨cursor, rfl⟩

theorem bind {next next' : α → Rule β} (narrows : Narrows narrow wide)
    (narrowsNext : ∀ value, Narrows (next value) (next' value)) :
    Narrows (narrow >>= next) (wide >>= next') := by
  intro cursor
  rcases narrows cursor with same | ⟨after, isTooDeep⟩
  · cases result : wide cursor with
    | ok value middle =>
        rw [bind_of_ok (same.trans result), bind_of_ok result]
        exact narrowsNext value middle
    | error panic middle =>
        rw [bind_of_error (same.trans result), bind_of_error result]
        exact .inl rfl
  · exact .inr ⟨after, bind_of_error isTooDeep⟩

/-- Two rules that start in the same way. -/
theorem after (first : Rule α) {next next' : α → Rule β}
    (narrowsNext : ∀ value, Narrows (next value) (next' value)) :
    Narrows (first >>= next) (first >>= next') :=
  (refl first).bind narrowsNext

theorem map (change : α → β) (narrows : Narrows narrow wide) :
    Narrows (change <$> narrow) (change <$> wide) :=
  narrows.bind fun _ => refl _

/-- Two rules that go on in the same way. -/
theorem before (next : α → Rule β) (narrows : Narrows narrow wide) :
    Narrows (narrow >>= next) (wide >>= next) :=
  narrows.bind fun _ => refl _

/-! ## Loops of the grammar -/

theorem iterate {step step' : α → Rule (Option α)}
    (narrows : ∀ value, Narrows (step value) (step' value)) (bound : List Token) (value : α) :
    Narrows (iterate step bound value) (iterate step' bound value) := by
  induction bound generalizing value with
  | nil => exact refl _
  | cons _ bound ih =>
      refine (narrows value).bind fun turned => ?_
      cases turned with
      | none => exact refl _
      | some value => exact ih value

theorem collect {item item' : Nat → Rule (Option α)}
    (narrows : ∀ index, Narrows (item index) (item' index)) (bound : List Token) (index : Nat) :
    Narrows (collect item bound index) (collect item' bound index) := by
  induction bound generalizing index with
  | nil => exact refl _
  | cons _ bound ih =>
      refine (narrows index).bind fun turned => ?_
      cases turned with
      | none => exact refl _
      | some value => exact (ih (index + 1)).before _

theorem separated (items : String) (narrows : Narrows narrow wide) :
    Narrows (separated items narrow) (separated items wide) := by
  refine narrows.bind fun first => after _ fun bound => before _ (collect (fun index => ?_) bound 1)
  refine after _ fun comma => ?_
  cases comma with
  | none => exact refl _
  | some _ =>
      dsimp only
      split
      · exact after _ fun _ => narrows.before _
      · exact narrows.before _

theorem listed (items : String) (narrows : Narrows narrow wide) :
    Narrows (listed items narrow) (listed items wide) := by
  refine after _ fun isEmpty => ?_
  split
  · exact refl _
  · exact narrows.separated items

end Narrows

/-! ## Rules for expressions -/

section Expressions

variable {expression expression' unary unary' ternary ternary' : Rule Expr}

theorem narrows_chain (operators : List TokenKind) (join : Expr → Token → Expr → Expr)
    (operand : Narrows unary unary') :
    Narrows (chain operators join unary) (chain operators join unary') := by
  refine operand.bind fun first => .after _ fun bound => .iterate (fun left => ?_) bound first
  refine .after _ fun operator => ?_
  cases operator with
  | none => exact .refl _
  | some operator => exact operand.before _

theorem narrows_logical (operand : Narrows unary unary') :
    Narrows (logical unary) (logical unary') := by
  have comparison : Narrows (comparison unary) (comparison unary') :=
    narrows_chain _ _ (narrows_chain _ _ (narrows_chain _ _ operand))
  exact narrows_chain _ _ (narrows_chain _ _ comparison)

theorem narrows_ternaryRule {logical logical' : Rule Expr} (tested : Narrows logical logical')
    (branches : Narrows ternary ternary') :
    Narrows (ternaryRule logical ternary) (ternaryRule logical' ternary') := by
  refine tested.bind fun condition => .after _ fun question => ?_
  cases question with
  | none => exact .refl _
  | some _ => exact branches.bind fun thenBranch => .after _ fun _ => branches.before _

theorem narrows_assignmentRule {assignment assignment' : Rule Expr}
    (target : Narrows ternary ternary') (value : Narrows assignment assignment') :
    Narrows (assignmentRule ternary assignment) (assignmentRule ternary' assignment') := by
  refine target.bind fun target => .after _ fun equals => ?_
  cases equals with
  | none => exact .refl _
  | some equals => exact value.before _

theorem narrows_unaryRule {call call' : Rule Expr} (operand : Narrows unary unary')
    (called : Narrows call call') : Narrows (unaryRule unary call) (unaryRule unary' call') := by
  refine .after _ fun operator => ?_
  cases operator with
  | none => exact called
  | some operator => exact operand.before _

theorem narrows_call (inner : Narrows expression expression') :
    Narrows (call expression) (call expression') := by
  have primary : Narrows (primary expression) (primary expression') := by
    refine .after _ fun token => ?_
    cases token with
    | none => exact .refl _
    | some token =>
        dsimp only
        split
        case h_5 => exact inner.before _
        all_goals exact .refl _
  refine primary.bind fun first => .after _ fun bound => .iterate (fun callee => ?_) bound first
  refine .after _ fun left => ?_
  cases left with
  | none => exact .refl _
  | some _ => exact .before _ ((inner.listed _).before _)

end Expressions

mutual

theorem narrows_expression : ∀ depth extra,
    Narrows (expression depth) (expression (extra + depth))
  | 0, _ => .tooDeep _
  | depth + 1, extra => narrows_assignment depth extra

theorem narrows_assignment : ∀ depth extra,
    Narrows (assignment depth) (assignment (extra + depth))
  | 0, _ => .tooDeep _
  | depth + 1, extra =>
      narrows_assignmentRule (narrows_ternary depth extra) (narrows_assignment depth extra)

theorem narrows_ternary : ∀ depth extra, Narrows (ternary depth) (ternary (extra + depth))
  | 0, _ | 1, _ | 2, _ | 3, _ | 4, _ | 5, _ | 6, _ | 7, _ | 8, _ | 9, _ => .tooDeep _
  | depth + 10, extra =>
      narrows_ternaryRule (narrows_logical (narrows_unary depth extra))
        (narrows_ternary (depth + 9) extra)

theorem narrows_unary : ∀ depth extra, Narrows (unary depth) (unary (extra + depth))
  | 0, _ | 1, _ | 2, _ => .tooDeep _
  | depth + 3, extra =>
      narrows_unaryRule (narrows_unary (depth + 2) extra)
        (narrows_call (narrows_expression depth extra))

end

/-! ## Rules for statements -/

section Statements

variable {expression expression' : Rule Expr} {declaration declaration' : Rule Stmt}

theorem narrows_unlessNext (kind : TokenKind) (inner : Narrows expression expression') :
    Narrows (unlessNext kind expression) (unlessNext kind expression') := by
  refine .after _ fun isEmpty => ?_
  split
  · exact .refl _
  · exact inner.before _

theorem narrows_varDeclaration (value : Narrows expression expression') :
    Narrows (varDeclaration expression) (varDeclaration expression') := by
  refine .after _ fun name => .after _ fun equals => ?_
  cases equals with
  | none => exact .refl _
  | some _ => exact (value.map some).before _

theorem narrows_block (inner : Narrows declaration declaration') :
    Narrows (block declaration) (block declaration') := by
  refine .after _ fun bound => .before _ (.collect (fun _ => ?_) bound 0)
  refine .after _ fun isClosed => .after _ fun isEnd => ?_
  split
  · exact .refl _
  · exact inner.before _

theorem narrows_bracedBlock (phrase : String) (inner : Narrows declaration declaration') :
    Narrows (bracedBlock phrase declaration) (bracedBlock phrase declaration') :=
  .after _ fun _ => (narrows_block inner).before _

theorem narrows_functionDeclaration (inner : Narrows declaration declaration') :
    Narrows (functionDeclaration declaration) (functionDeclaration declaration') :=
  .after _ fun _ => .after _ fun _ => .after _ fun _ => .after _ fun _ => .after _ fun _ =>
    (narrows_block inner).before _

theorem narrows_condition (tested : Narrows expression expression') :
    Narrows (condition expression) (condition expression') := by
  refine .after _ fun left => ?_
  cases left with
  | none => exact tested
  | some _ => exact tested.before _

theorem narrows_ifStatement (tested : Narrows expression expression')
    (inner : Narrows declaration declaration') :
    Narrows (ifStatement expression declaration) (ifStatement expression' declaration') := by
  refine (narrows_condition tested).bind fun condition => ?_
  refine (narrows_bracedBlock _ inner).bind fun thenBranch => .after _ fun otherwise => ?_
  cases otherwise with
  | none => exact .refl _
  | some _ => exact ((narrows_bracedBlock _ inner).map some).before _

theorem narrows_whileStatement (tested : Narrows expression expression')
    (inner : Narrows declaration declaration') :
    Narrows (whileStatement expression declaration) (whileStatement expression' declaration') :=
  (narrows_condition tested).bind fun _ => (narrows_bracedBlock _ inner).before _

theorem narrows_forInitializer (inner : Narrows expression expression') :
    Narrows (forInitializer expression) (forInitializer expression') := by
  refine .after _ fun token => ?_
  cases token with
  | none => exact .map some (inner.before _)
  | some token =>
      dsimp only
      split
      · exact .refl _
      · exact (narrows_varDeclaration inner).map some

theorem narrows_forStatement (clauses : Narrows expression expression')
    (inner : Narrows declaration declaration') :
    Narrows (forStatement expression declaration) (forStatement expression' declaration') := by
  refine .after _ fun left => (narrows_forInitializer clauses).bind fun initializer => ?_
  refine (narrows_unlessNext _ clauses).bind fun condition => .after _ fun semicolon => ?_
  refine (narrows_unlessNext _ clauses).bind fun increment => .after _ fun right => ?_
  exact (narrows_bracedBlock _ inner).before _

theorem narrows_declarationRule {nested nested' : Rule Stmt}
    (parts : Narrows expression expression') (inner : Narrows declaration declaration')
    (bodies : Narrows nested nested') :
    Narrows (declarationRule expression declaration nested)
      (declarationRule expression' declaration' nested') := by
  refine .after _ fun keyword => ?_
  cases keyword with
  | none => exact parts.before _
  | some keyword =>
      dsimp only
      split
      · exact narrows_varDeclaration parts
      · exact narrows_functionDeclaration inner
      · exact parts.before _
      · exact (narrows_block inner).before _
      · exact narrows_ifStatement parts bodies
      · exact narrows_whileStatement parts bodies
      · exact narrows_forStatement parts bodies
      · exact .refl _
      · exact .refl _
      · exact (narrows_unlessNext _ parts).before _

/-- Only a fault is recovered from, and not that too many rules are open. -/
theorem Narrows.recovering (narrows : Narrows declaration declaration') :
    Narrows (recovering declaration) (recovering declaration') := by
  intro cursor
  rcases narrows cursor with same | ⟨after, isTooDeep⟩
  · exact .inl (by simp only [Grammar.recovering, same])
  · exact .inr ⟨after, by simp only [Grammar.recovering, isTooDeep]⟩

end Statements

theorem narrows_declaration : ∀ depth extra,
    Narrows (declaration depth) (declaration (extra + depth))
  | 0, _ | 1, _ | 2, _ | 3, _ | 4, _ => .tooDeep _
  | depth + 5, extra =>
      .recovering (narrows_declarationRule (narrows_expression (depth + 2) extra)
        (narrows_declaration (depth + 2) extra) (narrows_declaration depth extra))

/-! ## Whole programs -/

/-- No diagnostic is taken back. -/
theorem declarations_diagnostics (limit : Nat) (bound : List Token) (cursor : Cursor) :
    cursor.diagnostics <+: (declarations limit bound cursor).2.diagnostics := by
  induction bound generalizing cursor with
  | nil => exact List.prefix_rfl
  | cons _ bound ih =>
      rcases cursor with ⟨tokens, ending, earlier⟩
      by_cases isEmpty : tokens = []
      · simp [declarations, isEmpty]
      · rcases exists_outermost limit ending (List.Subset.refl tokens) isEmpty with
          ⟨read, rest, tree, new, -, -, -, -, isOutermost⟩
        have continued := ih ⟨rest, ending, earlier ++ new⟩
        simpa [declarations, isEmpty, isOutermost] using
          (List.prefix_append earlier new).trans continued

/-- An outermost declaration is the same with a greater limit, or it is reported that it is nested
too deeply. -/
theorem outermost_or_reports {limit limit' : Nat} (less : limit ≤ limit') (cursor : Cursor) :
    outermost limit cursor = outermost limit' cursor ∨
      TooDeep (outermost limit cursor).2.diagnostics := by
  rcases Nat.exists_eq_add_of_le' less with ⟨extra, rfl⟩
  rcases narrows_declaration limit extra cursor with same | ⟨after, isTooDeep⟩
  · exact .inl (by simp only [outermost, same])
  · refine .inr ⟨.atToken after.peek "Parser" GrammarFault.tooDeep.message, ?_, rfl⟩
    simp [outermost, isTooDeep, synchronize_eq, Cursor.report]

theorem declarations_or_reports {limit limit' : Nat} (less : limit ≤ limit') (bound : List Token)
    (cursor : Cursor) :
    declarations limit bound cursor = declarations limit' bound cursor ∨
      TooDeep (declarations limit bound cursor).2.diagnostics := by
  induction bound generalizing cursor with
  | nil => exact .inl rfl
  | cons _ bound ih =>
      by_cases isEmpty : cursor.rest.isEmpty
      · exact .inl (by simp [declarations, isEmpty])
      · rcases outermost_or_reports less cursor with same | ⟨diagnostic, isReported, isTooDeep⟩
        · rcases ih (outermost limit cursor).2 with same' | reports
          · exact .inl (by simp [declarations, isEmpty, ← same, same'])
          · exact .inr (by simpa [declarations, isEmpty] using reports)
        · have kept := declarations_diagnostics limit bound (outermost limit cursor).2
          refine .inr ⟨diagnostic, ?_, isTooDeep⟩
          simpa [declarations, isEmpty] using kept.subset isReported

end Grammar

/-- A program has the same parse with every greater limit of nesting, unless it is reported that
something is nested too deeply. -/
theorem Parse.ofTokens_or_reports {limit limit' : Nat} (less : limit ≤ limit') (interactive : Bool)
    (tokens : List Token) (ending : Token) :
    ofTokens limit interactive tokens ending = ofTokens limit' interactive tokens ending ∨
      Grammar.TooDeep (ofTokens limit interactive tokens ending).diagnostics := by
  rcases Grammar.declarations_or_reports less tokens ⟨tokens, ending, []⟩ with same | reports
  · exact .inl (by simp only [ofTokens, same])
  · exact .inr reports

end LoxLang

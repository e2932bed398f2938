import LoxLang.Proofs.Holes

/-!
# The kinds of tokens that a tree holds

A tree holds the tokens that faults may point at: names, operators, closing parentheses of calls and
the keywords of statements that leave something. It holds no other token, however broken the program
is that it was read from, and in particular none of its semicolons.
-/

namespace LoxLang

namespace Grammar

open Rule

/-- The kinds of the tokens that a tree may hold. -/
def heldKinds : List TokenKind :=
  [.identifier, .rightParen, .bang, .minus, .plus, .slash, .star, .bangEqual, .equalEqual, .greater,
    .greaterEqual, .less, .lessEqual, .andWord, .orWord, .breakWord, .continueWord, .returnWord]

/-- Whether all of some tokens are of kinds that a tree may hold. -/
def AllHeld (tokens : List Token) : Prop :=
  ∀ token ∈ tokens, token.kind ∈ heldKinds

@[simp]
theorem allHeld_nil : AllHeld [] := by
  simp [AllHeld]

@[simp]
theorem allHeld_cons {token : Token} {tokens : List Token} :
    AllHeld (token :: tokens) ↔ token.kind ∈ heldKinds ∧ AllHeld tokens := by
  simp [AllHeld]

@[simp]
theorem allHeld_append {left right : List Token} :
    AllHeld (left ++ right) ↔ AllHeld left ∧ AllHeld right := by
  simp only [AllHeld, List.forall_mem_append]

theorem allHeld_allTokens_exprs {trees : List Expr} (held : ∀ tree ∈ trees, AllHeld tree.tokens) :
    AllHeld (Expr.allTokens trees) := by
  induction trees with
  | nil => simp [Expr.allTokens]
  | cons tree rest ih =>
      rw [List.forall_mem_cons] at held
      simp [Expr.allTokens, held.1, ih held.2]

theorem allHeld_allTokens {trees : List Stmt} (held : ∀ tree ∈ trees, AllHeld tree.tokens) :
    AllHeld (Stmt.allTokens trees) := by
  induction trees with
  | nil => simp [Stmt.allTokens]
  | cons tree rest ih =>
      rw [List.forall_mem_cons] at held
      simp [Stmt.allTokens, held.1, ih held.2]

/-! ## What rules give -/

/-- Whether a rule gives nothing but what is good. -/
def Gives {α : Type} (good : α → Prop) (rule : Rule α) : Prop :=
  ∀ cursor value next, rule cursor = .ok value next → good value

namespace Gives

variable {α β : Type} {good : α → Prop} {better : β → Prop}

theorem pure {value : α} (isGood : good value) : Gives good (Pure.pure value) := by
  rintro cursor _ _ ⟨⟩
  exact isGood

theorem bind {first : Rule α} {next : α → Rule β} (gives : Gives good first)
    (continues : ∀ value, good value → Gives better (next value)) :
    Gives better (first >>= next) := by
  intro cursor value final result
  cases isFirst : first cursor with
  | error panic middle => simp [bind_of_error isFirst] at result
  | ok given middle =>
      rw [bind_of_ok isFirst] at result
      exact continues given (gives cursor given middle isFirst) middle value final result

theorem map {rule : Rule α} {change : α → β} (gives : Gives good rule)
    (included : ∀ value, good value → better (change value)) : Gives better (change <$> rule) :=
  gives.bind fun value isGood => pure (included value isGood)

theorem any (rule : Rule α) : Gives (fun _ => True) rule :=
  fun _ _ _ _ => trivial

theorem fail (fault : GrammarFault) : Gives good (fail fault) := by
  intro cursor value next result
  cases result

theorem tooDeep : Gives good tooDeep := by
  intro cursor value next result
  cases result

theorem accept (kinds : List TokenKind) :
    Gives (fun taken => ∀ token ∈ taken, token.kind ∈ kinds) (accept? kinds) := by
  intro cursor taken next result token isTaken
  unfold accept? at result
  split at result
  · split at result
    · next isKind =>
        cases result
        cases isTaken
        exact List.contains_iff_mem.mp isKind
    · cases result
      cases isTaken
  · cases result
    cases isTaken

theorem expect (kind : TokenKind) (phrase : String) :
    Gives (·.kind = kind) (expect kind phrase) := by
  intro cursor token next result
  unfold Rule.expect at result
  split at result
  · split at result
    · next isKind =>
        cases result
        exact beq_iff_eq.mp isKind
    · cases result
  · cases result

theorem iterate {step : α → Rule (Option α)}
    (turn : ∀ value, good value → Gives (fun taken => ∀ next ∈ taken, good next) (step value))
    (bound : List Token) {value : α} (isGood : good value) :
    Gives good (iterate step bound value) := by
  induction bound generalizing value with
  | nil => exact pure isGood
  | cons _ bound ih =>
      refine (turn value isGood).bind fun taken isTaken => ?_
      cases taken with
      | none => exact pure isGood
      | some next => exact ih (isTaken next rfl)

theorem collect {item : Nat → Rule (Option α)}
    (turn : ∀ index, Gives (fun taken => ∀ value ∈ taken, good value) (item index))
    (bound : List Token) (index : Nat) :
    Gives (fun values => ∀ value ∈ values, good value) (collect item bound index) := by
  induction bound generalizing index with
  | nil => exact pure (by simp)
  | cons _ bound ih =>
      refine (turn index).bind fun taken isTaken => ?_
      cases taken with
      | none => exact pure (by simp)
      | some value =>
          exact (ih (index + 1)).map fun values isGood =>
            List.forall_mem_cons.mpr ⟨isTaken value rfl, isGood⟩

theorem listed {item : Rule α} (items : String) (gives : Gives good item) :
    Gives (fun values => ∀ value ∈ values, good value) (listed items item) := by
  refine (any _).bind fun isRight _ => ?_
  cases isRight with
  | true => exact pure (by simp)
  | false =>
      refine gives.bind fun first isFirst => (any _).bind fun bound _ => ?_
      refine (collect (fun index => ?_) bound 1).map fun values isGood =>
        List.forall_mem_cons.mpr ⟨isFirst, isGood⟩
      refine (any _).bind fun taken _ => ?_
      cases taken with
      | none => exact pure (by simp)
      | some comma =>
          dsimp only
          split
          · exact (any _).bind fun _ _ => gives.map fun value isGood => by simpa using isGood
          · exact gives.map fun value isGood => by simpa using isGood

/-! ## Expressions -/

/-- Whether a rule gives only expressions whose tokens may be held. -/
abbrev Exprs (rule : Rule Expr) : Prop := Gives (fun tree => AllHeld tree.tokens) rule

theorem chain {operators : List TokenKind} {join : Expr → Token → Expr → Expr}
    {operand : Rule Expr} (gives : Exprs operand) (included : operators ⊆ heldKinds)
    (joined : ∀ left operator right,
      (join left operator right).tokens = left.tokens ++ operator :: right.tokens) :
    Exprs (chain operators join operand) := by
  refine gives.bind fun first isFirst => (any _).bind fun bound _ => ?_
  refine iterate (fun left isLeft => ?_) bound isFirst
  refine (accept _).bind fun taken isTaken => ?_
  cases taken with
  | none => exact pure (by simp)
  | some operator =>
      refine gives.map fun right isRight tree isTree => ?_
      rw [← Option.some.inj isTree, joined]
      simp [isLeft, isRight, included (isTaken operator rfl)]

theorem logical {unary : Rule Expr} (gives : Exprs unary) : Exprs (logical unary) := by
  have binary : ∀ left operator right, (Expr.binary left operator right).tokens =
      left.tokens ++ operator :: right.tokens := fun _ _ _ => by rw [Expr.tokens]
  refine chain ?_ (by decide) fun _ _ _ => by rw [Expr.tokens]
  exact chain (chain (chain (chain gives (by decide) binary) (by decide) binary) (by decide) binary)
    (by decide) binary

theorem ternaryRule {logical ternary : Rule Expr} (gives : Exprs logical)
    (branches : Exprs ternary) : Exprs (ternaryRule logical ternary) := by
  refine gives.bind fun condition isCondition => (any _).bind fun taken _ => ?_
  cases taken with
  | none => exact pure isCondition
  | some question =>
      refine branches.bind fun thenBranch isThen => (any _).bind fun colon _ => ?_
      exact branches.map fun elseBranch isElse => by
        simp [Expr.tokens, isCondition, isThen, isElse]

theorem assignmentRule {ternary assignment : Rule Expr} (gives : Exprs ternary)
    (values : Exprs assignment) : Exprs (assignmentRule ternary assignment) := by
  refine gives.bind fun target isTarget => (any _).bind fun taken _ => ?_
  cases taken with
  | none => exact pure isTarget
  | some equals =>
      refine values.bind fun value isValue => ?_
      split
      · refine pure ?_
        simpa [Expr.tokens, isValue] using isTarget
      · exact (any _).bind fun _ _ => pure isTarget

theorem unaryRule {unary call : Rule Expr} (gives : Exprs unary) (calls : Exprs call) :
    Exprs (unaryRule unary call) := by
  refine (accept _).bind fun taken isTaken => ?_
  cases taken with
  | none => exact calls
  | some operator =>
      have isOperator : [TokenKind.bang, .minus] ⊆ heldKinds := by decide
      refine gives.map fun right isRight => ?_
      simp [Expr.tokens, isRight, isOperator (isTaken operator rfl)]

theorem primary {expression : Rule Expr} (gives : Exprs expression) :
    Exprs (primary expression) := by
  refine (any _).bind fun taken _ => ?_
  cases taken with
  | none => exact fail _
  | some token =>
      dsimp only
      split
      case h_4 isIdentifier =>
        refine pure ?_
        rw [Expr.tokens, allHeld_cons, isIdentifier]
        exact ⟨by decide, allHeld_nil⟩
      case h_5 =>
        refine gives.bind fun inner isInner => (any _).map fun _ _ => ?_
        simpa [Expr.tokens] using isInner
      all_goals exact pure (by simp [Expr.tokens])

theorem call {expression : Rule Expr} (gives : Exprs expression) : Exprs (call expression) := by
  refine (primary gives).bind fun first isFirst => (any _).bind fun bound _ => ?_
  refine iterate (fun callee isCallee => ?_) bound isFirst
  refine (any _).bind fun taken _ => ?_
  cases taken with
  | none => exact pure (by simp)
  | some left =>
      have arguments : Exprs (arguments expression callee) := by
        refine (listed _ gives).bind fun trees areTrees => ?_
        refine (expect _ _).map fun right isRight => ?_
        have isKind : right.kind ∈ heldKinds := by
          rw [isRight]
          decide
        simp [Expr.tokens, isCallee, isKind, allHeld_allTokens_exprs areTrees]
      exact arguments.map fun tree isTree => by simpa using isTree

end Gives

mutual

theorem gives_expression : ∀ depth, Gives.Exprs (expression depth)
  | 0 => .tooDeep
  | depth + 1 => gives_assignment depth

theorem gives_assignment : ∀ depth, Gives.Exprs (assignment depth)
  | 0 => .tooDeep
  | depth + 1 => .assignmentRule (gives_ternary depth) (gives_assignment depth)

theorem gives_ternary : ∀ depth, Gives.Exprs (ternary depth)
  | 0 | 1 | 2 | 3 | 4 | 5 | 6 | 7 | 8 | 9 => .tooDeep
  | depth + 10 => .ternaryRule (.logical (gives_unary depth)) (gives_ternary (depth + 9))

theorem gives_unary : ∀ depth, Gives.Exprs (unary depth)
  | 0 | 1 | 2 => .tooDeep
  | depth + 3 => .unaryRule (gives_unary (depth + 2)) (.call (gives_expression depth))

end

/-! ## Statements -/

namespace Gives

/-- Whether a rule gives only statements whose tokens may be held. -/
abbrev Stmts (rule : Rule Stmt) : Prop := Gives (fun tree => AllHeld tree.tokens) rule

section

variable {expression : Rule Expr} {declaration nested : Rule Stmt} (gives : Exprs expression)
  (declares : Stmts declaration) (nests : Stmts nested)

include gives

theorem optional : Gives (fun tree => AllHeld (Expr.optionalTokens tree)) (some <$> expression) :=
  gives.map fun tree isTree => by simpa [Expr.optionalTokens] using isTree

theorem unlessNext (kind : TokenKind) :
    Gives (fun tree => AllHeld (Expr.optionalTokens tree)) (unlessNext kind expression) := by
  refine (any _).bind fun isKind _ => ?_
  split
  · exact pure (by simp [Expr.optionalTokens])
  · exact gives.optional

theorem varDeclaration : Stmts (varDeclaration expression) := by
  refine (expect _ _).bind fun name isName => (any _).bind fun taken _ => ?_
  have isKind : name.kind ∈ heldKinds := by
    rw [isName]
    decide
  cases taken with
  | none => exact (any _).map fun _ _ => by simp [Stmt.tokens, Expr.optionalTokens, isKind]
  | some equals =>
      exact gives.optional.bind fun value isValue => (any _).map fun _ _ => by
        simp [Stmt.tokens, isKind, isValue]

theorem expressionStatement : Stmts (expressionStatement expression) :=
  gives.bind fun value isValue => (any _).map fun _ _ => by simpa [Stmt.tokens] using isValue

theorem condition : Exprs (condition expression) := by
  refine (any _).bind fun taken _ => ?_
  cases taken with
  | none => exact gives
  | some left => exact gives.bind fun value isValue => (any _).map fun _ _ => isValue

theorem forInitializer :
    Gives (fun tree => AllHeld (Stmt.optionalTokens tree)) (forInitializer expression) := by
  have optional {rule : Rule Stmt} (statements : Stmts rule) :
      Gives (fun tree => AllHeld (Stmt.optionalTokens tree)) (some <$> rule) :=
    statements.map fun tree isTree => by simpa [Stmt.optionalTokens] using isTree
  refine (any _).bind fun taken _ => ?_
  cases taken with
  | none => exact optional gives.expressionStatement
  | some token =>
      dsimp only
      split
      · exact pure (by simp [Stmt.optionalTokens])
      · exact optional gives.varDeclaration

theorem returnStatement {keyword : Token} (isKeyword : keyword.kind ∈ heldKinds) :
    Stmts (returnStatement keyword expression) :=
  (gives.unlessNext _).bind fun value isValue => (any _).map fun _ _ => by
    simp [Stmt.tokens, isKeyword, isValue]

omit gives

theorem loopExit (word : String) {statement : Stmt} (isHeld : AllHeld statement.tokens) :
    Stmts (loopExit word statement) :=
  (any _).map fun _ _ => isHeld

include declares

theorem block : Gives (fun trees => AllHeld (Stmt.allTokens trees)) (block declaration) := by
  refine (any _).bind fun bound _ => (collect (fun _ => ?_) bound 0).bind fun trees areTrees =>
    (any _).map fun _ _ => allHeld_allTokens areTrees
  refine (any _).bind fun isRight _ => (any _).bind fun isEnd _ => ?_
  split
  · exact pure (by simp)
  · exact declares.map fun tree isTree => by simpa using isTree

theorem bracedBlock (phrase : String) : Stmts (bracedBlock phrase declaration) :=
  (any _).bind fun _ _ => declares.block.map fun trees areTrees => by
    simpa [Stmt.tokens] using areTrees

theorem functionDeclaration : Stmts (functionDeclaration declaration) := by
  have isKind {name : Token} (isName : name.kind = .identifier) : name.kind ∈ heldKinds := by
    rw [isName]
    decide
  refine (expect _ _).bind fun name isName => (any _).bind fun _ _ => ?_
  refine (listed _ (expect _ _)).bind fun parameters areNames => ?_
  refine (any _).bind fun _ _ => (any _).bind fun _ _ => ?_
  refine declares.block.map fun body isBody => ?_
  have allKinds : AllHeld parameters := fun parameter isParameter =>
    isKind (areNames parameter isParameter)
  simp [Stmt.tokens, isKind isName, allKinds, isBody]

include gives

theorem ifStatement : Stmts (ifStatement expression declaration) := by
  refine gives.condition.bind fun condition isCondition => ?_
  refine (declares.bracedBlock _).bind fun thenBranch isThen => (any _).bind fun taken _ => ?_
  cases taken with
  | none => exact pure (by simp [Stmt.tokens, Stmt.optionalTokens, isCondition, isThen])
  | some otherwise =>
      have elseBranch : Gives (fun tree => AllHeld (Stmt.optionalTokens tree))
          (some <$> Grammar.bracedBlock "'else'" declaration) :=
        (declares.bracedBlock _).map fun tree isTree => by simpa [Stmt.optionalTokens] using isTree
      exact elseBranch.bind fun tree isElse => pure (by
        simp [Stmt.tokens, isCondition, isThen, isElse])

theorem whileStatement : Stmts (whileStatement expression declaration) :=
  gives.condition.bind fun condition isCondition => (declares.bracedBlock _).map fun body isBody =>
    by simp [Stmt.tokens, Expr.optionalTokens, isCondition, isBody]

theorem forStatement : Stmts (forStatement expression declaration) := by
  refine (any _).bind fun _ _ => gives.forInitializer.bind fun initializer isInitializer => ?_
  refine (gives.unlessNext _).bind fun condition isCondition => (any _).bind fun _ _ => ?_
  refine (gives.unlessNext _).bind fun increment isIncrement => (any _).bind fun _ _ => ?_
  refine (declares.bracedBlock _).map fun body isBody => ?_
  simp [Stmt.desugarFor_tokens, isInitializer, isCondition, isBody, isIncrement]

include nests

theorem declarationRule : Stmts (declarationRule expression declaration nested) := by
  refine (accept _).bind fun taken isTaken => ?_
  cases taken with
  | none => exact gives.expressionStatement
  | some keyword =>
      have isKeyword := isTaken keyword rfl
      have isHeld : ∀ kind ∈ heldKinds, keyword.kind = kind → AllHeld [keyword] := by
        rintro kind isKind rfl
        exact allHeld_cons.mpr ⟨isKind, allHeld_nil⟩
      dsimp only
      split
      · exact gives.varDeclaration
      · exact declares.functionDeclaration
      · exact gives.bind fun value isValue => (any _).map fun _ _ => by
          simpa [Stmt.tokens] using isValue
      · exact declares.block.map fun trees areTrees => by simpa [Stmt.tokens] using areTrees
      · exact gives.ifStatement nests
      · exact gives.whileStatement nests
      · exact gives.forStatement nests
      case h_8 isBreak => exact loopExit _ (isHeld _ (by decide) isBreak)
      case h_9 isContinue => exact loopExit _ (isHeld _ (by decide) isContinue)
      case h_10 =>
        have isReturn : keyword.kind = .returnWord := by simp_all
        exact gives.returnStatement (isReturn ▸ by decide)

omit gives declares nests

theorem recovering {rule : Rule Stmt} (statements : Stmts rule) : Stmts (recovering rule) := by
  intro cursor tree next result
  unfold Grammar.recovering at result
  split at result
  · cases result
    simp [Stmt.tokens]
  · exact statements cursor tree next result

end

end Gives

end Grammar

end LoxLang

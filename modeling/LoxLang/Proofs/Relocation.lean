import LoxLang.Proofs.Positions

/-!
# Parsing tokens at other positions

Each rule of the grammar does the same on moved tokens as on the tokens themselves: it gives the
moved tree, leaves the moved rest and has the moved diagnostics. Rules that are given other rules or
trees are related to themselves with these moved.
-/

namespace LoxLang

variable {change : Position → Position}

namespace Grammar

open Rule

/-- A cursor whose tokens and diagnostics are at changed positions. -/
def moveCursor (change : Position → Position) (cursor : Cursor) : Cursor :=
  ⟨cursor.rest.map (·.move change), cursor.ending.move change,
    cursor.diagnostics.map (·.move change)⟩

/-- What a rule leaves behind, at changed positions. -/
def moveResult {α β : Type} (change : Position → Position) (onValue : α → β) :
    EStateM.Result Panic Cursor α → EStateM.Result Panic Cursor β
  | .ok value cursor => .ok (onValue value) (moveCursor change cursor)
  | .error panic cursor => .error panic (moveCursor change cursor)

/-- Whether a rule does on moved tokens what another one does on the tokens themselves. -/
def Moves {α β : Type} (change : Position → Position) (onValue : α → β) (rule : Rule α)
    (moved : Rule β) : Prop :=
  ∀ cursor, moved (moveCursor change cursor) = moveResult change onValue (rule cursor)

namespace Moves

variable {α β γ δ : Type}

theorem pure (onValue : α → β) (value : α) :
    Moves change onValue (Pure.pure value) (Pure.pure (onValue value)) :=
  fun _ => rfl

theorem bind {onValue : α → β} {onResult : γ → δ} {first : Rule α} {first' : Rule β}
    {next : α → Rule γ} {next' : β → Rule δ} (moves : Moves change onValue first first')
    (continues : ∀ value, Moves change onResult (next value) (next' (onValue value))) :
    Moves change onResult (first >>= next) (first' >>= next') := by
  intro cursor
  have moved := moves cursor
  cases result : first cursor with
  | ok value middle =>
      rw [result] at moved
      rw [bind_of_ok moved, bind_of_ok result]
      exact continues value middle
  | error panic middle =>
      rw [result] at moved
      rw [bind_of_error moved, bind_of_error result]
      rfl

theorem map {onValue : α → β} {onResult : γ → δ} {rule : Rule α} {moved : Rule β} {f : α → γ}
    {f' : β → δ} (moves : Moves change onValue rule moved)
    (commutes : ∀ value, f' (onValue value) = onResult (f value)) :
    Moves change onResult (f <$> rule) (f' <$> moved) := by
  refine bind moves fun value => ?_
  intro cursor
  exact congrArg (EStateM.Result.ok · (moveCursor change cursor)) (commutes value)

end Moves

/-! ## Reading single tokens -/

theorem moveCursor_report (cursor : Cursor) (token : Token) (fault : GrammarFault) :
    moveCursor change (cursor.report token fault) =
      (moveCursor change cursor).report (token.move change) fault := by
  simp only [moveCursor, Cursor.report, List.map_append, List.map_cons, List.map_nil]
  rfl

theorem moveCursor_peek (cursor : Cursor) :
    (moveCursor change cursor).peek = cursor.peek.move change := by
  rcases cursor with ⟨_ | ⟨token, rest⟩, ending, diagnostics⟩ <;> rfl

theorem moves_fail {α β : Type} (onValue : α → β) (fault : GrammarFault) :
    Moves change onValue (fail fault) (fail fault) := by
  intro cursor
  rw [fail, moveCursor_peek, ← moveCursor_report]
  rfl

theorem moves_tooDeep {α β : Type} (onValue : α → β) : Moves change onValue tooDeep tooDeep :=
  fun _ => rfl

theorem moves_report (token : Token) (fault : GrammarFault) :
    Moves change id (report token fault) (report (token.move change) fault) := by
  intro cursor
  rw [report, ← moveCursor_report]
  rfl

theorem moves_reportNext (fault : GrammarFault) :
    Moves change id (reportNext fault) (reportNext fault) := by
  intro cursor
  rw [reportNext, moveCursor_peek, ← moveCursor_report]
  rfl

theorem moves_isNext (kind : TokenKind) : Moves change id (isNext kind) (isNext kind) := by
  rintro ⟨_ | ⟨token, rest⟩, ending, diagnostics⟩ <;> rfl

theorem moves_isAtEnd : Moves change id isAtEnd isAtEnd := by
  rintro ⟨_ | ⟨token, rest⟩, ending, diagnostics⟩ <;> rfl

theorem moves_bound : Moves change (List.map (·.move change)) bound bound :=
  fun _ => rfl

theorem moves_accept (kinds : List TokenKind) :
    Moves change (Option.map (·.move change)) (accept? kinds) (accept? kinds) := by
  rintro ⟨_ | ⟨token, rest⟩, ending, diagnostics⟩
  · rfl
  · by_cases isKind : token.kind ∈ kinds
    · simp [accept?, moveCursor, moveResult, isKind]
    · simp [accept?, moveCursor, moveResult, isKind]

theorem moves_expect (kind : TokenKind) (phrase : String) :
    Moves change (·.move change) (expect kind phrase) (expect kind phrase) := by
  rintro ⟨_ | ⟨token, rest⟩, ending, diagnostics⟩
  · exact moves_fail _ _ _
  · by_cases isKind : token.kind = kind
    · simp [expect, moveCursor, moveResult, isKind]
    · have failed : Moves change (Token.move change) (fail (.expected phrase)) _ := moves_fail _ _
      simp only [expect, moveCursor, List.map_cons, Token.move_kind, beq_iff_eq, isKind, if_false]
      exact failed ⟨token :: rest, ending, diagnostics⟩

/-! ## Loops -/

theorem moves_iterate {α β : Type} {onValue : α → β} {step : α → Rule (Option α)}
    {step' : β → Rule (Option β)}
    (turn : ∀ value, Moves change (Option.map onValue) (step value) (step' (onValue value)))
    (bound : List Token) (value : α) :
    Moves change onValue (iterate step bound value)
      (iterate step' (bound.map (·.move change)) (onValue value)) := by
  induction bound generalizing value with
  | nil => exact Moves.pure onValue value
  | cons token bound ih =>
      refine Moves.bind (turn value) fun taken => ?_
      cases taken with
      | none => exact Moves.pure onValue value
      | some next => exact ih next

theorem moves_collect {α β : Type} (onValue : α → β) {item : Nat → Rule (Option α)}
    {item' : Nat → Rule (Option β)}
    (turn : ∀ index, Moves change (Option.map onValue) (item index) (item' index))
    (bound : List Token) (index : Nat) :
    Moves change (List.map onValue) (collect item bound index)
      (collect item' (bound.map (·.move change)) index) := by
  induction bound generalizing index with
  | nil => exact Moves.pure (List.map onValue) []
  | cons token bound ih =>
      refine Moves.bind (turn index) fun taken => ?_
      cases taken with
      | none => exact Moves.pure (List.map onValue) []
      | some value => exact Moves.map (ih (index + 1)) fun _ => rfl

theorem moves_separated {α β : Type} {onValue : α → β} {item : Rule α} {item' : Rule β}
    (items : String) (moves : Moves change onValue item item') :
    Moves change (List.map onValue) (separated items item) (separated items item') := by
  refine Moves.bind moves fun first => Moves.bind moves_bound fun bound => ?_
  refine Moves.map (moves_collect onValue ?_ bound 1) fun _ => rfl
  intro index
  refine Moves.bind (moves_accept _) fun taken => ?_
  cases taken with
  | none => exact Moves.pure (Option.map onValue) none
  | some comma =>
      simp only [Option.map_some]
      split
      · exact Moves.bind (moves_reportNext _) fun _ => Moves.map moves fun _ => rfl
      · exact Moves.map moves fun _ => rfl

theorem moves_listed {α β : Type} {onValue : α → β} {item : Rule α} {item' : Rule β}
    (items : String) (moves : Moves change onValue item item') :
    Moves change (List.map onValue) (listed items item) (listed items item') := by
  refine Moves.bind (moves_isNext _) fun isRight => ?_
  cases isRight with
  | true => exact Moves.pure (List.map onValue) []
  | false => exact moves_separated items moves

/-! ## Expressions -/

theorem moves_chain {operators : List TokenKind} {join : Expr → Token → Expr → Expr}
    {operand operand' : Rule Expr} (moves : Moves change (·.move change) operand operand')
    (commutes : ∀ left operator right, (join left operator right).move change =
      join (left.move change) (operator.move change) (right.move change)) :
    Moves change (·.move change) (chain operators join operand)
      (chain operators join operand') := by
  refine Moves.bind moves fun first => Moves.bind moves_bound fun bound => ?_
  refine moves_iterate (fun left => ?_) bound first
  refine Moves.bind (moves_accept _) fun taken => ?_
  cases taken with
  | none => exact Moves.pure (Option.map (Expr.move change)) none
  | some operator =>
      refine Moves.map moves fun right => ?_
      simp [commutes]

theorem moves_logical {unary unary' : Rule Expr}
    (moves : Moves change (·.move change) unary unary') :
    Moves change (·.move change) (logical unary) (logical unary') := by
  have commutes : ∀ left operator right, (Expr.binary left operator right).move change =
      .binary (left.move change) (operator.move change) (right.move change) := by simp [Expr.move]
  refine moves_chain ?_ (by simp [Expr.move])
  exact moves_chain (moves_chain (moves_chain (moves_chain moves commutes) commutes) commutes)
    commutes

theorem moves_ternaryRule {logical ternary logical' ternary' : Rule Expr}
    (movesLogical : Moves change (·.move change) logical logical')
    (movesTernary : Moves change (·.move change) ternary ternary') :
    Moves change (·.move change) (ternaryRule logical ternary) (ternaryRule logical' ternary') := by
  refine Moves.bind movesLogical fun condition => Moves.bind (moves_accept _) fun taken => ?_
  cases taken with
  | none => exact Moves.pure (Expr.move change) condition
  | some question =>
      refine Moves.bind movesTernary fun thenBranch => Moves.bind (moves_expect _ _) fun colon => ?_
      exact Moves.map movesTernary fun elseBranch => by simp [Expr.move]

theorem moves_assignmentRule {ternary assignment ternary' assignment' : Rule Expr}
    (movesTernary : Moves change (·.move change) ternary ternary')
    (movesAssignment : Moves change (·.move change) assignment assignment') :
    Moves change (·.move change) (assignmentRule ternary assignment)
      (assignmentRule ternary' assignment') := by
  refine Moves.bind movesTernary fun target => Moves.bind (moves_accept _) fun taken => ?_
  cases taken with
  | none => exact Moves.pure (Expr.move change) target
  | some equals =>
      refine Moves.bind movesAssignment fun value => ?_
      match target with
      | .variable name => exact Moves.pure (Expr.move change) (.assign name value)
      | .literal _ | .assign _ _ | .unary _ _ | .binary _ _ _ | .logical _ _ _ | .ternary _ _ _
      | .grouping _ | .call _ _ _ =>
          refine Moves.bind (moves_report _ _) fun _ => ?_
          exact Moves.pure (Expr.move change) _

theorem moves_unaryRule {unary call unary' call' : Rule Expr}
    (movesUnary : Moves change (·.move change) unary unary')
    (movesCall : Moves change (·.move change) call call') :
    Moves change (·.move change) (unaryRule unary call) (unaryRule unary' call') := by
  refine Moves.bind (moves_accept _) fun taken => ?_
  cases taken with
  | none => exact movesCall
  | some operator => exact Moves.map movesUnary fun right => by simp [Expr.move]

theorem moves_primary {expression expression' : Rule Expr}
    (moves : Moves change (·.move change) expression expression') :
    Moves change (·.move change) (primary expression) (primary expression') := by
  refine Moves.bind (moves_accept _) fun taken => ?_
  cases taken with
  | none => exact moves_fail _ _
  | some token =>
      simp only [Option.map_some, Token.move_kind, Token.move_literal]
      split
      case h_5 =>
          refine Moves.bind moves fun inner => ?_
          exact Moves.map (moves_expect _ _) fun right => by simp [Expr.move]
      all_goals
          intro cursor
          simp [Pure.pure, EStateM.pure, moveResult, Expr.move]

theorem moves_call {expression expression' : Rule Expr}
    (moves : Moves change (·.move change) expression expression') :
    Moves change (·.move change) (call expression) (call expression') := by
  refine Moves.bind (moves_primary moves) fun first => Moves.bind moves_bound fun bound => ?_
  refine moves_iterate (fun callee => ?_) bound first
  refine Moves.bind (moves_accept _) fun taken => ?_
  cases taken with
  | none => exact Moves.pure (Option.map (Expr.move change)) none
  | some paren =>
      have arguments : Moves change (·.move change) (arguments expression callee)
          (arguments expression' (callee.move change)) := by
        refine Moves.bind (moves_listed _ moves) fun trees => ?_
        exact Moves.map (moves_expect _ _) fun right => by simp [Expr.move]
      exact Moves.map arguments fun tree => rfl

/-! ## Statements -/

section Statements

variable {expression expression' : Rule Expr} {declaration declaration' : Rule Stmt}

theorem moves_unlessNext {kind : TokenKind}
    (moves : Moves change (·.move change) expression expression') :
    Moves change (Option.map (·.move change)) (unlessNext kind expression)
      (unlessNext kind expression') := by
  refine Moves.bind (moves_isNext _) fun isKind => ?_
  cases isKind with
  | true => exact Moves.pure (Option.map (Expr.move change)) none
  | false => exact Moves.map moves fun tree => rfl

theorem moves_varDeclaration (moves : Moves change (·.move change) expression expression') :
    Moves change (·.move change) (varDeclaration expression) (varDeclaration expression') := by
  refine Moves.bind (moves_expect _ _) fun name => Moves.bind (moves_accept _) fun taken => ?_
  cases taken with
  | none => exact Moves.map (moves_expect _ _) fun semicolon => by simp [Stmt.move]
  | some equals =>
      have value : Moves change (Option.map (·.move change)) (some <$> expression)
          (some <$> expression') := Moves.map moves fun tree => rfl
      refine Moves.bind value fun initializer => ?_
      exact Moves.map (moves_expect _ _) fun semicolon => by simp [Stmt.move]

theorem moves_expressionStatement (moves : Moves change (·.move change) expression expression') :
    Moves change (·.move change) (expressionStatement expression)
      (expressionStatement expression') := by
  refine Moves.bind moves fun value => ?_
  exact Moves.map (moves_expect _ _) fun semicolon => by simp [Stmt.move]

theorem moves_block (moves : Moves change (·.move change) declaration declaration') :
    Moves change (List.map (·.move change)) (block declaration) (block declaration') := by
  refine Moves.bind moves_bound fun bound => ?_
  refine Moves.bind (moves_collect (Stmt.move change) (fun index => ?_) bound 0) fun statements =>
    Moves.map (moves_expect _ _) fun right => rfl
  refine Moves.bind (moves_isNext _) fun isRight => Moves.bind moves_isAtEnd fun isEnd => ?_
  simp only [id_eq]
  split
  · exact Moves.pure (Option.map (Stmt.move change)) none
  · exact Moves.map moves fun tree => rfl

theorem moves_bracedBlock (phrase : String)
    (moves : Moves change (·.move change) declaration declaration') :
    Moves change (·.move change) (bracedBlock phrase declaration)
      (bracedBlock phrase declaration') := by
  refine Moves.bind (moves_expect _ _) fun left => ?_
  exact Moves.map (moves_block moves) fun statements => by simp [Stmt.move]

theorem moves_functionDeclaration (moves : Moves change (·.move change) declaration declaration') :
    Moves change (·.move change) (functionDeclaration declaration)
      (functionDeclaration declaration') := by
  refine Moves.bind (moves_expect _ _) fun name => Moves.bind (moves_expect _ _) fun left => ?_
  refine Moves.bind (moves_listed _ (moves_expect _ _)) fun parameters => ?_
  refine Moves.bind (moves_expect _ _) fun right => Moves.bind (moves_expect _ _) fun brace => ?_
  exact Moves.map (moves_block moves) fun statements => by simp [Stmt.move]

theorem moves_condition (moves : Moves change (·.move change) expression expression') :
    Moves change (·.move change) (condition expression) (condition expression') := by
  refine Moves.bind (moves_accept _) fun taken => ?_
  cases taken with
  | none => exact moves
  | some left =>
      refine Moves.bind moves fun value => ?_
      exact Moves.map (moves_expect _ _) fun right => rfl

theorem moves_ifStatement (moves : Moves change (·.move change) expression expression')
    (movesNested : Moves change (·.move change) declaration declaration') :
    Moves change (·.move change) (ifStatement expression declaration)
      (ifStatement expression' declaration') := by
  refine Moves.bind (moves_condition moves) fun condition => ?_
  refine Moves.bind (moves_bracedBlock _ movesNested) fun thenBranch => ?_
  refine Moves.bind (moves_accept _) fun taken => ?_
  cases taken with
  | none => exact Moves.pure (Stmt.move change) (.ifElse condition thenBranch none)
  | some otherwise =>
      have elseBranch : Moves change (Option.map (·.move change))
          (some <$> bracedBlock "'else'" declaration)
            (some <$> bracedBlock "'else'" declaration') :=
        Moves.map (moves_bracedBlock _ movesNested) fun tree => rfl
      refine Moves.bind elseBranch fun elseBranch cursor => ?_
      simp [Pure.pure, EStateM.pure, moveResult, Stmt.move]

theorem moves_whileStatement (moves : Moves change (·.move change) expression expression')
    (movesNested : Moves change (·.move change) declaration declaration') :
    Moves change (·.move change) (whileStatement expression declaration)
      (whileStatement expression' declaration') := by
  refine Moves.bind (moves_condition moves) fun condition => ?_
  exact Moves.map (moves_bracedBlock _ movesNested) fun body => by simp [Stmt.move]

theorem moves_forInitializer (moves : Moves change (·.move change) expression expression') :
    Moves change (Option.map (·.move change)) (forInitializer expression)
      (forInitializer expression') := by
  refine Moves.bind (moves_accept _) fun taken => ?_
  cases taken with
  | none => exact Moves.map (moves_expressionStatement moves) fun tree => rfl
  | some token =>
      by_cases isSemicolon : (token.kind == .semicolon) = true
      · have moved : ((token.move change).kind == .semicolon) = true := isSemicolon
        simp only [Option.map_some, if_pos isSemicolon, if_pos moved]
        exact Moves.pure (Option.map (Stmt.move change)) none
      · have moved : ¬ ((token.move change).kind == .semicolon) = true := isSemicolon
        simp only [Option.map_some, if_neg isSemicolon, if_neg moved]
        exact Moves.map (moves_varDeclaration moves) fun tree => rfl

theorem desugarFor_move (initializer : Option Stmt) (condition increment : Option Expr)
    (body : Stmt) :
    (Stmt.desugarFor initializer condition increment body).move change =
      Stmt.desugarFor (initializer.map (·.move change)) (condition.map (·.move change))
        (increment.map (·.move change)) (body.move change) := by
  cases initializer <;> cases condition <;> simp [Stmt.desugarFor, Stmt.move, Expr.move]

theorem moves_forStatement (moves : Moves change (·.move change) expression expression')
    (movesNested : Moves change (·.move change) declaration declaration') :
    Moves change (·.move change) (forStatement expression declaration)
      (forStatement expression' declaration') := by
  refine Moves.bind (moves_expect _ _) fun left => ?_
  refine Moves.bind (moves_forInitializer moves) fun initializer => ?_
  refine Moves.bind (moves_unlessNext moves) fun condition => ?_
  refine Moves.bind (moves_expect _ _) fun semicolon => ?_
  refine Moves.bind (moves_unlessNext moves) fun increment => ?_
  refine Moves.bind (moves_expect _ _) fun right => ?_
  exact Moves.map (moves_bracedBlock _ movesNested) fun body => (desugarFor_move _ _ _ _).symm

theorem moves_declarationRule {nested nested' : Rule Stmt}
    (moves : Moves change (·.move change) expression expression')
    (movesInner : Moves change (·.move change) declaration declaration')
    (movesNested : Moves change (·.move change) nested nested') :
    Moves change (·.move change) (declarationRule expression declaration nested)
      (declarationRule expression' declaration' nested') := by
  refine Moves.bind (moves_accept _) fun taken => ?_
  cases taken with
  | none => exact moves_expressionStatement moves
  | some keyword =>
      simp only [Option.map_some, Token.move_kind]
      split
      · exact moves_varDeclaration moves
      · exact moves_functionDeclaration movesInner
      · refine Moves.bind moves fun value => ?_
        exact Moves.map (moves_expect _ _) fun semicolon => by simp [Stmt.move]
      · exact Moves.map (moves_block movesInner) fun statements => by simp [Stmt.move]
      · exact moves_ifStatement moves movesNested
      · exact moves_whileStatement moves movesNested
      · exact moves_forStatement moves movesNested
      · exact Moves.map (moves_expect _ _) fun semicolon => by simp [Stmt.move]
      · exact Moves.map (moves_expect _ _) fun semicolon => by simp [Stmt.move]
      · refine Moves.bind (moves_unlessNext moves) fun value => ?_
        exact Moves.map (moves_expect _ _) fun semicolon => by simp [Stmt.move]

theorem skipToBoundary_move (previous : Token) (tokens : List Token) :
    Cursor.skipToBoundary (previous.move change) (tokens.map (·.move change)) =
      (Cursor.skipToBoundary previous tokens).map (·.move change) := by
  induction tokens generalizing previous with
  | nil => rfl
  | cons token rest ih =>
      simp only [List.map_cons, Cursor.skipToBoundary, Token.move_kind, ih]
      split <;> rfl

theorem moveCursor_synchronize (cursor : Cursor) :
    (moveCursor change cursor).synchronize = moveCursor change cursor.synchronize := by
  rcases cursor with ⟨_ | ⟨token, rest⟩, ending, diagnostics⟩
  · rfl
  · simp only [moveCursor, Cursor.synchronize, List.map_cons, skipToBoundary_move]

theorem moves_recovering {rule rule' : Rule Stmt}
    (moves : Moves change (·.move change) rule rule') :
    Moves change (·.move change) (recovering rule) (recovering rule') := by
  intro cursor
  have moved := moves cursor
  simp only [recovering, moved]
  cases rule cursor with
  | ok tree next => rfl
  | error panic next =>
      cases panic with
      | depth => rfl
      | fault => simp only [moveResult, moveCursor_synchronize, Stmt.move]

end Statements

/-! ## The grammar -/

mutual

theorem moves_expression :
    ∀ depth, Moves change (·.move change) (expression depth) (expression depth)
  | 0 => moves_tooDeep _
  | depth + 1 => moves_assignment depth

theorem moves_assignment :
    ∀ depth, Moves change (·.move change) (assignment depth) (assignment depth)
  | 0 => moves_tooDeep _
  | depth + 1 => moves_assignmentRule (moves_ternary depth) (moves_assignment depth)

theorem moves_ternary : ∀ depth, Moves change (·.move change) (ternary depth) (ternary depth)
  | 0 | 1 | 2 | 3 | 4 | 5 | 6 | 7 | 8 | 9 => moves_tooDeep _
  | depth + 10 => moves_ternaryRule (moves_logical (moves_unary depth)) (moves_ternary (depth + 9))

theorem moves_unary : ∀ depth, Moves change (·.move change) (unary depth) (unary depth)
  | 0 | 1 | 2 => moves_tooDeep _
  | depth + 3 => moves_unaryRule (moves_unary (depth + 2)) (moves_call (moves_expression depth))

end

theorem moves_declaration :
    ∀ depth, Moves change (·.move change) (declaration depth) (declaration depth)
  | 0 | 1 | 2 | 3 | 4 => moves_tooDeep _
  | depth + 5 => moves_recovering (moves_declarationRule (moves_expression (depth + 2))
      (moves_declaration (depth + 2)) (moves_declaration depth))

theorem outermost_move (limit : Nat) (cursor : Cursor) :
    outermost limit (moveCursor change cursor) =
      ((outermost limit cursor).1.move change, moveCursor change (outermost limit cursor).2) := by
  have moved : declaration limit (moveCursor change cursor) = _ := moves_declaration limit cursor
  simp only [outermost, moved]
  cases declaration limit cursor with
  | ok tree next => rfl
  | error panic next =>
      simp only [moveResult, moveCursor_peek, ← moveCursor_report,
        moveCursor_synchronize, Stmt.move]

theorem declarations_move (limit : Nat) (bound : List Token) (cursor : Cursor) :
    declarations limit (bound.map (·.move change)) (moveCursor change cursor) =
      ((declarations limit bound cursor).1.map (·.move change),
        moveCursor change (declarations limit bound cursor).2) := by
  induction bound generalizing cursor with
  | nil => rfl
  | cons token bound ih =>
      have sameEnd : (moveCursor change cursor).rest.isEmpty = cursor.rest.isEmpty := by
        simp [moveCursor]
      simp only [List.map_cons, declarations, sameEnd, outermost_move, ih]
      split <;> rfl

end Grammar

namespace Parse

open Grammar

/-- A parse whose trees and diagnostics are at changed positions. -/
def move (change : Position → Position) (parse : Parse) : Parse :=
  ⟨parse.statements.map (·.move change), parse.diagnostics.map (·.move change)⟩

theorem echoLast_move (statements : List Stmt) :
    echoLast (statements.map (·.move change)) = (echoLast statements).map (·.move change) := by
  induction statements with
  | nil => rfl
  | cons statement rest ih =>
      cases rest with
      | nil => cases statement <;> simp [echoLast, Stmt.echo, Stmt.move]
      | cons next rest => simpa [echoLast] using ih

/-- Parsing moved tokens gives the moved parse. -/
theorem ofTokens_move (limit : Nat) (interactive : Bool) (tokens : List Token) (ending : Token) :
    ofTokens limit interactive (tokens.map (·.move change)) (ending.move change) =
      (ofTokens limit interactive tokens ending).move change := by
  have moved : declarations limit (tokens.map (·.move change))
      ⟨tokens.map (·.move change), ending.move change, []⟩ = _ :=
    declarations_move limit tokens ⟨tokens, ending, []⟩
  cases interactive with
  | false => simp [ofTokens, moved, move, moveCursor]
  | true => simp [ofTokens, moved, move, moveCursor, echoLast_move]

end Parse
end LoxLang

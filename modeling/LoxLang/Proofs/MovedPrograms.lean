import LoxLang.Proofs.Correspondence
import LoxLang.Proofs.TreeTokens

/-!
# Programs at other positions

A tree corresponds to the same tree at other positions if each of its tokens corresponds to itself
at its new position, and a callable corresponds to itself if its tokens do. Two trees correspond if
moving their tokens makes them the same one. Where a correspondence keeps frames, callables and
marks, corresponding values and frames are the same.
-/

namespace LoxLang

namespace Correspondence

variable {between : Correspondence} {origin : between.Origin} {change : Position → Position}

theorem tokens_optional_move {token : Option Token}
    (tokens : ∀ present ∈ token.toList, between.token origin present (present.move change)) :
    Option.Rel (between.token origin) token (token.map (·.move change)) := by
  cases token with
  | none => exact .none
  | some token => exact .some (tokens token (by simp))

theorem tokens_map_move {tokens : List Token}
    (all : ∀ token ∈ tokens, between.token origin token (token.move change)) :
    List.Forall₂ (between.token origin) tokens (tokens.map (·.move change)) := by
  rw [List.forall₂_map_right_iff, List.forall₂_same]
  exact all

mutual

theorem exprs_move (sameValue : ∀ value, between.Values value value) :
    ∀ expression : Expr,
    (∀ token ∈ expression.tokens, between.token origin token (token.move change)) →
      between.Exprs origin expression (expression.move change)
  | .literal value, _ => .literal (sameValue value)
  | .variable name, tokens => .variable (tokens name (by simp [Expr.tokens]))
  | .assign name value, tokens => by
      rw [Expr.tokens, List.forall_mem_cons] at tokens
      exact .assign tokens.1 (exprs_move sameValue value tokens.2)
  | .unary operator right, tokens => by
      rw [Expr.tokens, List.forall_mem_cons] at tokens
      exact .unary tokens.1 (exprs_move sameValue right tokens.2)
  | .binary left operator right, tokens => by
      rw [Expr.tokens, List.forall_mem_append, List.forall_mem_cons] at tokens
      exact .binary (exprs_move sameValue left tokens.1) tokens.2.1
        (exprs_move sameValue right tokens.2.2)
  | .logical left operator right, tokens => by
      rw [Expr.tokens, List.forall_mem_append, List.forall_mem_cons] at tokens
      exact .logical (exprs_move sameValue left tokens.1) tokens.2.1
        (exprs_move sameValue right tokens.2.2)
  | .ternary condition thenBranch elseBranch, tokens => by
      rw [Expr.tokens, List.forall_mem_append, List.forall_mem_append] at tokens
      exact .ternary (exprs_move sameValue condition tokens.1)
        (exprs_move sameValue thenBranch tokens.2.1)
        (exprs_move sameValue elseBranch tokens.2.2)
  | .grouping inner, tokens => .grouping (exprs_move sameValue inner tokens)
  | .call callee paren arguments, tokens => by
      rw [Expr.tokens, List.forall_mem_append, List.forall_mem_append] at tokens
      exact .call (exprs_move sameValue callee tokens.1) (tokens_optional_move tokens.2.1)
        (exprs_moveAll sameValue arguments tokens.2.2)

theorem exprs_moveAll (sameValue : ∀ value, between.Values value value) :
    ∀ expressions : List Expr,
    (∀ token ∈ Expr.allTokens expressions, between.token origin token (token.move change)) →
      List.Forall₂ (between.Exprs origin) expressions (Expr.moveAll change expressions)
  | [], _ => .nil
  | expression :: rest, tokens => by
      rw [Expr.allTokens, List.forall_mem_append] at tokens
      exact .cons (exprs_move sameValue expression tokens.1) (exprs_moveAll sameValue rest tokens.2)

end

theorem exprs_optional_move (sameValue : ∀ value, between.Values value value)
    (expression : Option Expr)
    (tokens : ∀ token ∈ Expr.optionalTokens expression,
      between.token origin token (token.move change)) :
    Option.Rel (between.Exprs origin) expression (expression.map (·.move change)) := by
  cases expression with
  | none => exact .none
  | some expression => exact .some (exprs_move sameValue expression tokens)

mutual

theorem stmts_move (sameValue : ∀ value, between.Values value value) :
    ∀ statement : Stmt,
    (∀ token ∈ statement.tokens, between.token origin token (token.move change)) →
      between.Stmts origin statement (statement.move change)
  | .hole, _ => .hole
  | .expression value, tokens => .expression (exprs_move sameValue value tokens)
  | .print value, tokens => .print (exprs_move sameValue value tokens)
  | .var name initializer, tokens => by
      rw [Stmt.tokens, List.forall_mem_cons] at tokens
      exact .var tokens.1 (exprs_optional_move sameValue initializer tokens.2)
  | .block statements, tokens => .block (stmts_moveAll sameValue statements tokens)
  | .ifElse condition thenBranch elseBranch, tokens => by
      rw [Stmt.tokens, List.forall_mem_append, List.forall_mem_append] at tokens
      exact .ifElse (exprs_move sameValue condition tokens.1)
        (stmts_move sameValue thenBranch tokens.2.1)
        (stmts_moveOptional sameValue elseBranch tokens.2.2)
  | .whileLoop condition body increment, tokens => by
      rw [Stmt.tokens, List.forall_mem_append, List.forall_mem_append] at tokens
      exact .whileLoop (exprs_move sameValue condition tokens.1)
        (stmts_move sameValue body tokens.2.1)
        (exprs_optional_move sameValue increment tokens.2.2)
  | .forLoop initializer condition increment body, tokens => by
      rw [Stmt.tokens, List.forall_mem_append, List.forall_mem_append,
        List.forall_mem_append] at tokens
      exact .forLoop (stmts_moveOptional sameValue initializer tokens.1)
        (exprs_optional_move sameValue condition tokens.2.1)
        (exprs_optional_move sameValue increment tokens.2.2.1)
        (stmts_move sameValue body tokens.2.2.2)
  | .breakLoop keyword, tokens => .breakLoop (tokens_optional_move tokens)
  | .continueLoop keyword, tokens => .continueLoop (tokens_optional_move tokens)
  | .function name parameters body, tokens => by
      rw [Stmt.tokens, List.forall_mem_cons, List.forall_mem_append] at tokens
      exact .function tokens.1 (tokens_map_move tokens.2.1)
        (stmts_moveAll sameValue body tokens.2.2)
  | .returnValue keyword value, tokens => by
      rw [Stmt.tokens, List.forall_mem_append] at tokens
      exact .returnValue (tokens_optional_move tokens.1)
        (exprs_optional_move sameValue value tokens.2)

theorem stmts_moveAll (sameValue : ∀ value, between.Values value value) :
    ∀ statements : List Stmt,
    (∀ token ∈ Stmt.allTokens statements, between.token origin token (token.move change)) →
      List.Forall₂ (between.Stmts origin) statements (Stmt.moveAll change statements)
  | [], _ => .nil
  | statement :: rest, tokens => by
      rw [Stmt.allTokens, List.forall_mem_append] at tokens
      exact .cons (stmts_move sameValue statement tokens.1) (stmts_moveAll sameValue rest tokens.2)

theorem stmts_moveOptional (sameValue : ∀ value, between.Values value value) :
    ∀ statement : Option Stmt,
    (∀ token ∈ Stmt.optionalTokens statement, between.token origin token (token.move change)) →
      Option.Rel (between.Stmts origin) statement (Stmt.moveOptional change statement)
  | none, _ => .none
  | some statement, tokens => .some (stmts_move sameValue statement tokens)

end

theorem stmts_refl (sameValue : ∀ value, between.Values value value)
    (statements : List Stmt)
    (tokens : ∀ token ∈ Stmt.allTokens statements, between.token origin token token) :
    List.Forall₂ (between.Stmts origin) statements statements := by
  have moved : List.Forall₂ (between.Stmts origin) statements (Stmt.moveAll id statements) :=
    stmts_moveAll sameValue statements tokens
  rwa [(Stmt.moveAll_eq_self_iff statements).mpr fun _ _ => rfl] at moved

mutual

theorem callables_refl (sameValue : ∀ value, between.Values value value)
    (sameFrame : ∀ id, between.frame id id) : ∀ target : Callable,
    (∀ token ∈ target.tokens, between.token origin token token) → between.Callables target target
  | .native name arity action, tokens =>
      .native name arity (actions_refl sameValue sameFrame action tokens)
  | .function name parameters body closure, tokens => by
      rw [Callable.tokens, List.forall_mem_cons, List.forall_mem_append] at tokens
      have closures : Option.Rel between.frame closure closure := by
        cases closure with
        | none => exact .none
        | some id => exact .some (sameFrame id)
      exact .function origin tokens.1 (List.forall₂_same.mpr tokens.2.1)
        (stmts_refl sameValue body tokens.2.2) closures

theorem actions_refl (sameValue : ∀ value, between.Values value value)
    (sameFrame : ∀ id, between.frame id id) : ∀ action : Action,
    (∀ token ∈ action.tokens, between.token origin token token) → between.Actions action action
  | .clock, _ => .clock
  | .pick index, _ => .pick index
  | .produce recipe, tokens => .produce (recipes_refl sameValue sameFrame recipe tokens)
  | .abort reason, tokens => by
      cases reason with
      | fault fault =>
          rcases fault with ⟨token, cause⟩
          cases token with
          | none => exact .abort (.fault origin cause .none)
          | some token =>
              exact .abort (.fault origin cause (.some (tokens token (by simp [Action.tokens]))))
      | interrupt => exact .abort .interrupt
      | quit status => exact .abort (.quit status)
      | overflow message => exact .abort (.overflow message)
      | host kind message => exact .abort (.host kind message)
      | tooDeep => exact .abort .tooDeep
      | exhausted => exact .abort .exhausted

theorem recipes_refl (sameValue : ∀ value, between.Values value value)
    (sameFrame : ∀ id, between.frame id id) : ∀ recipe : Recipe,
    (∀ token ∈ recipe.tokens, between.token origin token token) → between.Recipes recipe recipe
  | .constant value, _ => .constant (sameValue value)
  | .callable target, tokens => .callable (callables_refl sameValue sameFrame target tokens)

end

/-! ## Trees that are the same but for positions -/

/-- Whether tokens correspond if moving them makes them the same one, and every value corresponds to
itself. -/
structure MovesTogether (between : Correspondence) (origin : between.Origin)
    (change : Position → Position) : Prop where
  tokens : ∀ {token token' : Token}, token.move change = token'.move change →
    between.token origin token token'
  values : ∀ value, between.Values value value

theorem tokens_optional_of_move_eq (together : between.MovesTogether origin change)
    {token token' : Option Token}
    (same : token.map (·.move change) = token'.map (·.move change)) :
    Option.Rel (between.token origin) token token' := by
  cases token with
  | none =>
      rw [Option.map_none, eq_comm, Option.map_eq_none_iff] at same
      rw [same]
      exact .none
  | some token =>
      rw [Option.map_some, eq_comm, Option.map_eq_some_iff] at same
      rcases same with ⟨token', rfl, same⟩
      exact .some (together.tokens same.symm)

theorem tokens_of_move_eq (together : between.MovesTogether origin change)
    {tokens tokens' : List Token}
    (same : tokens.map (·.move change) = tokens'.map (·.move change)) :
    List.Forall₂ (between.token origin) tokens tokens' := by
  rw [← List.forall₂_eq_eq_eq, List.forall₂_map_left_iff, List.forall₂_map_right_iff] at same
  exact same.imp fun _ _ => together.tokens

mutual

theorem exprs_of_move_eq (together : between.MovesTogether origin change) :
    ∀ expression expression' : Expr, expression.move change = expression'.move change →
      between.Exprs origin expression expression'
  | .literal value, expression', same => by
      cases expression' with
      | literal value' =>
          simp only [Expr.move, Expr.literal.injEq] at same
          rw [← same]
          exact .literal (together.values value)
      | _ => simp [Expr.move] at same
  | .variable name, expression', same => by
      cases expression' with
      | «variable» name' =>
          simp only [Expr.move, Expr.variable.injEq] at same
          exact .variable (together.tokens same)
      | _ => simp [Expr.move] at same
  | .assign name value, expression', same => by
      cases expression' with
      | assign name' value' =>
          simp only [Expr.move, Expr.assign.injEq] at same
          exact .assign (together.tokens same.1) (exprs_of_move_eq together value value' same.2)
      | _ => simp [Expr.move] at same
  | .unary operator right, expression', same => by
      cases expression' with
      | unary operator' right' =>
          simp only [Expr.move, Expr.unary.injEq] at same
          exact .unary (together.tokens same.1) (exprs_of_move_eq together right right' same.2)
      | _ => simp [Expr.move] at same
  | .binary left operator right, expression', same => by
      cases expression' with
      | binary left' operator' right' =>
          simp only [Expr.move, Expr.binary.injEq] at same
          exact .binary (exprs_of_move_eq together left left' same.1) (together.tokens same.2.1)
            (exprs_of_move_eq together right right' same.2.2)
      | _ => simp [Expr.move] at same
  | .logical left operator right, expression', same => by
      cases expression' with
      | logical left' operator' right' =>
          simp only [Expr.move, Expr.logical.injEq] at same
          exact .logical (exprs_of_move_eq together left left' same.1) (together.tokens same.2.1)
            (exprs_of_move_eq together right right' same.2.2)
      | _ => simp [Expr.move] at same
  | .ternary condition thenBranch elseBranch, expression', same => by
      cases expression' with
      | ternary condition' thenBranch' elseBranch' =>
          simp only [Expr.move, Expr.ternary.injEq] at same
          exact .ternary (exprs_of_move_eq together condition condition' same.1)
            (exprs_of_move_eq together thenBranch thenBranch' same.2.1)
            (exprs_of_move_eq together elseBranch elseBranch' same.2.2)
      | _ => simp [Expr.move] at same
  | .grouping inner, expression', same => by
      cases expression' with
      | grouping inner' =>
          simp only [Expr.move, Expr.grouping.injEq] at same
          exact .grouping (exprs_of_move_eq together inner inner' same)
      | _ => simp [Expr.move] at same
  | .call callee paren arguments, expression', same => by
      cases expression' with
      | call callee' paren' arguments' =>
          simp only [Expr.move, Expr.call.injEq] at same
          exact .call (exprs_of_move_eq together callee callee' same.1)
            (tokens_optional_of_move_eq together same.2.1)
            (exprs_of_moveAll_eq together arguments arguments' same.2.2)
      | _ => simp [Expr.move] at same

theorem exprs_of_moveAll_eq (together : between.MovesTogether origin change) :
    ∀ expressions expressions' : List Expr,
    Expr.moveAll change expressions = Expr.moveAll change expressions' →
      List.Forall₂ (between.Exprs origin) expressions expressions'
  | [], [], _ => .nil
  | expression :: rest, expression' :: rest', same => by
      simp only [Expr.moveAll, List.cons.injEq] at same
      exact .cons (exprs_of_move_eq together expression expression' same.1)
        (exprs_of_moveAll_eq together rest rest' same.2)
  | [], _ :: _, same | _ :: _, [], same => by simp [Expr.moveAll] at same

end

theorem exprs_optional_of_move_eq (together : between.MovesTogether origin change)
    {expression expression' : Option Expr}
    (same : expression.map (·.move change) = expression'.map (·.move change)) :
    Option.Rel (between.Exprs origin) expression expression' := by
  cases expression with
  | none =>
      rw [Option.map_none, eq_comm, Option.map_eq_none_iff] at same
      rw [same]
      exact .none
  | some expression =>
      rw [Option.map_some, eq_comm, Option.map_eq_some_iff] at same
      rcases same with ⟨expression', rfl, same⟩
      exact .some (exprs_of_move_eq together expression expression' same.symm)

mutual

theorem stmts_of_move_eq (together : between.MovesTogether origin change) :
    ∀ statement statement' : Stmt, statement.move change = statement'.move change →
      between.Stmts origin statement statement'
  | .hole, statement', same => by
      cases statement' with
      | hole => exact .hole
      | _ => simp [Stmt.move] at same
  | .expression value, statement', same => by
      cases statement' with
      | expression value' =>
          simp only [Stmt.move, Stmt.expression.injEq] at same
          exact .expression (exprs_of_move_eq together value value' same)
      | _ => simp [Stmt.move] at same
  | .print value, statement', same => by
      cases statement' with
      | print value' =>
          simp only [Stmt.move, Stmt.print.injEq] at same
          exact .print (exprs_of_move_eq together value value' same)
      | _ => simp [Stmt.move] at same
  | .var name initializer, statement', same => by
      cases statement' with
      | var name' initializer' =>
          simp only [Stmt.move, Stmt.var.injEq] at same
          exact .var (together.tokens same.1) (exprs_optional_of_move_eq together same.2)
      | _ => simp [Stmt.move] at same
  | .block statements, statement', same => by
      cases statement' with
      | block statements' =>
          simp only [Stmt.move, Stmt.block.injEq] at same
          exact .block (stmts_of_moveAll_eq together statements statements' same)
      | _ => simp [Stmt.move] at same
  | .ifElse condition thenBranch elseBranch, statement', same => by
      cases statement' with
      | ifElse condition' thenBranch' elseBranch' =>
          simp only [Stmt.move, Stmt.ifElse.injEq] at same
          exact .ifElse (exprs_of_move_eq together condition condition' same.1)
            (stmts_of_move_eq together thenBranch thenBranch' same.2.1)
            (stmts_of_moveOptional_eq together elseBranch elseBranch' same.2.2)
      | _ => simp [Stmt.move] at same
  | .whileLoop condition body increment, statement', same => by
      cases statement' with
      | whileLoop condition' body' increment' =>
          simp only [Stmt.move, Stmt.whileLoop.injEq] at same
          exact .whileLoop (exprs_of_move_eq together condition condition' same.1)
            (stmts_of_move_eq together body body' same.2.1)
            (exprs_optional_of_move_eq together same.2.2)
      | _ => simp [Stmt.move] at same
  | .forLoop initializer condition increment body, statement', same => by
      cases statement' with
      | forLoop initializer' condition' increment' body' =>
          simp only [Stmt.move, Stmt.forLoop.injEq] at same
          exact .forLoop (stmts_of_moveOptional_eq together initializer initializer' same.1)
            (exprs_optional_of_move_eq together same.2.1)
            (exprs_optional_of_move_eq together same.2.2.1)
            (stmts_of_move_eq together body body' same.2.2.2)
      | _ => simp [Stmt.move] at same
  | .breakLoop keyword, statement', same => by
      cases statement' with
      | breakLoop keyword' =>
          simp only [Stmt.move, Stmt.breakLoop.injEq] at same
          exact .breakLoop (tokens_optional_of_move_eq together same)
      | _ => simp [Stmt.move] at same
  | .continueLoop keyword, statement', same => by
      cases statement' with
      | continueLoop keyword' =>
          simp only [Stmt.move, Stmt.continueLoop.injEq] at same
          exact .continueLoop (tokens_optional_of_move_eq together same)
      | _ => simp [Stmt.move] at same
  | .function name parameters body, statement', same => by
      cases statement' with
      | function name' parameters' body' =>
          simp only [Stmt.move, Stmt.function.injEq] at same
          exact .function (together.tokens same.1) (tokens_of_move_eq together same.2.1)
            (stmts_of_moveAll_eq together body body' same.2.2)
      | _ => simp [Stmt.move] at same
  | .returnValue keyword value, statement', same => by
      cases statement' with
      | returnValue keyword' value' =>
          simp only [Stmt.move, Stmt.returnValue.injEq] at same
          exact .returnValue (tokens_optional_of_move_eq together same.1)
            (exprs_optional_of_move_eq together same.2)
      | _ => simp [Stmt.move] at same

theorem stmts_of_moveAll_eq (together : between.MovesTogether origin change) :
    ∀ statements statements' : List Stmt,
    Stmt.moveAll change statements = Stmt.moveAll change statements' →
      List.Forall₂ (between.Stmts origin) statements statements'
  | [], [], _ => .nil
  | statement :: rest, statement' :: rest', same => by
      simp only [Stmt.moveAll, List.cons.injEq] at same
      exact .cons (stmts_of_move_eq together statement statement' same.1)
        (stmts_of_moveAll_eq together rest rest' same.2)
  | [], _ :: _, same | _ :: _, [], same => by simp [Stmt.moveAll] at same

theorem stmts_of_moveOptional_eq (together : between.MovesTogether origin change) :
    ∀ statement statement' : Option Stmt,
    Stmt.moveOptional change statement = Stmt.moveOptional change statement' →
      Option.Rel (between.Stmts origin) statement statement'
  | none, none, _ => .none
  | some statement, some statement', same => by
      simp only [Stmt.moveOptional, Option.some.injEq] at same
      exact .some (stmts_of_move_eq together statement statement' same)
  | none, some _, same | some _, none, same => by simp [Stmt.moveOptional] at same

end

/-! ## Correspondences that only tokens take part in -/

/-- Frames that correspond to themselves only do so in the order of their age. -/
theorem older_of_eq {id id' other other' : FrameId} (same : id = id') (same' : other = other') :
    id < other ↔ id' < other' := by
  rw [same, same']

/-- Whether a correspondence keeps frames, callables and marks as they are. -/
structure Fixed (between : Correspondence) : Prop where
  frame : ∀ {id id' : FrameId}, between.frame id id' ↔ id = id'
  identity : ∀ {identity identity' : Nat}, between.identity identity identity' ↔
    identity = identity'
  mark : ∀ {mark mark' : Nat}, between.mark mark mark' ↔ mark = mark'

namespace Fixed

variable (fixed : between.Fixed)
include fixed

theorem values_iff {value value' : Value} : between.Values value value' ↔ value = value' := by
  constructor
  · intro values
    cases values with
    | nil | boolean | string => rfl
    | number value marks => rw [fixed.mark.mp marks]
    | callable isNative name arity identities => rw [fixed.identity.mp identities]
  · rintro rfl
    cases value with
    | nil => exact .nil
    | boolean value => exact .boolean value
    | number value => exact .number value (fixed.mark.mpr rfl)
    | string text => exact .string text
    | callable reference =>
        exact .callable reference.isNative reference.name reference.arity (fixed.identity.mpr rfl)

theorem bindings_iff {binding binding' : String × Value} :
    between.Bindings binding binding' ↔ binding = binding' := by
  constructor
  · rintro ⟨name, values⟩
    rw [fixed.values_iff.mp values]
  · rintro rfl
    exact ⟨_, fixed.values_iff.mpr rfl⟩

theorem frames_iff {frame frame' : Frame} : between.Frames frame frame' ↔ frame = frame' := by
  rcases frame with ⟨enclosing, bindings⟩
  rcases frame' with ⟨enclosing', bindings'⟩
  constructor
  · rintro ⟨enclosings, all⟩
    have sameEnclosing : enclosing = enclosing' := by
      cases enclosings with
      | none => rfl
      | some parents => rw [fixed.frame.mp parents]
    have sameBindings : bindings = bindings' := by
      refine List.forall₂_eq_eq_eq ▸ all.imp fun _ _ => fixed.bindings_iff.mp
    rw [sameEnclosing, sameBindings]
  · intro same
    cases same
    refine ⟨?_, List.forall₂_same.mpr fun _ _ => fixed.bindings_iff.mpr rfl⟩
    cases enclosing with
    | none => exact .none
    | some parent => exact .some (fixed.frame.mpr rfl)

/-- Corresponding machines have the same frames. -/
theorem heap_eq {machine machine' : Machine} (machines : between.Machines machine machine') :
    machine.heap = machine'.heap := by
  have sameFrames : machine.heap.frames = machine'.heap.frames := by
    refine Array.ext_getElem? fun id => ?_
    have frames := machines.frames (fixed.frame.mpr (Eq.refl id))
    generalize machine.heap.frames[id]? = frame at frames
    generalize machine'.heap.frames[id]? = frame' at frames
    cases frames with
    | none => rfl
    | some frames => rw [fixed.frames_iff.mp frames]
  rcases machine with ⟨⟨frames⟩⟩
  rcases machine' with ⟨⟨frames'⟩⟩
  cases sameFrames
  rfl

/-- The same frames correspond to each other. -/
theorem frames_of_heap_eq {heap heap' : Heap} (same : heap = heap') {id id' : FrameId}
    (ids : between.frame id id') :
    Option.Rel between.Frames heap.frames[id]? heap'.frames[id']? := by
  rw [same, fixed.frame.mp ids]
  cases heap'.frames[id']? with
  | none => exact .none
  | some frame => exact .some (fixed.frames_iff.mpr rfl)

end Fixed

end Correspondence

end LoxLang

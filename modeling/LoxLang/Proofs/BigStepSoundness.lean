import LoxLang.Proofs.EvaluatorSteps

/-!
# The rules derive what the evaluator does

Whatever the evaluator does, the rules derive, unless it ends because of one of its limits. The room
that is left on the stack decreases with every step, so the proof is by induction on it; a loop also
takes an induction on the turns that are left.
-/

namespace LoxLang

open Run

/-- Whether a run ends early because of a limit of the evaluator and not because of the program. -/
def Abort.IsLimit (reason : Abort) : Prop :=
  reason = .tooDeep ∨ reason = .exhausted

namespace Outcome

variable {α β : Type}

/-- Whether an outcome is due to a limit of the evaluator. -/
def Limited : Outcome α → Prop
  | .ok _ _ => False
  | .error reason _ => reason.IsLimit

theorem not_limited_ok {result : α} {machine : Machine} : ¬ Limited (.ok result machine) := id

theorem limited_after {change : Machine → Machine} {outcome : Outcome α}
    (limited : outcome.Limited) :
    (outcome.after change).Limited := by
  cases outcome <;> exact limited

theorem andThen_eq {first : Outcome α} {next : α → Machine → Outcome β} {outcome : Outcome β}
    (isOutcome : andThen first next = outcome) :
    (∃ reason machine, first = .error reason machine ∧ .error reason machine = outcome) ∨
      ∃ result machine, first = .ok result machine ∧ next result machine = outcome := by
  cases first with
  | error reason machine => exact .inl ⟨reason, machine, rfl, isOutcome⟩
  | ok result machine => exact .inr ⟨result, machine, rfl, isOutcome⟩

end Outcome

theorem Completion.exists_gives (completion : Completion) : ∃ result, completion.Gives result := by
  cases completion
  · exact ⟨_, .normal⟩
  · exact ⟨_, .breakLoop⟩
  · exact ⟨_, .continueLoop⟩
  · exact ⟨_, .returned⟩

open Outcome

namespace Task

/-- Whether the rules derive all that the evaluator does with something within limits. -/
def Sound {α : Type} (setting : Setting) (depth turns : Nat) (task : Task α) : Prop :=
  ∀ {machine : Machine} {outcome : Outcome α}, task.run setting depth turns machine = outcome →
    ¬ outcome.Limited → Runs setting.clock task machine outcome

end Task

/-- Whether the rules derive all that the evaluator does with expressions and statements
when a given room is left on the stack. -/
structure SoundWithin (setting : Setting) (depth : Nat) : Prop where
  evaluate (expression : Expr) : (Task.evaluate expression).Sound setting depth setting.turns
  execute (statement : Stmt) : (Task.execute statement).Sound setting depth setting.turns

variable {setting : Setting} {depth : Nat}

/-! ## Lists, loops and calls -/

namespace SoundWithin

variable (sound : SoundWithin setting depth)
include sound

theorem evaluateOption (expression : Option Expr) :
    (Task.evaluateOption expression).Sound setting depth setting.turns := by
  intro machine outcome isOutcome ends
  cases expression with
  | none =>
      rw [Task.run_evaluateOption_none] at isOutcome
      subst isOutcome
      exact .absent
  | some expression => exact .present (sound.evaluate expression isOutcome ends)

theorem evaluateAll (expressions : List Expr) :
    (Task.evaluateAll expressions).Sound setting depth setting.turns := by
  induction expressions with
  | nil =>
      intro machine outcome isOutcome ends
      rw [Task.run_evaluateAll_nil] at isOutcome
      subst isOutcome
      exact .noExpression
  | cons expression rest ih =>
      intro machine outcome isOutcome ends
      rw [Task.run_evaluateAll_cons] at isOutcome
      rcases andThen_eq isOutcome with
        ⟨reason, machine', isFirst, rfl⟩ | ⟨value, machine', isFirst, isOutcome⟩
      · exact .expressionsAbort (sound.evaluate expression isFirst ends)
      have first := sound.evaluate expression isFirst not_limited_ok
      rcases andThen_eq isOutcome with
        ⟨reason, machine'', isRest, rfl⟩ | ⟨values, machine'', isRest, rfl⟩
      · exact .expressionsAbortLater first (ih isRest ends)
      · exact .nextExpression first (ih isRest not_limited_ok)

theorem executeAll (statements : List Stmt) :
    (Task.executeAll statements).Sound setting depth setting.turns := by
  induction statements with
  | nil =>
      intro machine outcome isOutcome ends
      rw [Task.run_executeAll_nil] at isOutcome
      subst isOutcome
      exact .noStatement
  | cons statement rest ih =>
      intro machine outcome isOutcome ends
      rw [Task.run_executeAll_cons] at isOutcome
      rcases andThen_eq isOutcome with
        ⟨reason, machine', isFirst, rfl⟩ | ⟨completion, machine', isFirst, isOutcome⟩
      · exact .statementsAbort (sound.execute statement isFirst ends)
      have first := sound.execute statement isFirst not_limited_ok
      cases completion with
      | normal => exact .nextStatement first (ih isOutcome ends)
      | breakLoop | continueLoop | returned =>
          subst isOutcome
          exact .lastStatement first (by simp)

theorem loop (condition : Expr) (body : Stmt) (increment : Option Expr) (turns : Nat) :
    (Task.loop condition body increment).Sound setting depth turns := by
  induction turns with
  | zero =>
      intro machine outcome isOutcome ends
      refine absurd ?_ ends
      cases increment <;> exact isOutcome ▸ .inr rfl
  | succ turns ih =>
      intro machine outcome isOutcome ends
      rw [Task.run_loop] at isOutcome
      rcases andThen_eq isOutcome with
        ⟨reason, machine', isValue, rfl⟩ | ⟨value, machine', isValue, isOutcome⟩
      · exact .loopAbort (sound.evaluate condition isValue ends)
      have tested := sound.evaluate condition isValue not_limited_ok
      split at isOutcome
      next isTruthy =>
          have truthy := Value.isTruthy_iff.mp isTruthy
          rcases andThen_eq isOutcome with
            ⟨reason, machine'', isBody, rfl⟩ | ⟨completion, machine'', isBody, isOutcome⟩
          · exact .loopAbortBody tested truthy (sound.execute body isBody ends)
          have executed := sound.execute body isBody not_limited_ok
          cases completion with
          | breakLoop keyword =>
              subst isOutcome
              exact .loopBreak tested truthy executed
          | returned keyword value =>
              subst isOutcome
              exact .loopReturn tested truthy executed
          | normal | continueLoop =>
              rcases andThen_eq isOutcome with
                ⟨reason, machine''', isStep, rfl⟩ | ⟨step, machine''', isStep, isOutcome⟩
              · have aborted := sound.evaluateOption increment isStep ends
                exact .loopAbortStep tested truthy executed (by constructor) aborted
              · have stepped := sound.evaluateOption increment isStep not_limited_ok
                exact .loopAgain tested truthy executed (by constructor) stepped (ih isOutcome ends)
      next isFalsy =>
          subst isOutcome
          exact .loopEnd tested (mt Value.isTruthy_iff.mpr isFalsy)

theorem call (target : Callable) (arguments : List Value) :
    (Task.call target arguments).Sound setting depth setting.turns := by
  intro machine outcome isOutcome ends
  cases target with
  | native name arity action =>
      rw [Task.run_native] at isOutcome
      subst isOutcome
      exact .native
  | function name parameters body closure =>
      rw [Task.run_function] at isOutcome
      cases isDeclared : defineAll parameters arguments (machine.enter closure) with
      | error reason machine' =>
          simp only [isDeclared, andThen_error, after_error] at isOutcome
          subst isOutcome
          exact .functionTaken (declares_iff.mpr isDeclared)
      | ok _ machine' =>
          have declares := declares_iff.mpr isDeclared
          simp only [isDeclared, andThen_ok] at isOutcome
          cases isBody : (Task.executeAll body).run setting depth setting.turns machine' with
          | error reason machine'' =>
              simp only [isBody, andThen_error, after_error] at isOutcome
              subst isOutcome
              exact .functionAbort declares (sound.executeAll body isBody ends)
          | ok completion machine'' =>
              have executed := sound.executeAll body isBody not_limited_ok
              rcases completion.exists_gives with ⟨result, gives⟩
              simp only [isBody, after_ok, andThen_ok, callResult_of_gives gives] at isOutcome
              subst isOutcome
              cases result with
              | ok value => exact .function declares executed gives
              | error fault => exact .functionStray declares executed gives

end SoundWithin

/-! ## Expressions -/

section Expressions

variable (operands : SoundWithin setting (depth + 2)) {turns : Nat}
include operands

theorem sound_assign (name : Token) (value : Expr) :
    (Task.evaluate (.assign name value)).Sound setting (depth + 4) turns := by
  intro machine outcome isOutcome ends
  simp only [Task.run_evaluate] at isOutcome
  rcases andThen_eq isOutcome with
    ⟨reason, machine', isValue, rfl⟩ | ⟨result, machine', isValue, isOutcome⟩
  · exact .assignAbort (operands.evaluate value isValue ends)
  have evaluated := operands.evaluate value isValue not_limited_ok
  by_cases resolves : ∃ found, machine'.Resolves name found
  · rcases resolves with ⟨found, resolves⟩
    rw [assign_of_resolves resolves] at isOutcome
    subst isOutcome
    exact .assign evaluated resolves
  · have lacks : machine'.Lacks name := not_exists.mp resolves
    rw [assign_of_lacks lacks] at isOutcome
    subst isOutcome
    exact .assignUndefined evaluated lacks

theorem sound_unary (operator : Token) (right : Expr) :
    (Task.evaluate (.unary operator right)).Sound setting (depth + 4) turns := by
  intro machine outcome isOutcome ends
  simp only [Task.run_evaluate] at isOutcome
  rcases andThen_eq isOutcome with
    ⟨reason, machine', isRight, rfl⟩ | ⟨operand, machine', isRight, isOutcome⟩
  · exact .unaryAbort (operands.evaluate right isRight ends)
  have evaluated := operands.evaluate right isRight not_limited_ok
  cases computed : Operator.unary operator operand with
  | ok value =>
      simp only [computed, settle] at isOutcome
      subst isOutcome
      exact .unary evaluated (Operator.unary_iff.mpr computed)
  | error reason =>
      simp only [computed, settle] at isOutcome
      subst isOutcome
      exact .unaryFault evaluated (Operator.unary_iff.mpr computed)

theorem sound_binary (left : Expr) (operator : Token) (right : Expr) :
    (Task.evaluate (.binary left operator right)).Sound setting (depth + 4) turns := by
  intro machine outcome isOutcome ends
  simp only [Task.run_evaluate] at isOutcome
  rcases andThen_eq isOutcome with
    ⟨reason, machine', isLeft, rfl⟩ | ⟨first, machine', isLeft, isOutcome⟩
  · exact .binaryAbortLeft (operands.evaluate left isLeft ends)
  have evaluatedLeft := operands.evaluate left isLeft not_limited_ok
  rcases andThen_eq isOutcome with
    ⟨reason, machine'', isRight, rfl⟩ | ⟨second, machine'', isRight, isOutcome⟩
  · exact .binaryAbortRight evaluatedLeft (operands.evaluate right isRight ends)
  have evaluatedRight := operands.evaluate right isRight not_limited_ok
  cases computed : Operator.binary operator first second with
  | ok value =>
      simp only [computed, settle] at isOutcome
      subst isOutcome
      exact .binary evaluatedLeft evaluatedRight (Operator.binary_iff.mpr computed)
  | error reason =>
      simp only [computed, settle] at isOutcome
      subst isOutcome
      exact .binaryFault evaluatedLeft evaluatedRight (Operator.binary_iff.mpr computed)

theorem sound_logical (left : Expr) (operator : Token) (right : Expr) :
    (Task.evaluate (.logical left operator right)).Sound setting (depth + 4) turns := by
  intro machine outcome isOutcome ends
  simp only [Task.run_evaluate] at isOutcome
  rcases andThen_eq isOutcome with
    ⟨reason, machine', isLeft, rfl⟩ | ⟨first, machine', isLeft, isOutcome⟩
  · exact .logicalAbortLeft (operands.evaluate left isLeft ends)
  have evaluatedLeft := operands.evaluate left isLeft not_limited_ok
  split at isOutcome
  next decided =>
      subst isOutcome
      cases isTruthy : first.isTruthy with
      | true =>
          have isOr : operator.kind = .orWord := by simpa [isTruthy] using decided
          exact .orTrue isOr evaluatedLeft (Value.isTruthy_iff.mp isTruthy)
      | false =>
          have isAnd : operator.kind ≠ .orWord := by simpa [isTruthy] using decided
          exact .andFalse isAnd evaluatedLeft (Value.isTruthy_eq_false_iff.mp isTruthy)
  next undecided =>
      have needed : operator.kind = .orWord ↔ ¬ first.Truthy := by
        rw [← Value.isTruthy_iff]
        cases isTruthy : first.isTruthy <;> simpa [isTruthy] using undecided
      rcases andThen_eq isOutcome with
        ⟨reason, machine'', isRight, rfl⟩ | ⟨second, machine'', isRight, rfl⟩
      · exact .logicalAbortRight evaluatedLeft needed (operands.evaluate right isRight ends)
      · have evaluatedRight := operands.evaluate right isRight not_limited_ok
        exact .logical evaluatedLeft needed evaluatedRight Value.isTruthy_iff

theorem sound_ternary (condition thenBranch elseBranch : Expr) :
    (Task.evaluate (.ternary condition thenBranch elseBranch)).Sound setting (depth + 4) turns := by
  intro machine outcome isOutcome ends
  simp only [Task.run_evaluate] at isOutcome
  rcases andThen_eq isOutcome with
    ⟨reason, machine', isValue, rfl⟩ | ⟨value, machine', isValue, isOutcome⟩
  · exact .ternaryAbort (operands.evaluate condition isValue ends)
  have tested := operands.evaluate condition isValue not_limited_ok
  split at isOutcome
  next isTruthy =>
      exact .ternaryThen tested (Value.isTruthy_iff.mp isTruthy)
        (operands.evaluate thenBranch isOutcome ends)
  next isFalsy =>
      exact .ternaryElse tested (mt Value.isTruthy_iff.mpr isFalsy)
        (operands.evaluate elseBranch isOutcome ends)

theorem sound_call (arguments : SoundWithin setting (depth + 1))
    (bodies : SoundWithin setting depth)
    (callee : Expr) (paren : Option Token) (expressions : List Expr) :
    (Task.evaluate (.call callee paren expressions)).Sound setting (depth + 4) turns := by
  intro machine outcome isOutcome ends
  simp only [Task.run_evaluate] at isOutcome
  rcases andThen_eq isOutcome with
    ⟨reason, machine', isValue, rfl⟩ | ⟨value, machine', isValue, isOutcome⟩
  · exact .callAbortCallee (operands.evaluate callee isValue ends)
  have evaluated := operands.evaluate callee isValue not_limited_ok
  rcases andThen_eq isOutcome with
    ⟨reason, machine'', areValues, rfl⟩ | ⟨values, machine'', areValues, isOutcome⟩
  · exact .callAbortArguments evaluated (arguments.evaluateAll expressions areValues ends)
  have evaluatedAll := arguments.evaluateAll expressions areValues not_limited_ok
  by_cases denotes : ∃ target, machine''.Denotes value target
  · rcases denotes with ⟨target, denotes⟩
    by_cases fits : target.arity = values.length
    · rw [callee_of_fits paren denotes fits, andThen_ok] at isOutcome
      exact .call evaluated evaluatedAll denotes fits (bodies.call target values isOutcome ends)
    · rw [callee_of_misfits paren denotes fits, andThen_error] at isOutcome
      subst isOutcome
      exact .callArity evaluated evaluatedAll denotes fits
  · have denotesNothing := not_exists.mp denotes
    rw [callee_of_denotesNothing paren denotesNothing, andThen_error] at isOutcome
    subst isOutcome
    exact .callNothing evaluated evaluatedAll denotesNothing

theorem sound_evaluate (arguments : SoundWithin setting (depth + 1))
    (bodies : SoundWithin setting depth) (expression : Expr) :
    (Task.evaluate expression).Sound setting (depth + 4) turns := by
  cases expression with
  | literal value =>
      intro machine outcome isOutcome ends
      simp only [Task.run_evaluate] at isOutcome
      subst isOutcome
      exact .literal
  | «variable» name =>
      intro machine outcome isOutcome ends
      simp only [Task.run_evaluate] at isOutcome
      rcases sees_or_lacks machine name with ⟨value, sees⟩ | lacks
      · rw [read_of_sees sees] at isOutcome
        subst isOutcome
        exact .read sees
      · rw [read_of_lacks lacks] at isOutcome
        subst isOutcome
        exact .readUndefined lacks
  | grouping inner =>
      intro machine outcome isOutcome ends
      simp only [Task.run_evaluate] at isOutcome
      exact .grouping (operands.evaluate inner isOutcome ends)
  | assign name value => exact sound_assign operands name value
  | unary operator right => exact sound_unary operands operator right
  | binary left operator right => exact sound_binary operands left operator right
  | logical left operator right => exact sound_logical operands left operator right
  | ternary condition thenBranch elseBranch =>
      exact sound_ternary operands condition thenBranch elseBranch
  | call callee paren expressions =>
      exact sound_call operands arguments bodies callee paren expressions

end Expressions

/-! ## Statements -/

section Statements

variable (parts : SoundWithin setting (depth + 1)) {turns : Nat} {machine : Machine}
  {outcome : Outcome Completion} (running : machine.interrupted = false) (ends : ¬ outcome.Limited)
include parts running ends

theorem runs_of_run_var {name : Token} {initializer : Option Expr}
    (isOutcome : (Task.execute (.var name initializer)).run setting (depth + 3) turns
      machine = outcome) :
    Runs setting.clock (.execute (.var name initializer)) machine outcome := by
  simp only [Task.run_execute _ _ _ running] at isOutcome
  rcases andThen_eq isOutcome with
    ⟨reason, machine', isValue, rfl⟩ | ⟨value, machine', isValue, isOutcome⟩
  · exact .varAbort running (parts.evaluateOption initializer isValue ends)
  have evaluated := parts.evaluateOption initializer isValue not_limited_ok
  by_cases binds : machine'.Binds name
  · rw [define_of_binds binds, andThen_error] at isOutcome
    subst isOutcome
    exact .varTaken running evaluated binds
  · rw [define_of_free binds, andThen_ok] at isOutcome
    subst isOutcome
    exact .var running evaluated binds

theorem runs_of_run_ifElse {condition : Expr} {thenBranch : Stmt} {elseBranch : Option Stmt}
    (isOutcome : (Task.execute (.ifElse condition thenBranch elseBranch)).run setting (depth + 3)
      turns machine = outcome) :
    Runs setting.clock (.execute (.ifElse condition thenBranch elseBranch)) machine outcome := by
  simp only [Task.run_execute _ _ _ running] at isOutcome
  rcases andThen_eq isOutcome with
    ⟨reason, machine', isValue, rfl⟩ | ⟨value, machine', isValue, isOutcome⟩
  · exact .ifAbort running (parts.evaluate condition isValue ends)
  have tested := parts.evaluate condition isValue not_limited_ok
  split at isOutcome
  next isTruthy =>
      have executed := parts.execute thenBranch isOutcome ends
      exact .ifThen running tested (Value.isTruthy_iff.mp isTruthy) executed
  next isFalsy =>
      have falsy := mt Value.isTruthy_iff.mpr isFalsy
      cases elseBranch with
      | some elseBranch =>
          exact .ifElse running tested falsy (parts.execute elseBranch isOutcome ends)
      | none =>
          subst isOutcome
          exact .ifNothing running tested falsy

theorem runs_of_run_returnValue {keyword : Option Token} {value : Option Expr}
    (isOutcome : (Task.execute (.returnValue keyword value)).run setting (depth + 3) turns machine =
      outcome) :
    Runs setting.clock (.execute (.returnValue keyword value)) machine outcome := by
  simp only [Task.run_execute _ _ _ running] at isOutcome
  rcases andThen_eq isOutcome with
    ⟨reason, machine', isValue, rfl⟩ | ⟨result, machine', isValue, rfl⟩
  · exact .returnAbort running (parts.evaluateOption value isValue ends)
  · exact .returnValue running (parts.evaluateOption value isValue not_limited_ok)

omit parts ends in
theorem runs_of_run_function {name : Token} {parameters : List Token} {body : List Stmt}
    (isOutcome : (Task.execute (.function name parameters body)).run setting (depth + 3)
      turns machine = outcome) :
    Runs setting.clock (.execute (.function name parameters body)) machine outcome := by
  simp only [Task.run_execute _ _ _ running] at isOutcome
  rcases kept : machine.keep (.function name parameters body (some Heap.globals)) with
    ⟨value, machine'⟩
  simp only [kept] at isOutcome
  by_cases binds : machine'.Binds name
  · rw [define_of_binds binds, andThen_error] at isOutcome
    subst isOutcome
    exact .declareTaken running kept binds
  · rw [define_of_free binds, andThen_ok] at isOutcome
    subst isOutcome
    exact .declare running kept binds

omit running ends in
theorem sound_execute (lists : SoundWithin setting depth) (statement : Stmt) :
    (Task.execute statement).Sound setting (depth + 3) turns := by
  intro machine outcome isOutcome ends
  cases running : machine.interrupted with
  | true =>
      rw [Task.run_execute_of_interrupted _ _ _ running] at isOutcome
      subst isOutcome
      exact .interrupted running
  | false =>
      cases statement with
      | var name initializer => exact runs_of_run_var parts running ends isOutcome
      | ifElse condition thenBranch elseBranch =>
          exact runs_of_run_ifElse parts running ends isOutcome
      | returnValue keyword value => exact runs_of_run_returnValue parts running ends isOutcome
      | function name parameters body => exact runs_of_run_function running isOutcome
      | hole | breakLoop keyword | continueLoop keyword =>
          simp only [Task.run_execute _ _ _ running] at isOutcome
          subst isOutcome
          constructor
          exact running
      | expression value =>
          simp only [Task.run_execute _ _ _ running] at isOutcome
          rcases andThen_eq isOutcome with
            ⟨reason, machine', isValue, rfl⟩ | ⟨result, machine', isValue, rfl⟩
          · exact .expressionAbort running (parts.evaluate value isValue ends)
          · exact .expression running (parts.evaluate value isValue not_limited_ok)
      | print value =>
          simp only [Task.run_execute _ _ _ running] at isOutcome
          rcases andThen_eq isOutcome with
            ⟨reason, machine', isValue, rfl⟩ | ⟨result, machine', isValue, rfl⟩
          · exact .printAbort running (parts.evaluate value isValue ends)
          · exact .print running (parts.evaluate value isValue not_limited_ok)
      | block statements =>
          simp only [Task.run_execute _ _ _ running] at isOutcome
          subst isOutcome
          exact .block running (lists.executeAll statements rfl (mt limited_after ends))
      | whileLoop condition body increment =>
          simp only [Task.run_execute _ _ _ running] at isOutcome
          exact .whileLoop running (parts.loop condition body increment _ isOutcome ends)
      | forLoop initializer condition increment body =>
          simp only [Task.run_execute _ _ _ running] at isOutcome
          exact .forLoop running (parts.execute _ isOutcome ends)

end Statements

/-! ## Induction on the room on the stack -/

theorem sound_evaluate_of_shallow (shallow : depth < 4) (expression : Expr) {turns : Nat} :
    (Task.evaluate expression).Sound setting depth turns := by
  intro machine outcome isOutcome ends
  have isTooDeep : .error .tooDeep machine = outcome := by
    rw [← isOutcome]
    match depth with
    | 0 | 1 | 2 | 3 => simp only [Task.run, evaluate, throw_apply]
  subst isTooDeep
  exact absurd (.inl rfl) ends

theorem sound_execute_of_shallow (shallow : depth < 3) (statement : Stmt) {turns : Nat} :
    (Task.execute statement).Sound setting depth turns := by
  intro machine outcome isOutcome ends
  have isTooDeep : .error .tooDeep machine = outcome := by
    rw [← isOutcome]
    match depth with
    | 0 | 1 | 2 => simp only [Task.run, execute, throw_apply]
  subst isTooDeep
  exact absurd (.inl rfl) ends

theorem soundWithin (setting : Setting) (depth : Nat) : SoundWithin setting depth := by
  induction depth using Nat.strongRecOn with
  | ind depth ih =>
      constructor
      · intro expression
        by_cases shallow : depth < 4
        · exact sound_evaluate_of_shallow shallow expression
        rcases Nat.exists_eq_add_of_le' (Nat.not_lt.mp shallow) with ⟨depth, rfl⟩
        exact sound_evaluate (ih _ (by omega)) (ih _ (by omega)) (ih _ (by omega)) expression
      · intro statement
        by_cases shallow : depth < 3
        · exact sound_execute_of_shallow shallow statement
        rcases Nat.exists_eq_add_of_le' (Nat.not_lt.mp shallow) with ⟨depth, rfl⟩
        exact sound_execute (ih _ (by omega)) (ih _ (by omega)) statement

/-- Whatever the evaluator does within limits, the rules derive, unless it ends because of
a limit. -/
theorem runs_of_run {α : Type} {task : Task α} {setting : Setting} {depth : Nat} {machine : Machine}
    {outcome : Outcome α} (isOutcome : task.run setting depth setting.turns machine = outcome)
    (ends : ¬ outcome.Limited) : Runs setting.clock task machine outcome := by
  have sound := soundWithin setting depth
  cases task with
  | evaluate expression => exact sound.evaluate expression isOutcome ends
  | evaluateOption expression => exact sound.evaluateOption expression isOutcome ends
  | evaluateAll expressions => exact sound.evaluateAll expressions isOutcome ends
  | execute statement => exact sound.execute statement isOutcome ends
  | executeAll statements => exact sound.executeAll statements isOutcome ends
  | loop condition body increment => exact sound.loop condition body increment _ isOutcome ends
  | call target arguments => exact sound.call target arguments isOutcome ends

end LoxLang

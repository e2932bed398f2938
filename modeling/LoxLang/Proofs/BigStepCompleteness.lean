import LoxLang.Proofs.EvaluatorSteps

/-!
# The evaluator follows the rules

Whatever the rules derive is what the evaluator computes, given enough room on the stack and enough
turns for its loops: there is a bound such that the outcome is the same within all limits beyond it.
-/

namespace LoxLang

open Run

/-- Whether something holds within all limits from some bound on. -/
def Eventually (clock : Nat → Float) (fact : Setting → Nat → Nat → Prop) : Prop :=
  ∃ bound, ∀ (setting : Setting) (depth turns : Nat), setting.clock = clock →
    bound ≤ setting.turns →
    bound ≤ depth → bound ≤ turns → fact setting depth turns

theorem Eventually.and {clock : Nat → Float} {left right : Setting → Nat → Nat → Prop}
    (isLeft : Eventually clock left) (isRight : Eventually clock right) :
    Eventually clock fun setting depth turns => left setting depth turns ∧
      right setting depth turns := by
  rcases isLeft with ⟨leftBound, isLeft⟩
  rcases isRight with ⟨rightBound, isRight⟩
  refine ⟨max leftBound rightBound, fun setting depth turns isClock enough deep long => ⟨?_, ?_⟩⟩
  · exact isLeft setting depth turns isClock (by omega) (by omega) (by omega)
  · exact isRight setting depth turns isClock (by omega) (by omega) (by omega)

/-- `Settles clock task machine outcome` says that the evaluator does something with a given outcome
within all limits from some bound on. -/
def Task.Settles {α : Type} (clock : Nat → Float) (task : Task α) (machine : Machine)
    (outcome : Outcome α) : Prop :=
  Eventually clock fun setting depth turns => task.run setting depth turns machine = outcome

section Settling

variable {clock : Nat → Float} {α : Type} {task : Task α} {machine : Machine} {outcome : Outcome α}

/-- What parts of something do, from some bound on, decides what the whole does: a part has
up to four units of room less, and what is left of a loop after a turn has one turn less. -/
theorem Eventually.settles {premise : Setting → Nat → Nat → Prop}
    (eventually : Eventually clock premise)
    (whole : ∀ (setting : Setting) (depth turns : Nat), setting.clock = clock →
      (∀ deeper ≥ depth, premise setting deeper setting.turns) →
      (∀ deeper ≥ depth, premise setting deeper turns) →
        task.run setting (depth + 4) (turns + 1) machine = outcome) :
    task.Settles clock machine outcome := by
  rcases eventually with ⟨bound, premise⟩
  refine ⟨bound + 4, fun setting depth turns isClock enough deep long => ?_⟩
  rcases Nat.exists_eq_add_of_le' (by omega : 4 ≤ depth) with ⟨depth, rfl⟩
  rcases Nat.exists_eq_add_of_le' (by omega : 1 ≤ turns) with ⟨turns, rfl⟩
  refine whole setting depth turns isClock (fun deeper isDeeper => ?_) (fun deeper isDeeper => ?_)
  · exact premise setting deeper _ isClock (by omega) (by omega) (by omega)
  · exact premise setting deeper _ isClock (by omega) (by omega) (by omega)

theorem Task.settles_of_run
    (whole : ∀ (setting : Setting) (depth turns : Nat), setting.clock = clock →
      task.run setting (depth + 4) (turns + 1) machine = outcome) :
    task.Settles clock machine outcome := by
  have always : Eventually clock fun _ _ _ => True := ⟨0, fun _ _ _ _ _ _ _ => trivial⟩
  exact always.settles fun setting depth turns isClock _ _ => whole setting depth turns isClock

end Settling

namespace Task

theorem isTruthy_eq_of_iff {value : Value} {result : Bool}
    (isResult : result = true ↔ value.Truthy) :
    value.isTruthy = result := by
  rw [Bool.eq_iff_iff, Value.isTruthy_iff, isResult]

theorem not_shortCut_of_needed {operator : Token} {value : Value}
    (needed : operator.kind = .orWord ↔ ¬ value.Truthy) :
    ¬ value.isTruthy = (operator.kind == .orWord) := by
  rw [← Value.isTruthy_iff] at needed
  cases isTruthy : value.isTruthy <;> simp_all

/-- Whatever the rules derive is what the evaluator computes within all limits from some
bound on. -/
theorem settles_of_runs {clock : Nat → Float} {α : Type} {task : Task α} {machine : Machine}
    {outcome : Outcome α} (runs : Runs clock task machine outcome) :
    task.Settles clock machine outcome := by
  induction runs with
  -- Constants and variables
  | literal =>
      refine settles_of_run fun setting depth turns isClock => ?_
      simp only [run_evaluate]
  | read sees =>
      refine settles_of_run fun setting depth turns isClock => ?_
      simp only [run_evaluate, read_of_sees sees]
  | readUndefined lacks =>
      refine settles_of_run fun setting depth turns isClock => ?_
      simp only [run_evaluate, read_of_lacks lacks]
  -- One part, which ends the whole early or is all that there is to it
  | grouping _ ih | assignAbort _ ih | unaryAbort _ ih | binaryAbortLeft _ ih
  | logicalAbortLeft _ ih | ternaryAbort _ ih | callAbortCallee _ ih =>
      refine ih.settles fun setting depth turns isClock part _ => ?_
      simp [run_evaluate, part]
  -- Two parts, of which the second ends the whole early
  | binaryAbortRight _ _ ihLeft ihRight =>
      refine (ihLeft.and ihRight).settles fun setting depth turns isClock part _ => ?_
      simp [run_evaluate, part]
  | callAbortArguments _ _ ihCallee ihArguments =>
      refine (ihCallee.and ihArguments).settles fun setting depth turns isClock part _ => ?_
      simp [run_evaluate, part]
  | assign _ resolves ih =>
      refine ih.settles fun setting depth turns isClock part _ => ?_
      simp [run_evaluate, part, assign_of_resolves resolves]
  | assignUndefined _ lacks ih =>
      refine ih.settles fun setting depth turns isClock part _ => ?_
      simp [run_evaluate, part, assign_of_lacks lacks]
  | unary _ computed ih | unaryFault _ computed ih =>
      refine ih.settles fun setting depth turns isClock part _ => ?_
      simp [run_evaluate, part, settle, make, Operator.unary_iff.mp computed]
  | binary _ _ computed ihLeft ihRight | binaryFault _ _ computed ihLeft ihRight =>
      refine (ihLeft.and ihRight).settles fun setting depth turns isClock part _ => ?_
      simp [run_evaluate, part, settle, make, Operator.binary_iff.mp computed]
  | orTrue isOr _ truthy ih =>
      refine ih.settles fun setting depth turns isClock part _ => ?_
      simp [run_evaluate, part, isOr, Value.isTruthy_iff.mpr truthy]
  | andFalse isAnd _ falsy ih =>
      refine ih.settles fun setting depth turns isClock part _ => ?_
      simp [run_evaluate, part, isAnd, Value.isTruthy_eq_false_iff.mpr falsy]
  | logical _ needed _ isResult ihLeft ihRight =>
      refine (ihLeft.and ihRight).settles fun setting depth turns isClock part _ => ?_
      simp [run_evaluate, part, not_shortCut_of_needed needed, isTruthy_eq_of_iff isResult]
  | logicalAbortRight _ needed _ ihLeft ihRight =>
      refine (ihLeft.and ihRight).settles fun setting depth turns isClock part _ => ?_
      simp [run_evaluate, part, not_shortCut_of_needed needed]
  | ternaryThen _ truthy _ ihCondition ihBranch =>
      refine (ihCondition.and ihBranch).settles fun setting depth turns isClock part _ => ?_
      simp [run_evaluate, part, Value.isTruthy_iff.mpr truthy]
  | ternaryElse _ falsy _ ihCondition ihBranch =>
      refine (ihCondition.and ihBranch).settles fun setting depth turns isClock part _ => ?_
      simp [run_evaluate, part, Value.isTruthy_eq_false_iff.mpr falsy]
  -- Calls
  | call _ _ denotes fits _ ihCallee ihArguments ihCall =>
      refine ((ihCallee.and ihArguments).and ihCall).settles
        fun setting depth turns isClock part _ => ?_
      simp [run_evaluate, part, callee_of_fits _ denotes fits]
  | callNothing _ _ denotesNothing ihCallee ihArguments =>
      refine (ihCallee.and ihArguments).settles fun setting depth turns isClock part _ => ?_
      simp [run_evaluate, part, callee_of_denotesNothing _ denotesNothing]
  | callArity _ _ denotes misfits ihCallee ihArguments =>
      refine (ihCallee.and ihArguments).settles fun setting depth turns isClock part _ => ?_
      simp [run_evaluate, part, callee_of_misfits _ denotes misfits]
  | native =>
      refine settles_of_run fun setting depth turns isClock => ?_
      rw [run_native, isClock]
  | function declares _ gives ih =>
      refine ih.settles fun setting depth turns isClock part _ => ?_
      simp [run_function, declares_iff.mp declares, part, callResult_of_gives gives]
  | functionStray declares _ gives ih =>
      refine ih.settles fun setting depth turns isClock part _ => ?_
      simp [run_function, declares_iff.mp declares, part, callResult_of_gives gives]
  | functionAbort declares _ ih =>
      refine ih.settles fun setting depth turns isClock part _ => ?_
      simp [run_function, declares_iff.mp declares, part]
  | functionTaken declares =>
      refine settles_of_run fun setting depth turns isClock => ?_
      simp [run_function, declares_iff.mp declares]
  -- Expressions that may be absent, and lists of expressions
  | absent | noExpression =>
      refine settles_of_run fun setting depth turns isClock => ?_
      simp only [run_evaluateOption_none, run_evaluateAll_nil]
  | present _ ih | expressionsAbort _ ih =>
      refine ih.settles fun setting depth turns isClock part _ => ?_
      simp [run_evaluateOption_some, run_evaluateAll_cons, part]
  | nextExpression _ _ ih ihRest | expressionsAbortLater _ _ ih ihRest =>
      refine (ih.and ihRest).settles fun setting depth turns isClock part _ => ?_
      simp [run_evaluateAll_cons, part]
  -- Statements
  | interrupted pending =>
      refine settles_of_run fun setting depth turns isClock => ?_
      exact run_execute_of_interrupted _ _ _ pending _
  | hole running | breakLoop running | continueLoop running =>
      refine settles_of_run fun setting depth turns isClock => ?_
      simp only [run_execute _ _ _ running]
  | expression running _ ih | expressionAbort running _ ih | print running _ ih
  | printAbort running _ ih | ifAbort running _ ih | forLoop running _ ih =>
      refine ih.settles fun setting depth turns isClock part _ => ?_
      simp (disch := omega) [run_execute _ _ _ running, part]
  | varAbort running _ ih | returnValue running _ ih | returnAbort running _ ih
  | whileLoop running _ ih =>
      refine ih.settles fun setting depth turns isClock part _ => ?_
      simp (disch := omega) [run_execute _ _ _ running, part]
  | var running _ free ih =>
      refine ih.settles fun setting depth turns isClock part _ => ?_
      simp (disch := omega) [run_execute _ _ _ running, part, define_of_free free]
  | varTaken running _ binds ih =>
      refine ih.settles fun setting depth turns isClock part _ => ?_
      simp (disch := omega) [run_execute _ _ _ running, part, define_of_binds binds]
  | block running _ ih =>
      refine ih.settles fun setting depth turns isClock part _ => ?_
      simp (disch := omega) [run_execute _ _ _ running, part]
  | ifThen running _ truthy _ ihCondition ihBranch =>
      refine (ihCondition.and ihBranch).settles fun setting depth turns isClock part _ => ?_
      simp (disch := omega) [run_execute _ _ _ running, part, Value.isTruthy_iff.mpr truthy]
  | ifElse running _ falsy _ ihCondition ihBranch =>
      refine (ihCondition.and ihBranch).settles fun setting depth turns isClock part _ => ?_
      simp (disch := omega) [run_execute _ _ _ running, part, Value.isTruthy_eq_false_iff.mpr falsy]
  | ifNothing running _ falsy ih =>
      refine ih.settles fun setting depth turns isClock part _ => ?_
      simp (disch := omega) [run_execute _ _ _ running, part, Value.isTruthy_eq_false_iff.mpr falsy]
  | declare running kept free =>
      refine settles_of_run fun setting depth turns isClock => ?_
      simp [run_execute _ _ _ running, kept, define_of_free free]
  | declareTaken running kept binds =>
      refine settles_of_run fun setting depth turns isClock => ?_
      simp [run_execute _ _ _ running, kept, define_of_binds binds]
  -- Statements in order
  | noStatement =>
      refine settles_of_run fun setting depth turns isClock => ?_
      exact run_executeAll_nil _ _ _ _
  | nextStatement _ _ ih ihRest =>
      refine (ih.and ihRest).settles fun setting depth turns isClock part _ => ?_
      simp [run_executeAll_cons, part]
  | lastStatement _ stops ih =>
      refine ih.settles fun setting depth turns isClock part _ => ?_
      simp [run_executeAll_cons, part]
  | statementsAbort _ ih =>
      refine ih.settles fun setting depth turns isClock part _ => ?_
      simp [run_executeAll_cons, part]
  -- Loops
  | loopEnd _ falsy ih =>
      refine ih.settles fun setting depth turns isClock part _ => ?_
      simp [run_loop, part, Value.isTruthy_eq_false_iff.mpr falsy]
  | loopAbort _ ih =>
      refine ih.settles fun setting depth turns isClock part _ => ?_
      simp [run_loop, part]
  | loopBreak _ truthy _ ihCondition ihBody | loopReturn _ truthy _ ihCondition ihBody
  | loopAbortBody _ truthy _ ihCondition ihBody =>
      refine (ihCondition.and ihBody).settles fun setting depth turns isClock part _ => ?_
      simp [run_loop, part, Value.isTruthy_iff.mpr truthy]
  | loopAgain _ truthy _ goesOn _ _ ihCondition ihBody ihStep ihRest =>
      refine (((ihCondition.and ihBody).and ihStep).and
        ihRest).settles fun setting depth turns isClock part rest => ?_
      cases goesOn <;> simp [run_loop, part, Value.isTruthy_iff.mpr truthy, rest]
  | loopAbortStep _ truthy _ goesOn _ ihCondition ihBody ihStep =>
      refine ((ihCondition.and ihBody).and ihStep).settles fun setting depth turns isClock
        part _ => ?_
      cases goesOn <;> simp [run_loop, part, Value.isTruthy_iff.mpr truthy]

end Task

end LoxLang

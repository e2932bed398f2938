import LoxLang.Proofs.EvaluatorSteps
import LoxLang.Proofs.Shortening

/-!
# Room on the stack

The room on the stack decides whether a run overflows and nothing else: a run that does not overflow
has the same outcome with more room.
-/

namespace LoxLang

open Run Outcome

namespace Outcome

/-- `Cramped outcome roomy` says that an outcome is the one with more room, unless it is a stack
overflow. -/
inductive Cramped {α : Type} : Outcome α → Outcome α → Prop
  | same {outcome : Outcome α} : Cramped outcome outcome
  | overflow {machine : Machine} {roomy : Outcome α} : Cramped (.error .tooDeep machine) roomy

namespace Cramped

variable {α β : Type} {outcome roomy : Outcome α}

/-- A run that is cut short by a stack overflow only. -/
theorem of_shortened {start : Machine}
    (shortened : Shortened (· = .tooDeep) start outcome roomy) : Cramped outcome roomy := by
  cases shortened with
  | same => exact .same
  | cut isLimit =>
      cases isLimit
      exact .overflow

theorem andThen_of {next next' : α → Machine → Outcome β} (cramped : Cramped outcome roomy)
    (crampedNext : ∀ result machine, outcome = .ok result machine →
      Cramped (next result machine) (next' result machine)) :
    Cramped (outcome.andThen next) (roomy.andThen next') := by
  cases cramped with
  | overflow => exact .overflow
  | same =>
      cases outcome with
      | ok result machine => exact crampedNext result machine rfl
      | error reason machine => exact .same

theorem andThen {next next' : α → Machine → Outcome β} (cramped : Cramped outcome roomy)
    (crampedNext : ∀ result machine, Cramped (next result machine) (next' result machine)) :
    Cramped (outcome.andThen next) (roomy.andThen next') :=
  cramped.andThen_of fun result machine _ => crampedNext result machine

theorem after (change : Machine → Machine) (cramped : Cramped outcome roomy) :
    Cramped (outcome.after change) (roomy.after change) := by
  cases cramped with
  | overflow => exact .overflow
  | same => exact .same

theorem trans {roomier : Outcome α} (cramped : Cramped outcome roomy)
    (further : Cramped roomy roomier) : Cramped outcome roomier := by
  cases cramped with
  | overflow => exact .overflow
  | same => exact further

/-- A loop with more room for each of its parts. -/
theorem takeTurns {condition condition' : Run Value} {body body' : Run Completion}
    {step step' : Run Unit}
    (conditions : ∀ machine, Cramped (condition machine) (condition' machine))
    (bodies : ∀ machine, Cramped (body machine) (body' machine))
    (steps : ∀ machine, Cramped (step machine) (step' machine)) (turns : Nat) (machine : Machine) :
    Cramped (takeTurns (loopTurn condition body step) turns machine)
      (takeTurns (loopTurn condition' body' step') turns machine) := by
  induction turns generalizing machine with
  | zero => exact .same
  | succ turns ih =>
      rw [takeTurns_loopTurn, takeTurns_loopTurn]
      refine (conditions machine).andThen fun value machine => ?_
      split
      · refine (bodies machine).andThen fun completion machine => ?_
        cases completion with
        | breakLoop | returned => exact .same
        | normal | continueLoop =>
            exact (steps machine).andThen fun _ machine => ih machine
      · exact .same

end Cramped

end Outcome

/-- Whether expressions and statements do the same with two rooms on the stack, as long as the first
one is enough. -/
structure CrampedWithin (setting : Setting) (depth depth' : Nat) : Prop where
  evaluate (expression : Expr) (machine : Machine) :
    Cramped ((Task.evaluate expression).run setting depth setting.turns machine)
      ((Task.evaluate expression).run setting depth' setting.turns machine)
  execute (statement : Stmt) (machine : Machine) :
    Cramped ((Task.execute statement).run setting depth setting.turns machine)
      ((Task.execute statement).run setting depth' setting.turns machine)

variable {setting : Setting} {depth depth' : Nat}

theorem CrampedWithin.evaluateOption (cramped : CrampedWithin setting depth depth')
    (expression : Option Expr) (machine : Machine) :
    Cramped ((Task.evaluateOption expression).run setting depth setting.turns machine)
      ((Task.evaluateOption expression).run setting depth' setting.turns machine) := by
  cases expression with
  | none => exact .same
  | some expression => exact cramped.evaluate expression machine

/-- Executions are compared where both statements start. -/
theorem cramped_of_started {statement statement' : Stmt} {machine : Machine} {turns turns' : Nat}
    (less : depth ≤ depth')
    (started : ∀ left right, depth = left + 3 → depth' = right + 3 → machine.interrupted = false →
      Cramped ((Task.execute statement).run setting (left + 3) turns machine)
        ((Task.execute statement').run setting (right + 3) turns' machine)) :
    Cramped ((Task.execute statement).run setting depth turns machine)
      ((Task.execute statement').run setting depth' turns' machine) := by
  by_cases shallow : depth < 3
  · rw [Task.run_execute_of_shallow _ _ _ _ shallow]
    exact .overflow
  rcases Nat.exists_eq_add_of_le' (Nat.not_lt.mp shallow) with ⟨left, rfl⟩
  rcases Nat.exists_eq_add_of_le' (Nat.le_trans (Nat.le_add_left 3 left) less) with ⟨right, rfl⟩
  cases running : machine.interrupted with
  | true =>
      rw [Task.run_execute_of_interrupted _ _ _ running,
        Task.run_execute_of_interrupted _ _ _ running]
      exact .same
  | false => exact started left right rfl rfl running

/-- More room is a wider limit, and only a stack overflow cuts a run short. -/
theorem crampedWithin (setting : Setting) {depth depth' : Nat} (less : depth ≤ depth') :
    CrampedWithin setting depth depth' := by
  have lengthens : Setting.Lengthens (· = .tooDeep) setting setting :=
    ⟨rfl, Nat.le_refl _, fun more => absurd more (Nat.lt_irrefl _)⟩
  have shortened := shortenedWithin lengthens less fun _ => rfl
  constructor
  · exact fun expression machine => .of_shortened (shortened.evaluate expression machine)
  · exact fun statement machine => .of_shortened (shortened.execute statement machine)

end LoxLang

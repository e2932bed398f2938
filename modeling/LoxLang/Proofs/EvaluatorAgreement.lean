import LoxLang.Proofs.BigStepCompleteness
import LoxLang.Proofs.BigStepSoundness

/-!
# The evaluator and the rules agree

Within limits that a run does not reach, the evaluator computes exactly what the rules derive, and
whatever the rules derive is computed within all large enough limits.
-/

namespace LoxLang

open Outcome

/-- `Agrees clock computed derived` says that what is computed within limits is what is derived: as
long as no limit is reached, and, for all that is derived, within all limits from some bound on. -/
structure Agrees {α : Type} (clock : Nat → Float) (computed : Setting → Nat → Outcome α)
    (derived : Outcome α → Prop) : Prop where
  within {setting : Setting} {depth : Nat} (isClock : setting.clock = clock)
    (unlimited : ¬ Limited (computed setting depth)) (outcome : Outcome α) :
    computed setting depth = outcome ↔ derived outcome
  reached {outcome : Outcome α} (isDerived : derived outcome) :
    ∃ bound, ∀ (setting : Setting) (depth : Nat), setting.clock = clock → bound ≤ setting.turns →
      bound ≤ depth → computed setting depth = outcome

variable {clock : Nat → Float} {α : Type} {task : Task α} {machine : Machine}

/-- The rules derive at most one outcome. -/
theorem Runs.unique {first second : Outcome α} (isFirst : Runs clock task machine first)
    (isSecond : Runs clock task machine second) : first = second := by
  rcases (Task.settles_of_runs isFirst).and (Task.settles_of_runs isSecond) with ⟨bound, settles⟩
  rcases settles ⟨bound, bound, clock⟩ bound bound rfl (Nat.le_refl _) (Nat.le_refl _)
    (Nat.le_refl _)
    with ⟨computedFirst, computedSecond⟩
  rw [← computedFirst, computedSecond]

theorem Task.agrees (task : Task α) (machine : Machine) :
    Agrees clock (fun setting depth => task.run setting depth setting.turns machine)
      (Runs clock task machine) := by
  constructor
  · rintro setting depth rfl unlimited outcome
    have derived := runs_of_run rfl unlimited
    constructor
    · rintro rfl
      exact derived
    · intro runs
      exact derived.unique runs
  · intro outcome runs
    rcases Task.settles_of_runs runs with ⟨bound, settles⟩
    refine ⟨bound, fun setting depth isClock enough deep => ?_⟩
    exact settles setting depth setting.turns isClock enough deep enough

/-- The evaluator computes what the rules derive, for every expression and for every statement, on
every machine. -/
theorem evaluator_agrees (clock : Nat → Float) (machine : Machine) :
    (∀ expression, Agrees clock (fun setting depth => evaluate setting depth expression machine)
      (Runs clock (.evaluate expression) machine)) ∧
    (∀ statement, Agrees clock (fun setting depth => execute setting depth statement machine)
      (Runs clock (.execute statement) machine)) := by
  constructor
  · intro expression
    exact (Task.evaluate expression).agrees machine
  · intro statement
    exact (Task.execute statement).agrees machine

/-- What has been printed when a run has ended normally. -/
def Outcome.printed : Outcome Completion → Option (Array String)
  | .ok .normal machine => some machine.output
  | _ => none

/-- A block that binds a name, calls a function with it that prints it, and leaves out what comes
after the return. -/
def echoingBlock : Stmt :=
  let word (lexeme : String) : Token := { kind := .identifier, lexeme }
  .block [
    .function (word "echo") [word "line"] [
      .print (.variable (word "line")),
      .returnValue none none,
      .print (.literal (.string "never"))],
    .var (word "first") (some (.literal (.string "once"))),
    .expression (.call (.variable (word "echo")) none [.variable (word "first")])]

theorem evaluator_agrees_echoingBlock :
    ∃ machine, Runs (fun _ => 0) (.execute echoingBlock) Machine.initial (.ok .normal machine) ∧
      machine.output = #["once"] := by
  have agrees := (evaluator_agrees (fun _ => 0) Machine.initial).2 echoingBlock
  have computed : printed (execute ⟨20, 5, fun _ => 0⟩ 20 echoingBlock Machine.initial) =
      some #["once"] := by
    decide +kernel
  cases isOutcome : execute ⟨20, 5, fun _ => 0⟩ 20 echoingBlock Machine.initial with
  | error reason machine => rw [isOutcome] at computed; cases computed
  | ok completion machine =>
      rw [isOutcome] at computed
      cases completion with
      | normal =>
          refine ⟨machine, (agrees.within rfl ?_ _).mp isOutcome, Option.some.inj computed⟩
          rw [isOutcome]
          exact not_limited_ok
      | breakLoop | continueLoop | returned => cases computed

end LoxLang

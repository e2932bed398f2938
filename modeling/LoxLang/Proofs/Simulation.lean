import LoxLang.Interpret
import LoxLang.Proofs.Correspondence

/-!
# Corresponding programs run alike

Started on corresponding machines and within the same limits, corresponding programs have
corresponding outcomes. The proof is by induction on the room that is left on the stack, as the
evaluator is defined, and on the turns that are left where it takes those of a loop.
-/

namespace LoxLang

open Run Outcome

namespace Correspondence

/-- Corresponding settings have the same limits, and the clocks that the correspondence is about. -/
structure Settings (between : Correspondence) (setting setting' : Setting) : Prop where
  turns : setting.turns = setting'.turns
  clock : setting.clock = between.clock
  clock' : setting'.clock = between.clock'

/-- Whether the evaluator has corresponding outcomes with all corresponding expressions and
statements when a given room is left on the stack. -/
structure SimulatedWithin (between : Correspondence) (setting setting' : Setting) (depth : Nat) :
    Prop where
  evaluate {origin : between.Origin} {expression expression' : Expr}
    (expressions : between.Exprs origin expression expression') {machine machine' : Machine}
    (machines : between.Machines machine machine') :
    between.Outcomes between.Values
      ((Task.evaluate expression).run setting depth setting.turns machine)
      ((Task.evaluate expression').run setting' depth setting'.turns machine')
  execute {origin : between.Origin} {statement statement' : Stmt}
    (statements : between.Stmts origin statement statement') {machine machine' : Machine}
    (machines : between.Machines machine machine') :
    between.Outcomes (between.Completions origin)
      ((Task.execute statement).run setting depth setting.turns machine)
      ((Task.execute statement').run setting' depth setting'.turns machine')

variable {between : Correspondence} {origin : between.Origin} {setting setting' : Setting}
  {depth : Nat} {machine machine' : Machine}

/-! ## Lists, loops and calls -/

namespace SimulatedWithin

variable (simulated : between.SimulatedWithin setting setting' depth)
include simulated

theorem evaluateOption {expression expression' : Option Expr}
    (expressions : Option.Rel (between.Exprs origin) expression expression')
    (machines : between.Machines machine machine') :
    between.Outcomes between.Values
      ((Task.evaluateOption expression).run setting depth setting.turns machine)
      ((Task.evaluateOption expression').run setting' depth setting'.turns machine') := by
  cases expressions with
  | none => exact .ok .nil machines
  | some expressions => exact simulated.evaluate expressions machines

theorem evaluateAll {expressions expressions' : List Expr}
    (all : List.Forall₂ (between.Exprs origin) expressions expressions')
    (machines : between.Machines machine machine') :
    between.Outcomes (List.Forall₂ between.Values)
      ((Task.evaluateAll expressions).run setting depth setting.turns machine)
      ((Task.evaluateAll expressions').run setting' depth setting'.turns machine') := by
  induction all generalizing machine machine' with
  | nil =>
      rw [Task.run_evaluateAll_nil, Task.run_evaluateAll_nil]
      exact .ok .nil machines
  | cons expressions _ ih =>
      rw [Task.run_evaluateAll_cons, Task.run_evaluateAll_cons]
      refine (simulated.evaluate expressions machines).andThen fun values machines => ?_
      refine (ih machines).andThen fun allValues machines => ?_
      exact .ok (.cons values allValues) machines

theorem executeAll {statements statements' : List Stmt}
    (all : List.Forall₂ (between.Stmts origin) statements statements')
    (machines : between.Machines machine machine') :
    between.Outcomes (between.Completions origin)
      ((Task.executeAll statements).run setting depth setting.turns machine)
      ((Task.executeAll statements').run setting' depth setting'.turns machine') := by
  induction all generalizing machine machine' with
  | nil =>
      rw [Task.run_executeAll_nil, Task.run_executeAll_nil]
      exact .ok .normal machines
  | cons statements _ ih =>
      rw [Task.run_executeAll_cons, Task.run_executeAll_cons]
      refine (simulated.execute statements machines).andThen fun completions machines => ?_
      cases completions with
      | normal => exact ih machines
      | breakLoop keywords => exact .ok (.breakLoop keywords) machines
      | continueLoop keywords => exact .ok (.continueLoop keywords) machines
      | returned keywords values => exact .ok (.returned keywords values) machines

theorem loop {condition condition' : Expr} {body body' : Stmt} {increment increment' : Option Expr}
    (conditions : between.Exprs origin condition condition')
    (bodies : between.Stmts origin body body')
    (increments : Option.Rel (between.Exprs origin) increment increment') (turns : Nat)
    (machines : between.Machines machine machine') :
    between.Outcomes (between.Completions origin)
      ((Task.loop condition body increment).run setting depth turns machine)
      ((Task.loop condition' body' increment').run setting' depth turns machine') := by
  induction turns generalizing machine machine' with
  | zero =>
      rw [Task.run_loop_zero, Task.run_loop_zero]
      exact .error .exhausted machines
  | succ turns ih =>
      rw [Task.run_loop, Task.run_loop]
      refine (simulated.evaluate conditions machines).andThen fun values machines => ?_
      rw [values.isTruthy_eq]
      split
      · refine (simulated.execute bodies machines).andThen fun completions machines => ?_
        cases completions with
        | breakLoop => exact .ok .normal machines
        | returned keywords values => exact .ok (.returned keywords values) machines
        | normal | continueLoop =>
            refine (simulated.evaluateOption increments machines).andThen fun _ machines => ?_
            exact ih machines
      · exact .ok .normal machines

theorem call (settings : between.Settings setting setting') {target target' : Callable}
    (targets : between.Callables target target') {arguments arguments' : List Value}
    (allArguments : List.Forall₂ between.Values arguments arguments')
    (machines : between.Machines machine machine') :
    between.Outcomes between.Values
      ((Task.call target arguments).run setting depth setting.turns machine)
      ((Task.call target' arguments').run setting' depth setting'.turns machine') := by
  cases targets with
  | native name arity actions =>
      rw [Task.run_native, Task.run_native, settings.clock, settings.clock']
      exact machines.act allArguments actions
  | function origin names allParameters bodies closures =>
      rw [Task.run_function, Task.run_function]
      have entered := machines.enter closures
      have executed := (entered.defineAll allParameters allArguments).andThen
        fun _ machines => simulated.executeAll bodies machines
      exact (machines.after executed).andThen fun completions machines =>
        machines.callResult completions

end SimulatedWithin

/-! ## Expressions and statements -/

theorem simulated_evaluate (settings : between.Settings setting setting')
    (operands : between.SimulatedWithin setting setting' (depth + 2))
    (arguments : between.SimulatedWithin setting setting' (depth + 1))
    (bodies : between.SimulatedWithin setting setting' depth) {expression expression' : Expr}
    (expressions : between.Exprs origin expression expression')
    (machines : between.Machines machine machine') {turns turns' : Nat} :
    between.Outcomes between.Values
      ((Task.evaluate expression).run setting (depth + 4) turns machine)
      ((Task.evaluate expression').run setting' (depth + 4) turns' machine') := by
  rw [Task.run_evaluate, Task.run_evaluate]
  cases expressions with
  | literal values => exact .ok values machines
  | «variable» names => exact machines.read names
  | grouping inners => exact operands.evaluate inners machines
  | assign names values =>
      refine (operands.evaluate values machines).andThen fun values machines => ?_
      exact (machines.assign names values).andThen fun _ machines => .ok values machines
  | unary operators rights =>
      refine (operands.evaluate rights machines).andThen fun values machines => ?_
      exact machines.settle (results_unary operators values)
  | binary lefts operators rights =>
      refine (operands.evaluate lefts machines).andThen fun firsts machines => ?_
      refine (operands.evaluate rights machines).andThen fun seconds machines => ?_
      exact machines.settle (results_binary operators firsts seconds)
  | logical lefts operators rights =>
      refine (operands.evaluate lefts machines).andThen fun firsts machines => ?_
      rw [firsts.isTruthy_eq, (between.symbol origin operators).1]
      split
      · exact .ok (.boolean _) machines
      · refine (operands.evaluate rights machines).andThen fun seconds machines => ?_
        rw [seconds.isTruthy_eq]
        exact .ok (.boolean _) machines
  | ternary conditions thenBranches elseBranches =>
      refine (operands.evaluate conditions machines).andThen fun values machines => ?_
      rw [values.isTruthy_eq]
      split
      · exact operands.evaluate thenBranches machines
      · exact operands.evaluate elseBranches machines
  | call callees parens allArguments =>
      refine (operands.evaluate callees machines).andThen fun values machines => ?_
      refine (arguments.evaluateAll allArguments machines).andThen fun allValues machines => ?_
      rw [allValues.length_eq]
      refine (machines.callee parens values _).andThen fun targets machines => ?_
      exact bodies.call settings targets allValues machines

/-- Spelling out corresponding `for` loops. -/
theorem Stmts.desugarFor {initializer initializer' : Option Stmt}
    {condition condition' increment increment' : Option Expr} {body body' : Stmt}
    (initializers : Option.Rel (between.Stmts origin) initializer initializer')
    (conditions : Option.Rel (between.Exprs origin) condition condition')
    (increments : Option.Rel (between.Exprs origin) increment increment')
    (bodies : between.Stmts origin body body') :
    between.Stmts origin (Stmt.desugarFor initializer condition increment body)
      (Stmt.desugarFor initializer' condition' increment' body') := by
  have first : between.Stmts origin (initializer.getD .hole) (initializer'.getD .hole) := by
    cases initializers with
    | none => exact .hole
    | some initializers => exact initializers
  have tested : between.Exprs origin (condition.getD (.literal (.boolean true)))
      (condition'.getD (.literal (.boolean true))) := by
    cases conditions with
    | none => exact .literal (.boolean true)
    | some conditions => exact conditions
  exact .block (.cons first (.cons (.whileLoop tested bodies increments) .nil))

theorem simulated_execute (settings : between.Settings setting setting')
    (parts : between.SimulatedWithin setting setting' (depth + 1))
    (lists : between.SimulatedWithin setting setting' depth) {statement statement' : Stmt}
    (statements : between.Stmts origin statement statement')
    (machines : between.Machines machine machine') {turns turns' : Nat} :
    between.Outcomes (between.Completions origin)
      ((Task.execute statement).run setting (depth + 3) turns machine)
      ((Task.execute statement').run setting' (depth + 3) turns' machine') := by
  cases running : machine.interrupted with
  | true =>
      have running' := machines.interrupted.symm.trans running
      rw [Task.run_execute_of_interrupted _ _ _ running,
        Task.run_execute_of_interrupted _ _ _ running']
      exact .error .interrupt machines
  | false =>
      have running' := machines.interrupted.symm.trans running
      rw [Task.run_execute _ _ _ running, Task.run_execute _ _ _ running']
      cases statements with
      | hole => exact .ok .normal machines
      | breakLoop keywords => exact .ok (.breakLoop keywords) machines
      | continueLoop keywords => exact .ok (.continueLoop keywords) machines
      | expression values =>
          exact (parts.evaluate values machines).andThen fun _ machines => .ok .normal machines
      | print values =>
          refine (parts.evaluate values machines).andThen fun values machines => ?_
          rw [values.display_eq]
          exact .ok .normal (machines.print _)
      | var names initializers =>
          refine (parts.evaluateOption initializers machines).andThen fun values machines => ?_
          exact (machines.define names values).andThen fun _ machines => .ok .normal machines
      | block all =>
          have entered := machines.enter (.some machines.current)
          exact machines.after (lists.executeAll all entered)
      | ifElse conditions thenBranches elseBranches =>
          refine (parts.evaluate conditions machines).andThen fun values machines => ?_
          rw [values.isTruthy_eq]
          split
          · exact parts.execute thenBranches machines
          · cases elseBranches with
            | none => exact .ok .normal machines
            | some elseBranches => exact parts.execute elseBranches machines
      | whileLoop conditions bodies increments =>
          dsimp only
          rw [settings.turns]
          exact parts.loop conditions bodies increments _ machines
      | forLoop initializers conditions increments bodies =>
          exact parts.execute (.desugarFor initializers conditions increments bodies) machines
      | function names allParameters bodies =>
          have kept := machines.keep
            (.function origin names allParameters bodies (.some between.globals))
          exact (kept.2.define names kept.1).andThen fun _ machines => .ok .normal machines
      | returnValue keywords values =>
          refine (parts.evaluateOption values machines).andThen fun values machines => ?_
          exact .ok (.returned keywords values) machines

/-- Corresponding programs have corresponding outcomes, whatever room is left on the stack. -/
theorem simulatedWithin (settings : between.Settings setting setting') (depth : Nat) :
    between.SimulatedWithin setting setting' depth := by
  induction depth using Nat.strongRecOn with
  | ind depth ih =>
      constructor
      · intro origin expression expression' expressions machine machine' machines
        by_cases shallow : depth < 4
        · rw [Task.run_evaluate_of_shallow _ _ _ expression shallow,
            Task.run_evaluate_of_shallow _ _ _ expression' shallow]
          exact .error .tooDeep machines
        · rcases Nat.exists_eq_add_of_le' (Nat.not_lt.mp shallow) with ⟨depth, rfl⟩
          exact simulated_evaluate settings (ih _ (by omega)) (ih _ (by omega)) (ih _ (by omega))
            expressions machines
      · intro origin statement statement' statements machine machine' machines
        by_cases shallow : depth < 3
        · rw [Task.run_execute_of_shallow _ _ _ statement shallow,
            Task.run_execute_of_shallow _ _ _ statement' shallow]
          exact .error .tooDeep machines
        · rcases Nat.exists_eq_add_of_le' (Nat.not_lt.mp shallow) with ⟨depth, rfl⟩
          exact simulated_execute settings (ih _ (by omega)) (ih _ (by omega)) statements machines

/-! ## Programs -/

variable (between) in
/-- Corresponding faults: they have the same cause. -/
inductive Faults : Fault → Fault → Prop
  | intro (origin : between.Origin) {token token' : Option Token} (cause : Cause)
      (tokens : Option.Rel (between.token origin) token token') :
      Faults ⟨token, cause⟩ ⟨token', cause⟩

variable (between) in
/-- Corresponding verdicts: they are the same but for the token of a fault. -/
inductive Verdicts : Verdict → Verdict → Prop
  | finished : Verdicts .finished .finished
  | faulted {fault fault' : Fault} (faults : between.Faults fault fault') :
      Verdicts (.faulted fault) (.faulted fault')
  | escaped (reason : Abort) : Verdicts (.escaped reason) (.escaped reason)

theorem Completions.verdicts {completion completion' : Completion}
    (completions : between.Completions origin completion completion') :
    between.Verdicts (.ofCompletion completion) (.ofCompletion completion') := by
  cases completions with
  | normal => exact .finished
  | breakLoop keywords => exact .faulted ⟨origin, _, keywords⟩
  | continueLoop keywords => exact .faulted ⟨origin, _, keywords⟩
  | returned keywords => exact .faulted ⟨origin, _, keywords⟩

theorem Aborts.verdicts (origin : between.Origin) {reason reason' : Abort}
    (reasons : between.Aborts reason reason') :
    between.Verdicts (.ofAbort reason) (.ofAbort reason') := by
  cases reasons with
  | fault origin cause tokens => exact .faulted ⟨origin, cause, tokens⟩
  | overflow | tooDeep => exact .faulted ⟨origin, _, .none⟩
  | interrupt | quit | host | exhausted => exact .escaped _

/-- Corresponding programs have corresponding verdicts. -/
theorem interpreted (settings : between.Settings setting setting')
    (sameDepth : setting.depth = setting'.depth) {program program' : List Stmt}
    (programs : List.Forall₂ (between.Stmts origin) program program')
    (machines : between.Machines machine machine') :
    between.Verdicts (interpret setting program machine).1
        (interpret setting' program' machine').1 ∧
      between.Machines (interpret setting program machine).2
        (interpret setting' program' machine').2 := by
  have executed := (simulatedWithin settings setting.depth).executeAll programs machines
  simp only [Task.run] at executed
  unfold interpret
  rw [← sameDepth]
  generalize Run.executeAll (execute setting setting.depth) program machine = outcome at executed
  generalize Run.executeAll (execute setting' setting.depth) program' machine' = outcome'
    at executed
  cases executed with
  | ok completions machines => exact ⟨completions.verdicts, { machines with interrupted := rfl }⟩
  | error reasons machines => exact ⟨reasons.verdicts origin, { machines with interrupted := rfl }⟩

end Correspondence

end LoxLang

import LoxLang.Proofs.BigStep

/-!
# Steps of the evaluator

What the evaluator does with each form of an expression and of a statement, as an equation between
outcomes, and the same for the lists and loops that it goes through. All that is proved about the
evaluator rests on these equations.
-/

namespace LoxLang

namespace Outcome

variable {α β : Type}

/-- What comes after a result; nothing comes after an early end. -/
def andThen (first : Outcome α) (next : α → Machine → Outcome β) : Outcome β :=
  match first with
  | .ok result machine => next result machine
  | .error reason machine => .error reason machine

@[simp]
theorem andThen_ok (result : α) (machine : Machine) (next : α → Machine → Outcome β) :
    andThen (.ok result machine) next = next result machine := rfl

@[simp]
theorem andThen_error (reason : Abort) (machine : Machine) (next : α → Machine → Outcome β) :
    andThen (.error reason machine) next = .error reason machine := rfl

theorem andThen_andThen {γ : Type} (first : Outcome α) (next : α → Machine → Outcome β)
    (last : β → Machine → Outcome γ) :
    andThen (andThen first next) last =
      andThen first fun result machine => andThen (next result machine) last := by
  cases first <;> rfl

@[simp]
theorem after_ok (change : Machine → Machine) (result : α) (machine : Machine) :
    after change (.ok result machine) = .ok result (change machine) := rfl

@[simp]
theorem after_error (change : Machine → Machine) (reason : Abort) (machine : Machine) :
    after change (.error reason machine : Outcome α) = .error reason (change machine) := rfl

end Outcome

namespace Run

variable {α β : Type}

theorem pure_apply (result : α) (machine : Machine) :
    (pure result : Run α) machine = .ok result machine := rfl

theorem throw_apply (reason : Abort) (machine : Machine) :
    (throw reason : Run α) machine = .error reason machine := rfl

theorem get_apply (machine : Machine) : (get : Run Machine) machine = .ok machine machine := rfl

theorem bind_apply (first : Run α) (next : α → Run β) (machine : Machine) :
    (first >>= next) machine =
      Outcome.andThen (first machine) fun result machine => next result machine := by
  change EStateM.bind first next machine = _
  unfold EStateM.bind
  cases first machine <;> rfl

theorem branch_apply (condition : Prop) [Decidable condition] (yes no : Run α) (machine : Machine) :
    (if condition then yes else no) machine = if condition then yes machine else no machine := by
  split <;> rfl

theorem discard_apply (first : Run α) (machine : Machine) :
    (discard first : Run Unit) machine =
      Outcome.andThen (first machine) fun _ machine => .ok () machine := by
  change EStateM.map _ first machine = _
  unfold EStateM.map
  cases first machine <;> rfl

theorem inFrame_apply (enclosing : Option FrameId) (body : Run α) (machine : Machine) :
    inFrame enclosing body machine =
      Outcome.after (·.leave machine.current machine.heap.size)
        (body (machine.enter enclosing)) := by
  unfold inFrame
  cases body (machine.enter enclosing) <;> rfl

/-! ## Lists and loops -/

theorem defineAll_cons (name : Token) (names : List Token) (value : Value) (values : List Value)
    (machine : Machine) :
    defineAll (name :: names) (value :: values) machine =
      Outcome.andThen (define name value machine) fun _ machine =>
        defineAll names values machine := by
  rw [defineAll]
  cases define name value machine <;> rfl

theorem evaluateAll_known (evaluate : Expr → Run Value) (known : List Value)
    (expressions : List Expr)
    (machine : Machine) :
    evaluateAll evaluate known expressions machine =
      Outcome.andThen (evaluateAll evaluate [] expressions machine) fun values machine =>
        .ok (known.reverse ++ values) machine := by
  induction expressions generalizing known machine with
  | nil => simp [evaluateAll]
  | cons expression rest ih =>
      simp only [evaluateAll]
      cases evaluate expression machine with
      | error reason machine => rfl
      | ok value machine =>
          dsimp only
          rw [ih (value :: known), ih [value]]
          cases evaluateAll evaluate [] rest machine <;> simp

theorem evaluateAll_cons (evaluate : Expr → Run Value) (expression : Expr) (rest : List Expr)
    (machine : Machine) :
    evaluateAll evaluate [] (expression :: rest) machine =
      Outcome.andThen (evaluate expression machine) fun value machine =>
        Outcome.andThen (evaluateAll evaluate [] rest machine) fun values machine =>
          .ok (value :: values) machine := by
  rw [evaluateAll]
  cases evaluate expression machine with
  | error reason machine => rfl
  | ok value machine =>
      dsimp only
      rw [evaluateAll_known]
      rfl

theorem executeAll_cons (execute : Stmt → Run Completion) (statement : Stmt) (rest : List Stmt)
    (machine : Machine) :
    executeAll execute (statement :: rest) machine =
      Outcome.andThen (execute statement machine) fun completion machine =>
        match completion with
        | .normal => executeAll execute rest machine
        | completion => .ok completion machine := by
  rw [executeAll]
  cases execute statement machine with
  | ok completion machine => cases completion <;> rfl
  | error reason machine => rfl

theorem takeTurns_loopTurn (condition : Run Value) (body : Run Completion) (step : Run Unit)
    (turns : Nat) (machine : Machine) :
    takeTurns (loopTurn condition body step) (turns + 1) machine =
      Outcome.andThen (condition machine) fun value machine =>
        if value.isTruthy then
          Outcome.andThen (body machine) fun completion machine =>
            match completion with
            | .breakLoop _ => .ok .normal machine
            | .returned keyword value => .ok (.returned keyword value) machine
            | .normal | .continueLoop _ =>
                Outcome.andThen (step machine) fun _ machine =>
                  takeTurns (loopTurn condition body step) turns machine
        else .ok .normal machine := by
  rw [takeTurns]
  -- The turns that follow are the same on both sides, whatever they are.
  generalize takeTurns (loopTurn condition body step) turns = rest
  rw [loopTurn, bind_apply]
  cases condition machine with
  | error reason machine => rfl
  | ok value machine =>
      cases isTruthy : value.isTruthy with
      | false => simp [isTruthy, pure_apply]
      | true =>
          simp only [Outcome.andThen_ok, isTruthy, Bool.not_true, Bool.false_eq_true,
            if_false, if_true,
            bind_apply, branch_apply, pure_apply]
          cases body machine with
          | error reason machine => rfl
          | ok completion machine =>
              cases completion with
              | breakLoop | returned => rfl
              | normal | continueLoop =>
                  simp only [Outcome.andThen_ok, bind_apply]
                  cases step machine <;> rfl

/-! ## Calls -/

section Calls

variable {machine : Machine} {value : Value} {target : Callable} {count : Nat}

theorem callee_of_fits (paren : Option Token) (denotes : machine.Denotes value target)
    (fits : target.arity = count) : callee paren value count machine = .ok target machine := by
  rcases denotes with ⟨reference, rfl, isTarget⟩
  simp [callee, isTarget, fits]

theorem callee_of_misfits (paren : Option Token) (denotes : machine.Denotes value target)
    (misfits : target.arity ≠ count) :
    callee paren value count machine =
      .error (.fault ⟨paren, .wrongArity target.arity count⟩) machine := by
  rcases denotes with ⟨reference, rfl, isTarget⟩
  simp [callee, isTarget, misfits, fault]

theorem callee_of_denotesNothing (paren : Option Token)
    (denotesNothing : ∀ target, ¬ machine.Denotes value target) (count : Nat) :
    callee paren value count machine = .error (.fault ⟨paren, .notCallable⟩) machine := by
  cases value with
  | callable reference =>
      have isNone : machine.callables[reference.identity]? = none := by
        rw [Option.eq_none_iff_forall_ne_some]
        intro target isTarget
        exact denotesNothing target ⟨reference, rfl, isTarget⟩
      simp [callee, isNone, fault]
  | _ => rfl

theorem callResult_of_gives {completion : Completion} {result : Except Fault Value}
    (gives : completion.Gives result) (machine : Machine) :
    callResult completion machine =
      match result with
      | .ok value => .ok value machine
      | .error fault => .error (.fault fault) machine := by
  cases gives <;> rfl

end Calls

end Run

open Run Outcome

/-! ## What is to be done -/

namespace Task

/-- What is to be done, done by the evaluator within limits: the room that is left on the stack, and
the turns that are left if it is a loop. -/
def run {α : Type} (setting : Setting) (depth turns : Nat) : Task α → Run α
  | .evaluate expression => LoxLang.evaluate setting depth expression
  | .evaluateOption none => pure .nil
  | .evaluateOption (some expression) => LoxLang.evaluate setting depth expression
  | .evaluateAll expressions => Run.evaluateAll (LoxLang.evaluate setting depth) [] expressions
  | .execute statement => LoxLang.execute setting depth statement
  | .executeAll statements => Run.executeAll (LoxLang.execute setting depth) statements
  | .loop condition body none =>
      takeTurns (loopTurn (LoxLang.evaluate setting depth condition)
        (LoxLang.execute setting depth body) (pure ())) turns
  | .loop condition body (some increment) =>
      takeTurns (loopTurn (LoxLang.evaluate setting depth condition)
        (LoxLang.execute setting depth body)
        (discard (LoxLang.evaluate setting depth increment))) turns
  | .call target arguments => invoke setting.clock (LoxLang.execute setting depth) target arguments

variable (setting : Setting) (depth turns : Nat) (machine : Machine)

theorem run_evaluate (expression : Expr) :
    (Task.evaluate expression).run setting (depth + 4) turns machine =
      match expression with
      | .literal value => .ok value machine
      | .variable name => read name machine
      | .assign name value =>
          andThen ((Task.evaluate value).run setting (depth + 2) setting.turns machine)
            fun value machine => andThen (assign name value machine) fun _ machine =>
              .ok value machine
      | .unary operator right =>
          andThen ((Task.evaluate right).run setting (depth + 2) setting.turns machine)
            fun right machine => settle (Operator.unary operator right) machine
      | .binary left operator right =>
          andThen ((Task.evaluate left).run setting (depth + 2) setting.turns machine)
            fun left machine =>
              andThen ((Task.evaluate right).run setting (depth + 2) setting.turns machine)
                fun right machine => settle (Operator.binary operator left right) machine
      | .logical left operator right =>
          andThen ((Task.evaluate left).run setting (depth + 2) setting.turns machine)
            fun left machine =>
              if left.isTruthy == (operator.kind == .orWord) then
                .ok (.boolean left.isTruthy) machine
              else
                andThen ((Task.evaluate right).run setting (depth + 2) setting.turns machine)
                  fun right machine => .ok (.boolean right.isTruthy) machine
      | .ternary condition thenBranch elseBranch =>
          andThen ((Task.evaluate condition).run setting (depth + 2) setting.turns machine)
            fun value machine =>
              if value.isTruthy then
                (Task.evaluate thenBranch).run setting (depth + 2) setting.turns machine
              else (Task.evaluate elseBranch).run setting (depth + 2) setting.turns machine
      | .grouping inner => (Task.evaluate inner).run setting (depth + 2) setting.turns machine
      | .call callee paren expressions =>
          andThen ((Task.evaluate callee).run setting (depth + 2) setting.turns machine)
            fun value machine =>
              andThen ((Task.evaluateAll expressions).run setting (depth + 1) setting.turns machine)
                fun arguments machine =>
                  andThen (Run.callee paren value arguments.length machine) fun target machine =>
                    (Task.call target arguments).run setting depth setting.turns machine := by
  cases expression <;> simp only [run, LoxLang.evaluate, bind_apply, pure_apply, branch_apply]

theorem run_evaluateOption_none :
    (Task.evaluateOption none).run setting depth turns machine = .ok .nil machine := rfl

theorem run_evaluateOption_some (expression : Expr) :
    (Task.evaluateOption (some expression)).run setting depth turns machine =
      (Task.evaluate expression).run setting depth setting.turns machine := rfl

theorem run_evaluateAll_nil :
    (Task.evaluateAll []).run setting depth turns machine = .ok [] machine := by
  simp only [run, Run.evaluateAll, List.reverse_nil]

theorem run_evaluateAll_cons (expression : Expr) (rest : List Expr) :
    (Task.evaluateAll (expression :: rest)).run setting depth turns machine =
      andThen ((Task.evaluate expression).run setting depth setting.turns machine)
        fun value machine =>
          andThen ((Task.evaluateAll rest).run setting depth setting.turns machine)
            fun values machine => .ok (value :: values) machine := by
  simp only [run, evaluateAll_cons]

theorem run_executeAll_nil :
    (Task.executeAll []).run setting depth turns machine = .ok .normal machine := by
  simp only [run, Run.executeAll]

theorem run_executeAll_cons (statement : Stmt) (rest : List Stmt) :
    (Task.executeAll (statement :: rest)).run setting depth turns machine =
      andThen ((Task.execute statement).run setting depth setting.turns machine)
        fun completion machine =>
          match completion with
          | .normal => (Task.executeAll rest).run setting depth setting.turns machine
          | completion => .ok completion machine := by
  simp only [run, executeAll_cons]

theorem run_executeAll_singleton (statement : Stmt) :
    (Task.executeAll [statement]).run setting depth turns machine =
      (Task.execute statement).run setting depth setting.turns machine := by
  rw [run_executeAll_cons]
  cases (Task.execute statement).run setting depth setting.turns machine with
  | error reason machine => rfl
  | ok completion machine =>
      cases completion with
      | normal => exact run_executeAll_nil setting depth setting.turns machine
      | breakLoop | continueLoop | returned => rfl

theorem run_loop_eq (condition : Expr) (body : Stmt) (increment : Option Expr) :
    (Task.loop condition body increment).run setting depth turns =
      takeTurns (loopTurn ((Task.evaluate condition).run setting depth setting.turns)
        ((Task.execute body).run setting depth setting.turns)
        (discard ((Task.evaluateOption increment).run setting depth setting.turns))) turns := by
  cases increment <;> rfl

theorem run_loop (condition : Expr) (body : Stmt) (increment : Option Expr) :
    (Task.loop condition body increment).run setting depth (turns + 1) machine =
      andThen ((Task.evaluate condition).run setting depth setting.turns machine)
        fun value machine =>
          if value.isTruthy then
            andThen ((Task.execute body).run setting depth setting.turns machine)
              fun completion machine =>
                match completion with
                | .breakLoop _ => .ok .normal machine
                | .returned keyword value => .ok (.returned keyword value) machine
                | .normal | .continueLoop _ =>
                    andThen ((Task.evaluateOption increment).run setting depth
                      setting.turns machine)
                      fun _ machine =>
                        (Task.loop condition body increment).run setting depth turns machine
          else .ok .normal machine := by
  cases increment with
  | none => simp only [run, takeTurns_loopTurn, pure_apply, Outcome.andThen_ok]
  | some increment =>
      simp only [run, takeTurns_loopTurn, discard_apply, Outcome.andThen_andThen,
        Outcome.andThen_ok]

theorem run_loop_zero (condition : Expr) (body : Stmt) (increment : Option Expr) :
    (Task.loop condition body increment).run setting depth 0 machine =
      .error .exhausted machine := by
  cases increment <;> rfl

theorem run_native (name : String) (arity : Int) (action : Action) (arguments : List Value) :
    (Task.call (.native name arity action) arguments).run setting depth turns machine =
      act setting.clock arguments action machine := rfl

theorem run_function (name : Token) (parameters : List Token) (body : List Stmt)
    (closure : Option FrameId) (arguments : List Value) :
    (Task.call (.function name parameters body closure) arguments).run setting depth turns machine =
      andThen (Outcome.after (·.leave machine.current machine.heap.size)
        (andThen (defineAll parameters arguments (machine.enter closure)) fun _ machine =>
          (Task.executeAll body).run setting depth setting.turns machine))
        fun completion machine => callResult completion machine := by
  simp only [run, invoke, bind_apply, inFrame_apply]

variable {machine}

theorem run_execute_of_interrupted (pending : machine.interrupted = true) (statement : Stmt) :
    (Task.execute statement).run setting (depth + 3) turns machine = .error .interrupt machine := by
  simp only [run, LoxLang.execute, bind_apply, get_apply, Outcome.andThen_ok, pending, if_true,
    throw_apply, Outcome.andThen_error]

theorem run_execute (running : machine.interrupted = false) (statement : Stmt) :
    (Task.execute statement).run setting (depth + 3) turns machine =
      match statement with
      | .hole => .ok .normal machine
      | .expression value =>
          andThen ((Task.evaluate value).run setting (depth + 1) setting.turns machine)
            fun _ machine => .ok .normal machine
      | .print value =>
          andThen ((Task.evaluate value).run setting (depth + 1) setting.turns machine)
            fun value machine =>
              .ok .normal { machine with output := machine.output.push value.display }
      | .var name initializer =>
          andThen ((Task.evaluateOption initializer).run setting (depth + 1) setting.turns machine)
            fun value machine =>
              andThen (define name value machine) fun _ machine => .ok .normal machine
      | .block statements =>
          Outcome.after (·.leave machine.current machine.heap.size)
            ((Task.executeAll statements).run setting depth setting.turns
              (machine.enter machine.current))
      | .ifElse condition thenBranch elseBranch =>
          andThen ((Task.evaluate condition).run setting (depth + 1) setting.turns machine)
            fun value machine =>
              if value.isTruthy then
                (Task.execute thenBranch).run setting (depth + 1) setting.turns machine
              else
                match elseBranch with
                | some elseBranch =>
                    (Task.execute elseBranch).run setting (depth + 1) setting.turns machine
                | none => .ok .normal machine
      | .whileLoop condition body increment =>
          (Task.loop condition body increment).run setting (depth + 1) setting.turns machine
      | .forLoop initializer condition increment body =>
          (Task.execute (Stmt.desugarFor initializer condition increment body)).run
            setting (depth + 1)
            setting.turns machine
      | .breakLoop keyword => .ok (.breakLoop keyword) machine
      | .continueLoop keyword => .ok (.continueLoop keyword) machine
      | .function name parameters body =>
          let (value, machine) := machine.keep (.function name parameters body (some Heap.globals))
          andThen (define name value machine) fun _ machine => .ok .normal machine
      | .returnValue keyword value =>
          andThen ((Task.evaluateOption value).run setting (depth + 1) setting.turns machine)
            fun value machine => .ok (.returned keyword value) machine := by
  -- A statement starts, since no interrupt is pending.
  have started (rest : Run Completion) :
      (do
        if (← get).interrupted then throw .interrupt
        rest : Run Completion) machine = rest machine := by
    simp only [bind_apply, get_apply, Outcome.andThen_ok, running, Bool.false_eq_true, if_false]
  cases statement with
  | var name initializer =>
      cases initializer <;> simp only [run, LoxLang.execute, started, bind_apply, pure_apply]
  | whileLoop condition body increment =>
      cases increment <;> simp only [run, LoxLang.execute, started]
  | returnValue keyword value =>
      cases value <;> simp only [run, LoxLang.execute, started, bind_apply, pure_apply]
  | ifElse condition thenBranch elseBranch =>
      cases elseBranch <;> simp only [run, LoxLang.execute, started, bind_apply, pure_apply,
        branch_apply]
  | _ =>
      simp only [run, LoxLang.execute, started, bind_apply, pure_apply, print, make, Machine.make,
        inBlock, inFrame_apply, Outcome.andThen_ok]

/-- Nothing is evaluated without room on the stack. -/
theorem run_evaluate_of_shallow (expression : Expr) (shallow : depth < 4) :
    (evaluate expression).run setting depth turns machine = .error .tooDeep machine := by
  rcases depth with _ | _ | _ | _ | depth
  · rfl
  · rfl
  · rfl
  · rfl
  · omega

/-- Nothing is executed without room on the stack. -/
theorem run_execute_of_shallow (statement : Stmt) (shallow : depth < 3) :
    (execute statement).run setting depth turns machine = .error .tooDeep machine := by
  rcases depth with _ | _ | _ | depth
  · rfl
  · rfl
  · rfl
  · omega

end Task

end LoxLang

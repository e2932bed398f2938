import LoxLang.Proofs.Evolution

/-!
# Runs that are cut short

The room on the stack and the turns that a loop may take are limits of the evaluator and not of the
language. Within limits a run does what it does within wider ones, up to the point where it reaches
a limit: it has the same outcome, or it is cut short there. What it has printed by then is printed
first by the run within the wider limits as well.
-/

namespace LoxLang

open Run Outcome

/-! ## What has been printed -/

/-- Whether all that has been printed on one machine has been printed first on another one. -/
def Machine.PrintedBefore (before after : Machine) : Prop :=
  before.output.toList <+: after.output.toList

namespace Machine.PrintedBefore

variable {machine machine' machine'' : Machine}

theorem refl : machine.PrintedBefore machine :=
  List.prefix_rfl

theorem trans (first : machine.PrintedBefore machine') (second : machine'.PrintedBefore machine'') :
    machine.PrintedBefore machine'' :=
  List.IsPrefix.trans first second

end Machine.PrintedBefore

/-- Nothing that has been printed is taken back. -/
theorem Evolves.printedBefore {repertoire : Repertoire} {activity : Activity}
    {machine machine' : Machine} (evolves : Evolves repertoire activity machine machine') :
    machine.PrintedBefore machine' := by
  induction evolves with
  | refl | mark | reading | keep | rebind | bind => exact .refl
  | trans _ _ ihFirst ihSecond => exact ihFirst.trans ihSecond
  | @print _ machine line =>
      refine ⟨[line], ?_⟩
      rw [Array.toList_push]
  | inFrame _ _ ih => exact ih

/-- Whatever is done, nothing that has been printed is taken back. -/
theorem Task.printedBefore_run {α : Type} (task : Task α) (setting : Setting) (depth turns : Nat)
    (machine : Machine) :
    machine.PrintedBefore (final (task.run setting depth turns machine)) := by
  have lawful := lawfulWithin .all setting depth
  have covers := Repertoire.covers_all
  have known := machine.within_all
  cases task with
  | evaluate expression => exact (lawful.evaluate expression known).evolves.printedBefore
  | evaluateOption expression =>
      cases expression with
      | none => exact .refl
      | some expression => exact (lawful.evaluate expression known).evolves.printedBefore
  | evaluateAll expressions => exact (lawful.evaluateAll expressions known).evolves.printedBefore
  | execute statement => exact (lawful.execute (covers statement) known).evolves.printedBefore
  | executeAll statements =>
      have coversAll : ∀ statement ∈ statements, Repertoire.all.Covers statement :=
        fun statement _ => covers statement
      exact (lawful.executeAll coversAll known).evolves.printedBefore
  | loop condition body increment =>
      have looped := lawful.loop condition (lawful.execute (covers body)) increment turns known
      exact looped.evolves.printedBefore
  | call target arguments =>
      have has : Repertoire.all.Has target := trivial
      exact (lawful.call has arguments known).evolves.printedBefore

/-! ## Outcomes -/

namespace Outcome

/-- `Shortened limits start outcome full` compares two runs that start on the same machine: they
have the same outcome, or the first one has ended early for one of the reasons in `limits` and has
printed nothing else than what the second one prints first. -/
inductive Shortened {α : Type} (limits : Abort → Prop) (start : Machine) :
    Outcome α → Outcome α → Prop
  | same {outcome : Outcome α} (prints : start.PrintedBefore outcome.final) :
      Shortened limits start outcome outcome
  | cut {reason : Abort} {machine : Machine} {full : Outcome α} (isLimit : limits reason)
      (prints : start.PrintedBefore machine) (goesOn : machine.PrintedBefore full.final) :
      Shortened limits start (.error reason machine) full

namespace Shortened

variable {α β : Type} {limits : Abort → Prop} {start machine : Machine} {outcome full : Outcome α}

theorem printedBefore (shortened : Shortened limits start outcome full) :
    start.PrintedBefore full.final := by
  cases shortened with
  | same prints => exact prints
  | cut _ prints goesOn => exact prints.trans goesOn

theorem follow (prints : start.PrintedBefore machine)
    (shortened : Shortened limits machine outcome full) : Shortened limits start outcome full := by
  cases shortened with
  | same prints' => exact .same (prints.trans prints')
  | cut isLimit prints' goesOn => exact .cut isLimit (prints.trans prints') goesOn

/-- Where the evaluator keeps to the rules, a run can be compared with itself. -/
theorem of_lawful {Expected : α → Prop}
    (lawful : outcome.Lawful .all .execution machine Expected) :
    Shortened limits machine outcome outcome :=
  .same lawful.evolves.printedBefore

theorem andThen {next next' : α → Machine → Outcome β}
    (shortened : Shortened limits start outcome full)
    (shortenedNext : ∀ result machine,
      Shortened limits machine (next result machine) (next' result machine)) :
    Shortened limits start (outcome.andThen next) (full.andThen next') := by
  cases shortened with
  | same prints =>
      cases outcome with
      | ok result machine => exact (shortenedNext result machine).follow prints
      | error reason machine => exact .same prints
  | cut isLimit prints goesOn =>
      -- The run within the wider limits may go on, and prints more.
      cases full with
      | ok result machine =>
          exact .cut isLimit prints (goesOn.trans (shortenedNext result machine).printedBefore)
      | error reason machine => exact .cut isLimit prints goesOn

/-- Nothing is printed by entering and leaving a frame. -/
theorem inFrame {enclosing : Option FrameId}
    (shortened : Shortened limits (start.enter enclosing) outcome full) :
    Shortened limits start (outcome.after (·.leave start.current start.heap.size))
      (full.after (·.leave start.current start.heap.size)) := by
  cases shortened with
  | same prints => cases outcome <;> exact .same prints
  | cut isLimit prints goesOn => cases full <;> exact .cut isLimit prints goesOn

end Shortened

end Outcome

/-! ## Parts of programs -/

/-- `Lengthens limits setting setting'` says that the second setting allows loops at least as many
turns as the first one, and if it allows more, that to run out of turns is one of the limits. -/
structure Setting.Lengthens (limits : Abort → Prop) (setting setting' : Setting) : Prop where
  clock : setting.clock = setting'.clock
  turns : setting.turns ≤ setting'.turns
  isLimit : setting.turns < setting'.turns → limits .exhausted

/-- Whether all expressions and statements are cut short, if at all, by limits only, when they are
run in two settings with two rooms on the stack. -/
structure ShortenedWithin (limits : Abort → Prop) (setting setting' : Setting)
    (depth depth' : Nat) : Prop where
  evaluate (expression : Expr) (machine : Machine) :
    Shortened limits machine
      ((Task.evaluate expression).run setting depth setting.turns machine)
      ((Task.evaluate expression).run setting' depth' setting'.turns machine)
  execute (statement : Stmt) (machine : Machine) :
    Shortened limits machine
      ((Task.execute statement).run setting depth setting.turns machine)
      ((Task.execute statement).run setting' depth' setting'.turns machine)

variable {limits : Abort → Prop} {setting setting' : Setting} {depth depth' : Nat}

namespace ShortenedWithin

variable (shortened : ShortenedWithin limits setting setting' depth depth')
include shortened

theorem evaluateOption (expression : Option Expr) (machine : Machine) :
    Shortened limits machine
      ((Task.evaluateOption expression).run setting depth setting.turns machine)
      ((Task.evaluateOption expression).run setting' depth' setting'.turns machine) := by
  cases expression with
  | none => exact .same .refl
  | some expression => exact shortened.evaluate expression machine

theorem evaluateAll (expressions : List Expr) (machine : Machine) :
    Shortened limits machine
      ((Task.evaluateAll expressions).run setting depth setting.turns machine)
      ((Task.evaluateAll expressions).run setting' depth' setting'.turns machine) := by
  induction expressions generalizing machine with
  | nil =>
      rw [Task.run_evaluateAll_nil, Task.run_evaluateAll_nil]
      exact .same .refl
  | cons expression rest ih =>
      rw [Task.run_evaluateAll_cons, Task.run_evaluateAll_cons]
      refine (shortened.evaluate expression machine).andThen fun value machine => ?_
      exact (ih machine).andThen fun values machine => .same .refl

theorem executeAll (statements : List Stmt) (machine : Machine) :
    Shortened limits machine
      ((Task.executeAll statements).run setting depth setting.turns machine)
      ((Task.executeAll statements).run setting' depth' setting'.turns machine) := by
  induction statements generalizing machine with
  | nil =>
      rw [Task.run_executeAll_nil, Task.run_executeAll_nil]
      exact .same .refl
  | cons statement rest ih =>
      rw [Task.run_executeAll_cons, Task.run_executeAll_cons]
      refine (shortened.execute statement machine).andThen fun completion machine => ?_
      cases completion with
      | normal => exact ih machine
      | breakLoop | continueLoop | returned => exact .same .refl

/-- A loop that takes one turn after another in both settings, until one of them allows no more. -/
theorem loop (condition : Expr) (body : Stmt) (increment : Option Expr) {turns turns' : Nat}
    (longer : turns ≤ turns') (isLimit : turns < turns' → limits .exhausted) (machine : Machine) :
    Shortened limits machine
      ((Task.loop condition body increment).run setting depth turns machine)
      ((Task.loop condition body increment).run setting' depth' turns' machine) := by
  induction turns generalizing turns' machine with
  | zero =>
      rw [Task.run_loop_zero]
      cases turns' with
      | zero =>
          rw [Task.run_loop_zero]
          exact .same .refl
      | succ turns' =>
          exact .cut (isLimit (Nat.succ_pos turns')) .refl (Task.printedBefore_run _ _ _ _ _)
  | succ turns ih =>
      rcases Nat.exists_eq_add_of_le' (Nat.le_trans (Nat.le_add_left 1 turns) longer) with
        ⟨turns', rfl⟩
      rw [Task.run_loop, Task.run_loop]
      refine (shortened.evaluate condition machine).andThen fun value machine => ?_
      split
      · refine (shortened.execute body machine).andThen fun completion machine => ?_
        cases completion with
        | breakLoop | returned => exact .same .refl
        | normal | continueLoop =>
            refine (shortened.evaluateOption increment machine).andThen fun _ machine => ?_
            exact ih (by omega) (fun less => isLimit (by omega)) machine
      · exact .same .refl

theorem call (sameClock : setting.clock = setting'.clock) (target : Callable)
    (arguments : List Value) (machine : Machine) :
    Shortened limits machine
      ((Task.call target arguments).run setting depth setting.turns machine)
      ((Task.call target arguments).run setting' depth' setting'.turns machine) := by
  cases target with
  | native name arity action =>
      have has : Repertoire.all.Has (.native name arity action) := trivial
      rw [Task.run_native, Task.run_native, sameClock]
      exact .of_lawful (lawful_act has arguments)
  | function name parameters body closure =>
      rw [Task.run_function, Task.run_function]
      have executed : Shortened limits (machine.enter closure)
          (Outcome.andThen (defineAll parameters arguments (machine.enter closure)) fun _ =>
            (Task.executeAll body).run setting depth setting.turns)
          (Outcome.andThen (defineAll parameters arguments (machine.enter closure)) fun _ =>
            (Task.executeAll body).run setting' depth' setting'.turns) :=
        (Shortened.of_lawful (lawful_defineAll _ _)).andThen fun _ => shortened.executeAll body
      refine executed.inFrame.andThen fun completion machine => .same ?_
      cases completion <;> exact .refl

end ShortenedWithin

theorem shortened_evaluate (sameClock : setting.clock = setting'.clock)
    (operands : ShortenedWithin limits setting setting' (depth + 2) (depth' + 2))
    (arguments : ShortenedWithin limits setting setting' (depth + 1) (depth' + 1))
    (bodies : ShortenedWithin limits setting setting' depth depth') (expression : Expr)
    (machine : Machine) {turns turns' : Nat} :
    Shortened limits machine
      ((Task.evaluate expression).run setting (depth + 4) turns machine)
      ((Task.evaluate expression).run setting' (depth' + 4) turns' machine) := by
  rw [Task.run_evaluate, Task.run_evaluate]
  cases expression with
  | literal value => exact .same .refl
  | «variable» name => exact .of_lawful (lawful_read name)
  | grouping inner => exact operands.evaluate inner machine
  | assign name value =>
      refine (operands.evaluate value machine).andThen fun value machine => ?_
      exact (Shortened.of_lawful (lawful_assign name value)).andThen fun _ _ => .same .refl
  | unary operator right =>
      refine (operands.evaluate right machine).andThen fun operand machine => ?_
      exact .of_lawful (lawful_settle fun _ faulted => .unary (Operator.unary_iff.mpr faulted))
  | binary left operator right =>
      refine (operands.evaluate left machine).andThen fun first machine => ?_
      refine (operands.evaluate right machine).andThen fun second machine => ?_
      exact .of_lawful (lawful_settle fun _ faulted => .binary (Operator.binary_iff.mpr faulted))
  | logical left operator right =>
      refine (operands.evaluate left machine).andThen fun first machine => ?_
      split
      · exact .same .refl
      · exact (operands.evaluate right machine).andThen fun second machine => .same .refl
  | ternary condition thenBranch elseBranch =>
      refine (operands.evaluate condition machine).andThen fun value machine => ?_
      split
      · exact operands.evaluate thenBranch machine
      · exact operands.evaluate elseBranch machine
  | call callee paren expressions =>
      refine (operands.evaluate callee machine).andThen fun value machine => ?_
      refine (arguments.evaluateAll expressions machine).andThen fun values machine => ?_
      have called : Shortened limits machine _ _ :=
        .of_lawful (lawful_callee machine.within_all paren value values.length)
      exact called.andThen fun target machine => bodies.call sameClock target values machine

theorem shortened_execute (lengthens : Setting.Lengthens limits setting setting')
    (parts : ShortenedWithin limits setting setting' (depth + 1) (depth' + 1))
    (lists : ShortenedWithin limits setting setting' depth depth') (statement : Stmt)
    (machine : Machine) {turns turns' : Nat} :
    Shortened limits machine
      ((Task.execute statement).run setting (depth + 3) turns machine)
      ((Task.execute statement).run setting' (depth' + 3) turns' machine) := by
  cases running : machine.interrupted with
  | true =>
      rw [Task.run_execute_of_interrupted _ _ _ running,
        Task.run_execute_of_interrupted _ _ _ running]
      exact .same .refl
  | false =>
      rw [Task.run_execute _ _ _ running, Task.run_execute _ _ _ running]
      cases statement with
      | hole | breakLoop | continueLoop => exact .same .refl
      | expression value =>
          exact (parts.evaluate value machine).andThen fun _ machine => .same .refl
      | print value =>
          refine (parts.evaluate value machine).andThen fun value machine => .same ?_
          exact (Evolves.print : Evolves .all .execution _ _).printedBefore
      | var name value =>
          refine (parts.evaluateOption value machine).andThen fun value machine => ?_
          exact (Shortened.of_lawful (lawful_define name value)).andThen fun _ _ => .same .refl
      | block statements => exact (lists.executeAll statements _).inFrame
      | ifElse condition thenBranch elseBranch =>
          refine (parts.evaluate condition machine).andThen fun value machine => ?_
          split
          · exact parts.execute thenBranch machine
          · cases elseBranch with
            | none => exact .same .refl
            | some elseBranch => exact parts.execute elseBranch machine
      | whileLoop condition body increment =>
          exact parts.loop condition body increment lengthens.turns lengthens.isLimit machine
      | forLoop initializer condition increment body => exact parts.execute _ machine
      | function name parameters body =>
          have kept : machine.PrintedBefore
              (machine.keep (.function name parameters body (some Heap.globals))).2 := .refl
          refine Shortened.follow kept ?_
          exact (Shortened.of_lawful (lawful_define name _)).andThen fun _ _ => .same .refl
      | returnValue keyword value =>
          exact (parts.evaluateOption value machine).andThen fun _ machine => .same .refl

/-! ## Induction on the room on the stack -/

/-- Within limits every run is the one within wider limits, or it is cut short by a limit. -/
theorem shortenedWithin (lengthens : Setting.Lengthens limits setting setting')
    (less : depth ≤ depth') (isLimit : depth < depth' → limits .tooDeep) :
    ShortenedWithin limits setting setting' depth depth' := by
  induction depth using Nat.strongRecOn generalizing depth' with
  | ind depth ih =>
      -- Where one run has no room and the other one has, the first is cut short at its start.
      have shallow {α : Type} {task : Task α} {machine : Machine} {room : Nat}
          (tooDeep : ∀ {setting : Setting} {depth : Nat}, depth < room →
            task.run setting depth setting.turns machine = .error .tooDeep machine)
          (isShallow : depth < room) :
          Shortened limits machine (task.run setting depth setting.turns machine)
            (task.run setting' depth' setting'.turns machine) := by
        rw [tooDeep isShallow]
        by_cases isShallow' : depth' < room
        · rw [tooDeep isShallow']
          exact .same .refl
        · exact .cut (isLimit (by omega)) .refl (Task.printedBefore_run _ _ _ _ _)
      constructor
      · intro expression machine
        by_cases isShallow : depth < 4
        · exact shallow (Task.run_evaluate_of_shallow _ _ _ expression) isShallow
        · rcases Nat.exists_eq_add_of_le' (Nat.not_lt.mp isShallow) with ⟨depth, rfl⟩
          rcases Nat.exists_eq_add_of_le' (Nat.le_trans (Nat.le_add_left 4 depth) less) with
            ⟨depth', rfl⟩
          have parts {room : Nat} (isLess : room < 4) :=
            ih (depth + room) (by omega) (by omega : depth + room ≤ depth' + room)
              (fun deeper => isLimit (by omega))
          exact shortened_evaluate lengthens.clock (parts (by omega)) (parts (by omega))
            (parts (by omega : 0 < 4)) expression machine
      · intro statement machine
        by_cases isShallow : depth < 3
        · exact shallow (Task.run_execute_of_shallow _ _ _ statement) isShallow
        · rcases Nat.exists_eq_add_of_le' (Nat.not_lt.mp isShallow) with ⟨depth, rfl⟩
          rcases Nat.exists_eq_add_of_le' (Nat.le_trans (Nat.le_add_left 3 depth) less) with
            ⟨depth', rfl⟩
          have parts {room : Nat} (isLess : room < 3) :=
            ih (depth + room) (by omega) (by omega : depth + room ≤ depth' + room)
              (fun deeper => isLimit (by omega))
          exact shortened_execute lengthens (parts (by omega)) (parts (by omega : 0 < 3)) statement
            machine

end LoxLang

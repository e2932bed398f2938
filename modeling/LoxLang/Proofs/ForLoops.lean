import LoxLang.Proofs.Closures
import LoxLang.Proofs.EmptyFrames
import LoxLang.Proofs.EvaluatorAgreement
import LoxLang.Proofs.Room

/-!
# `for` loops in the textbook form

A `for` loop is spelled out as a `while` loop with an increment of its own. In the textbook form the
increment is the last statement of a block around the body, which runs in one more frame and needs
more room on the stack. Nothing sees that frame, so the two forms have the same outcome after the
same number of turns, unless one of them overflows the stack.
-/

namespace LoxLang

open Run Outcome

/-- A `for` loop in the textbook form, `{ initializer; while (condition) { body; increment; } }`. -/
def Stmt.textbookFor (initializer : Option Stmt) (condition increment : Option Expr)
    (body : Stmt) : Stmt :=
  .block [initializer.getD .hole,
    .whileLoop (condition.getD (.literal (.boolean true)))
      (.block (body :: (increment.map Stmt.expression).toList)) none]

/-- Whether a run ends because there is no room left on the stack. -/
def Outcome.Overflows {α : Type} (outcome : Outcome α) : Prop :=
  ∃ machine, outcome = .error .tooDeep machine

theorem Outcome.Cramped.eq_or_overflows {α : Type} {outcome roomy : Outcome α}
    (cramped : Cramped outcome roomy) : outcome = roomy ∨ outcome.Overflows := by
  cases cramped with
  | same => exact .inl rfl
  | overflow => exact .inr ⟨_, rfl⟩

variable {base : Nat} {positive : 0 < base} {setting : Setting} {depth depth' : Nat}
  {machine : Machine}

/-! ## One turn after another -/

/-- The turns of a loop whose condition, body and increment have rooms of their own. -/
def turnsWithin (setting : Setting) (tested executed stepped : Nat) (condition : Expr) (body : Stmt)
    (increment : Option Expr) : Nat → Run Completion :=
  takeTurns (loopTurn ((Task.evaluate condition).run setting tested setting.turns)
    ((Task.execute body).run setting executed setting.turns)
    (discard ((Task.evaluateOption increment).run setting stepped setting.turns)))

theorem cramped_turnsWithin {tested tested' executed executed' stepped stepped' : Nat}
    (moreTested : tested ≤ tested') (moreExecuted : executed ≤ executed')
    (moreStepped : stepped ≤ stepped') (condition : Expr) (body : Stmt) (increment : Option Expr)
    (turns : Nat) (machine : Machine) :
    Cramped
      (turnsWithin setting tested executed stepped condition body increment turns machine)
      (turnsWithin setting tested' executed' stepped' condition body increment turns machine) := by
  refine .takeTurns ((crampedWithin setting moreTested).evaluate condition)
    ((crampedWithin setting moreExecuted).execute body) (fun machine => ?_) turns machine
  rw [discard_apply, discard_apply]
  have evaluated := (crampedWithin setting moreStepped).evaluateOption increment machine
  exact evaluated.andThen fun _ machine => .same

/-- An increment as a statement. -/
theorem run_steps (running : machine.interrupted = false) (increment : Option Expr) :
    (Task.executeAll (increment.map Stmt.expression).toList).run setting depth setting.turns
        machine =
      andThen ((Task.evaluateOption increment).run setting (depth - 2) setting.turns machine)
        fun _ machine => .ok .normal machine := by
  cases increment with
  | none =>
      simp only [Option.map_none, Option.toList_none, Task.run_executeAll_nil,
        Task.run_evaluateOption_none, andThen_ok]
  | some increment =>
      rw [Option.map_some, Option.toList_some, Task.run_executeAll_singleton,
        Task.run_evaluateOption_some]
      by_cases shallow : depth < 3
      · rw [Task.run_execute_of_shallow _ _ _ _ shallow,
          Task.run_evaluate_of_shallow _ _ _ _ (by omega)]
        rfl
      rcases Nat.exists_eq_add_of_le' (Nat.not_lt.mp shallow) with ⟨depth, rfl⟩
      rw [Task.run_execute _ _ _ running]
      rfl

/-- The turns of the textbook form are those of the loop itself, with less room for the body and the
increment. -/
theorem run_textbookLoop {statements : List Stmt} (condition : Expr) (increment : Option Expr)
    (noContinue : ∀ keyword, ¬Stmt.Occurs false (.continueLoop keyword) (.block statements))
    (innermost : machine.Innermost positive) (turns : Nat) :
    (Task.loop condition (.block (.block statements :: (increment.map Stmt.expression).toList))
        none).run setting depth turns machine =
      turnsWithin setting depth (depth - 3) (depth - 5) condition (.block statements) increment
        turns machine := by
  have bindNothing : ∀ statement ∈ Stmt.block statements ::
      (increment.map Stmt.expression).toList, statement.BindsNothing := by
    intro statement isStatement
    rcases List.mem_cons.mp isStatement with rfl | isStep
    · trivial
    · rcases Option.map_eq_some_iff.mp (Option.mem_toList.mp isStep) with ⟨increment, -, rfl⟩
      trivial
  unfold turnsWithin
  induction turns generalizing machine with
  | zero => rw [Task.run_loop_zero]; rfl
  | succ turns ih =>
      rw [Task.run_loop, takeTurns_loopTurn]
      by_cases shallow : depth < 3
      · rw [Task.run_evaluate_of_shallow _ _ _ _ (by omega)]
        rfl
      rcases Nat.exists_eq_add_of_le' (Nat.not_lt.mp shallow) with ⟨depth, rfl⟩
      have tested := (lawfulWithin (.seeing positive) setting (depth + 3)).evaluate condition
        innermost.hosts.known
      refine tested.andThen_congr fun value machine evolves _ => ?_
      have innermost := innermost.evolve evolves
      split
      · rw [innermost.run_block bindNothing, Task.run_executeAll_cons, andThen_andThen]
        have executed := (lawfulWithin (.seeing positive) setting depth).execute
          (Repertoire.covers_seeing positive (.block statements)) innermost.hosts.known
        refine executed.andThen_congr fun completion machine evolves ends => ?_
        have innermost := innermost.evolve evolves
        cases completion with
        | breakLoop | returned => rfl
        | continueLoop keyword => exact absurd ends (noContinue keyword)
        | normal =>
            have stepped := (lawfulWithin (.seeing positive) setting (depth - 2)).evaluateOption
              increment innermost.hosts.known
            rw [run_steps innermost.running, discard_apply, andThen_andThen, andThen_andThen]
            refine stepped.andThen_congr fun _ machine evolves _ => ?_
            exact ih (innermost.evolve evolves)
      · rfl

/-! ## The two forms -/

/-- A block of two statements, where the second one is exchanged. -/
theorem cramped_block (positive : 0 < machine.heap.size) (known : machine.Within (.seeing positive))
    (less : depth ≤ depth') (first : Stmt) {last last' : Stmt}
    (lasts : ∀ {machine' : Machine}, machine'.Innermost positive →
      Cramped ((Task.execute last).run setting depth setting.turns machine')
        ((Task.execute last').run setting depth' setting.turns machine'))
    (running : machine.interrupted = false) :
    Cramped ((Task.execute (.block [first, last])).run setting (depth + 3) setting.turns machine)
      ((Task.execute (.block [first, last'])).run setting (depth' + 3) setting.turns machine) := by
  have entered : (machine.enter machine.current).Innermost positive := by
    have size : (machine.enter machine.current).heap.size = machine.heap.size + 1 :=
      Heap.size_push _ _
    exact ⟨⟨by omega, rfl, known⟩, size, running⟩
  rw [Task.run_execute _ _ _ running, Task.run_execute _ _ _ running]
  apply Cramped.after
  rw [Task.run_executeAll_cons, Task.run_executeAll_cons]
  have executed := (lawfulWithin (.seeing positive) setting depth).execute
    (Repertoire.covers_seeing positive first) entered.hosts.known
  refine ((crampedWithin setting less).execute first _).andThen_of
    fun completion machine' isResult => ?_
  rw [isResult] at executed
  cases completion with
  | breakLoop | continueLoop | returned => exact .same
  | normal =>
      dsimp only
      rw [Task.run_executeAll_singleton, Task.run_executeAll_singleton]
      exact lasts (entered.evolve executed.1)

section Forms

variable (initializer : Option Stmt) (condition increment : Option Expr)

theorem cramped_forLoop (body : Stmt) (depth : Nat) (machine : Machine) :
    Cramped
      ((Task.execute (.forLoop initializer condition increment body)).run setting depth
        setting.turns machine)
      ((Task.execute (Stmt.desugarFor initializer condition increment body)).run setting depth
        setting.turns machine) := by
  refine cramped_of_started (Nat.le_refl _) ?_
  rintro left right rfl isRight running
  rw [← isRight, Task.run_execute _ _ _ running]
  exact (crampedWithin setting (by omega)).execute _ machine

theorem cramped_desugared (body : Stmt) (depth : Nat) (machine : Machine) :
    Cramped
      ((Task.execute (Stmt.desugarFor initializer condition increment body)).run setting depth
        setting.turns machine)
      ((Task.execute (.forLoop initializer condition increment body)).run setting (depth + 2)
        setting.turns machine) := by
  refine cramped_of_started (Nat.le_add_right _ _) ?_
  rintro left right rfl isRight running
  have isMore : right + 1 = left + 3 := by omega
  rw [Task.run_execute setting right _ running, isMore]
  exact .same

variable {statements : List Stmt} (positive : 0 < machine.heap.size)
  (known : machine.Within (.seeing positive))
include known

/-- The loops of the two forms are compared turn by turn, and so are the blocks around them. -/
theorem cramped_loopBlock (extra : Nat) {first : Stmt} {test : Expr} {body body' : Stmt}
    {step step' : Option Expr}
    (loops : ∀ (depth : Nat) {machine' : Machine}, machine'.Innermost positive →
      Cramped ((Task.loop test body step).run setting depth setting.turns machine')
        ((Task.loop test body' step').run setting (depth + extra) setting.turns machine'))
    (depth : Nat) :
    Cramped
      ((Task.execute (.block [first, .whileLoop test body step])).run setting depth setting.turns
        machine)
      ((Task.execute (.block [first, .whileLoop test body' step'])).run setting (depth + extra)
        setting.turns machine) := by
  refine cramped_of_started (Nat.le_add_right _ _) ?_
  rintro left right rfl isRight running
  obtain rfl : right = left + extra := by omega
  refine cramped_block positive known (Nat.le_add_right _ _) _ (fun innermost => ?_) running
  refine cramped_of_started (Nat.le_add_right _ _) ?_
  rintro left right rfl isRight running
  obtain rfl : right = left + extra := by omega
  rw [Task.run_execute _ _ _ running, Task.run_execute _ _ _ running, Nat.add_right_comm]
  exact loops (left + 1) innermost

variable (noContinue : ∀ keyword, ¬Stmt.Occurs false (.continueLoop keyword) (.block statements))
include noContinue

theorem cramped_desugarFor (depth : Nat) :
    Cramped
      ((Task.execute (Stmt.desugarFor initializer condition increment (.block statements))).run
        setting depth setting.turns machine)
      ((Task.execute (Stmt.textbookFor initializer condition increment (.block statements))).run
        setting (depth + 5) setting.turns machine) := by
  refine cramped_loopBlock positive known 5 (fun depth machine' innermost => ?_) depth
  rw [run_textbookLoop _ _ noContinue innermost, Task.run_loop_eq]
  exact cramped_turnsWithin (by omega) (by omega) (by omega) _ _ _ _ _

theorem cramped_textbookFor (depth : Nat) :
    Cramped
      ((Task.execute (Stmt.textbookFor initializer condition increment (.block statements))).run
        setting depth setting.turns machine)
      ((Task.execute (Stmt.desugarFor initializer condition increment (.block statements))).run
        setting depth setting.turns machine) := by
  refine cramped_loopBlock positive known 0 (fun depth machine' innermost => ?_) depth
  rw [run_textbookLoop _ _ noContinue innermost, Task.run_loop_eq]
  exact cramped_turnsWithin (by omega) (by omega) (by omega) _ _ _ _ _

end Forms

/-- Between the runs of a session and during them, no function sees a frame that is not there. -/
theorem Machine.GlobalOnly.within_seeing (globalOnly : machine.GlobalOnly) (positive : 0 < base) :
    machine.Within (.seeing positive) := by
  intro target isTarget
  refine Callable.Fits.mono ?_ (fun _ isReason => isReason) target
    (globalOnly.within target isTarget)
  rintro body _ rfl id isGlobal
  cases isGlobal
  exact positive

/-- Executing a `for` loop, as it is or spelled out, has the outcome of executing its textbook form,
on every machine with a global frame whose callables see no frames that are not there: the same
completion or fault, output and frames, and the same number of turns if they do not end. Only the
room on the stack makes a difference: where both do not have enough, one of them may overflow. A few
units of room more than one form needs are enough for the other one. -/
theorem forLoop_textbook (initializer : Option Stmt) (condition increment : Option Expr)
    (statements : List Stmt)
    (noContinue : ∀ keyword, ¬Stmt.Occurs false (.continueLoop keyword) (.block statements))
    {machine : Machine} (positive : 0 < machine.heap.size)
    (known : machine.Within (.seeing positive)) {form : Stmt}
    (isForm : form = .forLoop initializer condition increment (.block statements) ∨
      form = (Stmt.forLoop initializer condition increment (.block statements)).desugar)
    (setting : Setting) :
    let textbook := Stmt.textbookFor initializer condition increment (.block statements)
    (∀ depth depth', execute setting depth form machine = execute setting depth' textbook machine ∨
      Overflows (execute setting depth form machine) ∨
      Overflows (execute setting depth' textbook machine)) ∧
    (∀ depth, Cramped (execute setting depth form machine)
      (execute setting (depth + 5) textbook machine)) ∧
    (∀ depth, Cramped (execute setting depth textbook machine)
      (execute setting (depth + 2) form machine)) := by
  intro textbook
  have more {statement : Stmt} {depth depth' : Nat} (less : depth ≤ depth') :
      Cramped (execute setting depth statement machine)
        (execute setting depth' statement machine) :=
    (crampedWithin setting less).execute statement machine
  have toTextbook : ∀ depth, Cramped (execute setting depth form machine)
      (execute setting (depth + 5) textbook machine) := by
    intro depth
    have fromDesugared := @cramped_desugarFor setting machine initializer condition increment
      statements positive known noContinue depth
    rcases isForm with rfl | rfl
    · exact (cramped_forLoop _ _ _ _ depth machine).trans fromDesugared
    · exact fromDesugared
  have fromTextbook : ∀ depth, Cramped (execute setting depth textbook machine)
      (execute setting (depth + 2) form machine) := by
    intro depth
    have toDesugared := @cramped_textbookFor setting machine initializer condition increment
      statements positive known noContinue depth
    rcases isForm with rfl | rfl
    · exact toDesugared.trans (cramped_desugared _ _ _ _ depth machine)
    · exact toDesugared.trans (more (by omega))
  refine ⟨fun depth depth' => ?_, toTextbook, fromTextbook⟩
  -- Both are compared with the textbook form in room enough for each of them.
  have first := (toTextbook depth).trans (more (Nat.le_add_right (depth + 5) depth'))
  have second : Cramped (execute setting depth' textbook machine)
      (execute setting (depth + 5 + depth') textbook machine) := more (by omega)
  rcases first.eq_or_overflows with sameFirst | overflows
  · rcases second.eq_or_overflows with sameSecond | overflows
    · exact .inl (sameFirst.trans sameSecond.symm)
    · exact .inr (.inr overflows)
  · exact .inr (.inl overflows)

/-- A loop that ends after one turn, since its increment ends it. -/
def onceLoop (make : Option Stmt → Option Expr → Option Expr → Stmt → Stmt) : Stmt :=
  let go : Token := { kind := .identifier, lexeme := "go" }
  make (some (.var go (some (.literal (.boolean true))))) (some (.variable go))
    (some (.assign go (.literal (.boolean false))))
    (.block [.print (.literal (.string "once"))])

theorem forLoop_textbook_once :
    printed (execute ⟨40, 5, fun _ => 0⟩ 40 (onceLoop .textbookFor) Machine.initial) =
      some #["once"] := by
  have noContinue : ∀ keyword, ¬Stmt.Occurs false (.continueLoop keyword)
      (.block [.print (.literal (.string "once"))]) := by
    intro keyword occurs
    cases occurs with
    | block isStatement occurs =>
        rw [List.mem_singleton.mp isStatement] at occurs
        cases occurs
  have positive : 0 < Machine.initial.heap.size := by decide
  have computed : printed (execute ⟨40, 5, fun _ => 0⟩ 35 (onceLoop .forLoop) Machine.initial) =
      some #["once"] := by
    decide +kernel
  have agrees : Cramped (execute ⟨40, 5, fun _ => 0⟩ 35 (onceLoop .forLoop) Machine.initial)
      (execute ⟨40, 5, fun _ => 0⟩ 40 (onceLoop .textbookFor) Machine.initial) :=
    (forLoop_textbook _ _ _ _ noContinue positive
      (Machine.GlobalOnly.initial.within_seeing positive) (.inl rfl) _).2.1 35
  rcases agrees.eq_or_overflows with same | ⟨machine, overflows⟩
  · rw [← same]
    exact computed
  · rw [overflows] at computed
    cases computed

/-! ### Where the room on the stack makes a difference -/

/-- A frame that is added to the heap changes nothing for the frames before it. -/
theorem Heap.Resolves.push {heap : Heap} {name : String} {id found : FrameId}
    (resolves : heap.Resolves name id found) (frame : Frame) :
    (heap.push frame).Resolves name id found := by
  have remains {id : FrameId} {old : Frame} (isFrame : heap.frames[id]? = some old) :
      (heap.push frame).frames[id]? = some old := by
    have present : id < heap.size := (Array.getElem?_eq_some_iff.mp isFrame).1
    rw [Heap.getElem?_push, if_neg (Nat.ne_of_lt present), isFrame]
  induction resolves with
  | here isFrame bound => exact .here (remains isFrame) bound
  | outwards isFrame unbound enclosing older _ ih =>
      exact .outwards (remains isFrame) unbound enclosing older ih

/-- Names mean the same in a block as outside it, as long as the block binds nothing. -/
theorem Machine.Sees.enter {machine : Machine} {name : Token} {value : Value}
    (sees : machine.Sees name value) : (machine.enter machine.current).Sees name value := by
  rcases sees with ⟨found, frame, resolves, isFrame, isValue⟩
  have foundPresent : found < machine.heap.size := (Array.getElem?_eq_some_iff.mp isFrame).1
  have currentPresent : machine.current < machine.heap.size := by
    cases resolves with
    | here => exact foundPresent
    | outwards isFrame => exact (Array.getElem?_eq_some_iff.mp isFrame).1
  have isEntered : (machine.enter machine.current).heap.frames[machine.heap.size]? =
      some { enclosing := machine.current } :=
    (Heap.getElem?_push _ _ _).trans (if_pos rfl)
  refine ⟨found, frame, ?_, ?_, isValue⟩
  · exact .outwards isEntered List.not_mem_nil rfl currentPresent (resolves.push _)
  · exact (Heap.getElem?_push _ _ _).trans ((if_neg (Nat.ne_of_lt foundPresent)).trans isFrame)

/-- A name with a number of alternatives behind it, all of them the name itself. -/
def Expr.alternatives (name : Token) (count : Nat) : Expr :=
  Nat.iterate (fun left => .logical left { kind := .orWord, lexeme := "or" } (.variable name)) count
    (.variable name)

/-- A body that evaluates many alternatives in a block of its own and leaves the loop. -/
def deepBody (name : Token) (count : Nat) : List Stmt :=
  [.block [.expression (.alternatives name count)],
    .breakLoop (some { kind := .breakWord, lexeme := "break" })]

variable (setting) in
/-- Each alternative takes two units of room. -/
theorem run_alternatives {name : Token} {value : Value} (sees : machine.Sees name value)
    (truthy : value.isTruthy = true) (depth count : Nat) :
    ∃ result, result.isTruthy = true ∧
      (Task.evaluate (.alternatives name count)).run setting (depth + 2 * count) setting.turns
          machine =
        if depth < 4 then .error .tooDeep machine else .ok result machine := by
  induction count with
  | zero =>
      refine ⟨value, truthy, ?_⟩
      split
      · next shallow =>
          rw [Nat.mul_zero, Nat.add_zero, Task.run_evaluate_of_shallow _ _ _ _ shallow]
      · next deep =>
          rcases Nat.exists_eq_add_of_le' (Nat.not_lt.mp deep) with ⟨depth, rfl⟩
          exact (Task.run_evaluate setting depth _ machine _).trans (read_of_sees sees)
  | succ count ih =>
      rcases ih with ⟨result, resultTruthy, evaluated⟩
      refine ⟨.boolean true, rfl, ?_⟩
      rw [Expr.alternatives, Function.iterate_succ_apply', ← Expr.alternatives]
      by_cases shallow : depth + 2 * (count + 1) < 4
      · rw [Task.run_evaluate_of_shallow _ _ _ _ shallow, if_pos (by omega)]
      · rcases Nat.exists_eq_add_of_le' (Nat.not_lt.mp shallow) with ⟨room, isRoom⟩
        have inside : room + 2 = depth + 2 * count := by omega
        rw [isRoom, Task.run_evaluate]
        dsimp only
        rw [inside, evaluated]
        split
        · rfl
        · simp only [andThen_ok, resultTruthy]
          rfl

theorem Machine.leave_enter (machine : Machine) (enclosing : Option FrameId) :
    (machine.enter enclosing).leave machine.current machine.heap.size = machine := by
  have sameHeap : (machine.heap.push { enclosing }).shrink machine.heap.size = machine.heap := by
    refine Heap.ext_getElem? fun id => ?_
    rw [Heap.getElem?_shrink, Heap.getElem?_push]
    split
    · next isOld => rw [if_neg (Nat.ne_of_lt isOld)]
    · next isNew => exact (Array.getElem?_eq_none (Nat.not_lt.mp isNew)).symm
  unfold enter leave
  rw [sameHeap]

variable (setting) in
theorem run_deepBody {name : Token} {value : Value} (sees : machine.Sees name value)
    (truthy : value.isTruthy = true) (running : machine.interrupted = false) (depth count : Nat) :
    (Task.execute (.block (deepBody name count))).run setting (depth + 2 * count + 9) setting.turns
        machine =
      if depth < 3 then .error .tooDeep machine
      else .ok (.breakLoop (some { kind := .breakWord, lexeme := "break" })) machine := by
  have entered : (machine.enter machine.current).interrupted = false := running
  have enteredTwice : ((machine.enter machine.current).enter
      (machine.enter machine.current).current).interrupted = false := running
  rcases run_alternatives setting sees.enter.enter truthy (depth + 1) count with
    ⟨result, -, evaluated⟩
  have inside : depth + 2 * count + 1 = depth + 1 + 2 * count := by omega
  -- The alternatives are evaluated behind two blocks and a statement.
  have first : (Task.execute (.block [.expression (.alternatives name count)])).run setting
      (depth + 2 * count + 3 + 3) setting.turns (machine.enter machine.current) =
        if depth < 3 then .error .tooDeep (machine.enter machine.current)
        else .ok .normal (machine.enter machine.current) := by
    rw [Task.run_execute _ _ _ entered]
    dsimp only
    rw [Task.run_executeAll_singleton, Task.run_execute _ _ _ enteredTwice]
    dsimp only
    rw [inside, evaluated]
    by_cases shallow : depth < 3
    · rw [if_pos shallow, if_pos (Nat.add_lt_add_right shallow 1)]
      simp only [andThen_error, after_error, Machine.leave_enter]
    · rw [if_neg shallow, if_neg (by omega)]
      simp only [andThen_ok, after_ok, Machine.leave_enter]
  rw [Task.run_execute _ (depth + 2 * count + 3 + 3) _ running]
  dsimp only [deepBody]
  rw [Task.run_executeAll_cons, first]
  split
  · simp only [andThen_error, after_error, machine.leave_enter]
  · rw [andThen_ok]
    dsimp only
    rw [Task.run_executeAll_singleton, Task.run_execute _ (depth + 2 * count + 3) _ entered,
      after_ok, machine.leave_enter]

theorem run_endlessLoop (depth turns : Nat) (body : Stmt) (machine : Machine) :
    (Task.loop (.literal (.boolean true)) body none).run setting (depth + 4) (turns + 1) machine =
      andThen ((Task.execute body).run setting (depth + 4) setting.turns machine)
        fun completion machine =>
          match completion with
          | .breakLoop _ => .ok .normal machine
          | .returned keyword value => .ok (.returned keyword value) machine
          | .normal | .continueLoop _ =>
              (Task.loop (.literal (.boolean true)) body none).run setting (depth + 4) turns
                machine := by
  rw [Task.run_loop, Task.run_evaluate]
  rfl

theorem run_endless (running : machine.interrupted = false) (depth : Nat) (body : Stmt) :
    (Task.execute (.block [.hole, .whileLoop (.literal (.boolean true)) body none])).run setting
        (depth + 9) setting.turns machine =
      Outcome.after (·.leave machine.current machine.heap.size)
        ((Task.loop (.literal (.boolean true)) body none).run setting (depth + 4) setting.turns
          (machine.enter machine.current)) := by
  have entered : (machine.enter machine.current).interrupted = false := running
  rw [Task.run_execute _ (depth + 6) _ running]
  dsimp only
  rw [Task.run_executeAll_cons, Task.run_execute _ (depth + 3) _ entered, andThen_ok]
  dsimp only
  rw [Task.run_executeAll_singleton, Task.run_execute _ (depth + 3) _ entered]

section Deep

variable {name : Token} {value : Value} (sees : machine.Sees name value)
  (truthy : value.isTruthy = true) (running : machine.interrupted = false) {turns : Nat}
  (isTurns : setting.turns = turns + 1)
include sees truthy running isTurns

theorem run_deepDesugared {room count : Nat} (enough : 2 * count + 17 ≤ room) :
    (Task.execute (.desugarFor none none none (.block (deepBody name count)))).run setting
      room setting.turns machine = .ok .normal machine := by
  have entered : (machine.enter machine.current).interrupted = false := running
  rcases Nat.exists_eq_add_of_le' enough with ⟨depth, rfl⟩
  have body := run_deepBody setting sees.enter truthy entered (depth + 3) count
  have outside : depth + (2 * count + 17) = depth + 2 * count + 8 + 9 := by omega
  have inside : depth + 2 * count + 8 + 4 = depth + 3 + 2 * count + 9 := by omega
  dsimp only [Stmt.desugarFor, Option.getD]
  rw [outside, run_endless running, isTurns, run_endlessLoop, inside, body, if_neg (by omega)]
  simp only [andThen_ok, after_ok, machine.leave_enter]

theorem run_deepFor {room count : Nat} (enough : 2 * count + 19 ≤ room) :
    (Task.execute (.forLoop none none none (.block (deepBody name count)))).run setting
      room setting.turns machine = .ok .normal machine := by
  rcases Nat.exists_eq_add_of_le' (Nat.le_trans (Nat.le_add_left 3 _) enough) with ⟨depth, rfl⟩
  rw [Task.run_execute _ _ _ running]
  exact run_deepDesugared sees truthy running isTurns (by omega)

theorem run_deepTextbook (count : Nat) :
    (Task.execute (.textbookFor none none none (.block (deepBody name count)))).run setting
      (2 * count + 19) setting.turns machine = .error .tooDeep machine := by
  have entered : (machine.enter machine.current).interrupted = false := running
  have enteredTwice : ((machine.enter machine.current).enter
      (machine.enter machine.current).current).interrupted = false := running
  have body := run_deepBody setting sees.enter.enter truthy enteredTwice 2 count
  have inside : 2 * count + 10 + 4 = 2 + 2 * count + 9 + 3 := by omega
  dsimp only [Stmt.textbookFor, Option.getD, Option.map, Option.toList]
  rw [run_endless running (2 * count + 10), isTurns, run_endlessLoop, inside,
    Task.run_execute _ _ _ entered]
  dsimp only
  rw [Task.run_executeAll_singleton, body]
  simp only [Nat.lt_add_one, if_true, andThen_error, after_error, Machine.leave_enter]

end Deep

/-- At the limit of the stack the two forms differ: the body of the textbook form has less room. The
loop needs all the room there is, and its textbook form would need one call more. -/
theorem textbook_overflows_first :
    ∃ statements, (∀ keyword, ¬Stmt.Occurs false (.continueLoop keyword) (.block statements)) ∧
      let loop := Stmt.forLoop none none none (.block statements)
      (interpret (.standard fun _ => 0) [loop] Machine.initial).1 = .finished ∧
      (interpret (.standard fun _ => 0) [loop.desugar] Machine.initial).1 = .finished ∧
      (interpret (.standard fun _ => 0) [.textbookFor none none none (.block statements)]
        Machine.initial).1 = .faulted ⟨none, .stackOverflow⟩ := by
  let clock : Token := { kind := .identifier, lexeme := "clock" }
  have sees : Machine.initial.Sees clock
      (.callable ((Callable.native "clock" 0 .clock).reference 0)) :=
    ⟨_, _, .here rfl (by decide), rfl, rfl⟩
  have running : Machine.initial.interrupted = false := rfl
  have isTurns : (Setting.standard fun _ => 0).turns = 999999999999999999 + 1 := rfl
  have room : (Setting.standard fun _ => 0).depth = 2 * 49988 + 19 := rfl
  have executed (statement : Stmt) :
      executeAll (execute (.standard fun _ => 0) (Setting.standard fun _ => 0).depth) [statement]
          Machine.initial =
        (Task.execute statement).run (.standard fun _ => 0) (2 * 49988 + 19)
          (Setting.standard fun _ => 0).turns Machine.initial := by
    rw [← room]
    exact Task.run_executeAll_singleton _ _ (Setting.standard fun _ => 0).turns _ statement
  refine ⟨deepBody clock 49988, ?_, ?_, ?_, ?_⟩
  · intro keyword occurs
    cases occurs with
    | block isStatement occurs =>
        simp only [deepBody, List.mem_cons, List.not_mem_nil, or_false] at isStatement
        rcases isStatement with rfl | rfl
        · cases occurs with
          | block isStatement occurs =>
              rw [List.mem_singleton.mp isStatement] at occurs
              cases occurs
        · cases occurs
  · rw [interpret, executed, run_deepFor sees rfl running isTurns (Nat.le_refl _)]
    rfl
  · rw [interpret, executed, Stmt.desugar,
      run_deepDesugared sees rfl running isTurns (by omega)]
    rfl
  · rw [interpret, executed, run_deepTextbook sees rfl running isTurns]
    rfl

end LoxLang

import LoxLang.Proofs.Exits
import LoxLang.Proofs.Reaching

/-!
# Errors of the host

In a session whose only native is the clock, one error of the host can end a run: a text is to be
repeated by a finite number whose floor the host cannot count to, while the result would not be too
long. Whatever else goes wrong is a diagnostic or a fault, and the answer of the run says which.
-/

namespace LoxLang

open Outcome

/-! ## Machines on which nothing else ends a run -/

/-- All functions, and the natives that do not end a run. -/
def Repertoire.harmless : Repertoire :=
  .fitting (fun _ _ => True) (fun _ => False) (fun _ _ _ => trivial)

theorem Repertoire.covers_harmless (statement : Stmt) : harmless.Covers statement :=
  fun _ _ _ _ => trivial

/-- Whether neither a native nor an interrupt ends a run on a machine. -/
structure Machine.Steady (machine : Machine) : Prop where
  within : machine.Within .harmless
  running : machine.interrupted = false

variable {clock : Nat → Float} {α β : Type} {task : Task α} {part : Task β}
  {machine machine' : Machine}

namespace Machine.Steady

theorem initial : Machine.initial.Steady :=
  ⟨within_initial trivial, rfl⟩

theorem evolve (steady : machine.Steady) {activity : Activity}
    (evolves : Evolves .harmless activity machine machine') : machine'.Steady :=
  ⟨evolves.within steady.within, evolves.interrupted_eq.trans steady.running⟩

theorem enter (steady : machine.Steady) (enclosing : Option FrameId) :
    (machine.enter enclosing).Steady :=
  ⟨steady.within, steady.running⟩

/-- What a part that was done before leaves of the machine. -/
theorem runs (steady : machine.Steady) {result : α}
    (runs : Runs clock task machine (.ok result machine')) (covered : task.CoveredBy .harmless) :
    machine'.Steady :=
  steady.evolve (runs.evolves covered steady.within)

theorem declares (steady : machine.Steady) {names : List Token} {values : List Value}
    (declares : Declares names values machine (.ok () machine')) : machine'.Steady := by
  have lawful : Lawful .harmless .execution machine (fun _ => True)
      (Run.defineAll names values machine) := lawful_defineAll names values
  rw [Run.declares_iff.mp declares] at lawful
  exact steady.evolve lawful.1

end Machine.Steady

/-- Whatever is begun in the course of a run is begun on a steady machine if the run was, and calls
no native that ends a run. -/
theorem Begins.steady (begins : Begins clock task machine part machine')
    (steady : machine.Steady) : machine'.Steady ∧ part.CoveredBy .harmless := by
  have covers := Repertoire.covers_harmless
  cases begins with
  | grouping | assigned | operand | binaryLeft | logicalLeft | ternaryCondition | callee | present
  | firstExpression | expression | printed | initializer | returned | ifCondition
  | loopCondition => exact ⟨steady, trivial⟩
  | firstStatement | whileLoop | forLoop => exact ⟨steady, covers _⟩
  | binaryRight evaluated | logicalRight evaluated | ternaryThen evaluated | ternaryElse evaluated
  | arguments evaluated | otherExpressions evaluated =>
      exact ⟨steady.runs evaluated trivial, trivial⟩
  | ifThen _ evaluated | ifElse _ evaluated | loopBody evaluated =>
      exact ⟨steady.runs evaluated trivial, covers _⟩
  | call evaluated evaluatedAll denotes =>
      have steady' := (steady.runs evaluated trivial).runs evaluatedAll trivial
      rcases denotes with ⟨reference, -, isTarget⟩
      exact ⟨steady', steady'.within _ (Array.mem_of_getElem? isTarget)⟩
  | functionBody declares =>
      exact ⟨(steady.enter _).declares declares, fun statement _ => covers statement⟩
  | block => exact ⟨steady.enter _, fun statement _ => covers statement⟩
  | otherStatements executed =>
      exact ⟨steady.runs executed (covers _), fun statement _ => covers statement⟩
  | loopStep tested _ executed =>
      exact ⟨(steady.runs tested trivial).runs executed (covers _), trivial⟩
  | loopAgain tested _ executed _ stepped =>
      have steady' := (steady.runs tested trivial).runs executed (covers _)
      exact ⟨steady'.runs stepped trivial, covers _⟩

/-! ## Where errors of the host come from -/

/-- The error of the host that a repetition with too large a count is. -/
def Abort.uncountable : Abort :=
  .host .countTooLarge "cannot fit 'int' into an index-sized integer"

/-- `Uncountable clock expression machine` says that an expression repeats a text by a finite number
whose floor the host cannot count to, although the result would not be too long. -/
inductive Uncountable (clock : Nat → Float) : Expr → Machine → Prop
  | intro {left right : Expr} {operator : Token} {machine machine' machine'' : Machine}
      {text : String} {number : Float} {mark : Nat} {count : Int} (isStar : operator.kind = .star)
      (evaluatedLeft : Runs clock (.evaluate left) machine (.ok (.string text) machine'))
      (evaluatedRight : Runs clock (.evaluate right) machine' (.ok (.number number mark) machine''))
      (isFloor : (Decimal.Binary.ofFloat number).floor? = some count)
      (outside : count < -Operator.countLimit ∨ Operator.countLimit ≤ count)
      (small : text.length * count ≤ Operator.maxRepetition) :
      Uncountable clock (.binary left operator right) machine

/-- `Traced clock task machine reason` says that a reason to end early is a fault of the program, or
the error of the host that the evaluation of a repetition is which the run has come to. -/
inductive Traced (clock : Nat → Float) {α : Type} (task : Task α) (machine : Machine) :
    Abort → Prop
  | fault (fault : Fault) : Traced clock task machine (.fault fault)
  | uncountable {expression : Expr} {machine' : Machine}
      (reaches : Reaches clock task machine (.evaluate expression) machine')
      (isUncountable : Uncountable clock expression machine') :
      Traced clock task machine .uncountable

/-- What ended a part is traced in the whole if it is traced in the part. -/
theorem Begins.traced (begins : Begins clock task machine part machine') (steady : machine.Steady)
    {reason : Abort} {after : Machine}
    -- The equation is trivial: it is what an induction over runs that end early assumes of a part.
    (traced : machine'.Steady → part.CoveredBy .harmless →
      (.error reason after : Outcome β) = .error reason after → Traced clock part machine' reason) :
    Traced clock task machine reason := by
  rcases begins.steady steady with ⟨steady', covered⟩
  cases traced steady' covered rfl with
  | fault fault => exact .fault fault
  | uncountable reaches isUncountable => exact .uncountable (.inside begins reaches) isUncountable

theorem Operator.Unary.exists_fault {operator : Token} {operand : Value} {reason : Abort}
    (faulted : Operator.Unary operator operand (.error reason)) :
    ∃ fault, reason = .fault fault := by
  cases faulted <;> exact ⟨_, rfl⟩

theorem Declares.exists_fault {names : List Token} {values : List Value} {reason : Abort}
    (declares : Declares names values machine (.error reason machine')) :
    ∃ fault, reason = .fault fault := by
  generalize isOutcome : (EStateM.Result.error reason machine' : Outcome Unit) = outcome at declares
  induction declares with
  | noName | noValue => cases isOutcome
  | next _ _ ih => exact ih isOutcome
  | taken =>
      cases isOutcome
      exact ⟨_, rfl⟩

theorem Run.act_ne_error {name : String} {arity : Int} {action : Action}
    (isHarmless : Repertoire.harmless.Has (.native name arity action)) (arguments : List Value)
    (reason : Abort) : act clock arguments action machine ≠ .error reason machine' := by
  intro aborted
  cases action with
  | clock | pick | produce => cases aborted
  | abort => exact isHarmless

/-- An operator ends a run with a fault, unless it is a repetition that cannot be counted. -/
theorem traced_binary {left right : Expr} {operator : Token} {first second : Value}
    {machine'' : Machine} {reason : Abort}
    (evaluatedLeft : Runs clock (.evaluate left) machine (.ok first machine'))
    (evaluatedRight : Runs clock (.evaluate right) machine' (.ok second machine''))
    (faulted : Operator.Binary operator first second (.error reason)) :
    Traced clock (.evaluate (.binary left operator right)) machine reason := by
  cases faulted with
  | uncountable isStar isFloor small outside =>
      exact .uncountable .here ⟨isStar, evaluatedLeft, evaluatedRight, isFloor, outside, small⟩
  | notAddable | endless | huge | notMultipliable | divisionByZero | notNumbers | unknown =>
      exact .fault _

/-- Whatever ends a run early on a steady machine is a fault of the program or is traced to a
repetition that cannot be counted. -/
theorem Runs.traced {reason : Abort} (runs : Runs clock task machine (.error reason machine'))
    (steady : machine.Steady) (covered : task.CoveredBy .harmless) :
    Traced clock task machine reason := by
  generalize isOutcome : EStateM.Result.error reason machine' = outcome at runs
  -- Every rule that hands on the reason of a part says which part was begun on which machine.
  induction runs generalizing machine' with
  | literal | read | assign | unary | binary | orTrue | andFalse | logical | absent | noExpression
  | nextExpression | function | hole | expression | print | var | ifNothing | breakLoop
  | continueLoop | declare | returnValue | noStatement | lastStatement | loopEnd | loopBreak
  | loopReturn => cases isOutcome
  | readUndefined | assignUndefined | callNothing | callArity | functionStray | varTaken
  | declareTaken =>
      cases isOutcome
      exact .fault _
  | unaryFault _ faulted =>
      cases isOutcome
      rcases faulted.exists_fault with ⟨fault, rfl⟩
      exact .fault fault
  | binaryFault evaluatedLeft evaluatedRight faulted =>
      cases isOutcome
      exact traced_binary evaluatedLeft evaluatedRight faulted
  | functionTaken declares =>
      cases isOutcome
      rcases declares.exists_fault with ⟨fault, rfl⟩
      exact .fault fault
  | native => exact absurd isOutcome.symm (Run.act_ne_error covered _ _)
  | interrupted pending => exact absurd (pending.symm.trans steady.running) (by decide)
  | grouping _ ih =>
      subst isOutcome
      exact Begins.grouping.traced steady ih
  | assignAbort _ ih =>
      cases isOutcome
      exact Begins.assigned.traced steady ih
  | unaryAbort _ ih =>
      cases isOutcome
      exact Begins.operand.traced steady ih
  | binaryAbortLeft _ ih =>
      cases isOutcome
      exact Begins.binaryLeft.traced steady ih
  | binaryAbortRight evaluated _ _ ih =>
      cases isOutcome
      exact (Begins.binaryRight evaluated).traced steady ih
  | logicalAbortLeft _ ih =>
      cases isOutcome
      exact Begins.logicalLeft.traced steady ih
  | logicalAbortRight evaluated needed _ _ ih =>
      cases isOutcome
      exact (Begins.logicalRight evaluated needed).traced steady ih
  | ternaryThen tested truthy _ _ ih =>
      subst isOutcome
      exact (Begins.ternaryThen tested truthy).traced steady ih
  | ternaryElse tested falsy _ _ ih =>
      subst isOutcome
      exact (Begins.ternaryElse tested falsy).traced steady ih
  | ternaryAbort _ ih =>
      cases isOutcome
      exact Begins.ternaryCondition.traced steady ih
  | call evaluated evaluatedAll denotes fits _ _ _ ih =>
      subst isOutcome
      exact (Begins.call evaluated evaluatedAll denotes fits).traced steady ih
  | callAbortCallee _ ih =>
      cases isOutcome
      exact Begins.callee.traced steady ih
  | callAbortArguments evaluated _ _ ih =>
      cases isOutcome
      exact (Begins.arguments evaluated).traced steady ih
  | present _ ih =>
      subst isOutcome
      exact Begins.present.traced steady ih
  | expressionsAbort _ ih =>
      cases isOutcome
      exact Begins.firstExpression.traced steady ih
  | expressionsAbortLater evaluated _ _ ih =>
      cases isOutcome
      exact (Begins.otherExpressions evaluated).traced steady ih
  | functionAbort declares _ ih =>
      cases isOutcome
      exact (Begins.functionBody declares).traced steady ih
  | expressionAbort running _ ih =>
      cases isOutcome
      exact (Begins.expression running).traced steady ih
  | printAbort running _ ih =>
      cases isOutcome
      exact (Begins.printed running).traced steady ih
  | varAbort running _ ih =>
      cases isOutcome
      exact (Begins.initializer running).traced steady ih
  | @block _ _ outcome running _ ih =>
      cases outcome with
      | ok => cases isOutcome
      | error =>
          cases isOutcome
          exact (Begins.block running).traced steady ih
  | ifThen running tested truthy _ _ ih =>
      subst isOutcome
      exact (Begins.ifThen running tested truthy).traced steady ih
  | ifElse running tested falsy _ _ ih =>
      subst isOutcome
      exact (Begins.ifElse running tested falsy).traced steady ih
  | ifAbort running _ ih =>
      cases isOutcome
      exact (Begins.ifCondition running).traced steady ih
  | whileLoop running _ ih =>
      subst isOutcome
      exact (Begins.whileLoop running).traced steady ih
  | forLoop running _ ih =>
      subst isOutcome
      exact (Begins.forLoop running).traced steady ih
  | returnAbort running _ ih =>
      cases isOutcome
      exact (Begins.returned running).traced steady ih
  | nextStatement executed _ _ ih =>
      subst isOutcome
      exact (Begins.otherStatements executed).traced steady ih
  | statementsAbort _ ih =>
      cases isOutcome
      exact Begins.firstStatement.traced steady ih
  | loopAbort _ ih =>
      cases isOutcome
      exact Begins.loopCondition.traced steady ih
  | loopAbortBody tested truthy _ _ ih =>
      cases isOutcome
      exact (Begins.loopBody tested truthy).traced steady ih
  | loopAgain tested truthy executed goesOn stepped _ _ _ _ ih =>
      subst isOutcome
      exact (Begins.loopAgain tested truthy executed goesOn stepped).traced steady ih
  | loopAbortStep tested truthy executed goesOn _ _ _ ih =>
      cases isOutcome
      exact (Begins.loopStep tested truthy executed goesOn).traced steady ih

/-! ## Runs of a session -/

/-- A program that is ended early by something else than a fault, and not because a loop has used up
its turns, has come to a repetition that cannot be counted. -/
theorem uncountable_of_escaped {setting : Setting} {program : List Stmt} {reason : Abort}
    (steady : machine.Steady)
    (escaped : (interpret setting program machine).1 = .escaped reason)
    (notExhausted : reason ≠ .exhausted) :
    reason = .uncountable ∧ ∃ expression machine',
      Reaches setting.clock (.executeAll program) machine (.evaluate expression) machine' ∧
        Uncountable setting.clock expression machine' := by
  unfold interpret at escaped
  cases isOutcome : Run.executeAll (execute setting setting.depth) program machine with
  | ok completion after =>
      rw [isOutcome] at escaped
      cases completion <;> cases escaped
  | error reason' after =>
      rw [isOutcome] at escaped
      have notLimited : ¬ Limited (.error reason' after : Outcome Completion) := by
        rintro (rfl | rfl)
        · cases escaped
        · cases escaped
          exact notExhausted rfl
      have runs : Runs setting.clock (.executeAll program) machine (.error reason' after) :=
        runs_of_run isOutcome notLimited
      cases runs.traced steady fun statement _ => Repertoire.covers_harmless statement with
      | fault fault => cases escaped
      | uncountable reaches isUncountable =>
          cases escaped
          exact ⟨rfl, _, _, reaches, isUncountable⟩

namespace Session

theorem Ran.steady {programs : List (List Stmt)} {session : Session} (ran : session.Ran programs) :
    session.machine.Steady := by
  induction ran with
  | start => exact .initial
  | aside _ sameMachine ih => rwa [sameMachine]
  | @run _ session _ setting source ih =>
      rcases session.final_run_machine source setting with isMachine | isMachine
      · rwa [isMachine]
      · have covers : ∀ statement ∈ session.accepted source, Repertoire.harmless.Covers statement :=
          fun statement _ => Repertoire.covers_harmless statement
        have executed :=
          (lawfulWithin .harmless setting setting.depth).executeAll covers ih.within
        rw [isMachine, interpret_machine]
        exact ⟨executed.evolves.within ih.within, rfl⟩

/-- Whether no loop uses up its turns when a source is run. -/
def Terminates (setting : Setting) (source : String) (session : Session) : Prop :=
  ∀ after, run setting source session ≠ .error .exhausted after

/-- `Explained setting source session result` says that a result of a run is explained: by the
absence of errors, by diagnostics that are waiting, by a fault that this run has recorded, or by a
repetition that cannot be counted. If trees are shown, it may also be explained by a tree for which
there is no room. -/
inductive Explained (setting : Setting) (source : String) (session : Session) :
    EStateM.Result Abort Session Bool → Prop
  | faultless {after : Session} (queue : session.reporter.queue = [])
      (diagnostics : (session.parsed source).diagnostics = [])
      (recordsNone : ∀ fault, ¬ session.Records setting source fault)
      (sameQueue : after.reporter.queue = [])
      (sameFault : after.reporter.runtimeError = session.reporter.runtimeError) :
      Explained setting source session (.ok true after)
  | diagnosed {after : Session} (notEmpty : after.reporter.queue ≠ [])
      (isQueue : after.reporter.queue =
        session.reporter.queue ++ (session.parsed source).diagnostics)
      (recordsNone : ∀ fault, ¬ session.Records setting source fault)
      (sameFault : after.reporter.runtimeError = session.reporter.runtimeError)
      (sameMachine : after.machine = session.machine) :
      Explained setting source session (.ok false after)
  | faulted {after : Session} {fault : Fault} (records : session.Records setting source fault)
      (sameQueue : after.reporter.queue = [])
      (isFault : after.reporter.runtimeError = some fault.diagnostic) :
      Explained setting source session (.ok false after)
  | uncountable {after : Session} {expression : Expr} {machine : Machine}
      (reaches : Reaches setting.clock (.executeAll (session.accepted source)) session.machine
        (.evaluate expression) machine)
      (isUncountable : Uncountable setting.clock expression machine) :
      Explained setting source session
        (.error (.host .countTooLarge "cannot fit 'int' into an index-sized integer") after)
  | unprintable {after : Session} (isShown : session.mode.showTree = true)
      (noText : Printer.print (session.parsed source).statements = none) :
      Explained setting source session (.error unprintable after)

/-- What explains the verdict on a program explains the result of a run that interprets it. -/
theorem explained_of_admits {setting : Setting} {source : String} {session : Session}
    (steady : session.machine.Steady) (terminates : session.Terminates setting source)
    (admits : session.Admits source) :
    session.Explained setting source (run setting source session) := by
  have isAccepted : session.accepted source = (session.parsed source).statements := if_pos admits
  have isQueue : (session.prepared source).reporter.queue = [] := by
    rw [prepared_reporter]
    exact admits.1
  have isRun := session.run_of_admits source admits setting
  rw [interpret_eq, prepared_machine, ← isAccepted] at isRun
  cases isVerdict : LoxLang.interpret setting (session.accepted source) session.machine with
  | mk verdict machine =>
      rw [isVerdict] at isRun
      cases verdict with
      | finished =>
          rcases List.append_eq_nil_iff.mp admits.1 with ⟨queue, diagnostics⟩
          rw [isRun]
          refine .faultless queue diagnostics (fun fault records => ?_) isQueue
            (session.prepared_runtimeError source)
          rw [Records, isVerdict] at records
          cases records.2
      | faulted fault =>
          rw [isRun]
          exact .faulted ⟨admits, by rw [isVerdict]⟩ isQueue rfl
      | escaped reason =>
          have notExhausted : reason ≠ .exhausted := by
            rintro rfl
            exact terminates _ isRun
          have escaped : (LoxLang.interpret setting (session.accepted source) session.machine).1 =
              .escaped reason := by rw [isVerdict]
          rcases uncountable_of_escaped steady escaped notExhausted with
            ⟨rfl, expression, machine', reaches, isUncountable⟩
          rw [isRun]
          exact .uncountable reaches isUncountable

/-- After any runs of a session, every run that terminates answers whether there were errors, with
the diagnostics or the fault that explain it, or it ends with an error of the host because a text is
repeated by a number whose floor cannot be counted. No other error of the host escapes, unless the
tree of the source is to be shown and there is no room for it. -/
theorem run_explained {programs : List (List Stmt)} {session : Session}
    (ran : session.Ran programs) {setting : Setting} {source : String}
    (terminates : session.Terminates setting source) :
    session.Explained setting source (run setting source session) := by
  by_cases quiet : session.reporter.queue ++ (session.parsed source).diagnostics = []
  · by_cases shown : session.Shows source
    · exact explained_of_admits ran.steady terminates ⟨quiet, shown⟩
    · rw [run_eq, if_pos quiet, if_neg shown]
      rcases not_shows_iff.mp shown with ⟨isShown, noText⟩
      exact .unprintable isShown noText
  · rw [run_eq, if_neg quiet]
    refine .diagnosed quiet rfl (fun fault records => ?_) rfl rfl
    exact quiet records.1.1

/-- What ended a run early, by its name and its wording. -/
def ended : EStateM.Result Abort Session Bool → Option (String × String)
  | .ok _ _ => none
  | .error reason _ => some (reason.name, reason.message)

/-- A function that repeats a text by a number that nothing can count to, and a call of it. -/
def endlessPadding : String :=
  "fun pad(text) \x7b return text * 10000000000000000000; \x7d print pad(\"\");"

theorem run_explained_endlessPadding :
    let session : Session := ⟨{}, {}, .initial, {}⟩
    session.Terminates ⟨30, 5, fun _ => 0⟩ endlessPadding ∧
      ∃ after, run ⟨30, 5, fun _ => 0⟩ endlessPadding session = .error .uncountable after ∧
        ∃ expression machine,
          Reaches (fun _ => 0) (.executeAll (session.accepted endlessPadding)) session.machine
            (.evaluate expression) machine ∧
          Uncountable (fun _ => 0) expression machine := by
  intro session
  have isEnded : ended (run ⟨30, 5, fun _ => 0⟩ endlessPadding session) =
      some ("OverflowError", "cannot fit 'int' into an index-sized integer") := by
    decide +kernel
  have terminates : session.Terminates ⟨30, 5, fun _ => 0⟩ endlessPadding := by
    intro after isRun
    rw [isRun] at isEnded
    simp [ended, Abort.name] at isEnded
  refine ⟨terminates, ?_⟩
  cases isRun : run ⟨30, 5, fun _ => 0⟩ endlessPadding session with
  | ok answer after =>
      rw [isRun] at isEnded
      cases isEnded
  | error reason after =>
      have explained := run_explained (.start {} {}) terminates
      rw [isRun] at explained
      cases explained with
      | uncountable reaches isUncountable => exact ⟨_, rfl, _, _, reaches, isUncountable⟩
      | unprintable isShown => cases isShown

end Session

end LoxLang

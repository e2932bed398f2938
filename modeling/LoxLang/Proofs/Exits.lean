import LoxLang.Proofs.Evolution
import LoxLang.Proofs.SessionSteps

/-!
# Leaving loops and functions

A `break` or `continue` is caught by the loop around it and a `return` by the function around it,
and by nothing else. So a completion that leaves a statement has the keyword of a statement in it
that no loop or function in it is there to catch. One that nothing catches is a fault, either of the
function in whose body it stands or of the program. Programs and functions without such statements
do not have these faults.
-/

namespace LoxLang

open Run Outcome

/-- Whether a fault is that of a completion which nothing catches. -/
def Fault.IsStray (fault : Fault) : Prop :=
  (∃ word, fault.cause = .strayLoopExit word) ∨ fault.cause = .strayReturn

namespace Stmt

/-- `StrayExit body fault` says that a fault is that of a `break` or `continue` in a body which
stands in none of its loops and in none of the functions that it declares. -/
inductive StrayExit (body : List Stmt) : Fault → Prop
  | breakLoop {statement : Stmt} {keyword : Option Token} (isStatement : statement ∈ body)
      (occurs : Occurs false (.breakLoop keyword) statement) :
      StrayExit body ⟨keyword, .strayLoopExit "break"⟩
  | continueLoop {statement : Stmt} {keyword : Option Token} (isStatement : statement ∈ body)
      (occurs : Occurs false (.continueLoop keyword) statement) :
      StrayExit body ⟨keyword, .strayLoopExit "continue"⟩

/-- `StrayReturn program fault` says that a fault is that of a `return` which stands in none of the
functions that a program declares. -/
inductive StrayReturn (program : List Stmt) : Fault → Prop
  | intro {statement : Stmt} {keyword : Option Token} {value : Option Expr}
      (isStatement : statement ∈ program)
      (occurs : Occurs true (.returnValue keyword value) statement) :
      StrayReturn program ⟨keyword, .strayReturn⟩

/-- Whether a program and the functions that it declares, at any depth, leave no loop outside of
one. -/
def Orderly (program : List Stmt) : Prop :=
  ∀ body, Belongs program body → ∀ fault, ¬ StrayExit body fault

/-- What leaves the statements of a program and is caught by nothing is a stray exit or return. -/
theorem stray_of_endWith {program : List Stmt} {completion : Completion} {fault : Fault}
    (ends : EndWith program completion) (isStray : completion.stray? = some fault) :
    StrayExit program fault ∨ StrayReturn program fault := by
  rcases ends with rfl | ⟨statement, isStatement, ends⟩
  · cases isStray
  cases completion with
  | normal => cases isStray
  | breakLoop keyword =>
      cases isStray
      exact .inl (.breakLoop isStatement ends)
  | continueLoop keyword =>
      cases isStray
      exact .inl (.continueLoop isStatement ends)
  | returned keyword value =>
      cases isStray
      rcases ends with ⟨result, occurs⟩
      exact .inr ⟨isStatement, occurs⟩

end Stmt

/-! ## Where stray completions come from -/

/-- A run ends early because of a stray completion only in the body of a function, unless a native
pretends it. -/
theorem Raised.strayExit {repertoire : Repertoire} {fault : Fault}
    (raised : Raised repertoire (.fault fault)) (isStray : fault.IsStray) :
    (∃ name parameters body closure, repertoire.Has (.function name parameters body closure) ∧
      Stmt.StrayExit body fault) ∨
    ∃ name arity, repertoire.Has (.native name arity (.abort (.fault fault))) := by
  generalize isReason : Abort.fault fault = reason at raised
  cases raised with
  | strayBreak has isStatement occurs =>
      cases isReason
      exact .inl ⟨_, _, _, _, has, .breakLoop isStatement occurs⟩
  | strayContinue has isStatement occurs =>
      cases isReason
      exact .inl ⟨_, _, _, _, has, .continueLoop isStatement occurs⟩
  | native has =>
      cases isReason
      exact .inr ⟨_, _, has⟩
  | unary faulted => cases faulted <;> cases isReason <;> simp [Fault.IsStray] at isStray
  | binary faulted => cases faulted <;> cases isReason <;> simp [Fault.IsStray] at isStray
  | limit isLimit => rcases isLimit with rfl | rfl <;> cases isReason
  | undefined | taken | notCallable | wrongArity | interrupt =>
      cases isReason <;> simp [Fault.IsStray] at isStray

/-- A program that is interpreted has a stray completion only if it leaves the program, or in the
body of a function, unless a native pretends it. -/
theorem interpret_stray {repertoire : Repertoire} {setting : Setting} {program : List Stmt}
    {machine : Machine} {fault : Fault}
    (covers : ∀ statement ∈ program, repertoire.Covers statement)
    (known : machine.Within repertoire)
    (faulted : (interpret setting program machine).1 = .faulted fault) (isStray : fault.IsStray) :
    Stmt.StrayExit program fault ∨ Stmt.StrayReturn program fault ∨
      (∃ name parameters body closure, repertoire.Has (.function name parameters body closure) ∧
        Stmt.StrayExit body fault) ∨
      ∃ name arity, repertoire.Has (.native name arity (.abort (.fault fault))) := by
  have executed := (lawfulWithin repertoire setting setting.depth).executeAll covers known
  unfold interpret at faulted
  simp only [Task.run] at executed
  cases isOutcome : Run.executeAll (execute setting setting.depth) program machine with
  | ok completion after =>
      rw [isOutcome] at executed faulted
      have isFault : completion.stray? = some fault := by
        simp only [Verdict.ofCompletion] at faulted
        split at faulted
        · cases faulted
        · next isFault =>
            cases faulted
            exact isFault
      exact (Stmt.stray_of_endWith executed.2 isFault).imp_right .inl
  | error reason after =>
      rw [isOutcome] at executed faulted
      have isReason : reason = .fault fault := by
        cases reason <;> simp [Verdict.ofAbort] at faulted
        · rw [faulted]
        all_goals
          subst faulted
          simp [Fault.IsStray] at isStray
      rw [isReason] at executed
      exact .inr (.inr (executed.2.strayExit isStray))

/-! ## Sessions -/

namespace Session

/-- `Records setting source session fault` says that a fault is recorded when a source is run. -/
def Records (setting : Setting) (source : String) (session : Session) (fault : Fault) : Prop :=
  session.Admits source ∧
    (LoxLang.interpret setting (session.accepted source) session.machine).1 = .faulted fault

/-- A run that records a fault tells that there was an error and keeps the fault for the next
report. -/
theorem Records.run {setting : Setting} {source : String} {session : Session} {fault : Fault}
    (records : session.Records setting source fault) :
    ∃ after, run setting source session = .ok false after ∧
      after.reporter.runtimeError = some fault.diagnostic := by
  rcases records with ⟨admits, faulted⟩
  rw [run_of_admits _ _ admits]
  rw [accepted, if_pos admits] at faulted
  unfold interpret
  rw [prepared_machine]
  generalize LoxLang.interpret setting (session.parsed source).statements session.machine = ended
    at faulted
  rcases ended with ⟨verdict, machine⟩
  cases faulted
  exact ⟨_, rfl, rfl⟩

/-- A run that records no fault leaves the fault that is to be reported as it is. -/
theorem runtimeError_of_not_records {setting : Setting} {source : String} {session : Session}
    (recordsNone : ∀ fault, ¬ session.Records setting source fault) :
    (final (run setting source session)).reporter.runtimeError = session.reporter.runtimeError := by
  by_cases admits : session.Admits source
  · have notFaulted (fault : Fault) := mt (And.intro admits) (recordsNone fault)
    rw [run_of_admits _ _ admits]
    rw [accepted, if_pos admits] at notFaulted
    have sameError := session.prepared_runtimeError source
    unfold interpret
    rw [prepared_machine]
    generalize LoxLang.interpret setting (session.parsed source).statements session.machine =
      ended at notFaulted
    rcases ended with ⟨verdict, machine⟩
    cases verdict with
    | finished => exact sameError
    | faulted fault => exact absurd rfl (notFaulted fault)
    | escaped reason => exact sameError
  · rw [final_run_of_not_admits _ _ admits]
    rfl

end Session

/-- The functions of some programs. Their natives do not end a run. -/
def Repertoire.ofPrograms (programs : List (List Stmt)) : Repertoire :=
  .fitting (fun body _ => ∃ program ∈ programs, Stmt.Belongs program body) (fun _ => False)
    fun {_ _ _ _ _ _} isBody isStatement occurs => by
      rcases isBody with ⟨program, isProgram, belongs⟩
      exact ⟨program, isProgram, belongs.nested isStatement occurs⟩

/-- The functions whose bodies are orderly. Their natives do not pretend stray completions. -/
def Repertoire.orderly : Repertoire :=
  .fitting (fun body _ => Stmt.Orderly body)
    (fun reason => ∀ fault, reason = .fault fault → ¬ fault.IsStray)
    fun {_ _ _ _ _ _} isOrderly isStatement occurs inner belongs =>
      isOrderly inner (Stmt.Belongs.trans (.nested .whole isStatement occurs) belongs)

theorem Repertoire.covers_ofPrograms {programs : List (List Stmt)} {program : List Stmt}
    (isProgram : program ∈ programs) :
    ∀ statement ∈ program, (ofPrograms programs).Covers statement :=
  fun _ isStatement _ _ _ occurs => ⟨program, isProgram, .nested .whole isStatement occurs⟩

theorem Repertoire.covers_orderly {program : List Stmt} (isOrderly : Stmt.Orderly program) :
    ∀ statement ∈ program, orderly.Covers statement :=
  fun _ isStatement _ _ _ occurs inner belongs =>
    isOrderly inner (Stmt.Belongs.trans (.nested .whole isStatement occurs) belongs)

/-- All functions of a session come from the programs that were executed. -/
theorem Session.Ran.within {programs all : List (List Stmt)} {session : Session}
    (ran : session.Ran programs) (included : programs ⊆ all) :
    session.machine.Within (.ofPrograms all) := by
  induction ran with
  | start => exact Machine.within_initial trivial
  | aside _ sameMachine ih =>
      rw [sameMachine]
      exact ih included
  | @run programs session _ setting source ih =>
      rw [List.cons_subset] at included
      have known := ih included.2
      rcases session.evolves_run source setting (Repertoire.covers_ofPrograms included.1) known with
        ⟨machine, evolves, -, sameCallables⟩
      rw [Machine.Within, sameCallables]
      exact evolves.within known

/-! ## Faults of a session -/

/-- A stray completion that is recorded is that of a `break` or `continue` in no loop of the program
or function that it stands in, or of a `return` in no function. -/
theorem Session.Records.strayExit {programs : List (List Stmt)} {session : Session}
    (ran : session.Ran programs) {setting : Setting} {source : String} {fault : Fault}
    (records : session.Records setting source fault) (isStray : fault.IsStray) :
    (∃ program ∈ session.accepted source :: programs, ∃ body, Stmt.Belongs program body ∧
      Stmt.StrayExit body fault) ∨ Stmt.StrayReturn (session.accepted source) fault := by
  have known := ran.within (List.subset_cons_self (session.accepted source) programs)
  have isProgram : session.accepted source ∈ session.accepted source :: programs :=
    List.mem_cons_self
  have covers := Repertoire.covers_ofPrograms isProgram
  rcases interpret_stray covers known records.2 isStray with
    exits | returns | ⟨name, parameters, body, closure, has, exits⟩ | ⟨name, arity, has⟩
  · exact .inl ⟨_, isProgram, _, .whole, exits⟩
  · exact .inr returns
  · rcases has with ⟨program, isProgram, belongs⟩
    exact .inl ⟨program, isProgram, body, belongs, exits⟩
  · cases has

/-- An orderly program that does not return outside of functions has no stray completion if the
functions that are called are orderly. -/
theorem Session.Records.notStray {session : Session} (known : session.machine.Within .orderly)
    {setting : Setting} {source : String} {fault : Fault}
    (isOrderly : Stmt.Orderly (session.accepted source))
    (noReturn : ∀ fault, ¬ Stmt.StrayReturn (session.accepted source) fault)
    (records : session.Records setting source fault) : ¬ fault.IsStray := by
  intro isStray
  rcases interpret_stray (Repertoire.covers_orderly isOrderly) known records.2 isStray with
    exits | returns | ⟨name, parameters, body, closure, has, exits⟩ | ⟨name, arity, has⟩
  · exact isOrderly _ .whole fault exits
  · exact noReturn fault returns
  · exact has body .whole fault exits
  · exact has fault rfl isStray

/-! ## Loops of callers -/

/-- A call whose body was left by something else than a return ends early, with the fault of what
left it. -/
theorem invoke_of_stray {setting : Setting} {depth : Nat} {name : Token} {parameters : List Token}
    {body : List Stmt} {closure : Option FrameId} {arguments : List Value} {machine after : Machine}
    {completion : Completion} {fault : Fault} (isStray : completion.stray? = some fault)
    (notReturned : ∀ keyword value, completion ≠ .returned keyword value)
    (executed : andThen (defineAll parameters arguments (machine.enter closure))
      (fun _ machine => executeAll (execute setting depth) body machine) = .ok completion after) :
    invoke setting.clock (execute setting depth) (.function name parameters body closure) arguments
      machine = .error (.fault fault) (after.leave machine.current machine.heap.size) := by
  change (Task.call (.function name parameters body closure) arguments).run setting depth
    setting.turns machine = _
  rw [Task.run_function]
  simp only [Task.run, executed, Outcome.after_ok, Outcome.andThen_ok]
  cases completion with
  | normal => cases isStray
  | breakLoop keyword | continueLoop keyword =>
      cases isStray
      rfl
  | returned keyword value => exact absurd rfl (notReturned keyword value)

/-- `Turned turn count machine machine'` says that so many turns of a loop were taken, none of which
ended it. -/
inductive Run.Turned (turn : Run (Option Completion)) : Nat → Machine → Machine → Prop
  | start {machine : Machine} : Turned turn 0 machine machine
  | next {count : Nat} {machine middle machine' : Machine} (taken : turn machine = .ok none middle)
      (turned : Turned turn count middle machine') : Turned turn (count + 1) machine machine'

/-- The turns of a loop that are left after some were taken. -/
theorem Run.Turned.takeTurns_eq {turn : Run (Option Completion)} {count : Nat}
    {machine machine' : Machine} (turned : Turned turn count machine machine') (more : Nat) :
    takeTurns turn (count + more) machine = takeTurns turn more machine' := by
  induction turned with
  | start => rw [Nat.zero_add]
  | next taken _ ih =>
      rw [Nat.add_right_comm, takeTurns, taken]
      exact ih

/-- One turn of a `while` loop. -/
def Stmt.turn (setting : Setting) (depth : Nat) (condition : Expr) (body : Stmt)
    (increment : Option Expr) : Run (Option Completion) :=
  loopTurn (evaluate setting depth condition) (execute setting depth body)
    (increment.elim (pure ()) fun increment => discard (evaluate setting depth increment))

/-- What ends early in a turn of a loop ends the loop early, whichever turn it is. -/
theorem execute_whileLoop_of_error {setting : Setting} {depth count : Nat} {condition : Expr}
    {body : Stmt} {increment : Option Expr} {machine middle after : Machine} {reason : Abort}
    (running : machine.interrupted = false) (room : count < setting.turns)
    (turned : Turned (Stmt.turn setting (depth + 1) condition body increment) count machine middle)
    (aborted : Stmt.turn setting (depth + 1) condition body increment middle =
      .error reason after) :
    execute setting (depth + 3) (.whileLoop condition body increment) machine =
      .error reason after := by
  have isLoop : execute setting (depth + 3) (.whileLoop condition body increment) machine =
      takeTurns (Stmt.turn setting (depth + 1) condition body increment) setting.turns machine := by
    change (Task.execute (.whileLoop condition body increment)).run setting (depth + 3)
      setting.turns machine = _
    rw [Task.run_execute _ _ _ running]
    cases increment <;> rfl
  rcases Nat.exists_eq_add_of_lt room with ⟨more, isTurns⟩
  rw [isLoop, isTurns, Nat.add_assoc, turned.takeTurns_eq, takeTurns, aborted]

/-- A `break`, a `continue` and a `return` are caught at their own boundary. A completion that
leaves a statement has the keyword of a statement in it that no loop or function in it catches. What
a session records as caught by nothing stands in no loop of the body that it belongs to, or in no
function; and where there is nothing of this kind, nothing is recorded. What leaves the body of a
called function is a fault of the call, which ends all loops of the caller as well, and takes no
part in them. -/
theorem exits_caught :
    (∀ setting depth statement machine completion after,
      execute setting depth statement machine = .ok completion after →
      statement.EndsWith completion) ∧
    (∀ setting source session,
      (∃ fault, Session.Records setting source session fault ∧
        (Session.final (Session.run setting source session)).reporter.runtimeError =
          some fault.diagnostic) ∨
      (∀ fault, ¬ Session.Records setting source session fault) ∧
        (Session.final (Session.run setting source session)).reporter.runtimeError =
          session.reporter.runtimeError) ∧
    (∀ {programs session}, Session.Ran programs session → ∀ setting source fault,
      session.Records setting source fault → fault.IsStray →
      (∃ program ∈ session.accepted source :: programs, ∃ body, Stmt.Belongs program body ∧
        Stmt.StrayExit body fault) ∨ Stmt.StrayReturn (session.accepted source) fault) ∧
    (∀ session : Session, session.machine.Within .orderly → ∀ setting source fault,
      Stmt.Orderly (session.accepted source) →
      (∀ fault, ¬ Stmt.StrayReturn (session.accepted source) fault) →
      session.Records setting source fault → ¬ fault.IsStray) ∧
    (∀ {setting : Setting} {depth name parameters body closure arguments machine after completion}
      {fault : Fault}, completion.stray? = some fault →
      (∀ keyword value, completion ≠ .returned keyword value) →
      andThen (defineAll parameters arguments (machine.enter closure))
        (fun _ machine => executeAll (execute setting depth) body machine) = .ok completion after →
      invoke setting.clock (execute setting depth) (.function name parameters body closure)
        arguments machine = .error (.fault fault) (after.leave machine.current machine.heap.size)) ∧
    (∀ {setting : Setting} {depth count condition body increment reason}
      {machine middle after : Machine}, machine.interrupted = false → count < setting.turns →
      Turned (Stmt.turn setting (depth + 1) condition body increment) count machine middle →
      Stmt.turn setting (depth + 1) condition body increment middle = .error reason after →
      execute setting (depth + 3) (.whileLoop condition body increment) machine =
        .error reason after) := by
  refine ⟨?_, ?_, ?_, ?_, invoke_of_stray, execute_whileLoop_of_error⟩
  · intro setting depth statement machine completion after executed
    have lawful := (lawfulWithin .all setting depth).execute (Repertoire.covers_all statement)
      machine.within_all
    simp only [Task.run, executed] at lawful
    exact lawful.2
  · intro setting source session
    by_cases records : ∃ fault, Session.Records setting source session fault
    · rcases records with ⟨fault, records⟩
      rcases records.run with ⟨after, isAfter, isError⟩
      rw [isAfter]
      exact .inl ⟨fault, records, isError⟩
    · have recordsNone := not_exists.mp records
      exact .inr ⟨recordsNone, Session.runtimeError_of_not_records recordsNone⟩
  · intro programs session ran setting source fault records isStray
    exact records.strayExit ran isStray
  · intro session known setting source fault isOrderly noReturn records
    exact records.notStray known isOrderly noReturn

/-- A function that is called in a loop and has a `break` outside of all loops. -/
def strayCallee : String :=
  "fun f() \x7b break; \x7d while true \x7b f(); \x7d"

theorem exits_caught_strayCallee :
    ∃ fault, Session.Records ⟨30, 5, fun _ => 0⟩ strayCallee ⟨{}, {}, .initial, {}⟩ fault ∧
      fault.IsStray ∧
      ∃ program ∈ [Session.accepted ⟨{}, {}, .initial, {}⟩ strayCallee],
        ∃ body, Stmt.Belongs program body ∧ Stmt.StrayExit body fault := by
  have records : Session.Records ⟨30, 5, fun _ => 0⟩ strayCallee ⟨{}, {}, .initial, {}⟩
      ⟨some { kind := .breakWord, lexeme := "break", position := ⟨1, 11⟩ },
        .strayLoopExit "break"⟩ := by
    refine ⟨Session.admits_of_untraced _ _ rfl ?_, ?_⟩
    · cbv
    · cbv
  have isStray : Fault.IsStray ⟨some { kind := .breakWord, lexeme := "break", position := ⟨1, 11⟩ },
      .strayLoopExit "break"⟩ := .inl ⟨_, rfl⟩
  refine ⟨_, records, isStray, ?_⟩
  rcases exits_caught.2.2.1 (.start {} {}) _ _ _ records isStray with exits | returns
  · exact exits
  · cases returns

end LoxLang

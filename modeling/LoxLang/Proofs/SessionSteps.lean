import LoxLang.Proofs.Evolution
import LoxLang.Proofs.PrinterRoom
import LoxLang.Session

/-!
# Steps of a session

What a session does with a source: the source is registered, scanned and parsed, traces are printed
if they are asked for, and the program is interpreted if nothing is wrong with it and no diagnostic
is waiting. The run ends early if the tree is asked for and the printer has no room for it.
-/

namespace LoxLang

/-- A program that finished has executed all of its statements. -/
theorem executeAll_of_finished {setting : Setting} {program : List Stmt} {machine : Machine}
    (finished : (interpret setting program machine).1 = .finished) :
    ∃ after,
      Run.executeAll (execute setting setting.depth) program machine = .ok .normal after := by
  unfold interpret at finished
  cases isOutcome : Run.executeAll (execute setting setting.depth) program machine with
  | error reason after =>
      rw [isOutcome] at finished
      cases reason <;> cases finished
  | ok completion after =>
      rw [isOutcome] at finished
      cases completion with
      | normal => exact ⟨after, rfl⟩
      | breakLoop | continueLoop | returned => cases finished

namespace Session

/-- The session as a step leaves it. -/
def final {α : Type} : EStateM.Result Abort Session α → Session
  | .ok _ session => session
  | .error _ session => session

variable (session : Session) (source : String)

/-- What parsing a source in a session gives. -/
def parsed : Parse :=
  Parse.ofText session.mode.interactive source.toList

/-- What has been written after the tokens of a source were shown, if they are to be shown. -/
def tokensShown : Transcript :=
  if session.mode.showTokens then
    let tokens := (Scan.ofText session.mode.interactive source.toList).allTokens
    (session.trace ("\n".intercalate (tokens.map (·.summary)))).transcript
  else session.transcript

/-- The session after a source was registered, scanned and parsed. -/
def examined : Session :=
  { session with
    reporter := (session.reporter.register source).enqueue (session.parsed source).diagnostics
    transcript := session.tokensShown source }

/-- There is room for the tree of a source, if it is to be shown. -/
def Shows : Prop :=
  session.mode.showTree = true → Printer.print (session.parsed source).statements ≠ none

instance : Decidable (session.Shows source) :=
  inferInstanceAs (Decidable (_ → _))

theorem not_shows_iff {session : Session} {source : String} :
    ¬ session.Shows source ↔ session.mode.showTree = true ∧
      Printer.print (session.parsed source).statements = none := by
  rw [Shows, Classical.not_imp, not_not]

theorem shows_of_untraced (noTree : session.mode.showTree = false) : session.Shows source :=
  fun showTree => absurd (noTree.symm.trans showTree) Bool.false_ne_true

/-- The session in which the program of a source is interpreted. -/
def prepared : Session :=
  if session.mode.showTree then
    (session.examined source).trace (Stmt.program (session.parsed source).statements)
  else session.examined source

theorem parse_eq :
    session.parse source =
      ((session.parsed source).statements,
        { session with
          reporter := session.reporter.enqueue (session.parsed source).diagnostics
          transcript := session.tokensShown source }) := by
  rcases session with ⟨⟨interactive, showTokens, showTree⟩, reporter, machine, transcript⟩
  cases showTokens with
  | true | false =>
      simp [parse, scan, enqueue, trace, write, parsed, tokensShown, Parse.ofText, Reporter.enqueue]

theorem parse_registered :
    { session with reporter := session.reporter.register source }.parse source =
      ((session.parsed source).statements, session.examined source) := by
  rw [parse_eq]
  rfl

theorem prepared_machine : (session.prepared source).machine = session.machine := by
  unfold prepared
  split <;> rfl

theorem prepared_mode : (session.prepared source).mode = session.mode := by
  unfold prepared
  split <;> rfl

theorem prepared_reporter :
    (session.prepared source).reporter =
      (session.reporter.register source).enqueue (session.parsed source).diagnostics := by
  unfold prepared
  split <;> rfl

theorem prepared_runtimeError :
    (session.prepared source).reporter.runtimeError = session.reporter.runtimeError := by
  rw [prepared_reporter]
  rfl

theorem showTree_eq :
    showTree (session.parsed source).statements (session.examined source) =
      if session.Shows source then .ok () (session.prepared source)
      else .error unprintable (session.examined source) := by
  have sameMode : (session.examined source).mode = session.mode := rfl
  unfold showTree
  rw [sameMode]
  cases isShown : session.mode.showTree with
  | false =>
      rw [if_pos (session.shows_of_untraced source isShown), prepared, isShown]
      rfl
  | true =>
      cases printed : Printer.print (session.parsed source).statements with
      | none =>
          have noRoom : ¬ session.Shows source := fun shows => shows isShown printed
          rw [if_neg noRoom]
          rfl
      | some text =>
          have shows : session.Shows source := fun _ isNone => by
            cases printed.symm.trans isNone
          rw [if_pos shows, prepared, isShown, Printer.program_of_print printed]
          rfl

/-- A source is interpreted if nothing is wrong with it, no diagnostic is waiting and its tree can
be shown. -/
theorem run_eq (setting : Setting) :
    run setting source session =
      if session.reporter.queue ++ (session.parsed source).diagnostics = [] then
        if session.Shows source then
          interpret setting (session.parsed source).statements (session.prepared source)
        else .error unprintable (session.examined source)
      else .ok false (session.examined source) := by
  have hasErrors : (session.examined source).reporter.hasErrors =
      !(session.reporter.queue ++ (session.parsed source).diagnostics).isEmpty := rfl
  unfold run
  simp only [parse_registered, hasErrors, showTree_eq, Bool.not_eq_true',
    List.isEmpty_eq_false_iff]
  by_cases quiet : session.reporter.queue ++ (session.parsed source).diagnostics = []
  · by_cases shown : session.Shows source
    · simp only [quiet, shown, ne_eq, not_true_eq_false, if_false, if_true]
    · simp only [quiet, shown, ne_eq, not_true_eq_false, if_false, if_true]
  · simp only [quiet, ne_eq, not_false_eq_true, if_true, if_false]

/-- The session after a program was interpreted: what is on the machine is printed. -/
def concluded (machine : Machine) : Session :=
  { session with
    machine := { machine with output := #[] }
    transcript := session.transcript.printAll machine.output }

theorem interpret_eq (setting : Setting) (program : List Stmt) :
    interpret setting program session =
      let (verdict, machine) := LoxLang.interpret setting program session.machine
      match verdict with
      | .finished => .ok true (session.concluded machine)
      | .faulted error =>
          .ok false { session.concluded machine with reporter := session.reporter.record error }
      | .escaped reason => .error reason (session.concluded machine) := rfl

/-- Only a program that finished is interpreted without errors. -/
theorem finished_of_interpret {setting : Setting} {program : List Stmt} {session after : Session}
    (finished : interpret setting program session = .ok true after) :
    (LoxLang.interpret setting program session.machine).1 = .finished := by
  rw [interpret_eq] at finished
  generalize LoxLang.interpret setting program session.machine = ended at finished
  rcases ended with ⟨verdict, machine⟩
  cases verdict with
  | finished => rfl
  | faulted | escaped => cases finished

theorem final_interpret_machine (setting : Setting) (program : List Stmt) :
    (final (interpret setting program session)).machine =
      { (LoxLang.interpret setting program session.machine).2 with output := #[] } := by
  rw [interpret_eq]
  rcases LoxLang.interpret setting program session.machine with ⟨verdict, machine⟩
  cases verdict <;> rfl

/-- No session is left interrupted. -/
theorem final_interpret_interrupted (setting : Setting) (program : List Stmt) :
    (final (interpret setting program session)).machine.interrupted = false := by
  rw [final_interpret_machine, interpret_machine]

theorem final_interpret_mode (setting : Setting) (program : List Stmt) :
    (final (interpret setting program session)).mode = session.mode := by
  rw [interpret_eq]
  rcases LoxLang.interpret setting program session.machine with ⟨verdict, machine⟩
  cases verdict <;> rfl

theorem final_run_mode (setting : Setting) :
    (final (run setting source session)).mode = session.mode := by
  rw [run_eq]
  split
  · split
    · rw [final_interpret_mode, prepared_mode]
    · rfl
  · rfl

/-- A session interprets a source. -/
def Admits : Prop :=
  session.reporter.queue ++ (session.parsed source).diagnostics = [] ∧ session.Shows source

instance : Decidable (session.Admits source) :=
  inferInstanceAs (Decidable (_ ∧ _))

theorem admits_of_untraced (noTree : session.mode.showTree = false)
    (quiet : session.reporter.queue ++ (session.parsed source).diagnostics = []) :
    session.Admits source :=
  ⟨quiet, session.shows_of_untraced source noTree⟩

theorem run_of_admits (admits : session.Admits source) (setting : Setting) :
    run setting source session =
      interpret setting (session.parsed source).statements (session.prepared source) := by
  rw [run_eq, if_pos admits.1, if_pos admits.2]

/-- Only a source that is interpreted can be run without errors. -/
theorem admits_of_run {setting : Setting} {session after : Session} {source : String}
    (finished : run setting source session = .ok true after) : session.Admits source := by
  rw [run_eq] at finished
  split at finished
  · rename_i quiet
    split at finished
    · rename_i shows
      exact ⟨quiet, shows⟩
    · cases finished
  · cases finished

/-- A source that is not interpreted leaves the session as its parse does. -/
theorem final_run_of_not_admits (not : ¬ session.Admits source) (setting : Setting) :
    final (run setting source session) = session.examined source := by
  rw [run_eq]
  split
  · rename_i quiet
    rw [if_neg fun shown => not ⟨quiet, shown⟩]
    rfl
  · rfl

/-- The statements that a session executes for a source: all of its program if it is interpreted. -/
def accepted : List Stmt :=
  if session.Admits source then (session.parsed source).statements else []

/-- What a run makes of the machine: nothing, or what interpreting the program makes of it. -/
theorem final_run_machine (setting : Setting) :
    (final (run setting source session)).machine = session.machine ∨
      (final (run setting source session)).machine =
        { (LoxLang.interpret setting (session.accepted source) session.machine).2 with
          output := #[] } := by
  by_cases admits : session.Admits source
  · rw [run_of_admits _ _ admits, accepted, if_pos admits, final_interpret_machine,
      prepared_machine]
    exact .inr rfl
  · rw [final_run_of_not_admits _ _ admits]
    exact .inl rfl

/-- A run of a source makes of the frames and callables what a run can make of them that declares
the functions of its program. -/
theorem evolves_run (setting : Setting) {repertoire : Repertoire}
    (covers : ∀ statement ∈ session.accepted source, repertoire.Covers statement)
    (known : session.machine.Within repertoire) :
    ∃ machine, Evolves repertoire .execution session.machine machine ∧
      (final (run setting source session)).machine.heap = machine.heap ∧
      (final (run setting source session)).machine.callables = machine.callables := by
  rcases session.final_run_machine source setting with isMachine | isMachine
  · exact ⟨session.machine, .refl, by rw [isMachine], by rw [isMachine]⟩
  · have executed := (lawfulWithin repertoire setting setting.depth).executeAll covers known
    rw [isMachine, interpret_machine]
    exact ⟨_, executed.evolves, rfl, rfl⟩

/-- `Ran programs session` says that a session has come about by runs of sources, of which the given
programs were executed, the last one first. Whatever leaves the machine as it is, such as a report,
may happen in between. -/
inductive Ran : List (List Stmt) → Session → Prop
  | start (mode : SessionMode) (reporter : Reporter) : Ran [] { mode, reporter }
  | run {programs : List (List Stmt)} {session : Session} (ran : Ran programs session)
      (setting : Setting) (source : String) :
      Ran (session.accepted source :: programs) (final (run setting source session))
  | aside {programs : List (List Stmt)} {session session' : Session} (ran : Ran programs session)
      (sameMachine : session'.machine = session.machine) : Ran programs session'

end Session

end LoxLang

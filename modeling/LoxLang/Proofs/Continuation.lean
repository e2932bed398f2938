import LoxLang.Proofs.MovedPrograms
import LoxLang.Proofs.Seams
import LoxLang.Proofs.SessionSteps
import LoxLang.Proofs.Simulation

/-!
# Running in pieces

A session that runs one text and then another does what it does when it runs both at once, joined by
a newline. The functions of the two texts are the same, and so is all that is computed; only the
tokens of the second text stand further down, and with them the faults that point at them.
-/

namespace LoxLang

open Run Outcome

/-! ## Programs one after another -/

theorem Run.executeAll_append (execute : Stmt → Run Completion) (first second : List Stmt)
    (machine : Machine) :
    executeAll execute (first ++ second) machine =
      Outcome.andThen (executeAll execute first machine) fun completion machine =>
        match completion with
        | .normal => executeAll execute second machine
        | completion => .ok completion machine := by
  induction first generalizing machine with
  | nil => rfl
  | cons statement first ih =>
      rw [List.cons_append, executeAll_cons, executeAll_cons, Outcome.andThen_andThen]
      cases execute statement machine with
      | error reason machine => rfl
      | ok completion machine =>
          cases completion with
          | normal => exact ih machine
          | breakLoop | continueLoop | returned => rfl

/-- A program of two parts, of which the first finishes, is interpreted as the second alone. -/
theorem interpret_append {setting : Setting} {first : List Stmt} {machine middle : Machine}
    (executed : executeAll (execute setting setting.depth) first machine = .ok .normal middle)
    (second : List Stmt) :
    interpret setting (first ++ second) machine = interpret setting second middle := by
  unfold interpret
  rw [executeAll_append, executed]
  rfl

/-! ## The second text, alone and behind the first -/

/-- Where a token comes from: from a function that was there when the second text was run, or from
the second text. -/
inductive Seam
  | earlier
  | later

/-- `Tokens lines Earlier Later origin token token'` says which tokens correspond when the second
text is run alone and behind the first: those of earlier functions are the same, and those of the
second text stand so many lines further down. -/
inductive Seam.Tokens (lines : Nat) (Earlier Later : Token → Prop) : Seam → Token → Token → Prop
  | earlier {token : Token} (isEarlier : Earlier token) :
      Tokens lines Earlier Later .earlier token token
  | later {token : Token} (isLater : Later token) :
      Tokens lines Earlier Later .later token (token.move (Position.down lines))

/-- The correspondence of running the second text alone and behind the first. Apart from the tokens,
only the output differs, which has more in front. -/
def Correspondence.ofSeam (lines : Nat) (Earlier Later : Token → Prop) (printed : Array String)
    (clock : Nat → Float) : Correspondence where
  Origin := Seam
  token := Seam.Tokens lines Earlier Later
  frame id id' := id = id'
  identity index index' := index = index'
  mark index index' := index = index'
  output written written' := written' = printed ++ written
  clock := clock
  clock' := clock
  symbol origin name name' tokens := by cases tokens <;> exact ⟨rfl, rfl⟩
  older := Correspondence.older_of_eq
  globals := rfl
  unique := Eq.congr
  unmarked := rfl
  push := by
    rintro _ _ line rfl
    simp

namespace Correspondence

variable {lines : Nat} {Earlier Later : Token → Prop} {printed : Array String}
  {clock : Nat → Float}

theorem ofSeam_fixed : (ofSeam lines Earlier Later printed clock).Fixed :=
  ⟨Iff.rfl, Iff.rfl, Iff.rfl⟩

/-- A machine corresponds to itself with nothing printed, if its callables are earlier ones. -/
theorem ofSeam_machines {machine : Machine}
    (earlier : ∀ target ∈ machine.callables, ∀ token ∈ target.tokens, Earlier token) :
    (ofSeam lines Earlier Later machine.output clock).Machines { machine with output := #[] }
      machine where
  frames ids := ofSeam_fixed.frames_of_heap_eq rfl ids
  newFrames _ := rfl
  current := rfl
  callables := by
    rintro identity _ rfl
    cases isTarget : machine.callables[identity]? with
    | none => exact .none
    | some target =>
        have isHeld := Array.mem_of_getElem? isTarget
        have tokens : ∀ token ∈ target.tokens,
            (ofSeam lines Earlier Later machine.output clock).token .earlier token token :=
          fun token isToken => .earlier (earlier target isHeld token isToken)
        exact .some
          (callables_refl (fun _ => ofSeam_fixed.values_iff.mpr rfl) (fun _ => rfl) target tokens)
  newCallables _ := rfl
  newMarks _ := rfl
  readings _ := rfl
  output := by simp [ofSeam]
  interrupted := rfl

end Correspondence

/-! ## Sessions -/

namespace Session

/-- The tokens of the functions that a session holds. -/
def Mentions (session : Session) (token : Token) : Prop :=
  ∃ target ∈ session.machine.callables, token ∈ target.tokens

/-- Whether a token stands where a token of a text stands. -/
def StandsIn (text : String) (token : Token) : Prop :=
  ∃ read ∈ (Scan.ofText false text.toList).tokens, read.position = token.position

/-- `SameEnd Faults before apart joined` says that two runs end alike: both finish and record
nothing, so that what is to be reported is what was to be reported before, or both record a fault,
and the two faults are related, or both end early for the same reason. -/
inductive SameEnd (Faults : Fault → Fault → Prop) (before : Option Diagnostic) :
    EStateM.Result Abort Session Bool → EStateM.Result Abort Session Bool → Prop
  | finished {apart joined : Session} (unchanged : apart.reporter.runtimeError = before)
      (unchanged' : joined.reporter.runtimeError = before) :
      SameEnd Faults before (.ok true apart) (.ok true joined)
  | faulted {apart joined : Session} {fault fault' : Fault} (faults : Faults fault fault')
      (recorded : apart.reporter.runtimeError = some fault.diagnostic)
      (recorded' : joined.reporter.runtimeError = some fault'.diagnostic) :
      SameEnd Faults before (.ok false apart) (.ok false joined)
  | escaped {apart joined : Session} (reason : Abort)
      (unchanged : apart.reporter.runtimeError = before)
      (unchanged' : joined.reporter.runtimeError = before) :
      SameEnd Faults before (.error reason apart) (.error reason joined)

/-- `SameRun between before apart joined` says that two runs end alike, with the same frames and
with corresponding callables, and ready for the next run. -/
structure SameRun (between : Correspondence) (before : Option Diagnostic)
    (apart joined : EStateM.Result Abort Session Bool) : Prop where
  sameEnd : SameEnd between.Faults before apart joined
  heap : (final joined).machine.heap = (final apart).machine.heap
  callables : ∀ identity : Nat, Option.Rel between.Callables
    (final apart).machine.callables[identity]? (final joined).machine.callables[identity]?
  notInterrupted : (final apart).machine.interrupted = false ∧
    (final joined).machine.interrupted = false

theorem printAll_append (transcript : Transcript) (first second : Array String) :
    transcript.printAll (first ++ second) = (transcript.printAll first).printAll second := by
  unfold Transcript.printAll
  rw [Array.foldl_append]

theorem run_of_quiet {setting : Setting} {source : String} {session : Session}
    (isPlain : session.mode.interactive = false) (nothingQueued : session.reporter.queue = [])
    (quiet : (Parse.ofText false source.toList).diagnostics = []) (shown : session.Shows source) :
    run setting source session =
      interpret setting (Parse.ofText false source.toList).statements
        (session.prepared source) := by
  have isParsed : session.parsed source = Parse.ofText false source.toList := by
    rw [parsed, isPlain]
  have admits : session.Admits source := ⟨by rw [nothingQueued, isParsed, quiet]; rfl, shown⟩
  rw [run_of_admits _ _ admits, isParsed]

/-- What a program that finished has made of a session. -/
theorem eq_of_finished {setting : Setting} {program : List Stmt} {session after : Session}
    (notInterrupted : session.machine.interrupted = false)
    (finished : interpret setting program session = .ok true after) :
    ∃ machine,
      executeAll (execute setting setting.depth) program session.machine = .ok .normal machine ∧
      after = session.concluded machine := by
  rcases executeAll_of_finished (finished_of_interpret finished) with ⟨machine, executed⟩
  rw [interpret_eq] at finished
  have stillNotInterrupted : machine.interrupted = false := by
    have covers : ∀ statement ∈ program, Repertoire.all.Covers statement :=
      fun statement _ => Repertoire.covers_all statement
    have lawful := (lawfulWithin .all setting setting.depth).executeAll covers
      session.machine.within_all
    simp only [Task.run, executed] at lawful
    rw [lawful.1.interrupted_eq, notInterrupted]
  refine ⟨machine, executed, ?_⟩
  have isEnded : LoxLang.interpret setting program session.machine = (.finished, machine) := by
    unfold LoxLang.interpret
    rw [executed]
    rcases machine with ⟨heap, current, callables, output, marks, readings, interrupted⟩
    cases stillNotInterrupted
    rfl
  rw [isEnded] at finished
  cases finished
  rfl

/-- The ends of two runs whose programs are interpreted with corresponding verdicts. -/
theorem sameEnd_of_verdicts {between : Correspondence} {setting setting' : Setting}
    {program program' : List Stmt} {session session' : Session} {before : Option Diagnostic}
    (verdicts : between.Verdicts (LoxLang.interpret setting program session.machine).1
      (LoxLang.interpret setting' program' session'.machine).1)
    (isBefore : session.reporter.runtimeError = before)
    (isBefore' : session'.reporter.runtimeError = before) :
    SameEnd between.Faults before (interpret setting program session)
      (interpret setting' program' session') := by
  rw [interpret_eq, interpret_eq]
  generalize LoxLang.interpret setting program session.machine = ended at verdicts
  generalize LoxLang.interpret setting' program' session'.machine = ended' at verdicts
  rcases ended with ⟨verdict, machine⟩
  rcases ended' with ⟨verdict', machine'⟩
  cases verdicts with
  | finished => exact .finished isBefore isBefore'
  | faulted faults => exact .faulted faults rfl rfl
  | escaped reason => exact .escaped reason isBefore isBefore'

/-- Two runs are the same if their programs are interpreted alike. -/
theorem sameRun_of_interpreted {lines : Nat} {Earlier Later : Token → Prop}
    {printed : Array String} {clock : Nat → Float} {between : Correspondence}
    (isBetween : between = .ofSeam lines Earlier Later printed clock) {setting setting' : Setting}
    {program program' : List Stmt} {session session' : Session} {before : Option Diagnostic}
    (verdicts : between.Verdicts (LoxLang.interpret setting program session.machine).1
      (LoxLang.interpret setting' program' session'.machine).1)
    (machines : between.Machines (LoxLang.interpret setting program session.machine).2
      (LoxLang.interpret setting' program' session'.machine).2)
    (isBefore : session.reporter.runtimeError = before)
    (isBefore' : session'.reporter.runtimeError = before) :
    SameRun between before (interpret setting program session)
      (interpret setting' program' session') where
  sameEnd := sameEnd_of_verdicts verdicts isBefore isBefore'
  heap := by
    subst isBetween
    rw [final_interpret_machine, final_interpret_machine]
    exact (Correspondence.ofSeam_fixed.heap_eq machines).symm
  callables := by
    subst isBetween
    intro identity
    rw [final_interpret_machine, final_interpret_machine]
    exact machines.callables rfl
  notInterrupted := ⟨final_interpret_interrupted _ _ _, final_interpret_interrupted _ _ _⟩

theorem final_interpret_transcript (setting : Setting) (program : List Stmt) (session : Session) :
    (final (interpret setting program session)).transcript =
      session.transcript.printAll (LoxLang.interpret setting program session.machine).2.output := by
  rw [interpret_eq]
  rcases LoxLang.interpret setting program session.machine with ⟨verdict, machine⟩
  cases verdict <;> rfl

theorem prepared_transcript_of_untraced {session : Session}
    (noTokens : session.mode.showTokens = false) (noTree : session.mode.showTree = false)
    (source : String) : (session.prepared source).transcript = session.transcript := by
  simp only [prepared, noTree, examined, tokensShown, noTokens, Bool.false_eq_true, if_false]

/-- The program of the second text corresponds to the same program further down. -/
theorem stmts_ofSeam {lines : Nat} {Earlier : Token → Prop} {printed : Array String}
    {clock : Nat → Float} {text : String}
    (quiet : (Parse.ofText false text.toList).diagnostics = []) :
    List.Forall₂ (Correspondence.Stmts (.ofSeam lines Earlier (StandsIn text) printed clock)
      Seam.later) (Parse.ofText false text.toList).statements
      ((Parse.ofText false text.toList).statements.map (·.move (Position.down lines))) := by
  have tokens : ∀ token ∈ Stmt.allTokens (Parse.ofText false text.toList).statements,
      Correspondence.token (.ofSeam lines Earlier (StandsIn text) printed clock) .later token
        (token.move (Position.down lines)) :=
    fun token isToken => .later (Parse.position_of_token (Parse.quiet_iff.mp quiet).2 isToken)
  rw [← Stmt.moveAll_eq_map]
  exact Correspondence.stmts_moveAll (fun _ => Correspondence.ofSeam_fixed.values_iff.mpr rfl) _
    tokens

/-- The second text alone, and behind a program that leaves the machine on which it is run. -/
theorem interpreted_joined {setting : Setting} {program : List Stmt} {start middle : Machine}
    (executed : executeAll (execute setting setting.depth) program start = .ok .normal middle)
    {Earlier : Token → Prop}
    (earlier : ∀ target ∈ middle.callables, ∀ token ∈ target.tokens, Earlier token) {text : String}
    (quiet : (Parse.ofText false text.toList).diagnostics = []) {lines : Nat}
    {between : Correspondence}
    (isBetween : between = .ofSeam lines Earlier (StandsIn text) middle.output setting.clock)
    {apart joined : Verdict × Machine}
    (isApart : apart = LoxLang.interpret setting (Parse.ofText false text.toList).statements
      { middle with output := #[] })
    (isJoined : joined = LoxLang.interpret setting
      (program ++ (Parse.ofText false text.toList).statements.map (·.move (Position.down lines)))
      start) :
    between.Verdicts apart.1 joined.1 ∧ between.Machines apart.2 joined.2 := by
  subst isBetween isApart
  rw [isJoined, interpret_append executed]
  have settings : Correspondence.Settings
      (.ofSeam lines Earlier (StandsIn text) middle.output setting.clock) setting setting :=
    ⟨rfl, rfl, rfl⟩
  exact Correspondence.interpreted settings rfl (stmts_ofSeam quiet)
    (Correspondence.ofSeam_machines earlier)

/-- What a run of a sound text that returns true has made of a session. -/
theorem eq_of_run {setting : Setting} {session after : Session} {source : String}
    (isPlain : session.mode.interactive = false) (nothingQueued : session.reporter.queue = [])
    (notInterrupted : session.machine.interrupted = false)
    (quiet : (Parse.ofText false source.toList).diagnostics = [])
    (ran : run setting source session = .ok true after) :
    ∃ machine,
      executeAll (execute setting setting.depth) (Parse.ofText false source.toList).statements
        session.machine = .ok .normal machine ∧
      after = (session.prepared source).concluded machine := by
  rw [run_of_quiet isPlain nothingQueued quiet (admits_of_run ran).2] at ran
  have sameMachine := session.prepared_machine source
  rcases eq_of_finished (by rwa [sameMachine]) ran with ⟨machine, executed, isAfter⟩
  rw [sameMachine] at executed
  exact ⟨machine, executed, isAfter⟩

/-- A sound text that is run leaves nothing waiting to be reported. -/
theorem concluded_prepared_queue {session : Session} {source : String}
    (isPlain : session.mode.interactive = false) (nothingQueued : session.reporter.queue = [])
    (quiet : (Parse.ofText false source.toList).diagnostics = []) (machine : Machine) :
    ((session.prepared source).concluded machine).reporter.queue = [] := by
  have isReporter : ((session.prepared source).concluded machine).reporter =
      (session.reporter.register source).enqueue (session.parsed source).diagnostics :=
    session.prepared_reporter source
  rw [isReporter, parsed, isPlain, quiet]
  exact (List.append_nil _).trans nothingQueued

/-- There is room to show two texts at once if there is room to show each of them. -/
theorem shows_joined {session : Session} {first second : String} {lines : Nat}
    (isPlain : session.mode.interactive = false)
    (parsedJoined : (Parse.ofText false (first ++ "\n" ++ second).toList).statements =
      (Parse.ofText false first.toList).statements ++
        (Parse.ofText false second.toList).statements.map (·.move (Position.down lines)))
    (shownFirst : session.Shows first) (shownSecond : session.Shows second) :
    session.Shows (first ++ "\n" ++ second) := by
  intro showTree
  have printsFirst := shownFirst showTree
  have printsSecond := shownSecond showTree
  rw [parsed, isPlain] at printsFirst printsSecond ⊢
  rw [parsedJoined]
  refine Printer.print_append_ne_none printsFirst ?_
  rwa [Printer.print_move]

/-- Running two texts one after the other is running them at once with a newline between them. Both
end alike, with the same frames and the same callables, and with the output of the first text
followed by that of the second; only the tokens of the second text, and the faults at them, are
further down, by one line and as many as the first text has. Between two runs, no session is
interrupted. If trees are shown, there has to be room for that of the second text. -/
theorem run_joined {setting : Setting} {session afterFirst : Session} {first second : String}
    (isPlain : session.mode.interactive = false) (nothingQueued : session.reporter.queue = [])
    (notInterrupted : session.machine.interrupted = false)
    (quietFirst : (Parse.ofText false first.toList).diagnostics = [])
    (quietSecond : (Parse.ofText false second.toList).diagnostics = [])
    (shownSecond : session.Shows second)
    (ranFirst : run setting first session = .ok true afterFirst) :
    ∃ firstLines secondLines,
      SameRun (.ofSeam (first.toList.count '\n' + 1) afterFirst.Mentions (StandsIn second)
        firstLines setting.clock) session.reporter.runtimeError (run setting second afterFirst)
        (run setting (first ++ "\n" ++ second) session) ∧
      afterFirst.transcript = (session.prepared first).transcript.printAll firstLines ∧
      (final (run setting second afterFirst)).transcript =
        (afterFirst.prepared second).transcript.printAll secondLines ∧
      (final (run setting (first ++ "\n" ++ second) session)).transcript =
        (session.prepared (first ++ "\n" ++ second)).transcript.printAll
          (firstLines ++ secondLines) ∧
      (session.mode.showTokens = false → session.mode.showTree = false →
        (final (run setting (first ++ "\n" ++ second) session)).transcript =
          (final (run setting second afterFirst)).transcript) := by
  have isJoined : (first ++ "\n" ++ second).toList = first.toList ++ '\n' :: second.toList := by
    simp
  have parsedJoined := Parse.ofText_join quietFirst quietSecond
  rw [← isJoined] at parsedJoined
  have quietJoined := congrArg Parse.diagnostics parsedJoined
  -- The first run leaves the session with the machine on which the joined run goes on.
  rcases eq_of_run isPlain nothingQueued notInterrupted quietFirst ranFirst with
    ⟨machine, executed, isMiddle⟩
  have isMachine : afterFirst.machine = { machine with output := #[] } := by
    rw [isMiddle]
    rfl
  have isTranscript : afterFirst.transcript =
      (session.prepared first).transcript.printAll machine.output := by
    rw [isMiddle]
    rfl
  have sameMode : afterFirst.mode = session.mode := by
    rw [isMiddle]
    exact session.prepared_mode first
  have nothingQueued' : afterFirst.reporter.queue = [] := by
    rw [isMiddle]
    exact concluded_prepared_queue isPlain nothingQueued quietFirst machine
  have sameError : afterFirst.reporter.runtimeError = session.reporter.runtimeError := by
    rw [isMiddle]
    exact session.prepared_runtimeError first
  have earlier : ∀ target ∈ machine.callables, ∀ token ∈ target.tokens,
      afterFirst.Mentions token := by
    intro target isTarget token isToken
    refine ⟨target, ?_, isToken⟩
    rwa [isMachine]
  have shownSecond' : afterFirst.Shows second := by
    rwa [Shows, parsed, sameMode]
  have shownJoined := shows_joined isPlain (congrArg Parse.statements parsedJoined)
    (admits_of_run ranFirst).2 shownSecond
  rw [run_of_quiet (by rwa [sameMode]) nothingQueued' quietSecond shownSecond',
    run_of_quiet isPlain nothingQueued quietJoined shownJoined]
  have isApart : LoxLang.interpret setting (Parse.ofText false second.toList).statements
      (afterFirst.prepared second).machine =
      LoxLang.interpret setting (Parse.ofText false second.toList).statements
        { machine with output := #[] } := by
    rw [prepared_machine, isMachine]
  have isJoined' : LoxLang.interpret setting
      (Parse.ofText false (first ++ "\n" ++ second).toList).statements
      (session.prepared (first ++ "\n" ++ second)).machine =
      LoxLang.interpret setting
        ((Parse.ofText false first.toList).statements ++
          (Parse.ofText false second.toList).statements.map
            (·.move (Position.down (first.toList.count '\n' + 1)))) session.machine := by
    rw [prepared_machine, parsedJoined]
  rcases interpreted_joined executed earlier quietSecond rfl isApart isJoined' with
    ⟨verdicts, machines⟩
  have sameOutput := machines.output
  refine ⟨machine.output, _, ?_, isTranscript, final_interpret_transcript _ _ _, ?_, ?_⟩
  · exact sameRun_of_interpreted rfl verdicts machines
      ((prepared_runtimeError _ _).trans sameError) (prepared_runtimeError _ _)
  · rw [final_interpret_transcript, sameOutput]
  · intro noTokens noTree
    rw [final_interpret_transcript, final_interpret_transcript, sameOutput, printAll_append,
      prepared_transcript_of_untraced noTokens noTree,
      prepared_transcript_of_untraced (by rwa [sameMode]) (by rwa [sameMode]), isTranscript,
      prepared_transcript_of_untraced noTokens noTree]

/-- A text with a function, and one that calls it twice, the second time with an undefined name. -/
theorem run_joined_undefined :
    ∃ afterFirst firstLines,
      run ⟨30, 5, fun _ => 0⟩ "fun f(x) \x7b print x; \x7d" ⟨{}, {}, .initial, {}⟩ =
        .ok true afterFirst ∧
      SameRun (.ofSeam 1 afterFirst.Mentions (StandsIn "f(nil); f(b);") firstLines fun _ => 0)
        none (run ⟨30, 5, fun _ => 0⟩ "f(nil); f(b);" afterFirst)
        (run ⟨30, 5, fun _ => 0⟩ "fun f(x) \x7b print x; \x7d\nf(nil); f(b);"
          ⟨{}, {}, .initial, {}⟩) := by
  have returnsTrue : (match run ⟨30, 5, fun _ => 0⟩ "fun f(x) \x7b print x; \x7d"
      ⟨{}, {}, .initial, {}⟩ with
      | .ok result _ => result
      | .error _ _ => false) = true := by
    decide +kernel
  have quietSecond : (Parse.ofText false "f(nil); f(b);".toList).diagnostics = [] := by
    cbv
  split at returnsTrue
  case h_1 result afterFirst ranFirst =>
    subst returnsTrue
    have shownSecond : Shows ⟨{}, {}, .initial, {}⟩ "f(nil); f(b);" := shows_of_untraced _ _ rfl
    rcases run_joined rfl rfl rfl (by cbv) quietSecond shownSecond ranFirst with
      ⟨firstLines, _, sameRun, _⟩
    exact ⟨afterFirst, firstLines, ranFirst, sameRun⟩
  case h_2 => cases returnsTrue

end Session

end LoxLang

import LoxLang.Proofs.Exits
import LoxLang.Proofs.Offences

/-!
# What earlier requests leave behind

The diagnostics of a source stay in the queue of a session until they are reported or forgotten, and
so does the fault of a run. A source is interpreted only if the queue is empty once its own
diagnostics are added, and the exit code of a file reads off the queue and the fault. So both are
decided by the history of the session: by the diagnostics that earlier requests have left waiting,
and by a fault that is still to be reported. They are decided by the source alone where nothing is
left behind.
-/

namespace LoxLang

/-- The text of a file that can be read and decoded. -/
def FileContents.text? (path : String) (contents : FileContents) : Option String :=
  if path.contains '\x00' then none
  else
    match contents with
    | .unreadable => none
    | .bytes content =>
        match Text.decodeUtf8 content with
        | .error _ => none
        | .ok text => some (String.ofList (Text.unifyNewlines text))

/-- What a session can be asked to do. -/
inductive Request
  | run (source : String)
  | parse (source : String)
  | scan (source : String)
  | file (path : String) (contents : FileContents)
  | report
  | reset

/-- The diagnostics that are waiting after a request, by those that were waiting before. A file is
reported on at its end. -/
def Request.waiting (interactive : Bool) (before : List Diagnostic) : Request → List Diagnostic
  | .run source | .parse source =>
      before ++ (Parse.ofText interactive source.toList).diagnostics
  | .scan source => before ++ (Scan.ofText interactive source.toList).diagnostics
  | .file path contents => if (contents.text? path).isSome then [] else before
  | .report | .reset => []

namespace Session

/-- The session after a request, whether or not it was ended early. -/
def serve (setting : Setting) (session : Session) : Request → Session
  | .run source => final (run setting source session)
  | .parse source => (session.parse source).2
  | .scan source => (session.scan source).2
  | .file path contents => final (runFile setting path contents session)
  | .report => session.report
  | .reset => { session with reporter := session.reporter.clear }

/-- The session after requests, one after another. -/
def serveAll (setting : Setting) (session : Session) (requests : List Request) : Session :=
  requests.foldl (serve setting) session

variable {setting : Setting} {source path : String} {contents : FileContents} {session : Session}
  {request : Request} {requests : List Request}

theorem serveAll_snoc :
    session.serveAll setting (requests ++ [request]) =
      (session.serveAll setting requests).serve setting request := by
  rw [serveAll, List.foldl_append]
  rfl

/-! ## Sources and files -/

theorem runFile_of_text (isText : contents.text? path = some source) :
    runFile setting path contents session = runOnce setting source session := by
  unfold FileContents.text? at isText
  unfold runFile
  split at isText
  · cases isText
  · next noNull =>
      rw [if_neg noNull]
      cases contents with
      | unreadable => cases isText
      | bytes content =>
          dsimp only at isText ⊢
          cases decoded : Text.decodeUtf8 content with
          | error error =>
              rw [decoded] at isText
              cases isText
          | ok text =>
              rw [decoded] at isText
              cases isText
              rfl

/-- A file without a text to run leaves all as it is, but for what may be written about it. -/
theorem exists_transcript_of_noText (noText : contents.text? path = none) :
    ∃ transcript,
      final (runFile setting path contents session) = { session with transcript } := by
  unfold FileContents.text? at noText
  unfold runFile
  split
  · exact ⟨_, rfl⟩
  · next noNull =>
      rw [if_neg noNull] at noText
      split
      · exact ⟨_, rfl⟩
      · split
        · exact ⟨_, rfl⟩
        · next decoded =>
            simp only [decoded, reduceCtorEq] at noText

theorem final_runFile_of_noText (noText : contents.text? path = none) :
    (final (runFile setting path contents session)).reporter = session.reporter ∧
      (final (runFile setting path contents session)).mode = session.mode := by
  rcases @exists_transcript_of_noText setting path contents session noText with ⟨_, isFinal⟩
  rw [isFinal]
  exact ⟨rfl, rfl⟩

/-- A run that does not tell of an error has left no diagnostic waiting and recorded no fault: it
was ended early, or there were no errors. -/
theorem reporter_of_ne_false
    (noError : ∀ after, run setting source session ≠ .ok false after) :
    (final (run setting source session)).reporter.queue = [] ∧
      (final (run setting source session)).reporter.runtimeError =
        session.reporter.runtimeError := by
  constructor
  · rw [(final_run_reporter setting source session).2]
    by_contra notEmpty
    exact noError (session.examined source) (by rw [run_eq]; exact if_neg notEmpty)
  · refine runtimeError_of_not_records fun fault records => ?_
    rcases records.run with ⟨after, ran, -⟩
    exact noError after ran

theorem runOnce_of_ok {answer : Bool} {after : Session}
    (isRun : run setting source session = .ok answer after) :
    runOnce setting source session = .ok (exitCode after.reporter) after.report := by
  unfold runOnce
  rw [isRun]

theorem runOnce_of_error {reason : Abort} {after : Session}
    (escaped : run setting source session = .error reason after) :
    runOnce setting source session = .error reason after := by
  unfold runOnce
  rw [escaped]

theorem reporter_of_error {reason : Abort} {after : Session}
    (escaped : run setting source session = .error reason after) :
    after.reporter.queue = [] ∧ after.reporter.runtimeError = session.reporter.runtimeError := by
  have noError : ∀ after, run setting source session ≠ .ok false after := by
    rw [escaped]
    rintro after ⟨⟩
  simpa only [escaped, final] using reporter_of_ne_false noError

theorem runOnce_queue_mode :
    (final (runOnce setting source session)).reporter.queue = [] ∧
      (final (runOnce setting source session)).mode = session.mode := by
  have sameMode := session.final_run_mode source setting
  cases isRun : run setting source session with
  | ok answer after =>
      rw [isRun] at sameMode
      rw [runOnce_of_ok isRun]
      exact ⟨rfl, sameMode⟩
  | error reason after =>
      rw [isRun] at sameMode
      rw [runOnce_of_error isRun]
      exact ⟨(reporter_of_error isRun).1, sameMode⟩

/-! ## Diagnostics that are waiting -/

theorem mode_serve (request : Request) : (session.serve setting request).mode = session.mode := by
  cases request with
  | run source => exact session.final_run_mode source setting
  | parse source => rw [serve, parse_eq]
  | file path contents =>
      cases isText : contents.text? path with
      | none => exact (final_runFile_of_noText isText).2
      | some source =>
          rw [serve, runFile_of_text isText]
          exact runOnce_queue_mode.2
  | scan | report | reset => rfl

theorem queue_serve (request : Request) :
    (session.serve setting request).reporter.queue =
      request.waiting session.mode.interactive session.reporter.queue := by
  cases request with
  | run source => exact (final_run_reporter setting source session).2
  | parse source =>
      rw [serve, parse_eq]
      rfl
  | file path contents =>
      simp only [Request.waiting]
      cases isText : contents.text? path with
      | none => exact congrArg Reporter.queue (final_runFile_of_noText isText).1
      | some source =>
          rw [serve, runFile_of_text isText]
          exact runOnce_queue_mode.1
  | scan | report | reset => rfl

theorem mode_serveAll (requests : List Request) :
    (session.serveAll setting requests).mode = session.mode := by
  unfold serveAll
  induction requests generalizing session with
  | nil => rfl
  | cons request rest ih => exact ih.trans (mode_serve request)

/-- The diagnostics that are waiting after requests depend on the texts of the requests only. -/
theorem queue_serveAll (requests : List Request) :
    (session.serveAll setting requests).reporter.queue =
      requests.foldl (Request.waiting session.mode.interactive) session.reporter.queue := by
  unfold serveAll
  induction requests generalizing session with
  | nil => rfl
  | cons request rest ih => rw [List.foldl_cons, List.foldl_cons, ih, queue_serve, mode_serve]

/-! ## The fault that is waiting -/

/-- Whether a fault that was waiting before a request is still waiting after it. A file which is
ended early is not reported on. -/
def Keeps (setting : Setting) (session : Session) : Request → Prop
  | .run source => ∀ fault, ¬ session.Records setting source fault
  | .parse _ | .scan _ => True
  | .file path contents => ∀ source, contents.text? path = some source →
      ∃ reason after, run setting source session = .error reason after
  | .report | .reset => False

/-- Whether no fault is waiting after a request, whatever was waiting before. -/
def Clears (setting : Setting) (session : Session) : Request → Prop
  | .run _ | .parse _ | .scan _ => False
  | .file path contents => ∃ source answer after, contents.text? path = some source ∧
      run setting source session = .ok answer after
  | .report | .reset => True

theorem Keeps.runtimeError (keeps : session.Keeps setting request) :
    (session.serve setting request).reporter.runtimeError = session.reporter.runtimeError := by
  cases request with
  | run source => exact runtimeError_of_not_records keeps
  | parse source =>
      rw [serve, parse_eq]
      rfl
  | scan source => rfl
  | file path contents =>
      cases isText : contents.text? path with
      | none => exact congrArg Reporter.runtimeError (final_runFile_of_noText isText).1
      | some source =>
          rcases keeps source isText with ⟨reason, after, escaped⟩
          rw [serve, runFile_of_text isText, runOnce_of_error escaped]
          exact (reporter_of_error escaped).2
  | report | reset => cases keeps

theorem Clears.runtimeError (clears : session.Clears setting request) :
    (session.serve setting request).reporter.runtimeError = none := by
  cases request with
  | run | parse | scan => cases clears
  | file path contents =>
      rcases clears with ⟨source, answer, after, isText, isRun⟩
      rw [serve, runFile_of_text isText, runOnce_of_ok isRun]
      rfl
  | report | reset => rfl

/-- A request keeps the fault that was waiting, or takes it away, or is a run with its own fault. -/
theorem keeps_or_clears_or_records (setting : Setting) (session : Session) (request : Request) :
    session.Keeps setting request ∨ session.Clears setting request ∨
      ∃ source fault, request = .run source ∧ session.Records setting source fault := by
  cases request with
  | run source =>
      by_cases records : ∃ fault, session.Records setting source fault
      · rcases records with ⟨fault, records⟩
        exact .inr (.inr ⟨source, fault, rfl, records⟩)
      · exact .inl (not_exists.mp records)
  | parse | scan => exact .inl trivial
  | file path contents =>
      cases isText : contents.text? path with
      | none => exact .inl fun source isSome => by cases isText.symm.trans isSome
      | some source =>
          cases isRun : run setting source session with
          | ok answer after => exact .inr (.inl ⟨source, answer, after, isText, isRun⟩)
          | error reason after =>
              refine .inl fun source' isSome => ?_
              cases isText.symm.trans isSome
              exact ⟨reason, after, isRun⟩
  | report | reset => exact .inr (.inl trivial)

/-- `LeftBehind setting session requests fault` says which fault, if any, is waiting after requests:
that of the last run which recorded one, unless it was taken away since. -/
inductive LeftBehind (setting : Setting) (session : Session) :
    List Request → Option Diagnostic → Prop
  | start : LeftBehind setting session [] session.reporter.runtimeError
  | kept {earlier : List Request} {request : Request} {waiting : Option Diagnostic}
      (before : LeftBehind setting session earlier waiting)
      (keeps : (session.serveAll setting earlier).Keeps setting request) :
      LeftBehind setting session (earlier ++ [request]) waiting
  | cleared {earlier : List Request} {request : Request}
      (clears : (session.serveAll setting earlier).Clears setting request) :
      LeftBehind setting session (earlier ++ [request]) none
  | recorded {earlier : List Request} {source : String} {fault : Fault}
      (records : (session.serveAll setting earlier).Records setting source fault) :
      LeftBehind setting session (earlier ++ [.run source]) (some fault.diagnostic)

theorem Records.serve {fault : Fault} (records : session.Records setting source fault) :
    (session.serve setting (.run source)).reporter.runtimeError = some fault.diagnostic := by
  rcases records.run with ⟨after, isRun, isFault⟩
  rw [Session.serve, isRun]
  exact isFault

theorem leftBehind_iff {waiting : Option Diagnostic} :
    LeftBehind setting session requests waiting ↔
      (session.serveAll setting requests).reporter.runtimeError = waiting := by
  constructor
  · intro left
    induction left with
    | start => rfl
    | kept _ keeps ih => rw [serveAll_snoc, keeps.runtimeError, ih]
    | cleared clears => rw [serveAll_snoc, clears.runtimeError]
    | recorded records => rw [serveAll_snoc, records.serve]
  · rintro rfl
    -- What a request does to the fault depends on the session that it finds, so the history is
    -- taken apart from its end.
    induction requests using List.reverseRecOn with
    | nil => exact .start
    | append_singleton earlier request ih =>
        rw [serveAll_snoc]
        rcases keeps_or_clears_or_records setting (session.serveAll setting earlier) request with
          keeps | clears | ⟨source, fault, rfl, records⟩
        · rw [keeps.runtimeError]
          exact .kept ih keeps
        · rw [clears.runtimeError]
          exact .cleared clears
        · rw [records.serve]
          exact .recorded records

/-! ## Decisions -/

/-- `Exits setting source session result` says that a result of running the text of a file in a
session is decided by the diagnostics that are waiting with its own, then by its own fault, and then
by a fault of an earlier run. -/
inductive Exits (setting : Setting) (source : String) (session : Session) :
    EStateM.Result Abort Session ExitCode → Prop
  | diagnosed {after : Session}
      (notEmpty : session.reporter.queue ++ (session.parsed source).diagnostics ≠ [])
      (ran : run setting source session = .ok false after) :
      Exits setting source session (.ok .badSource after.report)
  | faulted {after : Session} {fault : Fault} (records : session.Records setting source fault)
      (ran : run setting source session = .ok false after) :
      Exits setting source session (.ok .failure after.report)
  | stale {after : Session} {earlier : Diagnostic}
      (isWaiting : session.reporter.runtimeError = some earlier)
      (ran : run setting source session = .ok true after) :
      Exits setting source session (.ok .failure after.report)
  | succeeded {after : Session} (noFault : session.reporter.runtimeError = none)
      (ran : run setting source session = .ok true after) :
      Exits setting source session (.ok .success after.report)
  | escaped {reason : Abort} {after : Session}
      (ran : run setting source session = .error reason after) :
      Exits setting source session (.error reason after)

/-- A source that is interpreted and does not run without errors records a fault. -/
theorem records_of_false {after : Session}
    (quiet : session.reporter.queue ++ (session.parsed source).diagnostics = [])
    (ran : run setting source session = .ok false after) :
    ∃ fault, session.Records setting source fault := by
  by_cases shown : session.Shows source
  · have admits : session.Admits source := ⟨quiet, shown⟩
    rw [run_of_admits _ _ admits, interpret_eq, prepared_machine] at ran
    cases isVerdict :
        LoxLang.interpret setting (session.parsed source).statements session.machine with
    | mk verdict machine =>
        rw [isVerdict] at ran
        cases verdict with
        | finished | escaped => cases ran
        | faulted fault =>
            refine ⟨fault, admits, ?_⟩
            rw [accepted, if_pos admits, isVerdict]
  · rw [run_eq, if_pos quiet, if_neg shown] at ran
    cases ran

theorem exitCode_of_queue {reporter : Reporter} (notEmpty : reporter.queue ≠ []) :
    exitCode reporter = .badSource :=
  if_pos (by simpa [Reporter.hasErrors] using notEmpty)

theorem exitCode_of_runtimeError {reporter : Reporter} {fault : Diagnostic}
    (noQueue : reporter.queue = []) (isFault : reporter.runtimeError = some fault) :
    exitCode reporter = .failure := by
  simp [exitCode, Reporter.hasErrors, Reporter.hasRuntimeError, noQueue, isFault]

theorem exitCode_of_none {reporter : Reporter} (noQueue : reporter.queue = [])
    (noFault : reporter.runtimeError = none) : exitCode reporter = .success := by
  simp [exitCode, Reporter.hasErrors, Reporter.hasRuntimeError, noQueue, noFault]

theorem exits_runOnce : session.Exits setting source (runOnce setting source session) := by
  cases ran : run setting source session with
  | error reason after =>
      rw [runOnce_of_error ran]
      exact .escaped ran
  | ok answer after =>
      rw [runOnce_of_ok ran]
      cases answer with
      | true =>
          -- The run itself gives no reason for a failure, but an earlier one may have left one.
          have noError : ∀ after, run setting source session ≠ .ok false after := by
            rw [ran]
            rintro after ⟨⟩
          rcases reporter_of_ne_false noError with ⟨noQueue, sameFault⟩
          simp only [ran, final] at noQueue sameFault
          cases isWaiting : session.reporter.runtimeError with
          | none =>
              rw [exitCode_of_none noQueue (sameFault.trans isWaiting)]
              exact .succeeded isWaiting ran
          | some earlier =>
              rw [exitCode_of_runtimeError noQueue (sameFault.trans isWaiting)]
              exact .stale isWaiting ran
      | false =>
          have isQueue := (final_run_reporter setting source session).2
          simp only [ran, final] at isQueue
          by_cases quiet : session.reporter.queue ++ (session.parsed source).diagnostics = []
          · rcases records_of_false quiet ran with ⟨fault, records⟩
            rcases records.run with ⟨after', ran', isFault⟩
            cases ran.symm.trans ran'
            rw [exitCode_of_runtimeError (isQueue.trans quiet) isFault]
            exact .faulted records ran
          · rw [exitCode_of_queue (isQueue ▸ quiet)]
            exact .diagnosed quiet ran

/-- Nothing waits after a report, or after what was collected is forgotten. -/
theorem nothing_left {last : Request} (isLast : requests.getLast? = some last)
    (empties : last = .report ∨ last = .reset) (interactive : Bool) (before : List Diagnostic) :
    requests.foldl (Request.waiting interactive) before = [] ∧
      LeftBehind setting session requests none := by
  rcases List.getLast?_eq_some_iff.mp isLast with ⟨earlier, rfl⟩
  rw [List.foldl_append]
  rcases empties with rfl | rfl
  · exact ⟨rfl, .cleared trivial⟩
  · exact ⟨rfl, .cleared trivial⟩

/-- What becomes of a source after any requests to a session. It comes to be interpreted if and only
if it has no diagnostics and none are waiting, unless its tree is to be shown and there is no room
for it; the exit code of a file also tells of diagnostics and of a fault that earlier requests have
left behind. The diagnostics that are waiting are those of the
texts since the last report, and the fault is that of the last run since then which recorded one.
Right after a report nothing is waiting, and the source decides alone. -/
theorem decided_by_history (setting : Setting) (session : Session) (requests : List Request)
    (source : String) :
    let now := session.serveAll setting requests
    let waiting :=
      requests.foldl (Request.waiting session.mode.interactive) session.reporter.queue
    let parse := Parse.ofText session.mode.interactive source.toList
    now.reporter.queue = waiting ∧
    (∀ fault, LeftBehind setting session requests fault ↔ now.reporter.runtimeError = fault) ∧
    run setting source now =
      (if waiting ++ parse.diagnostics = [] then
        if now.Shows source then interpret setting parse.statements (now.prepared source)
        else .error unprintable (now.examined source)
      else .ok false (now.examined source)) ∧
    (∀ path contents, contents.text? path = some source →
      now.Exits setting source (runFile setting path contents now)) ∧
    (∀ last, requests.getLast? = some last → last = .report ∨ last = .reset →
      waiting = [] ∧ now.reporter.runtimeError = none) := by
  intro now waiting parse
  have isQueue : now.reporter.queue = waiting := queue_serveAll requests
  have isParse : now.parsed source = parse := by
    rw [parsed, mode_serveAll]
  refine ⟨isQueue, fun fault => leftBehind_iff, ?_, ?_, ?_⟩
  · rw [run_eq, isQueue, isParse]
  · intro path contents isText
    rw [runFile_of_text isText]
    exact exits_runOnce
  · intro last isLast empties
    rcases nothing_left isLast empties session.mode.interactive session.reporter.queue with
      ⟨noneWaiting, left⟩
    exact ⟨noneWaiting, leftBehind_iff.mp left⟩

/-- A file with a program that prints a number. -/
def printOne : FileContents :=
  .bytes ("print 1;".toList.map (·.toUInt8))

theorem printOne_text : printOne.text? "one.lox" = some "print 1;" := by
  cbv

theorem decided_by_history_afterReset :
    let now := (fresh {} true false).serveAll ⟨30, 5, fun _ => 0⟩
      [.run "print x;", .run "print ;", .reset]
    printOne.text? "one.lox" = some "print 1;" ∧ now.reporter.runtimeError = none ∧
      now.Exits ⟨30, 5, fun _ => 0⟩ "print 1;"
        (runFile ⟨30, 5, fun _ => 0⟩ "one.lox" printOne now) := by
  intro now
  rcases decided_by_history ⟨30, 5, fun _ => 0⟩ (fresh {} true false)
    [.run "print x;", .run "print ;", .reset] "print 1;" with ⟨-, -, -, files, empties⟩
  exact ⟨printOne_text, (empties .reset rfl (.inr rfl)).2, files "one.lox" printOne printOne_text⟩

/-- What a step answers, unless it is ended early. -/
def answer? {α : Type} : EStateM.Result Abort Session α → Option α
  | .ok answer _ => some answer
  | .error _ _ => none

/-- A source without errors is refused because an earlier one had errors, and the file of a program
without faults exits with that of an earlier one. -/
theorem blamed_for_earlier :
    let setting : Setting := ⟨30, 5, fun _ => 0⟩
    let rejected := (fresh {} true false).serveAll setting [.run "print ;"]
    let faulted := (fresh {} true false).serveAll setting [.run "print x;"]
    (Parse.ofText false "print 1;".toList).diagnostics = [] ∧
      run setting "print 1;" rejected = .ok false (rejected.examined "print 1;") ∧
      (∀ fault, ¬ faulted.Records setting "print 1;" fault) ∧
      (answer? (runFile setting "one.lox" printOne faulted)).map ExitCode.toInt = some 70 := by
  intro setting rejected faulted
  refine ⟨by decide +kernel, ?_, ?_, ?_⟩
  · have notEmpty : rejected.reporter.queue ++ (rejected.parsed "print 1;").diagnostics ≠ [] := by
      decide +kernel
    rw [run_eq, if_neg notEmpty]
  · intro fault records
    have isTrue : answer? (run setting "print 1;" faulted) = some true := by decide +kernel
    rcases records.run with ⟨after, ran, -⟩
    rw [ran] at isTrue
    cases isTrue
  · rw [runFile_of_text printOne_text]
    decide +kernel

end Session

end LoxLang

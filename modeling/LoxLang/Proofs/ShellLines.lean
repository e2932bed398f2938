import LoxLang.Proofs.Scopes
import LoxLang.Proofs.SessionSteps
import LoxLang.Shell

/-!
# Every fault of a line is shown once

Errors can be reported on several paths: a run leaves diagnostics or a fault with the reporter, the
shell reports what was left, and what escapes from a run is settled before that. However a line
ends, the paths together print what is wrong with it exactly once, behind its traces and its output,
and the next line finds a reporter with nothing in it and a machine in its global frame.
-/

namespace LoxLang

/-! ## What is written -/

namespace Transcript

/-- `Adds before after output reports` says what was written: something to the output, and behind it
something to the reports. -/
structure Adds (before after : Transcript) (output reports : String) : Prop where
  text : after.text = before.text ++ output ++ reports
  output : after.on .output = before.on .output ++ output
  reports : after.on .reports = before.on .reports ++ reports

/-- Lines as they are written. -/
def linesText (lines : Array String) : String :=
  String.join (lines.toList.map (· ++ "\n"))

theorem text_write (transcript : Transcript) (stream : Stream) (text : String) :
    (transcript.write stream text).text = transcript.text ++ text := by
  simp [write, Transcript.text]

theorem on_write (transcript : Transcript) (stream other : Stream) (text : String) :
    (transcript.write stream text).on other =
      if stream = other then transcript.on other ++ text else transcript.on other := by
  by_cases same : stream = other
  · simp [write, on, same]
  · simp [write, on, same]

variable {before after : Transcript} {output reports : String}

theorem Adds.refl (transcript : Transcript) : transcript.Adds transcript "" "" :=
  ⟨by simp, by simp, by simp⟩

theorem Adds.writeOutput (adds : before.Adds after output "") (text : String) :
    before.Adds (after.write .output text) (output ++ text) "" where
  text := by simp [text_write, adds.text, String.append_assoc]
  output := by simp [on_write, adds.output, String.append_assoc]
  reports := by simp [on_write, adds.reports]

theorem Adds.writeReports (adds : before.Adds after output reports) (text : String) :
    before.Adds (after.write .reports text) output (reports ++ text) where
  text := by simp [text_write, adds.text, String.append_assoc]
  output := by simp [on_write, adds.output]
  reports := by simp [on_write, adds.reports, String.append_assoc]

theorem Adds.printAll (adds : before.Adds after output "") (lines : Array String) :
    before.Adds (after.printAll lines) (output ++ linesText lines) "" := by
  rcases lines with ⟨lines⟩
  simp only [Transcript.printAll, linesText, List.foldl_toArray']
  induction lines generalizing after output with
  | nil => simpa [String.join] using adds
  | cons line lines ih =>
      have written := ih (adds.writeOutput (line ++ "\n"))
      simpa [String.append_assoc] using written

end Transcript

/-! ## What a run leaves -/

namespace Session

variable (session : Session) (source : String)

/-- The trace of the tokens of a source, if they are to be shown. -/
def tokenTrace : String :=
  if session.mode.showTokens then
    let tokens := (Scan.ofText session.mode.interactive source.toList).allTokens
    Emphasis.dim.apply session.reporter.colored ("\n".intercalate (tokens.map (·.summary))) ++ "\n"
  else ""

/-- The trace of the tree of a source, if it is to be shown. -/
def treeTrace : String :=
  if session.mode.showTree then
    Emphasis.dim.apply session.reporter.colored (Stmt.program (session.parsed source).statements) ++
      "\n"
  else ""

theorem adds_examined :
    session.transcript.Adds (session.examined source).transcript
      (session.tokenTrace source) "" := by
  have unchanged := Transcript.Adds.refl session.transcript
  unfold examined tokensShown tokenTrace
  split
  · exact unchanged.writeOutput _
  · exact unchanged

theorem adds_prepared :
    session.transcript.Adds (session.prepared source).transcript
      (session.tokenTrace source ++ session.treeTrace source) "" := by
  have examined := session.adds_examined source
  unfold prepared treeTrace
  split
  · exact examined.writeOutput _
  · simpa using examined

/-- Whether a session is ready for a line: nothing waits to be reported, errors do not end the
process, and the machine is in its global frame with nothing left to be printed. -/
structure Ready : Prop where
  notFatal : session.reporter.fatal = false
  queue : session.reporter.queue = []
  runtimeError : session.reporter.runtimeError = none
  atGlobal : session.atGlobal = true
  output : session.machine.output = #[]

variable {session}

/-- A fault does not escape from a program. -/
theorem escaped_ne_fault {setting : Setting} {program : List Stmt} {machine : Machine}
    {reason : Abort} (escaped : (LoxLang.interpret setting program machine).1 = .escaped reason)
    (fault : Fault) : reason ≠ .fault fault := by
  rintro rfl
  unfold LoxLang.interpret at escaped
  split at escaped
  · next completion machine' _ =>
      simp only [Verdict.ofCompletion] at escaped
      split at escaped <;> cases escaped
  · next reason machine' _ =>
      cases reason <;> cases escaped

end Session

namespace Shell

open Session

/-- `Closing reporter verdict report` says what is printed about how a program ended: nothing if all
of it ran or the process is to be left, its fault, or one line about what else has escaped from
it. -/
inductive Closing (reporter : Reporter) : Verdict → String → Prop
  | finished : Closing reporter .finished ""
  | faulted (fault : Fault) :
      Closing reporter (.faulted fault) (reporter.announcement fault.diagnostic)
  | interrupted :
      Closing reporter (.escaped .interrupt) (reporter.failure false "keyboard interrupt")
  | quit (status : ExitStatus) : Closing reporter (.escaped (.quit status)) ""
  | internal {reason : Abort} (notInterrupt : reason ≠ .interrupt)
      (notQuit : ∀ status, reason ≠ .quit status) :
      Closing reporter (.escaped reason)
        (reporter.failure true
          ("unknown error: '" ++ reason.name ++ ": " ++ reason.message ++ "'"))

/-- `Printed setting source before after` says what a line that is run as a source prints in a
session: the trace of its tokens, and then either the diagnostics of its scan and parse, each once
and in their order, or the trace of its tree, the output of its program, and how that ended. If
there is no room to show the tree, there is one line about that. -/
inductive Printed (setting : Setting) (source : String) (before : Session) (after : Transcript) :
    Prop
  | diagnosed (wrong : (before.parsed source).diagnostics ≠ [])
      (adds : before.transcript.Adds after (before.tokenTrace source)
        (String.join ((before.parsed source).diagnostics.map
          (before.reporter.register source).announcement)))
  | unprintable {report : String} (sound : (before.parsed source).diagnostics = [])
      (noRoom : ¬ before.Shows source)
      (closing : Closing (before.reporter.register source) (.escaped unprintable) report)
      (adds : before.transcript.Adds after (before.tokenTrace source) report)
  | interpreted {verdict : Verdict} {machine : Machine} {report : String}
      (sound : (before.parsed source).diagnostics = []) (shown : before.Shows source)
      (ended : LoxLang.interpret setting (before.parsed source).statements before.machine =
        (verdict, machine))
      (closing : Closing (before.reporter.register source) verdict report)
      (adds : before.transcript.Adds after
        (before.tokenTrace source ++ before.treeTrace source ++ Transcript.linesText machine.output)
        report)

theorem announcement_congr {reporter reporter' : Reporter}
    (sameColors : reporter.colored = reporter'.colored)
    (sameSource : reporter.source = reporter'.source) :
    reporter.announcement = reporter'.announcement := by
  funext diagnostic
  simp only [Reporter.announcement, Reporter.excerpt?, Reporter.offendingLine?, Reporter.emphasize,
    sameColors, sameSource]

theorem adds_report {before : Transcript} {session : Session} {output : String}
    (adds : before.Adds session.transcript output "") :
    before.Adds session.report.transcript output session.reporter.report := by
  have written := adds.writeReports session.reporter.report
  rwa [String.empty_append] at written

theorem report_ready {session : Session} (notFatal : session.reporter.fatal = false)
    (atGlobal : session.atGlobal = true) (printed : session.machine.output = #[]) :
    session.report.Ready :=
  ⟨notFatal, rfl, rfl, atGlobal, printed⟩

variable {setting : Setting} {source : String} {session : Session}

/-- Whether a line leaves a session ready, and prints what it is to print. -/
def Settled (setting : Setting) (source : String) (before after : Session) : Prop :=
  after.Ready ∧ Printed setting source before after.transcript

theorem settled_of_wrong (ready : session.Ready)
    (wrong : (session.parsed source).diagnostics ≠ []) :
    Settled setting source session (final (runSource setting source session)) := by
  have ran : Session.run setting source session = .ok false (session.examined source) := by
    rw [run_eq, ready.queue, if_neg (by simpa using wrong)]
  have isReport : (session.examined source).reporter.report =
      String.join ((session.parsed source).diagnostics.map
        (session.reporter.register source).announcement) := by
    have same : (session.examined source).reporter.announcement =
        (session.reporter.register source).announcement := announcement_congr rfl rfl
    rw [Reporter.report, same]
    simp [examined, Reporter.enqueue, Reporter.register, ready.queue, ready.runtimeError]
  simp only [runSource, ran, final]
  refine ⟨report_ready ready.notFatal ready.atGlobal ready.output, .diagnosed wrong ?_⟩
  rw [← isReport]
  exact adds_report (session.adds_examined source)

theorem report_eq_nothing {reporter : Reporter} (noQueue : reporter.queue = [])
    (noFault : reporter.runtimeError = none) : reporter.report = "" := by
  simp [Reporter.report, noQueue, noFault]

/-- A reporter that is not fatal has one line for what escapes from a program, and forgets all,
unless the process is to be left. -/
theorem settle_cases {reporter : Reporter} (notFatal : reporter.fatal = false) {reason : Abort}
    (noFault : ∀ fault, reason ≠ .fault fault) :
    (∃ status, reason = .quit status ∧ reporter.settle reason = ⟨"", reporter, some status⟩) ∨
      ∃ text, Closing reporter (.escaped reason) text ∧
        reporter.settle reason = ⟨text, reporter.clear, none⟩ := by
  cases reason with
  | quit status => exact .inl ⟨status, rfl, rfl⟩
  | fault fault => exact absurd rfl (noFault fault)
  | interrupt =>
      exact .inr ⟨_, .interrupted, by simp [Reporter.settle, Reporter.conclude, notFatal]⟩
  | overflow | host | tooDeep | exhausted =>
      exact .inr ⟨_, .internal nofun nofun, by simp [Reporter.settle, Reporter.conclude, notFatal]⟩

theorem Closing.congr {reporter reporter' : Reporter} {verdict : Verdict} {report : String}
    (closing : Closing reporter verdict report)
    (sameColors : reporter.colored = reporter'.colored)
    (sameSource : reporter.source = reporter'.source) : Closing reporter' verdict report := by
  have sameFailure : reporter.failure = reporter'.failure := by
    funext internal message
    simp only [Reporter.failure, Reporter.emphasize, sameColors]
  cases closing with
  | finished => exact .finished
  | faulted fault =>
      rw [announcement_congr sameColors sameSource]
      exact .faulted fault
  | interrupted =>
      rw [sameFailure]
      exact .interrupted
  | quit status => exact .quit status
  | internal notInterrupt notQuit =>
      rw [sameFailure]
      exact .internal notInterrupt notQuit

/-- A run that is ended early leaves a session ready, with what is to be printed about its end. -/
theorem runSource_of_error {before : Transcript} {after : Session} {reason : Abort}
    {output : String} (ran : Session.run setting source session = .error reason after)
    (ready : after.Ready) (noFault : ∀ fault, reason ≠ .fault fault)
    (adds : before.Adds after.transcript output "") :
    (final (runSource setting source session)).Ready ∧
      ∃ text, Closing after.reporter (.escaped reason) text ∧
        before.Adds (final (runSource setting source session)).transcript output text := by
  rcases settle_cases ready.notFatal noFault with
    ⟨status, rfl, settled⟩ | ⟨text, closing, settled⟩
  · simp only [runSource, ran, settled, final]
    exact ⟨⟨ready.notFatal, ready.queue, ready.runtimeError, ready.atGlobal, ready.output⟩,
      "", .quit status, adds.writeReports ""⟩
  · simp only [runSource, ran, settled, final]
    refine ⟨report_ready ready.notFatal ready.atGlobal ready.output, text, closing, ?_⟩
    -- The reporter has been cleared, so that the report that follows is empty.
    have written := (adds.writeReports text).writeReports ""
    rwa [String.empty_append, String.append_empty] at written

section Interpreted

variable {verdict : Verdict} {machine : Machine} (ready : session.Ready)
  (sound : (session.parsed source).diagnostics = [])
  (ended : LoxLang.interpret setting (session.parsed source).statements session.machine =
    (verdict, machine))
include ready sound

theorem run_eq_interpret (shown : session.Shows source) : Session.run setting source session =
    Session.interpret setting (session.parsed source).statements (session.prepared source) :=
  run_of_admits _ _ ⟨by rw [ready.queue, sound, List.nil_append], shown⟩ setting

/-- A source whose tree there is no room for. -/
theorem settled_of_noRoom (noRoom : ¬ session.Shows source) :
    Settled setting source session (final (runSource setting source session)) := by
  have isQueue : session.reporter.queue ++ (session.parsed source).diagnostics = [] := by
    rw [ready.queue, sound, List.nil_append]
  have ran : Session.run setting source session =
      .error unprintable (session.examined source) := by
    rw [run_eq, if_pos isQueue, if_neg noRoom]
  have readyAfter : (session.examined source).Ready :=
    ⟨ready.notFatal, isQueue, ready.runtimeError, ready.atGlobal, ready.output⟩
  have noFault (fault : Fault) : unprintable ≠ .fault fault := by
    rw [unprintable]
    nofun
  rcases runSource_of_error ran readyAfter noFault (session.adds_examined source) with
    ⟨readyAtEnd, text, closing, adds⟩
  exact ⟨readyAtEnd, .unprintable sound noRoom (closing.congr rfl rfl) adds⟩

include ended

/-- The session in which a program has ended, before anything is reported about it. -/
theorem concluded_ready : ((session.prepared source).concluded machine).Ready := by
  have isReporter := session.prepared_reporter source
  have sameFrame := interpret_current setting (session.parsed source).statements session.machine
  rw [ended] at sameFrame
  refine ⟨?_, ?_, ?_, ?_, rfl⟩
  · simp [concluded, isReporter, Reporter.enqueue, Reporter.register, ready.notFatal]
  · simp [concluded, isReporter, Reporter.enqueue, Reporter.register, ready.queue, sound]
  · simp [concluded, isReporter, Reporter.enqueue, Reporter.register, ready.runtimeError]
  · rw [← ready.atGlobal, atGlobal, atGlobal, ← sameFrame]
    rfl

end Interpreted

section Verdicts

variable {machine : Machine} (ready : session.Ready)
  (sound : (session.parsed source).diagnostics = []) (shown : session.Shows source)
include ready sound shown

theorem settled_of_finished
    (ended : LoxLang.interpret setting (session.parsed source).statements session.machine =
      (.finished, machine)) :
    Settled setting source session (final (runSource setting source session)) := by
  have concluded := concluded_ready ready sound ended
  have adds := (session.adds_prepared source).printAll machine.output
  simp only [runSource, run_eq_interpret ready sound shown, interpret_eq, prepared_machine, ended,
    final]
  refine ⟨report_ready concluded.notFatal concluded.atGlobal rfl, ?_⟩
  refine .interpreted sound shown ended .finished ?_
  rw [← report_eq_nothing concluded.queue concluded.runtimeError]
  exact adds_report adds

theorem settled_of_faulted {fault : Fault}
    (ended : LoxLang.interpret setting (session.parsed source).statements session.machine =
      (.faulted fault, machine)) :
    Settled setting source session (final (runSource setting source session)) := by
  have concluded := concluded_ready ready sound ended
  have adds := (session.adds_prepared source).printAll machine.output
  have isReport : ((session.prepared source).reporter.record fault).report =
      (session.reporter.register source).announcement fault.diagnostic := by
    have noQueue : (session.prepared source).reporter.queue = [] := concluded.queue
    have same : ((session.prepared source).reporter.record fault).announcement =
        (session.reporter.register source).announcement := by
      rw [prepared_reporter]
      exact announcement_congr rfl rfl
    rw [Reporter.report, same]
    simp [Reporter.record, noQueue]
  simp only [runSource, run_eq_interpret ready sound shown, interpret_eq, prepared_machine, ended,
    final]
  refine ⟨report_ready concluded.notFatal concluded.atGlobal rfl, ?_⟩
  refine .interpreted sound shown ended (.faulted fault) ?_
  rw [← isReport]
  exact adds_report adds

theorem settled_of_escaped {reason : Abort}
    (ended : LoxLang.interpret setting (session.parsed source).statements session.machine =
      (.escaped reason, machine)) :
    Settled setting source session (final (runSource setting source session)) := by
  have concluded := concluded_ready ready sound ended
  have adds := (session.adds_prepared source).printAll machine.output
  have noFault := escaped_ne_fault (congrArg Prod.fst ended)
  have ran : Session.run setting source session =
      .error reason ((session.prepared source).concluded machine) := by
    rw [run_eq_interpret ready sound shown, interpret_eq, prepared_machine, ended]
  rcases runSource_of_error ran concluded noFault adds with ⟨readyAtEnd, text, closing, adds⟩
  have sameColors := congrArg Reporter.colored (session.prepared_reporter source)
  have sameSource := congrArg Reporter.source (session.prepared_reporter source)
  exact ⟨readyAtEnd, .interpreted sound shown ended (closing.congr sameColors sameSource) adds⟩

end Verdicts

theorem runSource_settled (ready : session.Ready) (setting : Setting) (source : String) :
    Settled setting source session (final (runSource setting source session)) := by
  by_cases sound : (session.parsed source).diagnostics = []
  · by_cases shown : session.Shows source
    · rcases ended :
          LoxLang.interpret setting (session.parsed source).statements session.machine with
        ⟨verdict, machine⟩
      cases verdict with
      | finished => exact settled_of_finished ready sound shown ended
      | faulted fault => exact settled_of_faulted ready sound shown ended
      | escaped reason => exact settled_of_escaped ready sound shown ended
    · exact settled_of_noRoom ready sound shown
  · exact settled_of_wrong ready sound

/-! ## Lines -/

theorem final_obey_run (setting : Setting) (source : String) (session : Session) :
    final (obey setting (.run source) session) = final (runSource setting source session) := by
  rw [obey]
  cases runSource setting source session <;> rfl

/-- Every line leaves a session ready for the next one. -/
theorem answer_ready (ready : session.Ready) (setting : Setting) (line : String) :
    (final (answer setting line session)).Ready := by
  rw [answer]
  cases command line with
  | ignore | help | endOfInput | exit =>
      exact ⟨ready.notFatal, ready.queue, ready.runtimeError, ready.atGlobal, ready.output⟩
  | run source =>
      rw [final_obey_run]
      exact (runSource_settled ready setting source).1

/-- The session after some lines were answered, whether or not one of them asks to leave the
shell. -/
def answerAll (setting : Setting) (lines : List String) (session : Session) : Session :=
  lines.foldl (fun session line => final (answer setting line session)) session

theorem answerAll_ready (ready : session.Ready) (setting : Setting) (lines : List String) :
    (answerAll setting lines session).Ready := by
  induction lines generalizing session with
  | nil => exact ready
  | cons line lines ih => exact ih (answer_ready ready setting line)

/-- An interactive session before its first line. -/
def opened : Session where
  mode := { interactive := true, showTree := true }
  reporter := { fatal := false }

end Shell

end LoxLang

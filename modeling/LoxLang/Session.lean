import LoxLang.Interpret
import LoxLang.Parse
import LoxLang.Reporter
import LoxLang.Text.Utf8
import LoxLang.Transcript
import LoxLang.Tree.Printer

/-!
# Sessions

A session runs one source after another on the same machine, so that global names persist. A source
is run only if nothing is wrong with it and no earlier diagnostic is still waiting to be reported.
A program whose tree is to be shown is not run either if it is nested too deeply for the printer.
A file is run once, and its errors are reported at the end. Writing a report or a trace does not
fail, as the streams of the transcript take every text.
-/

namespace LoxLang

/-- What a session shows and which mode it is in. In interactive mode a semicolon at the end may be
left out and the value of a bare expression at the end is printed. -/
structure SessionMode where
  interactive : Bool := false
  showTokens : Bool := false
  showTree : Bool := false

/-- The state of a session. -/
structure Session where
  mode : SessionMode
  reporter : Reporter
  machine : Machine := .initial
  transcript : Transcript := {}

/-- What the file system has for a path: nothing that can be read, or some bytes. -/
inductive FileContents
  | unreadable
  | bytes (content : List UInt8)

/-- Exit codes of a process. -/
inductive ExitCode
  | success
  | usage
  | badSource
  | noInput
  | failure

namespace ExitCode

/-- The number of an exit code. -/
def toInt : ExitCode → Int
  | .success => 0
  | .usage => 64
  | .badSource => 65
  | .noInput => 66
  | .failure => internalErrorCode

end ExitCode

/-- A step of a session, which may be ended early. -/
abbrev SessionStep := EStateM Abort Session

namespace Session

/-- The session after some text was written. -/
def write (session : Session) (stream : Stream) (text : String) : Session :=
  { session with transcript := session.transcript.write stream text }

/-- The session after a trace was printed. -/
def trace (session : Session) (text : String) : Session :=
  session.write .output (Emphasis.dim.apply session.reporter.colored text ++ "\n")

/-- The session with more diagnostics to be reported. -/
def enqueue (session : Session) (diagnostics : List Diagnostic) : Session :=
  { session with reporter := session.reporter.enqueue diagnostics }

/-- Whether the machine is in its global frame. -/
def atGlobal (session : Session) : Bool :=
  session.machine.current == Heap.globals

/-- Scans a source. -/
def scan (session : Session) (source : String) : Scan × Session :=
  let scan := Scan.ofText session.mode.interactive source.toList
  (scan, session.enqueue scan.diagnostics)

/-- Parses a source. -/
def parse (session : Session) (source : String) : List Stmt × Session :=
  let (scan, session) := session.scan source
  let session :=
    if session.mode.showTokens then
      session.trace ("\n".intercalate (scan.allTokens.map (·.summary)))
    else session
  let parse := Parse.ofScan session.mode.interactive scan
  (parse.statements, session.enqueue parse.diagnostics)

/-- Prints all that was collected by the reporter and forgets it. -/
def report (session : Session) : Session :=
  let text := session.reporter.report
  { session.write .reports text with reporter := session.reporter.clear }

/-- Interprets a program and tells whether all of it ran. A fault is kept for the next report. -/
def interpret (setting : Setting) (program : List Stmt) : SessionStep Bool :=
  fun session =>
    let (verdict, machine) := LoxLang.interpret setting program session.machine
    let session :=
      { session with
        machine := { machine with output := #[] }
        transcript := session.transcript.printAll machine.output }
    match verdict with
    | .finished => .ok true session
    | .faulted error => .ok false { session with reporter := session.reporter.record error }
    | .escaped reason => .error reason session

/-- What the host says when the printer runs out of room. -/
def unprintable : Abort :=
  .overflow "maximum recursion depth exceeded"

/-- Shows the tree of a program if it is to be shown. -/
def showTree (program : List Stmt) : SessionStep Unit :=
  fun session =>
    if session.mode.showTree then
      match Printer.print program with
      | some text => .ok () (session.trace text)
      | none => .error unprintable session
    else .ok () session

/-- Runs a source and tells whether there were no errors. Errors are kept for the next report. -/
def run (setting : Setting) (source : String) : SessionStep Bool :=
  fun session =>
    let session := { session with reporter := session.reporter.register source }
    let (program, session) := session.parse source
    if session.reporter.hasErrors then .ok false session
    else
      match session.showTree program with
      | .ok () session => interpret setting program session
      | .error reason session => .error reason session

/-- The exit code for what a reporter has collected. -/
def exitCode (reporter : Reporter) : ExitCode :=
  if reporter.hasErrors then .badSource
  else if reporter.hasRuntimeError then .failure
  else .success

/-- Runs a source, reports its errors and gives the exit code. -/
def runOnce (setting : Setting) (source : String) : SessionStep ExitCode :=
  fun session =>
    match run setting source session with
    | .error reason session => .error reason session
    | .ok _ session => .ok (exitCode session.reporter) session.report

/-- Runs a file, reports its errors and gives the exit code. The path is only shown. -/
def runFile (setting : Setting) (path : String) (contents : FileContents) :
    SessionStep ExitCode :=
  fun session =>
    if path.contains '\x00' then .error (.host .badValue "embedded null byte") session
    else
      match contents with
      | .unreadable =>
          let message := "'" ++ path ++ "' could not be opened"
          .ok .noInput (session.write .reports (session.reporter.failure false message))
      | .bytes content =>
          match Text.decodeUtf8 content with
          | .error error => .error (.host .undecodable error.message) session
          | .ok text => runOnce setting (String.ofList (Text.unifyNewlines text)) session

end Session

end LoxLang

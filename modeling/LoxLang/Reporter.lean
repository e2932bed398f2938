import LoxLang.Fault
import LoxLang.Terminal
import LoxLang.Text.Lines

/-!
# Reporting errors

A reporter collects the diagnostics of one source, in order, and at most one fault of its
execution. A report shows the fault first and then the diagnostics, each with an excerpt of the
source where the offending text is underlined, and leaves the reporter empty. What ends a
computation without being a fault of the program is reported as an internal error; a fatal
reporter then asks for the process to be left.
-/

namespace LoxLang

/-- Collected errors: the queue of diagnostics, the fault of the last run, and the source that
excerpts are taken from. -/
structure Reporter where
  fatal : Bool := true
  colored : Bool := true
  queue : List Diagnostic := []
  runtimeError : Option Diagnostic := none
  source : Option String := none

/-- The exit code of a process that was left because of an error. -/
def internalErrorCode : Int := 70

namespace Reporter

/-- Whether there are diagnostics. -/
def hasErrors (reporter : Reporter) : Bool :=
  !reporter.queue.isEmpty

/-- Whether there is a fault. -/
def hasRuntimeError (reporter : Reporter) : Bool :=
  reporter.runtimeError.isSome

/-- The reporter for a new source. What was collected before stays. -/
def register (reporter : Reporter) (source : String) : Reporter :=
  { reporter with source := some source }

/-- The reporter with more diagnostics at the end of its queue. -/
def enqueue (reporter : Reporter) (diagnostics : List Diagnostic) : Reporter :=
  { reporter with queue := reporter.queue ++ diagnostics }

/-- The reporter with a fault, which takes the place of an earlier one. -/
def record (reporter : Reporter) (fault : Fault) : Reporter :=
  { reporter with runtimeError := some fault.diagnostic }

/-- The reporter without its diagnostics and its fault. -/
def clear (reporter : Reporter) : Reporter :=
  { reporter with queue := [], runtimeError := none }

/-- A text that stands out, if the reporter uses colours. -/
def emphasize (reporter : Reporter) (emphasis : Emphasis) (text : String) : String :=
  emphasis.apply reporter.colored text

/-- The line of the source that a diagnostic points at. -/
def offendingLine? (reporter : Reporter) (diagnostic : Diagnostic) : Option (List Char) :=
  match reporter.source with
  | none => none
  | some source =>
      if diagnostic.position.line < 1 then none
      else (Text.lines source.toList)[diagnostic.position.line.toNat - 1]?

/-- The number of characters of a line before the offending text. -/
def offendingStart (diagnostic : Diagnostic) (line : List Char) : Nat :=
  min (diagnostic.position.column - 1).toNat line.length

/-- The number of characters of a line up to the end of the offending text. -/
def offendingEnd (diagnostic : Diagnostic) (line : List Char) : Nat :=
  min (offendingStart diagnostic line + diagnostic.length) line.length

/-- A mark under the offending text, at least one character wide. -/
def underline (width : Nat) : String :=
  "^" ++ "".pushn '~' (width - 1)

/-- An excerpt of the source: the line that a diagnostic points at, with the offending text
underlined. There is none if the source does not have that line. -/
def excerpt? (reporter : Reporter) (diagnostic : Diagnostic) : Option String :=
  (reporter.offendingLine? diagnostic).map fun line =>
    let start := offendingStart diagnostic line
    let stop := offendingEnd diagnostic line
    let before := String.ofList (line.take start)
    let inside := String.ofList ((line.take stop).drop start)
    let behind := String.ofList (line.drop stop)
    "  " ++ before ++ reporter.emphasize .alarm inside ++ behind ++ "\n" ++
      "  " ++ "".pushn ' ' start ++ reporter.emphasize .alarm (underline (stop - start))

/-- What is printed for a diagnostic: its header and message, and the excerpt if there is one. -/
def announcement (reporter : Reporter) (diagnostic : Diagnostic) : String :=
  let headline :=
    reporter.emphasize .bold diagnostic.header ++ " " ++
      reporter.emphasize .alarm "error: " ++ diagnostic.message ++ "\n"
  match reporter.excerpt? diagnostic with
  | none => headline
  | some excerpt => headline ++ excerpt ++ "\n"

/-- What is printed for all that was collected: the fault, then the diagnostics in order. -/
def report (reporter : Reporter) : String :=
  String.join ((reporter.runtimeError.toList ++ reporter.queue).map reporter.announcement)

/-- What is printed for an error that is not tied to a source; internal errors are marked. -/
def failure (reporter : Reporter) (internal : Bool) (message : String) : String :=
  let origin := if internal then reporter.emphasize .alarm "[internal] " else ""
  origin ++ reporter.emphasize .alarm "error: " ++ message ++ "\n"

/-- The end of a guarded computation: what is printed, the reporter afterwards, and the exit
status if the process is to be left. -/
structure Settlement where
  text : String
  reporter : Reporter
  exit : Option ExitStatus

/-- The end of a guarded computation about which something was printed. -/
def conclude (reporter : Reporter) (text : String) : Settlement :=
  if reporter.fatal then ⟨text, reporter, some (.number internalErrorCode)⟩
  else ⟨text, reporter.clear, none⟩

/-- Deals with the reason that ended a guarded computation. A request to leave the process passes
through. -/
def settle (reporter : Reporter) : Abort → Settlement
  | .quit status => ⟨"", reporter, some status⟩
  | .interrupt => reporter.conclude (reporter.failure false "keyboard interrupt")
  | .fault error =>
      let recorded := reporter.record error
      recorded.clear.conclude recorded.report
  | reason =>
      reporter.conclude
        (reporter.failure true ("unknown error: '" ++ reason.name ++ ": " ++ reason.message ++ "'"))

end Reporter

end LoxLang

import LoxLang.CommandLine
import LoxLang.Shell

/-!
# The application

Called with a file, the application runs it and is left with an exit code; called without one, it
is a shell. An error of one line does not end the shell, whereas any error ends the run of a file.
-/

namespace LoxLang
namespace Application

open CommandLine

/-- How a call of the application ended: its exit status, unless it just ran to its end, and what it
wrote. -/
structure Outcome where
  exit : Option ExitStatus
  output : String
  errors : String := ""

/-- The session that a call asks for. Errors are fatal unless it is interactive. -/
def session (interactive : Bool) (flags : List Flag) : Session where
  mode :=
    { interactive
      showTokens := flags.contains .tokens
      showTree := flags.contains .tree }
  reporter := { fatal := !interactive, colored := !flags.contains .plain }

/-- Runs a file to its end. -/
def runFile (setting : Setting) (flags : List Flag) (path : String) (contents : FileContents) :
    Outcome :=
  match Session.runFile setting path contents (session false flags) with
  | .ok code session => { exit := some (.number code.toInt), output := session.transcript.text }
  | .error reason session =>
      let settlement := session.reporter.settle reason
      { exit := settlement.exit, output := session.transcript.text ++ settlement.text }

/-- Runs the shell on the lines of its input. -/
def runShell (setting : Setting) (flags : List Flag) (input : String) : Outcome :=
  let lines := (Text.splitAtNewlines [] input.toList).map String.ofList
  match Shell.converse setting lines ((session true flags).write .output Shell.greeting) with
  | .ok () session => { exit := none, output := session.transcript.text }
  | .error reason session =>
      let settlement := session.reporter.settle reason
      { exit := settlement.exit, output := session.transcript.text ++ settlement.text }

/-- A call of the application with some arguments, where `files` says what there is to be read and
`input` is what the user types. -/
def call (setting : Setting) (files : String → FileContents) (input : String)
    (arguments : List String) : Outcome :=
  match request arguments with
  | .help => { exit := some (.number ExitCode.success.toInt), output := helpText }
  | .misuse message =>
      { exit := some (.number ExitCode.usage.toInt), output := "", errors := misuseText message }
  | .start (some path) flags => runFile setting flags path (files path)
  | .start none flags => runShell setting flags input

end Application
end LoxLang

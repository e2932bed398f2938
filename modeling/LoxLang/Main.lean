import LoxLang.Application
import Std.Time

/-!
# The program

The program reads its arguments, a file or the lines that a user types, and writes what the
application answers. The time is read once for every run, so that a run is a pure computation.
-/

namespace LoxLang
namespace Program

/-- The bounds that programs are run with, and the present time in seconds. -/
def presentSetting : IO Setting := do
  let now ← Std.Time.Timestamp.now
  let seconds := Float.ofInt now.toNanosecondsSinceUnixEpoch.val / 1000000000
  return .standard fun _ => seconds

/-- What the file system has for a path. -/
def readContents (path : String) : IO FileContents := do
  try
    return .bytes (← IO.FS.readBinFile path).toList
  catch _ => return .unreadable

/-- Writes some text at once. -/
def emit (text : String) : IO Unit := do
  let output ← IO.getStdout
  output.putStr text
  output.flush

/-- The code that a process ends with. A text counts as an error. -/
def exitCode : Option ExitStatus → UInt32
  | none | some .none => 0
  | some (.boolean value) => if value then 1 else 0
  | some (.number code) => (code % 256).toNat.toUInt32
  | some (.text _) => 1

/-- Answers the lines that a user types until the shell is left, and gives the exit code. -/
partial def converse (session : Session) : IO UInt32 := do
  emit Shell.prompt
  let typed ← (← IO.getStdin).getLine
  let line := if typed.isEmpty then Shell.endOfInput else (typed.dropSuffix "\n").toString
  match Shell.answer (← presentSetting) line { session with transcript := {} } with
  | .ok stop session =>
      emit session.transcript.text
      if stop then return 0 else converse session
  | .error reason session =>
      let settlement := session.reporter.settle reason
      emit (session.transcript.text ++ settlement.text)
      return exitCode settlement.exit

end Program
end LoxLang

open LoxLang in
/-- Runs a file if one is given and the shell otherwise. -/
def main (arguments : List String) : IO UInt32 := do
  match CommandLine.request arguments with
  | .start none flags =>
      Program.emit Shell.greeting
      Program.converse (Application.session true flags)
  | request =>
      let contents ←
        match request with
        | .start (some path) _ => Program.readContents path
        | _ => pure .unreadable
      let outcome :=
        Application.call (← Program.presentSetting) (fun _ => contents) "" arguments
      Program.emit outcome.output
      IO.eprint outcome.errors
      return Program.exitCode outcome.exit

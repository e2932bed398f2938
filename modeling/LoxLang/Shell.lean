import LoxLang.Session

/-!
# The shell

The shell of an interactive session reads lines. A line that is nothing but a command of the shell
is obeyed, an empty line is ignored, and every other line is run as a source; so a name that a
command has as well stays usable in programs. A leading question mark asks for help.
-/

namespace LoxLang
namespace Shell

/-- What a line asks for: nothing, the help text, to leave the shell because its input has ended or
because the user wants to, or to run a source. -/
inductive Command
  | ignore
  | help
  | endOfInput
  | exit
  | run (source : String)
deriving DecidableEq

/-- What a session greets its user with. -/
def greeting : String :=
  "Lox interpreter :: Python backend\nType 'help' for more information, Ctrl-D to exit.\n"

/-- What stands in front of every line that is typed. -/
def prompt : String := "> "

/-- What the shell reads when its input has ended. -/
def endOfInput : String := "EOF"

/-- The help text. -/
def helpText : String :=
  "Welcome to the lox interpreter!\n\n" ++
  "Each line is run as soon as it is entered, and variables and functions declared \n" ++
  "on one line stay available on the next. A trailing ';' may be left out, and a \n" ++
  "line ending in a bare expression prints its value.\n\n" ++
  "Try it out by typing 'fun square(x) \x7b return x * x; \x7d'. Next, try typing \n" ++
  "'square(4)'. This will print 16.\n"

/-- A stripped line with a leading question mark replaced by the word for help. -/
def spellOut : List Char → List Char
  | '?' :: rest => "help ".toList ++ rest
  | line => line

/-- The command of a line that has been stripped and spelled out: it begins with a word, and what
follows the word, blanks apart, is its argument. Help and exit take no argument, and the end of the
input may have any. -/
def ofWords (line : List Char) : Command :=
  let word := String.ofList (line.takeWhile Text.isWordPart)
  let argument := Text.strip (line.dropWhile Text.isWordPart)
  if word == "EOF" then .endOfInput
  else if word == "help" && argument.isEmpty then .help
  else if word == "exit" && argument.isEmpty then .exit
  else .run (String.ofList line)

/-- The command of a line. -/
def command (line : String) : Command :=
  let stripped := Text.strip line.toList
  if stripped.isEmpty then .ignore else ofWords (spellOut stripped)

/-- Runs a source, reports its errors and forgets them before the next line. -/
def runSource (setting : Setting) (source : String) : SessionStep Unit :=
  fun session =>
    match Session.run setting source session with
    | .ok _ session => .ok () session.report
    | .error reason session =>
        let settlement := session.reporter.settle reason
        let session :=
          { session.write .reports settlement.text with reporter := settlement.reporter }
        match settlement.exit with
        | some status => .error (.quit status) session
        | none => .ok () session.report

/-- Obeys a command and tells whether the shell is to be left. -/
def obey (setting : Setting) : Command → SessionStep Bool
  | .ignore, session => .ok false session
  | .help, session => .ok false (session.write .output helpText)
  | .endOfInput, session => .ok true (session.write .output "\n")
  | .exit, session => .ok true session
  | .run source, session =>
      match runSource setting source session with
      | .ok () session => .ok false session
      | .error reason session => .error reason session

/-- Answers a line and tells whether the shell is to be left. -/
def answer (setting : Setting) (line : String) : SessionStep Bool :=
  obey setting (command line)

/-- Answers lines, with a prompt in front of each, until the shell is left. When there are no more
lines, the input has ended. -/
def converse (setting : Setting) : List String → SessionStep Unit
  | [], session =>
      match answer setting endOfInput (session.write .output prompt) with
      | .ok _ session => .ok () session
      | .error reason session => .error reason session
  | line :: lines, session =>
      match answer setting line (session.write .output prompt) with
      | .ok true session => .ok () session
      | .ok false session => converse setting lines session
      | .error reason session => .error reason session

end Shell
end LoxLang

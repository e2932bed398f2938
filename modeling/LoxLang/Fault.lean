import LoxLang.Diagnostic

/-!
# How a run can fail

A program that does something it must not do causes a fault, which points at a token and has a
cause. Other things can end a run as well: natives may raise errors of the host, the user may
interrupt the run, and calls may be nested too deeply.
-/

namespace LoxLang

/-- What a program did wrong. A native may report a fault of its own, with its own wording. -/
inductive Cause
  | undefined (name : String)
  | alreadyDefined (name : String)
  | operandNotNumber
  | operandsNotNumbers
  | notAddable
  | notMultipliable
  | divisionByZero
  | endlessRepetition
  | hugeRepetition
  | unknownUnary (operator : String)
  | unknownBinary (operator : String)
  | notCallable
  | wrongArity (expected : Int) (actual : Nat)
  | strayLoopExit (word : String)
  | strayReturn
  | stackOverflow
  | reported (actor message : String)

namespace Cause

/-- The part of the program that finds a fault. -/
def actor : Cause → String
  | .undefined _ | .alreadyDefined _ => "Environment"
  | .reported actor _ => actor
  | _ => "Interpreter"

/-- The wording of a fault. -/
def message : Cause → String
  | .undefined name => "Undefined variable '" ++ name ++ "'."
  | .alreadyDefined name => "Variable '" ++ name ++ "' already defined."
  | .operandNotNumber => "Operand must be a number."
  | .operandsNotNumbers => "Operands must be numbers."
  | .notAddable => "Operands must be two numbers or start with a string."
  | .notMultipliable => "Operands must be two numbers or a string and a number."
  | .divisionByZero => "Cannot divide by zero."
  | .endlessRepetition => "Repetition count must be finite."
  | .hugeRepetition => "Repetition result is too large."
  | .unknownUnary operator => "Unknown unary operator '" ++ operator ++ "'."
  | .unknownBinary operator => "Unknown binary operator '" ++ operator ++ "'."
  | .notCallable => "Can only call functions and classes."
  | .wrongArity expected actual =>
      "Expected " ++ toString expected ++ " arguments but got " ++ toString actual ++ "."
  | .strayLoopExit word => "No loop to catch " ++ word ++ " statement"
  | .strayReturn => "No function to catch return statement"
  | .stackOverflow => "Stack overflow."
  | .reported _ message => message

end Cause

/-- A fault of a program and the token it points at, if any. -/
structure Fault where
  token : Option Token
  cause : Cause

namespace Fault

/-- The diagnostic of a fault. Without a token there is no position. -/
def diagnostic (fault : Fault) : Diagnostic :=
  match fault.token with
  | none => Diagnostic.plain ⟨0, 0⟩ fault.cause.actor fault.cause.message
  | some token =>
      (Diagnostic.plain token.position fault.cause.actor fault.cause.message).spanning
        token.lexeme.length

end Fault

/-- The kinds of errors that the host of a program raises. -/
inductive HostErrorKind
  | badValue
  | badType
  | countTooLarge
  | undecodable
  | parserFault
  | languageFault

namespace HostErrorKind

/-- The name under which a kind is reported. -/
def name : HostErrorKind → String
  | .badValue => "ValueError"
  | .badType => "TypeError"
  | .countTooLarge => "OverflowError"
  | .undecodable => "UnicodeDecodeError"
  | .parserFault => "ParseFault"
  | .languageFault => "LoxException"

end HostErrorKind

/-- What a process that asks to be left hands to its caller: nothing, a truth value, a number or a
text. -/
inductive ExitStatus
  | none
  | boolean (value : Bool)
  | number (code : Int)
  | text (message : String)

namespace ExitStatus

/-- The wording of a status. -/
def message : ExitStatus → String
  | .none => "None"
  | .boolean value => if value then "True" else "False"
  | .number code => toString code
  | .text message => message

end ExitStatus

/-- What ends a computation without a result: a fault of the program, an interrupt by the user, a
request to leave with a status, a stack overflow that a native or the printer reports, an error of
the host, a run that needs more room than there is on the stack, or a loop that has used up its
turns. -/
inductive Abort
  | fault (fault : Fault)
  | interrupt
  | quit (status : ExitStatus)
  | overflow (message : String)
  | host (kind : HostErrorKind) (message : String)
  | tooDeep
  | exhausted

namespace Abort

/-- The name under which a reason is reported. -/
def name : Abort → String
  | .fault _ => "RuntimeFault"
  | .interrupt => "KeyboardInterrupt"
  | .quit _ => "SystemExit"
  | .overflow _ | .tooDeep => "RecursionError"
  | .host kind _ => kind.name
  | .exhausted => "Exhausted"

/-- The wording of a reason. -/
def message : Abort → String
  | .fault error => error.cause.message
  | .interrupt => ""
  | .quit status => status.message
  | .overflow message => message
  | .host _ message => message
  | .tooDeep | .exhausted => ""

/-- A fault at a token. -/
def atToken (token : Token) (cause : Cause) : Abort :=
  .fault ⟨some token, cause⟩

end Abort

end LoxLang

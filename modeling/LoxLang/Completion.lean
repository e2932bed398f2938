import LoxLang.Fault

/-!
# Completions

How the execution of a statement ended: it ran to its end, or it met a statement that leaves a loop
or a function. Whatever is left has to catch its completion; one that nothing catches is a fault.
-/

namespace LoxLang

/-- How the execution of a statement ended, with the keyword of the statement that ended it. A
return also carries the value that is given back. -/
inductive Completion
  | normal
  | breakLoop (keyword : Option Token)
  | continueLoop (keyword : Option Token)
  | returned (keyword : Option Token) (value : Value)

namespace Completion

/-- Whether execution goes on with the next statement. -/
def isNormal : Completion → Bool
  | .normal => true
  | _ => false

/-- The word for a completion. -/
def word : Completion → String
  | .normal => "normal"
  | .breakLoop _ => "break"
  | .continueLoop _ => "continue"
  | .returned _ _ => "return"

/-- The keyword of the statement that ended the execution, if there was one. -/
def keyword? : Completion → Option Token
  | .normal => none
  | .breakLoop keyword | .continueLoop keyword | .returned keyword _ => keyword

/-- The value that is given back; `nil` if there is none. -/
def value : Completion → Value
  | .returned _ value => value
  | _ => .nil

/-- Whether two executions ended alike, whichever statement ended them. -/
def sameAs (left right : Completion) : Bool :=
  left.word == right.word && left.value.sameAs right.value

/-- The form that traces show. -/
def inspect (completion : Completion) : String :=
  "Completion(" ++ completion.word.toUpper ++ ", " ++ completion.value.inspect ++ ")"

/-- The fault of a completion that nothing is there to catch. -/
def stray? : Completion → Option Fault
  | .normal => none
  | .breakLoop keyword => some ⟨keyword, .strayLoopExit "break"⟩
  | .continueLoop keyword => some ⟨keyword, .strayLoopExit "continue"⟩
  | .returned keyword _ => some ⟨keyword, .strayReturn⟩

end Completion

end LoxLang

import LoxLang.Evaluator

/-!
# Interpreting a program

A program is interpreted by executing its statements in the global frame. A fault stops it, and so
does a stack overflow, which counts as a fault without a token. What else ends a run early, such as
an error of the host, is not a matter of the language and is handed on.
-/

namespace LoxLang

/-- How the interpretation of a program ended: all statements ran, a fault stopped them, or
something else did that the language does not deal with. -/
inductive Verdict
  | finished
  | faulted (fault : Fault)
  | escaped (reason : Abort)

namespace Verdict

/-- The verdict on a program whose statements all ran up to a completion. -/
def ofCompletion (completion : Completion) : Verdict :=
  match completion.stray? with
  | none => .finished
  | some error => .faulted error

/-- The verdict on a program that was ended early. -/
def ofAbort : Abort → Verdict
  | .fault error => .faulted error
  | .overflow _ | .tooDeep => .faulted ⟨none, .stackOverflow⟩
  | reason => .escaped reason

end Verdict

namespace Setting

/-- The bounds that programs are run with. The host allows a hundred thousand calls, five of which
are open when the first statement is executed. That is far beyond what a program needs whose
recursion ends after some thousand calls, and still small enough for the stack of a process. -/
def standard (clock : Nat → Float) : Setting where
  depth := 99995
  turns := 1000000000000000000
  clock := clock

end Setting

/-- Executes the statements of a program one after another. Afterwards no interrupt is pending. -/
def interpret (setting : Setting) (program : List Stmt) (machine : Machine) : Verdict × Machine :=
  match Run.executeAll (execute setting setting.depth) program machine with
  | .ok completion machine => (.ofCompletion completion, { machine with interrupted := false })
  | .error reason machine => (.ofAbort reason, { machine with interrupted := false })

end LoxLang

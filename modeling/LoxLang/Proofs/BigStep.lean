import LoxLang.Evaluator
import LoxLang.Proofs.FrameRules
import LoxLang.Proofs.OperatorRules

/-!
# Big-step semantics

What a program does, as rules that mention neither a limit of nesting nor a bound of turns. A rule
relates something that is to be done and the machine to an outcome: a result or a reason to end
early, and the machine afterwards, with its frames and its output. Whatever has no finite derivation
does not end.

Operands, arguments and statements are taken from left to right, and each of them ends the whole of
which it is a part if it ends early. A block and a call run in a new frame, which is discarded when
they are left, in whichever way. What natives do is taken as given.
-/

namespace LoxLang

/-- Something that is to be done: an expression to be evaluated, which may be absent, several
expressions to be evaluated in order, a statement to be executed, several in order, the rest
of a loop, or a call. -/
inductive Task : Type → Type
  | evaluate (expression : Expr) : Task Value
  | evaluateOption (expression : Option Expr) : Task Value
  | evaluateAll (expressions : List Expr) : Task (List Value)
  | execute (statement : Stmt) : Task Completion
  | executeAll (statements : List Stmt) : Task Completion
  | loop (condition : Expr) (body : Stmt) (increment : Option Expr) : Task Completion
  | call (target : Callable) (arguments : List Value) : Task Value

/-- An outcome on a machine that is changed afterwards. -/
def Outcome.after {α : Type} (change : Machine → Machine) : Outcome α → Outcome α
  | .ok result machine => .ok result (change machine)
  | .error reason machine => .error reason (change machine)

/-- `Denotes machine value target` says that a value refers to something that can be called. -/
def Machine.Denotes (machine : Machine) (value : Value) (target : Callable) : Prop :=
  ∃ reference, value = .callable reference ∧ machine.callables[reference.identity]? = some target

/-- `Gives completion result` says what a function gives back when its body has ended:
nothing leaves a function but a return. -/
inductive Completion.Gives : Completion → Except Fault Value → Prop
  | normal : Gives .normal (.ok .nil)
  | returned {keyword : Option Token} {value : Value} : Gives (.returned keyword value) (.ok value)
  | breakLoop {keyword : Option Token} :
      Gives (.breakLoop keyword) (.error ⟨keyword, .strayLoopExit "break"⟩)
  | continueLoop {keyword : Option Token} :
      Gives (.continueLoop keyword) (.error ⟨keyword, .strayLoopExit "continue"⟩)

/-- Whether a loop goes on after its body has ended. -/
inductive Completion.GoesOn : Completion → Prop
  | normal : GoesOn .normal
  | continueLoop {keyword : Option Token} : GoesOn (.continueLoop keyword)

/-- The rules of the language. -/
inductive Runs (clock : Nat → Float) : {α : Type} → Task α → Machine → Outcome α → Prop
  -- Constants and variables
  | literal {machine : Machine} {value : Value} :
      Runs clock (.evaluate (.literal value)) machine (.ok value machine)
  | read {machine : Machine} {name : Token} {value : Value} (sees : machine.Sees name value) :
      Runs clock (.evaluate (.variable name)) machine (.ok value machine)
  | readUndefined {machine : Machine} {name : Token} (lacks : machine.Lacks name) :
      Runs clock (.evaluate (.variable name)) machine
        (.error (.atToken name (.undefined name.lexeme)) machine)
  | grouping {machine : Machine} {inner : Expr} {outcome : Outcome Value}
      (evaluated : Runs clock (.evaluate inner) machine outcome) :
      Runs clock (.evaluate (.grouping inner)) machine outcome
  -- Assignments
  | assign {machine machine' : Machine} {name : Token} {expression : Expr} {value : Value}
      {found : FrameId} (evaluated : Runs clock (.evaluate expression) machine (.ok value machine'))
      (resolves : machine'.Resolves name found) :
      Runs clock (.evaluate (.assign name expression)) machine
        (.ok value (machine'.rebound found name value))
  | assignUndefined {machine machine' : Machine} {name : Token} {expression : Expr} {value : Value}
      (evaluated : Runs clock (.evaluate expression) machine (.ok value machine'))
      (lacks : machine'.Lacks name) :
      Runs clock (.evaluate (.assign name expression)) machine
        (.error (.atToken name (.undefined name.lexeme)) machine')
  | assignAbort {machine machine' : Machine} {name : Token} {expression : Expr} {reason : Abort}
      (aborted : Runs clock (.evaluate expression) machine (.error reason machine')) :
      Runs clock (.evaluate (.assign name expression)) machine (.error reason machine')
  -- Operators
  | unary {machine machine' : Machine} {operator : Token} {right : Expr} {operand value : Value}
      (evaluated : Runs clock (.evaluate right) machine (.ok operand machine'))
      (computed : Operator.Unary operator operand (.ok value)) :
      Runs clock (.evaluate (.unary operator right)) machine
        (.ok (machine'.make (.constant value)).1 (machine'.make (.constant value)).2)
  | unaryFault {machine machine' : Machine} {operator : Token} {right : Expr} {operand : Value}
      {reason : Abort} (evaluated : Runs clock (.evaluate right) machine (.ok operand machine'))
      (faulted : Operator.Unary operator operand (.error reason)) :
      Runs clock (.evaluate (.unary operator right)) machine (.error reason machine')
  | unaryAbort {machine machine' : Machine} {operator : Token} {right : Expr} {reason : Abort}
      (aborted : Runs clock (.evaluate right) machine (.error reason machine')) :
      Runs clock (.evaluate (.unary operator right)) machine (.error reason machine')
  | binary {machine machine' machine'' : Machine} {operator : Token} {left right : Expr}
      {first second value : Value}
      (evaluatedLeft : Runs clock (.evaluate left) machine (.ok first machine'))
      (evaluatedRight : Runs clock (.evaluate right) machine' (.ok second machine''))
      (computed : Operator.Binary operator first second (.ok value)) :
      Runs clock (.evaluate (.binary left operator right)) machine
        (.ok (machine''.make (.constant value)).1 (machine''.make (.constant value)).2)
  | binaryFault {machine machine' machine'' : Machine} {operator : Token} {left right : Expr}
      {first second : Value} {reason : Abort}
      (evaluatedLeft : Runs clock (.evaluate left) machine (.ok first machine'))
      (evaluatedRight : Runs clock (.evaluate right) machine' (.ok second machine''))
      (faulted : Operator.Binary operator first second (.error reason)) :
      Runs clock (.evaluate (.binary left operator right)) machine (.error reason machine'')
  | binaryAbortLeft {machine machine' : Machine} {operator : Token} {left right : Expr}
      {reason : Abort} (aborted : Runs clock (.evaluate left) machine (.error reason machine')) :
      Runs clock (.evaluate (.binary left operator right)) machine (.error reason machine')
  | binaryAbortRight {machine machine' machine'' : Machine} {operator : Token} {left right : Expr}
      {first : Value} {reason : Abort}
      (evaluatedLeft : Runs clock (.evaluate left) machine (.ok first machine'))
      (aborted : Runs clock (.evaluate right) machine' (.error reason machine'')) :
      Runs clock (.evaluate (.binary left operator right)) machine (.error reason machine'')
  -- `and` and `or`, which give booleans and leave out their right operand where they can
  | orTrue {machine machine' : Machine} {operator : Token} {left right : Expr} {first : Value}
      (isOr : operator.kind = .orWord)
      (evaluated : Runs clock (.evaluate left) machine (.ok first machine'))
      (truthy : first.Truthy) :
      Runs clock (.evaluate (.logical left operator right)) machine (.ok (.boolean true) machine')
  | andFalse {machine machine' : Machine} {operator : Token} {left right : Expr} {first : Value}
      (isAnd : operator.kind ≠ .orWord)
      (evaluated : Runs clock (.evaluate left) machine (.ok first machine'))
      (falsy : ¬ first.Truthy) :
      Runs clock (.evaluate (.logical left operator right)) machine (.ok (.boolean false) machine')
  | logical {machine machine' machine'' : Machine} {operator : Token} {left right : Expr}
      {first second : Value} (evaluatedLeft : Runs clock (.evaluate left) machine
        (.ok first machine'))
      (needed : operator.kind = .orWord ↔ ¬ first.Truthy)
      (evaluatedRight : Runs clock (.evaluate right) machine' (.ok second machine''))
      {result : Bool} (isResult : result = true ↔ second.Truthy) :
      Runs clock (.evaluate (.logical left operator right)) machine
        (.ok (.boolean result) machine'')
  | logicalAbortLeft {machine machine' : Machine} {operator : Token} {left right : Expr}
      {reason : Abort} (aborted : Runs clock (.evaluate left) machine (.error reason machine')) :
      Runs clock (.evaluate (.logical left operator right)) machine (.error reason machine')
  | logicalAbortRight {machine machine' machine'' : Machine} {operator : Token} {left right : Expr}
      {first : Value} {reason : Abort}
      (evaluatedLeft : Runs clock (.evaluate left) machine (.ok first machine'))
      (needed : operator.kind = .orWord ↔ ¬ first.Truthy)
      (aborted : Runs clock (.evaluate right) machine' (.error reason machine'')) :
      Runs clock (.evaluate (.logical left operator right)) machine (.error reason machine'')
  -- Conditional expressions
  | ternaryThen {machine machine' : Machine} {condition thenBranch elseBranch : Expr}
      {value : Value}
      {outcome : Outcome Value}
      (tested : Runs clock (.evaluate condition) machine (.ok value machine'))
      (truthy : value.Truthy)
      (evaluated : Runs clock (.evaluate thenBranch) machine' outcome) :
      Runs clock (.evaluate (.ternary condition thenBranch elseBranch)) machine outcome
  | ternaryElse {machine machine' : Machine} {condition thenBranch elseBranch : Expr}
      {value : Value}
      {outcome : Outcome Value}
      (tested : Runs clock (.evaluate condition) machine (.ok value machine'))
      (falsy : ¬ value.Truthy)
      (evaluated : Runs clock (.evaluate elseBranch) machine' outcome) :
      Runs clock (.evaluate (.ternary condition thenBranch elseBranch)) machine outcome
  | ternaryAbort {machine machine' : Machine} {condition thenBranch elseBranch : Expr}
      {reason : Abort}
      (aborted : Runs clock (.evaluate condition) machine (.error reason machine')) :
      Runs clock (.evaluate (.ternary condition thenBranch elseBranch)) machine
        (.error reason machine')
  -- Calls
  | call {machine machine' machine'' : Machine} {callee : Expr} {paren : Option Token}
      {expressions : List Expr} {value : Value} {arguments : List Value} {target : Callable}
      {outcome : Outcome Value}
      (evaluated : Runs clock (.evaluate callee) machine (.ok value machine'))
      (evaluatedAll : Runs clock (.evaluateAll expressions) machine' (.ok arguments machine''))
      (denotes : machine''.Denotes value target) (fits : target.arity = arguments.length)
      (called : Runs clock (.call target arguments) machine'' outcome) :
      Runs clock (.evaluate (.call callee paren expressions)) machine outcome
  | callNothing {machine machine' machine'' : Machine} {callee : Expr} {paren : Option Token}
      {expressions : List Expr} {value : Value} {arguments : List Value}
      (evaluated : Runs clock (.evaluate callee) machine (.ok value machine'))
      (evaluatedAll : Runs clock (.evaluateAll expressions) machine' (.ok arguments machine''))
      (denotesNothing : ∀ target, ¬ machine''.Denotes value target) :
      Runs clock (.evaluate (.call callee paren expressions)) machine
        (.error (.fault ⟨paren, .notCallable⟩) machine'')
  | callArity {machine machine' machine'' : Machine} {callee : Expr} {paren : Option Token}
      {expressions : List Expr} {value : Value} {arguments : List Value} {target : Callable}
      (evaluated : Runs clock (.evaluate callee) machine (.ok value machine'))
      (evaluatedAll : Runs clock (.evaluateAll expressions) machine' (.ok arguments machine''))
      (denotes : machine''.Denotes value target) (misfits : target.arity ≠ arguments.length) :
      Runs clock (.evaluate (.call callee paren expressions)) machine
        (.error (.fault ⟨paren, .wrongArity target.arity arguments.length⟩) machine'')
  | callAbortCallee {machine machine' : Machine} {callee : Expr} {paren : Option Token}
      {expressions : List Expr} {reason : Abort}
      (aborted : Runs clock (.evaluate callee) machine (.error reason machine')) :
      Runs clock (.evaluate (.call callee paren expressions)) machine (.error reason machine')
  | callAbortArguments {machine machine' machine'' : Machine} {callee : Expr} {paren : Option Token}
      {expressions : List Expr} {value : Value} {reason : Abort}
      (evaluated : Runs clock (.evaluate callee) machine (.ok value machine'))
      (aborted : Runs clock (.evaluateAll expressions) machine' (.error reason machine'')) :
      Runs clock (.evaluate (.call callee paren expressions)) machine (.error reason machine'')
  -- Expressions that may be absent, and lists of expressions
  | absent {machine : Machine} : Runs clock (.evaluateOption none) machine (.ok .nil machine)
  | present {machine : Machine} {expression : Expr} {outcome : Outcome Value}
      (evaluated : Runs clock (.evaluate expression) machine outcome) :
      Runs clock (.evaluateOption (some expression)) machine outcome
  | noExpression {machine : Machine} : Runs clock (.evaluateAll []) machine (.ok [] machine)
  | nextExpression {machine machine' machine'' : Machine} {expression : Expr} {rest : List Expr}
      {value : Value} {values : List Value}
      (evaluated : Runs clock (.evaluate expression) machine (.ok value machine'))
      (evaluatedAll : Runs clock (.evaluateAll rest) machine' (.ok values machine'')) :
      Runs clock (.evaluateAll (expression :: rest)) machine (.ok (value :: values) machine'')
  | expressionsAbort {machine machine' : Machine} {expression : Expr} {rest : List Expr}
      {reason : Abort} (aborted : Runs clock (.evaluate expression) machine
        (.error reason machine')) :
      Runs clock (.evaluateAll (expression :: rest)) machine (.error reason machine')
  | expressionsAbortLater {machine machine' machine'' : Machine} {expression : Expr}
      {rest : List Expr} {value : Value} {reason : Abort}
      (evaluated : Runs clock (.evaluate expression) machine (.ok value machine'))
      (aborted : Runs clock (.evaluateAll rest) machine' (.error reason machine'')) :
      Runs clock (.evaluateAll (expression :: rest)) machine (.error reason machine'')
  -- What is called
  | native {machine : Machine} {name : String} {arity : Int} {action : Action}
      {arguments : List Value} :
      Runs clock (.call (.native name arity action) arguments) machine
        (Run.act clock arguments action machine)
  | function {machine machine' machine'' : Machine} {name : Token} {parameters : List Token}
      {body : List Stmt} {closure : Option FrameId} {arguments : List Value}
      {completion : Completion} {value : Value}
      (declares : Declares parameters arguments (machine.enter closure) (.ok () machine'))
      (executed : Runs clock (.executeAll body) machine' (.ok completion machine''))
      (gives : completion.Gives (.ok value)) :
      Runs clock (.call (.function name parameters body closure) arguments) machine
        (.ok value (machine''.leave machine.current machine.heap.size))
  | functionStray {machine machine' machine'' : Machine} {name : Token} {parameters : List Token}
      {body : List Stmt} {closure : Option FrameId} {arguments : List Value}
      {completion : Completion} {fault : Fault}
      (declares : Declares parameters arguments (machine.enter closure) (.ok () machine'))
      (executed : Runs clock (.executeAll body) machine' (.ok completion machine''))
      (gives : completion.Gives (.error fault)) :
      Runs clock (.call (.function name parameters body closure) arguments) machine
        (.error (.fault fault) (machine''.leave machine.current machine.heap.size))
  | functionAbort {machine machine' machine'' : Machine} {name : Token} {parameters : List Token}
      {body : List Stmt} {closure : Option FrameId} {arguments : List Value} {reason : Abort}
      (declares : Declares parameters arguments (machine.enter closure) (.ok () machine'))
      (aborted : Runs clock (.executeAll body) machine' (.error reason machine'')) :
      Runs clock (.call (.function name parameters body closure) arguments) machine
        (.error reason (machine''.leave machine.current machine.heap.size))
  | functionTaken {machine machine' : Machine} {name : Token} {parameters : List Token}
      {body : List Stmt} {closure : Option FrameId} {arguments : List Value} {reason : Abort}
      (declares : Declares parameters arguments (machine.enter closure) (.error reason machine')) :
      Runs clock (.call (.function name parameters body closure) arguments) machine
        (.error reason (machine'.leave machine.current machine.heap.size))
  -- Statements, of which none starts once an interrupt is pending
  | interrupted {machine : Machine} {statement : Stmt} (pending : machine.interrupted = true) :
      Runs clock (.execute statement) machine (.error .interrupt machine)
  | hole {machine : Machine} (running : machine.interrupted = false) :
      Runs clock (.execute .hole) machine (.ok .normal machine)
  | expression {machine machine' : Machine} {expression : Expr} {value : Value}
      (running : machine.interrupted = false)
      (evaluated : Runs clock (.evaluate expression) machine (.ok value machine')) :
      Runs clock (.execute (.expression expression)) machine (.ok .normal machine')
  | expressionAbort {machine machine' : Machine} {expression : Expr} {reason : Abort}
      (running : machine.interrupted = false)
      (aborted : Runs clock (.evaluate expression) machine (.error reason machine')) :
      Runs clock (.execute (.expression expression)) machine (.error reason machine')
  | print {machine machine' : Machine} {expression : Expr} {value : Value}
      (running : machine.interrupted = false)
      (evaluated : Runs clock (.evaluate expression) machine (.ok value machine')) :
      Runs clock (.execute (.print expression)) machine
        (.ok .normal { machine' with output := machine'.output.push value.display })
  | printAbort {machine machine' : Machine} {expression : Expr} {reason : Abort}
      (running : machine.interrupted = false)
      (aborted : Runs clock (.evaluate expression) machine (.error reason machine')) :
      Runs clock (.execute (.print expression)) machine (.error reason machine')
  | var {machine machine' : Machine} {name : Token} {initializer : Option Expr} {value : Value}
      (running : machine.interrupted = false)
      (evaluated : Runs clock (.evaluateOption initializer) machine (.ok value machine'))
      (free : ¬ machine'.Binds name) :
      Runs clock (.execute (.var name initializer)) machine
        (.ok .normal (machine'.bound name value))
  | varTaken {machine machine' : Machine} {name : Token} {initializer : Option Expr} {value : Value}
      (running : machine.interrupted = false)
      (evaluated : Runs clock (.evaluateOption initializer) machine (.ok value machine'))
      (binds : machine'.Binds name) :
      Runs clock (.execute (.var name initializer)) machine
        (.error (.atToken name (.alreadyDefined name.lexeme)) machine')
  | varAbort {machine machine' : Machine} {name : Token} {initializer : Option Expr}
      {reason : Abort}
      (running : machine.interrupted = false)
      (aborted : Runs clock (.evaluateOption initializer) machine (.error reason machine')) :
      Runs clock (.execute (.var name initializer)) machine (.error reason machine')
  | block {machine : Machine} {statements : List Stmt} {outcome : Outcome Completion}
      (running : machine.interrupted = false)
      (executed : Runs clock (.executeAll statements) (machine.enter machine.current) outcome) :
      Runs clock (.execute (.block statements)) machine
        (outcome.after (·.leave machine.current machine.heap.size))
  | ifThen {machine machine' : Machine} {condition : Expr} {thenBranch : Stmt}
      {elseBranch : Option Stmt} {value : Value} {outcome : Outcome Completion}
      (running : machine.interrupted = false)
      (tested : Runs clock (.evaluate condition) machine (.ok value machine'))
      (truthy : value.Truthy)
      (executed : Runs clock (.execute thenBranch) machine' outcome) :
      Runs clock (.execute (.ifElse condition thenBranch elseBranch)) machine outcome
  | ifElse {machine machine' : Machine} {condition : Expr} {thenBranch elseBranch : Stmt}
      {value : Value} {outcome : Outcome Completion} (running : machine.interrupted = false)
      (tested : Runs clock (.evaluate condition) machine (.ok value machine'))
      (falsy : ¬ value.Truthy)
      (executed : Runs clock (.execute elseBranch) machine' outcome) :
      Runs clock (.execute (.ifElse condition thenBranch (some elseBranch))) machine outcome
  | ifNothing {machine machine' : Machine} {condition : Expr} {thenBranch : Stmt} {value : Value}
      (running : machine.interrupted = false)
      (tested : Runs clock (.evaluate condition) machine (.ok value machine'))
      (falsy : ¬ value.Truthy) :
      Runs clock (.execute (.ifElse condition thenBranch none)) machine (.ok .normal machine')
  | ifAbort {machine machine' : Machine} {condition : Expr} {thenBranch : Stmt}
      {elseBranch : Option Stmt} {reason : Abort} (running : machine.interrupted = false)
      (aborted : Runs clock (.evaluate condition) machine (.error reason machine')) :
      Runs clock (.execute (.ifElse condition thenBranch elseBranch)) machine
        (.error reason machine')
  | whileLoop {machine : Machine} {condition : Expr} {body : Stmt} {increment : Option Expr}
      {outcome : Outcome Completion} (running : machine.interrupted = false)
      (looped : Runs clock (.loop condition body increment) machine outcome) :
      Runs clock (.execute (.whileLoop condition body increment)) machine outcome
  | forLoop {machine : Machine} {initializer : Option Stmt} {condition increment : Option Expr}
      {body : Stmt} {outcome : Outcome Completion} (running : machine.interrupted = false)
      (executed : Runs clock (.execute
        (Stmt.desugarFor initializer condition increment body)) machine
        outcome) :
      Runs clock (.execute (.forLoop initializer condition increment body)) machine outcome
  | breakLoop {machine : Machine} {keyword : Option Token} (running : machine.interrupted = false) :
      Runs clock (.execute (.breakLoop keyword)) machine (.ok (.breakLoop keyword) machine)
  | continueLoop {machine : Machine} {keyword : Option Token}
      (running : machine.interrupted = false) :
      Runs clock (.execute (.continueLoop keyword)) machine (.ok (.continueLoop keyword) machine)
  | declare {machine machine' : Machine} {name : Token} {parameters : List Token}
      {body : List Stmt} {value : Value} (running : machine.interrupted = false)
      (kept : machine.keep (.function name parameters body (some Heap.globals)) = (value, machine'))
      (free : ¬ machine'.Binds name) :
      Runs clock (.execute (.function name parameters body)) machine
        (.ok .normal (machine'.bound name value))
  | declareTaken {machine machine' : Machine} {name : Token} {parameters : List Token}
      {body : List Stmt} {value : Value} (running : machine.interrupted = false)
      (kept : machine.keep (.function name parameters body (some Heap.globals)) = (value, machine'))
      (binds : machine'.Binds name) :
      Runs clock (.execute (.function name parameters body)) machine
        (.error (.atToken name (.alreadyDefined name.lexeme)) machine')
  | returnValue {machine machine' : Machine} {keyword : Option Token} {expression : Option Expr}
      {value : Value} (running : machine.interrupted = false)
      (evaluated : Runs clock (.evaluateOption expression) machine (.ok value machine')) :
      Runs clock (.execute (.returnValue keyword expression)) machine
        (.ok (.returned keyword value) machine')
  | returnAbort {machine machine' : Machine} {keyword : Option Token} {expression : Option Expr}
      {reason : Abort} (running : machine.interrupted = false)
      (aborted : Runs clock (.evaluateOption expression) machine (.error reason machine')) :
      Runs clock (.execute (.returnValue keyword expression)) machine (.error reason machine')
  -- Statements in order, up to the first that does not complete normally
  | noStatement {machine : Machine} : Runs clock (.executeAll []) machine (.ok .normal machine)
  | nextStatement {machine machine' : Machine} {statement : Stmt} {rest : List Stmt}
      {outcome : Outcome Completion}
      (executed : Runs clock (.execute statement) machine (.ok .normal machine'))
      (executedAll : Runs clock (.executeAll rest) machine' outcome) :
      Runs clock (.executeAll (statement :: rest)) machine outcome
  | lastStatement {machine machine' : Machine} {statement : Stmt} {rest : List Stmt}
      {completion : Completion}
      (executed : Runs clock (.execute statement) machine (.ok completion machine'))
      (stops : completion ≠ .normal) :
      Runs clock (.executeAll (statement :: rest)) machine (.ok completion machine')
  | statementsAbort {machine machine' : Machine} {statement : Stmt} {rest : List Stmt}
      {reason : Abort} (aborted : Runs clock (.execute statement) machine
        (.error reason machine')) :
      Runs clock (.executeAll (statement :: rest)) machine (.error reason machine')
  -- Loops
  | loopEnd {machine machine' : Machine} {condition : Expr} {body : Stmt} {increment : Option Expr}
      {value : Value} (tested : Runs clock (.evaluate condition) machine (.ok value machine'))
      (falsy : ¬ value.Truthy) :
      Runs clock (.loop condition body increment) machine (.ok .normal machine')
  | loopAbort {machine machine' : Machine} {condition : Expr} {body : Stmt}
      {increment : Option Expr}
      {reason : Abort} (aborted : Runs clock (.evaluate condition) machine
        (.error reason machine')) :
      Runs clock (.loop condition body increment) machine (.error reason machine')
  | loopBreak {machine machine' machine'' : Machine} {condition : Expr} {body : Stmt}
      {increment : Option Expr} {value : Value} {keyword : Option Token}
      (tested : Runs clock (.evaluate condition) machine (.ok value machine'))
      (truthy : value.Truthy)
      (executed : Runs clock (.execute body) machine' (.ok (.breakLoop keyword) machine'')) :
      Runs clock (.loop condition body increment) machine (.ok .normal machine'')
  | loopReturn {machine machine' machine'' : Machine} {condition : Expr} {body : Stmt}
      {increment : Option Expr} {value result : Value} {keyword : Option Token}
      (tested : Runs clock (.evaluate condition) machine (.ok value machine'))
      (truthy : value.Truthy)
      (executed : Runs clock (.execute body) machine' (.ok (.returned keyword result) machine'')) :
      Runs clock (.loop condition body increment) machine (.ok (.returned keyword result) machine'')
  | loopAbortBody {machine machine' machine'' : Machine} {condition : Expr} {body : Stmt}
      {increment : Option Expr} {value : Value} {reason : Abort}
      (tested : Runs clock (.evaluate condition) machine (.ok value machine'))
      (truthy : value.Truthy)
      (aborted : Runs clock (.execute body) machine' (.error reason machine'')) :
      Runs clock (.loop condition body increment) machine (.error reason machine'')
  | loopAgain {machine machine' machine'' machine''' : Machine} {condition : Expr} {body : Stmt}
      {increment : Option Expr} {value step : Value} {completion : Completion}
      {outcome : Outcome Completion}
      (tested : Runs clock (.evaluate condition) machine (.ok value machine'))
      (truthy : value.Truthy)
      (executed : Runs clock (.execute body) machine' (.ok completion machine''))
      (goesOn : completion.GoesOn)
      (stepped : Runs clock (.evaluateOption increment) machine'' (.ok step machine'''))
      (looped : Runs clock (.loop condition body increment) machine''' outcome) :
      Runs clock (.loop condition body increment) machine outcome
  | loopAbortStep {machine machine' machine'' machine''' : Machine} {condition : Expr} {body : Stmt}
      {increment : Option Expr} {value : Value} {completion : Completion} {reason : Abort}
      (tested : Runs clock (.evaluate condition) machine (.ok value machine'))
      (truthy : value.Truthy)
      (executed : Runs clock (.execute body) machine' (.ok completion machine''))
      (goesOn : completion.GoesOn)
      (aborted : Runs clock (.evaluateOption increment) machine'' (.error reason machine''')) :
      Runs clock (.loop condition body increment) machine (.error reason machine''')

end LoxLang

import LoxLang.Completion
import LoxLang.Machine
import LoxLang.Operators

/-!
# Evaluation

Expressions are evaluated and statements are executed on the machine. Both are functions of two
bounds: `depth` is the room that is left on the stack, and a run that needs more overflows; `turns`
is the number of turns that a loop may take, and is only there because a loop need not end. What is
part of an expression or a statement has two units of room less than the whole, arguments and the
statements of a block have three units less, and the body of a function has four units less than
its call. Operands and arguments are evaluated from left to right.
-/

namespace LoxLang

/-- What a run depends on apart from the program: the room on the stack and the turns of loops that
it may use, and the readings of the clock. -/
structure Setting where
  depth : Nat
  turns : Nat
  clock : Nat → Float

namespace Run

/-- Evaluates expressions from left to right. The values that are already known come first in the
result; they are given the last one first. -/
@[specialize]
def evaluateAll (evaluate : Expr → Run Value) (known : List Value) :
    List Expr → Run (List Value)
  | [], machine => .ok known.reverse machine
  | expression :: rest, machine =>
      match evaluate expression machine with
      | .ok value machine => evaluateAll evaluate (value :: known) rest machine
      | .error reason machine => .error reason machine

/-- Executes statements one after another, up to the first that does not complete normally. -/
@[specialize]
def executeAll (execute : Stmt → Run Completion) : List Stmt → Run Completion
  | [], machine => .ok .normal machine
  | statement :: rest, machine =>
      match execute statement machine with
      | .ok .normal machine => executeAll execute rest machine
      | result => result

/-- Takes turns of a loop until one of them gives the completion of the loop. -/
@[specialize]
def takeTurns (turn : Run (Option Completion)) : Nat → Run Completion
  | 0, machine => .error .exhausted machine
  | turns + 1, machine =>
      match turn machine with
      | .ok none machine => takeTurns turn turns machine
      | .ok (some completion) machine => .ok completion machine
      | .error reason machine => .error reason machine

/-- One turn of a loop: the body is executed if the condition holds, and then the step to the next
turn is taken. The result is the completion of the loop, or `none` if there is a next turn. -/
@[inline]
def loopTurn (condition : Run Value) (body : Run Completion) (step : Run Unit) :
    Run (Option Completion) := do
  let value ← condition
  if !value.isTruthy then return some .normal
  match ← body with
  | .breakLoop _ => return some .normal
  | .returned keyword value => return some (.returned keyword value)
  | .normal | .continueLoop _ =>
      step
      return none

/-- The argument of a call at an index, which counts from the end where it is negative; `nil` if
there is none. -/
def pick (arguments : List Value) (index : Int) : Value :=
  let index := if index < 0 then index + arguments.length else index
  if index < 0 then .nil else arguments.getD index.toNat .nil

/-- What a native does when it is called. -/
def act (clock : Nat → Float) (arguments : List Value) : Action → Run Value
  | .clock, machine =>
      .ok (.number (clock machine.readings)) { machine with readings := machine.readings + 1 }
  | .produce recipe, machine => make recipe machine
  | .pick index, machine => .ok (pick arguments index) machine
  | .abort reason, machine => .error reason machine

/-- The value of a call whose body has been executed: what was given back, or `nil`. -/
def callResult (completion : Completion) : Run Value :=
  fun machine =>
    match completion with
    | .normal => .ok .nil machine
    | .returned _ value => .ok value machine
    | .breakLoop keyword => fault keyword (.strayLoopExit "break") machine
    | .continueLoop keyword => fault keyword (.strayLoopExit "continue") machine

/-- What a value refers to, if it can be called with a number of arguments; `paren` is the token
that faults point at. -/
def callee (paren : Option Token) (value : Value) (count : Nat) : Run Callable :=
  fun machine =>
    match value with
    | .callable reference =>
        match machine.callables[reference.identity]? with
        | none => fault paren .notCallable machine
        | some target =>
            if target.arity == count then .ok target machine
            else fault paren (.wrongArity target.arity count) machine
    | _ => fault paren .notCallable machine

/-- Calls something with arguments, where `execute` runs the statements of a function. -/
@[specialize]
def invoke (clock : Nat → Float) (execute : Stmt → Run Completion) (target : Callable)
    (arguments : List Value) : Run Value :=
  match target with
  | .native _ _ action => act clock arguments action
  | .function _ parameters body closure => do
      let completion ← inFrame closure do
        defineAll parameters arguments
        executeAll execute body
      callResult completion

end Run

open Run

mutual

/-- The value of an expression. -/
def evaluate (setting : Setting) : Nat → Expr → Run Value
  | depth + 4, expression =>
      match expression with
      | .literal value => pure value
      | .variable name => read name
      | .assign name value => do
          let value ← evaluate setting (depth + 2) value
          assign name value
          return value
      | .unary operator right => do
          let right ← evaluate setting (depth + 2) right
          settle (Operator.unary operator right)
      | .binary left operator right => do
          let left ← evaluate setting (depth + 2) left
          let right ← evaluate setting (depth + 2) right
          settle (Operator.binary operator left right)
      | .logical left operator right => do
          let left ← evaluate setting (depth + 2) left
          if left.isTruthy == (operator.kind == .orWord) then return .boolean left.isTruthy
          let right ← evaluate setting (depth + 2) right
          return .boolean right.isTruthy
      | .ternary condition thenBranch elseBranch => do
          let condition ← evaluate setting (depth + 2) condition
          if condition.isTruthy then evaluate setting (depth + 2) thenBranch
          else evaluate setting (depth + 2) elseBranch
      | .grouping inner => evaluate setting (depth + 2) inner
      | .call callee paren arguments => do
          let value ← evaluate setting (depth + 2) callee
          let arguments ← evaluateAll (evaluate setting (depth + 1)) [] arguments
          let target ← Run.callee paren value arguments.length
          invoke setting.clock (execute setting depth) target arguments
  | _, _ => throw .tooDeep

/-- Executes a statement. -/
def execute (setting : Setting) : Nat → Stmt → Run Completion
  | depth + 3, statement => do
      if (← get).interrupted then throw .interrupt
      match statement with
      | .hole => return .normal
      | .expression value =>
          let _ ← evaluate setting (depth + 1) value
          return .normal
      | .print value =>
          let value ← evaluate setting (depth + 1) value
          print value.display
          return .normal
      | .var name initializer =>
          let value ←
            match initializer with
            | some value => evaluate setting (depth + 1) value
            | none => pure .nil
          define name value
          return .normal
      | .block statements => inBlock (executeAll (execute setting depth) statements)
      | .ifElse condition thenBranch elseBranch =>
          let condition ← evaluate setting (depth + 1) condition
          if condition.isTruthy then execute setting (depth + 1) thenBranch
          else
            match elseBranch with
            | some elseBranch => execute setting (depth + 1) elseBranch
            | none => return .normal
      | .whileLoop condition body none =>
          let turn := loopTurn (evaluate setting (depth + 1) condition)
            (execute setting (depth + 1) body) (pure ())
          takeTurns turn setting.turns
      | .whileLoop condition body (some increment) =>
          let turn := loopTurn (evaluate setting (depth + 1) condition)
            (execute setting (depth + 1) body) (discard (evaluate setting (depth + 1) increment))
          takeTurns turn setting.turns
      | .forLoop initializer condition increment body =>
          execute setting (depth + 1) (Stmt.desugarFor initializer condition increment body)
      | .breakLoop keyword => return .breakLoop keyword
      | .continueLoop keyword => return .continueLoop keyword
      | .function name parameters body =>
          let value ← make (.callable (.function name parameters body (some Heap.globals)))
          define name value
          return .normal
      | .returnValue keyword value =>
          let value ←
            match value with
            | some value => evaluate setting (depth + 1) value
            | none => pure .nil
          return .returned keyword value
  | _, _ => throw .tooDeep

end

end LoxLang

import LoxLang.Proofs.EvaluatorAgreement
import LoxLang.Proofs.Evolution

/-!
# What a run comes to

While something is done, its parts are begun one after another, each on the machine as the parts
before it have left it. `Begins` says which part is begun on which machine, by the rules of the
language, and `Reaches` follows the parts of parts. So it can be said where in a run something
happened, and what the machine was then.
-/

namespace LoxLang

open Outcome

/-- `Begins clock task machine part machine'` says that a part is begun on a machine while something
is done that was begun on another one. -/
inductive Begins (clock : Nat → Float) :
    {α β : Type} → Task α → Machine → Task β → Machine → Prop
  -- Expressions
  | grouping {machine : Machine} {inner : Expr} :
      Begins clock (.evaluate (.grouping inner)) machine (.evaluate inner) machine
  | assigned {machine : Machine} {name : Token} {value : Expr} :
      Begins clock (.evaluate (.assign name value)) machine (.evaluate value) machine
  | operand {machine : Machine} {operator : Token} {right : Expr} :
      Begins clock (.evaluate (.unary operator right)) machine (.evaluate right) machine
  | binaryLeft {machine : Machine} {operator : Token} {left right : Expr} :
      Begins clock (.evaluate (.binary left operator right)) machine (.evaluate left) machine
  | binaryRight {machine machine' : Machine} {operator : Token} {left right : Expr} {value : Value}
      (evaluated : Runs clock (.evaluate left) machine (.ok value machine')) :
      Begins clock (.evaluate (.binary left operator right)) machine (.evaluate right) machine'
  | logicalLeft {machine : Machine} {operator : Token} {left right : Expr} :
      Begins clock (.evaluate (.logical left operator right)) machine (.evaluate left) machine
  | logicalRight {machine machine' : Machine} {operator : Token} {left right : Expr} {value : Value}
      (evaluated : Runs clock (.evaluate left) machine (.ok value machine'))
      (needed : operator.kind = .orWord ↔ ¬ value.Truthy) :
      Begins clock (.evaluate (.logical left operator right)) machine (.evaluate right) machine'
  | ternaryCondition {machine : Machine} {condition thenBranch elseBranch : Expr} :
      Begins clock (.evaluate (.ternary condition thenBranch elseBranch)) machine
        (.evaluate condition) machine
  | ternaryThen {machine machine' : Machine} {condition thenBranch elseBranch : Expr}
      {value : Value}
      (tested : Runs clock (.evaluate condition) machine (.ok value machine'))
      (truthy : value.Truthy) :
      Begins clock (.evaluate (.ternary condition thenBranch elseBranch)) machine
        (.evaluate thenBranch) machine'
  | ternaryElse {machine machine' : Machine} {condition thenBranch elseBranch : Expr}
      {value : Value}
      (tested : Runs clock (.evaluate condition) machine (.ok value machine'))
      (falsy : ¬ value.Truthy) :
      Begins clock (.evaluate (.ternary condition thenBranch elseBranch)) machine
        (.evaluate elseBranch) machine'
  | callee {machine : Machine} {callee : Expr} {paren : Option Token} {expressions : List Expr} :
      Begins clock (.evaluate (.call callee paren expressions)) machine (.evaluate callee) machine
  | arguments {machine machine' : Machine} {callee : Expr} {paren : Option Token}
      {expressions : List Expr} {value : Value}
      (evaluated : Runs clock (.evaluate callee) machine (.ok value machine')) :
      Begins clock (.evaluate (.call callee paren expressions)) machine (.evaluateAll expressions)
        machine'
  | call {machine machine' machine'' : Machine} {callee : Expr} {paren : Option Token}
      {expressions : List Expr} {value : Value} {arguments : List Value} {target : Callable}
      (evaluated : Runs clock (.evaluate callee) machine (.ok value machine'))
      (evaluatedAll : Runs clock (.evaluateAll expressions) machine' (.ok arguments machine''))
      (denotes : machine''.Denotes value target) (fits : target.arity = arguments.length) :
      Begins clock (.evaluate (.call callee paren expressions)) machine (.call target arguments)
        machine''
  | present {machine : Machine} {expression : Expr} :
      Begins clock (.evaluateOption (some expression)) machine (.evaluate expression) machine
  | firstExpression {machine : Machine} {expression : Expr} {rest : List Expr} :
      Begins clock (.evaluateAll (expression :: rest)) machine (.evaluate expression) machine
  | otherExpressions {machine machine' : Machine} {expression : Expr} {rest : List Expr}
      {value : Value} (evaluated : Runs clock (.evaluate expression) machine (.ok value machine')) :
      Begins clock (.evaluateAll (expression :: rest)) machine (.evaluateAll rest) machine'
  | functionBody {machine machine' : Machine} {name : Token} {parameters : List Token}
      {body : List Stmt} {closure : Option FrameId} {arguments : List Value}
      (declares : Declares parameters arguments (machine.enter closure) (.ok () machine')) :
      Begins clock (.call (.function name parameters body closure) arguments) machine
        (.executeAll body) machine'
  -- Statements, of which none starts once an interrupt is pending
  | expression {machine : Machine} {expression : Expr} (running : machine.interrupted = false) :
      Begins clock (.execute (.expression expression)) machine (.evaluate expression) machine
  | printed {machine : Machine} {expression : Expr} (running : machine.interrupted = false) :
      Begins clock (.execute (.print expression)) machine (.evaluate expression) machine
  | initializer {machine : Machine} {name : Token} {initializer : Option Expr}
      (running : machine.interrupted = false) :
      Begins clock (.execute (.var name initializer)) machine (.evaluateOption initializer) machine
  | returned {machine : Machine} {keyword : Option Token} {expression : Option Expr}
      (running : machine.interrupted = false) :
      Begins clock (.execute (.returnValue keyword expression)) machine
        (.evaluateOption expression) machine
  | block {machine : Machine} {statements : List Stmt} (running : machine.interrupted = false) :
      Begins clock (.execute (.block statements)) machine (.executeAll statements)
        (machine.enter machine.current)
  | ifCondition {machine : Machine} {condition : Expr} {thenBranch : Stmt}
      {elseBranch : Option Stmt} (running : machine.interrupted = false) :
      Begins clock (.execute (.ifElse condition thenBranch elseBranch)) machine
        (.evaluate condition) machine
  | ifThen {machine machine' : Machine} {condition : Expr} {thenBranch : Stmt}
      {elseBranch : Option Stmt} {value : Value}
      (running : machine.interrupted = false)
      (tested : Runs clock (.evaluate condition) machine (.ok value machine'))
      (truthy : value.Truthy) :
      Begins clock (.execute (.ifElse condition thenBranch elseBranch)) machine
        (.execute thenBranch) machine'
  | ifElse {machine machine' : Machine} {condition : Expr} {thenBranch elseBranch : Stmt}
      {value : Value}
      (running : machine.interrupted = false)
      (tested : Runs clock (.evaluate condition) machine (.ok value machine'))
      (falsy : ¬ value.Truthy) :
      Begins clock (.execute (.ifElse condition thenBranch (some elseBranch))) machine
        (.execute elseBranch) machine'
  | whileLoop {machine : Machine} {condition : Expr} {body : Stmt} {increment : Option Expr}
      (running : machine.interrupted = false) :
      Begins clock (.execute (.whileLoop condition body increment)) machine
        (.loop condition body increment) machine
  | forLoop {machine : Machine} {initializer : Option Stmt} {condition increment : Option Expr}
      {body : Stmt} (running : machine.interrupted = false) :
      Begins clock (.execute (.forLoop initializer condition increment body)) machine
        (.execute (Stmt.desugarFor initializer condition increment body)) machine
  | firstStatement {machine : Machine} {statement : Stmt} {rest : List Stmt} :
      Begins clock (.executeAll (statement :: rest)) machine (.execute statement) machine
  | otherStatements {machine machine' : Machine} {statement : Stmt} {rest : List Stmt}
      (executed : Runs clock (.execute statement) machine (.ok .normal machine')) :
      Begins clock (.executeAll (statement :: rest)) machine (.executeAll rest) machine'
  -- Loops
  | loopCondition {machine : Machine} {condition : Expr} {body : Stmt} {increment : Option Expr} :
      Begins clock (.loop condition body increment) machine (.evaluate condition) machine
  | loopBody {machine machine' : Machine} {condition : Expr} {body : Stmt}
      {increment : Option Expr} {value : Value}
      (tested : Runs clock (.evaluate condition) machine (.ok value machine'))
      (truthy : value.Truthy) :
      Begins clock (.loop condition body increment) machine (.execute body) machine'
  | loopStep {machine machine' machine'' : Machine} {condition : Expr} {body : Stmt}
      {increment : Option Expr} {value : Value} {completion : Completion}
      (tested : Runs clock (.evaluate condition) machine (.ok value machine'))
      (truthy : value.Truthy)
      (executed : Runs clock (.execute body) machine' (.ok completion machine''))
      (goesOn : completion.GoesOn) :
      Begins clock (.loop condition body increment) machine (.evaluateOption increment) machine''
  | loopAgain {machine machine' machine'' machine''' : Machine} {condition : Expr} {body : Stmt}
      {increment : Option Expr} {value step : Value} {completion : Completion}
      (tested : Runs clock (.evaluate condition) machine (.ok value machine'))
      (truthy : value.Truthy)
      (executed : Runs clock (.execute body) machine' (.ok completion machine''))
      (goesOn : completion.GoesOn)
      (stepped : Runs clock (.evaluateOption increment) machine'' (.ok step machine''')) :
      Begins clock (.loop condition body increment) machine (.loop condition body increment)
        machine'''

/-- `Reaches clock task machine part machine'` says that something is begun on a machine, at any
depth, while something is done that was begun on another one. -/
inductive Reaches (clock : Nat → Float) :
    {α β : Type} → Task α → Machine → Task β → Machine → Prop
  | here {α : Type} {task : Task α} {machine : Machine} : Reaches clock task machine task machine
  | inside {α β γ : Type} {task : Task α} {part : Task β} {inner : Task γ}
      {machine machine' machine'' : Machine} (begins : Begins clock task machine part machine')
      (reaches : Reaches clock part machine' inner machine'') :
      Reaches clock task machine inner machine''

/-! ## What the rules do to the machine -/

/-- Whether a repertoire holds all callables that something which is to be done declares or
calls. -/
def Task.CoveredBy (repertoire : Repertoire) : {α : Type} → Task α → Prop
  | _, .evaluate _ | _, .evaluateOption _ | _, .evaluateAll _ => True
  | _, .execute statement => repertoire.Covers statement
  | _, .executeAll statements => ∀ statement ∈ statements, repertoire.Covers statement
  | _, .loop _ body _ => repertoire.Covers body
  | _, .call target _ => repertoire.Has target

/-- Whatever the rules derive is made of the steps that a run can take. -/
theorem Runs.evolves {clock : Nat → Float} {repertoire : Repertoire} {α : Type} {task : Task α}
    {machine : Machine} {outcome : Outcome α} (runs : Runs clock task machine outcome)
    (covered : task.CoveredBy repertoire) (known : machine.Within repertoire) :
    Evolves repertoire .execution machine outcome.final := by
  rcases (task.agrees machine).reached runs with ⟨bound, computed⟩
  rw [← computed ⟨bound, bound, clock⟩ bound rfl (Nat.le_refl _) (Nat.le_refl _)]
  have lawful := lawfulWithin repertoire ⟨bound, bound, clock⟩ bound
  cases task with
  | evaluate expression => exact (lawful.evaluate expression known).evolves.execution
  | evaluateOption expression => exact (lawful.evaluateOption expression known).evolves.execution
  | evaluateAll expressions => exact (lawful.evaluateAll expressions known).evolves.execution
  | execute statement => exact (lawful.execute covered known).evolves
  | executeAll statements => exact (lawful.executeAll covered known).evolves
  | loop condition body increment =>
      exact (lawful.loop condition (lawful.execute covered) increment _ known).evolves
  | call target arguments => exact (lawful.call covered arguments known).evolves.execution

end LoxLang

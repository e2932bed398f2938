import LoxLang.Interpret
import LoxLang.Proofs.BigStepSoundness
import LoxLang.Proofs.Repertoire

/-!
# What a run can do to the machine

Everything that a run does to the machine is made of a few steps: it prints a line, marks a value,
reads the clock, keeps a callable, gives a new value to a name, binds a name in the current frame,
or does all this in a new frame that is discarded afterwards. `Evolves` says so, and `Raised` says
for which reasons a run may end early. That the evaluator keeps to both is proved here once; what
holds of all runs then follows from the steps.
-/

namespace LoxLang

open Run

/-- Something that is done on the machine: expressions are evaluated, which binds no name in the
current frame, or statements are executed. -/
inductive Activity
  | evaluation
  | execution

namespace Machine

/-- Whether all callables of the machine are in a repertoire. -/
def Within (machine : Machine) (repertoire : Repertoire) : Prop :=
  ∀ target ∈ machine.callables, repertoire.Has target

theorem within_all (machine : Machine) : machine.Within .all :=
  fun _ _ => trivial

theorem within_initial {repertoire : Repertoire}
    (hasClock : repertoire.Has (.native "clock" 0 .clock)) : Machine.initial.Within repertoire := by
  intro target isTarget
  have isClock : target = .native "clock" 0 .clock := by
    simpa [Machine.initial, Machine.keep, Machine.empty] using isTarget
  rwa [isClock]

/-- Whether a new frame may be enclosed by a given one: it is that of a block in the current frame,
or that of a call of a function that sees the given frame. -/
def MayEnter (machine : Machine) (repertoire : Repertoire) (enclosing : Option FrameId) : Prop :=
  enclosing = some machine.current ∨
    ∃ name parameters body, repertoire.Has (.function name parameters body enclosing)

end Machine

/-- `Evolves repertoire activity machine machine'` says that a run can turn a machine into another
one, where all functions that it declares and calls are in a repertoire. -/
inductive Evolves (repertoire : Repertoire) : Activity → Machine → Machine → Prop
  | refl {activity : Activity} {machine : Machine} : Evolves repertoire activity machine machine
  | trans {activity : Activity} {machine machine' machine'' : Machine}
      (first : Evolves repertoire activity machine machine')
      (second : Evolves repertoire activity machine' machine'') :
      Evolves repertoire activity machine machine''
  | print {activity : Activity} {machine : Machine} {line : String} :
      Evolves repertoire activity machine { machine with output := machine.output.push line }
  | mark {activity : Activity} {machine : Machine} :
      Evolves repertoire activity machine { machine with marks := machine.marks + 1 }
  | reading {activity : Activity} {machine : Machine} :
      Evolves repertoire activity machine { machine with readings := machine.readings + 1 }
  | keep {activity : Activity} {machine : Machine} {target : Callable}
      (has : repertoire.Has target) :
      Evolves repertoire activity machine (machine.keep target).2
  | rebind {activity : Activity} {machine : Machine} {name : Token} {found : FrameId}
      {value : Value} (resolves : machine.Resolves name found) :
      Evolves repertoire activity machine (machine.rebound found name value)
  | bind {machine : Machine} {name : Token} {value : Value} (free : ¬ machine.Binds name) :
      Evolves repertoire .execution machine (machine.bound name value)
  | inFrame {activity : Activity} {machine machine' : Machine} {enclosing : Option FrameId}
      (mayEnter : machine.MayEnter repertoire enclosing)
      (inside : Evolves repertoire .execution (machine.enter enclosing) machine') :
      Evolves repertoire activity machine (machine'.leave machine.current machine.heap.size)

/-- `Raised repertoire reason` says that a run can end early for a reason. -/
inductive Raised (repertoire : Repertoire) : Abort → Prop
  | undefined {name : Token} : Raised repertoire (.atToken name (.undefined name.lexeme))
  | taken {name : Token} : Raised repertoire (.atToken name (.alreadyDefined name.lexeme))
  | unary {operator : Token} {operand : Value} {reason : Abort}
      (faulted : Operator.Unary operator operand (.error reason)) : Raised repertoire reason
  | binary {operator : Token} {left right : Value} {reason : Abort}
      (faulted : Operator.Binary operator left right (.error reason)) : Raised repertoire reason
  | notCallable {paren : Option Token} : Raised repertoire (.fault ⟨paren, .notCallable⟩)
  | wrongArity {paren : Option Token} {expected : Int} {actual : Nat} :
      Raised repertoire (.fault ⟨paren, .wrongArity expected actual⟩)
  | strayBreak {name : Token} {parameters : List Token} {body : List Stmt}
      {closure : Option FrameId} {statement : Stmt} {keyword : Option Token}
      (has : repertoire.Has (.function name parameters body closure))
      (isStatement : statement ∈ body)
      (occurs : Stmt.Occurs false (.breakLoop keyword) statement) :
      Raised repertoire (.fault ⟨keyword, .strayLoopExit "break"⟩)
  | strayContinue {name : Token} {parameters : List Token} {body : List Stmt}
      {closure : Option FrameId} {statement : Stmt} {keyword : Option Token}
      (has : repertoire.Has (.function name parameters body closure))
      (isStatement : statement ∈ body)
      (occurs : Stmt.Occurs false (.continueLoop keyword) statement) :
      Raised repertoire (.fault ⟨keyword, .strayLoopExit "continue"⟩)
  | native {name : String} {arity : Int} {reason : Abort}
      (has : repertoire.Has (.native name arity (.abort reason))) : Raised repertoire reason
  | interrupt : Raised repertoire .interrupt
  | limit {reason : Abort} (isLimit : reason.IsLimit) : Raised repertoire reason

variable {repertoire : Repertoire} {activity : Activity} {machine machine' : Machine}

namespace Evolves

theorem execution (evolves : Evolves repertoire activity machine machine') :
    Evolves repertoire .execution machine machine' := by
  induction evolves with
  | refl => exact .refl
  | trans _ _ ihFirst ihSecond => exact .trans ihFirst ihSecond
  | print => exact .print
  | mark => exact .mark
  | reading => exact .reading
  | keep has => exact .keep has
  | rebind resolves => exact .rebind resolves
  | bind free => exact .bind free
  | inFrame mayEnter inside => exact .inFrame mayEnter inside

/-- A run leaves all callables in the repertoire. -/
theorem within (evolves : Evolves repertoire activity machine machine')
    (known : machine.Within repertoire) : machine'.Within repertoire := by
  induction evolves with
  | refl | print | mark | reading | rebind | bind => exact known
  | trans _ _ ihFirst ihSecond => exact ihSecond (ihFirst known)
  | keep has =>
      intro target isTarget
      rcases Array.mem_push.mp isTarget with isOld | rfl
      · exact known target isOld
      · exact has
  | inFrame _ _ ih => exact ih known

/-- No run is interrupted, or resumed, by itself. -/
theorem interrupted_eq (evolves : Evolves repertoire activity machine machine') :
    machine'.interrupted = machine.interrupted := by
  induction evolves with
  | refl | print | mark | reading | keep | rebind | bind => rfl
  | trans _ _ ihFirst ihSecond => exact ihSecond.trans ihFirst
  | inFrame _ _ ih => exact ih

theorem make {recipe : Recipe}
    (has : ∀ target, recipe = .callable target → repertoire.Has target) :
    Evolves repertoire activity machine (machine.make recipe).2 := by
  cases recipe with
  | callable target => exact .keep (has target rfl)
  | constant value =>
      cases value with
      | number value mark =>
          simp only [Machine.make, Machine.distinguish]
          split
          · exact .mark
          · exact .refl
      | nil | boolean | string | callable => exact .refl

end Evolves

/-! ## Outcomes -/

namespace Outcome

variable {α β : Type}

/-- The machine as an outcome leaves it. -/
def final : Outcome α → Machine
  | .ok _ machine => machine
  | .error _ machine => machine

/-- `Lawful repertoire activity before Expected outcome` says that a run that starts on a machine
may have an outcome: it can make of the machine what it has become, and it has a result as expected
or may end early for its reason. -/
def Lawful (repertoire : Repertoire) (activity : Activity) (before : Machine)
    (Expected : α → Prop) :
    Outcome α → Prop
  | .ok result after => Evolves repertoire activity before after ∧ Expected result
  | .error reason after => Evolves repertoire activity before after ∧ Raised repertoire reason

variable {Expected : α → Prop} {Expected' : β → Prop}

theorem Lawful.evolves {outcome : Outcome α}
    (lawful : outcome.Lawful repertoire activity machine Expected) :
    Evolves repertoire activity machine outcome.final := by
  cases outcome <;> exact lawful.1

theorem Lawful.follow {outcome : Outcome α} (evolves : Evolves repertoire activity machine machine')
    (lawful : outcome.Lawful repertoire activity machine' Expected) :
    outcome.Lawful repertoire activity machine Expected := by
  cases outcome <;> exact ⟨.trans evolves lawful.1, lawful.2⟩

theorem Lawful.andThen {first : Outcome α} {next : α → Machine → Outcome β}
    (lawful : first.Lawful repertoire activity machine Expected)
    (lawfulNext : ∀ result after, Evolves repertoire activity machine after → Expected result →
      (next result after).Lawful repertoire activity after Expected') :
    (first.andThen next).Lawful repertoire activity machine Expected' := by
  cases first with
  | error reason after => exact lawful
  | ok result after => exact .follow lawful.1 (lawfulNext result after lawful.1 lawful.2)

/-- What comes after lawful outcomes only has to be the same where a run can get to. -/
theorem Lawful.andThen_congr {first : Outcome α} {next next' : α → Machine → Outcome β}
    (lawful : first.Lawful repertoire activity machine Expected)
    (same : ∀ result after, Evolves repertoire activity machine after → Expected result →
      next result after = next' result after) : first.andThen next = first.andThen next' := by
  cases first with
  | ok result after => exact same result after lawful.1 lawful.2
  | error reason after => rfl

theorem Lawful.execution {outcome : Outcome α}
    (lawful : outcome.Lawful repertoire activity machine Expected) :
    outcome.Lawful repertoire .execution machine Expected := by
  cases outcome <;> exact ⟨lawful.1.execution, lawful.2⟩

/-- What an evaluation may do, any activity may do. -/
theorem Lawful.ofEvaluation {outcome : Outcome α}
    (lawful : outcome.Lawful repertoire .evaluation machine Expected) :
    outcome.Lawful repertoire activity machine Expected := by
  cases activity with
  | evaluation => exact lawful
  | execution => exact lawful.execution

theorem Lawful.mono {Weaker : α → Prop} {outcome : Outcome α}
    (lawful : outcome.Lawful repertoire activity machine Expected)
    (weaker : ∀ result, Expected result → Weaker result) :
    outcome.Lawful repertoire activity machine Weaker := by
  cases outcome with
  | error reason after => exact lawful
  | ok result after => exact ⟨lawful.1, weaker result lawful.2⟩

theorem Lawful.inFrame {enclosing : Option FrameId} {outcome : Outcome α}
    (mayEnter : machine.MayEnter repertoire enclosing)
    (lawful : outcome.Lawful repertoire .execution (machine.enter enclosing) Expected) :
    (outcome.after (·.leave machine.current machine.heap.size)).Lawful repertoire activity machine
      Expected := by
  cases outcome <;> exact ⟨.inFrame mayEnter lawful.1, lawful.2⟩

end Outcome

open Outcome

/-! ## Names, operators and natives -/

theorem lawful_assign (name : Token) (value : Value) :
    Lawful repertoire activity machine (fun _ => True) (assign name value machine) := by
  by_cases resolves : ∃ found, machine.Resolves name found
  · rcases resolves with ⟨found, resolves⟩
    rw [assign_of_resolves resolves]
    exact ⟨.rebind resolves, trivial⟩
  · rw [assign_of_lacks (not_exists.mp resolves)]
    exact ⟨.refl, .undefined⟩

theorem lawful_define (name : Token) (value : Value) :
    Lawful repertoire .execution machine (fun _ => True) (define name value machine) := by
  by_cases binds : machine.Binds name
  · rw [define_of_binds binds]
    exact ⟨.refl, .taken⟩
  · rw [define_of_free binds]
    exact ⟨.bind binds, trivial⟩

theorem lawful_defineAll (names : List Token) (values : List Value) :
    Lawful repertoire .execution machine (fun _ => True) (defineAll names values machine) := by
  induction names generalizing values machine with
  | nil => exact ⟨.refl, trivial⟩
  | cons name names ih =>
      cases values with
      | nil => exact ⟨.refl, trivial⟩
      | cons value values =>
          rw [defineAll_cons]
          exact (lawful_define name value).andThen fun _ _ _ _ => ih values

theorem lawful_read (name : Token) :
    Lawful repertoire activity machine (fun _ => True) (read name machine) := by
  rcases sees_or_lacks machine name with ⟨value, sees⟩ | lacks
  · rw [read_of_sees sees]
    exact ⟨.refl, trivial⟩
  · rw [read_of_lacks lacks]
    exact ⟨.refl, .undefined⟩

theorem lawful_settle {result : Except Abort Value}
    (raised : ∀ reason, result = .error reason → Raised repertoire reason) :
    Lawful repertoire activity machine (fun _ => True) (settle result machine) := by
  cases result with
  | error reason => exact ⟨.refl, raised reason rfl⟩
  | ok value =>
      have noCallable : ∀ target, Recipe.constant value = .callable target →
          repertoire.Has target := by
        intro target impossible
        cases impossible
      exact ⟨.make noCallable, trivial⟩

theorem lawful_act {clock : Nat → Float} {name : String} {arity : Int} {action : Action}
    (has : repertoire.Has (.native name arity action)) (arguments : List Value) :
    Lawful repertoire activity machine (fun _ => True) (act clock arguments action machine) := by
  cases action with
  | clock => exact ⟨.reading, trivial⟩
  | pick index => exact ⟨.refl, trivial⟩
  | abort reason => exact ⟨.refl, .native has⟩
  | produce recipe =>
      refine ⟨.make fun target isTarget => ?_, trivial⟩
      rw [isTarget] at has
      exact repertoire.products _ _ _ has

theorem lawful_callee (known : machine.Within repertoire) (paren : Option Token) (value : Value)
    (count : Nat) :
    Lawful repertoire activity machine repertoire.Has (callee paren value count machine) := by
  by_cases denotes : ∃ target, machine.Denotes value target
  · rcases denotes with ⟨target, denotes⟩
    by_cases fits : target.arity = count
    · rw [callee_of_fits paren denotes fits]
      rcases denotes with ⟨reference, -, isTarget⟩
      exact ⟨.refl, known target (Array.mem_of_getElem? isTarget)⟩
    · rw [callee_of_misfits paren denotes fits]
      exact ⟨.refl, .wrongArity⟩
  · rw [callee_of_denotesNothing paren (not_exists.mp denotes)]
    exact ⟨.refl, .notCallable⟩

/-! ## Parts of programs -/

/-- Whether the evaluator keeps to the rules with all expressions and statements when a given room
is left on the stack. -/
structure LawfulWithin (repertoire : Repertoire) (setting : Setting) (depth : Nat) : Prop where
  evaluate (expression : Expr) {machine : Machine} (known : machine.Within repertoire) :
    Lawful repertoire .evaluation machine (fun _ => True)
      ((Task.evaluate expression).run setting depth setting.turns machine)
  execute {statement : Stmt} (covers : repertoire.Covers statement) {machine : Machine}
    (known : machine.Within repertoire) :
    Lawful repertoire .execution machine statement.EndsWith
      ((Task.execute statement).run setting depth setting.turns machine)

variable {setting : Setting} {depth : Nat}

namespace LawfulWithin

variable (lawful : LawfulWithin repertoire setting depth)
include lawful

theorem evaluateOption (expression : Option Expr) (known : machine.Within repertoire) :
    Lawful repertoire .evaluation machine (fun _ => True)
      ((Task.evaluateOption expression).run setting depth setting.turns machine) := by
  cases expression with
  | none => exact ⟨.refl, trivial⟩
  | some expression => exact lawful.evaluate expression known

theorem evaluateAll (expressions : List Expr) (known : machine.Within repertoire) :
    Lawful repertoire .evaluation machine (fun _ => True)
      ((Task.evaluateAll expressions).run setting depth setting.turns machine) := by
  induction expressions generalizing machine with
  | nil =>
      rw [Task.run_evaluateAll_nil]
      exact ⟨.refl, trivial⟩
  | cons expression rest ih =>
      rw [Task.run_evaluateAll_cons]
      refine (lawful.evaluate expression known).andThen fun value after evolves _ => ?_
      refine (ih (evolves.within known)).andThen fun values after _ _ => ?_
      exact ⟨.refl, trivial⟩

theorem executeAll {statements : List Stmt}
    (covers : ∀ statement ∈ statements, repertoire.Covers statement)
    (known : machine.Within repertoire) :
    Lawful repertoire .execution machine (Stmt.EndWith statements)
      ((Task.executeAll statements).run setting depth setting.turns machine) := by
  induction statements generalizing machine with
  | nil =>
      rw [Task.run_executeAll_nil]
      exact ⟨.refl, .inl rfl⟩
  | cons statement rest ih =>
      rw [List.forall_mem_cons] at covers
      rw [Task.run_executeAll_cons]
      refine (lawful.execute covers.1 known).andThen fun completion after evolves ends => ?_
      cases completion with
      | normal =>
          refine (ih covers.2 (evolves.within known)).mono fun completion endsRest => ?_
          rcases endsRest with isNormal | ⟨other, isOther, endsOther⟩
          · exact .inl isNormal
          · exact .inr ⟨other, List.mem_cons_of_mem _ isOther, endsOther⟩
      | breakLoop | continueLoop | returned => exact ⟨.refl, .inr ⟨_, List.mem_cons_self, ends⟩⟩

/-- A block binds its names in a frame of its own. -/
theorem enterBlock {statements : List Stmt} (covers : repertoire.Covers (.block statements))
    (known : machine.Within repertoire) :
    Lawful repertoire activity machine (Stmt.block statements).EndsWith
      (Outcome.after (·.leave machine.current machine.heap.size)
        ((Task.executeAll statements).run setting depth setting.turns
          (machine.enter machine.current))) := by
  have coversAll : ∀ statement ∈ statements, repertoire.Covers statement :=
    fun statement isStatement => covers.lift (.block isStatement)
  have knownInside : (machine.enter machine.current).Within repertoire := known
  have executed := lawful.executeAll coversAll knownInside
  exact (executed.inFrame (.inl rfl)).mono fun completion ends => ends.block

/-- A loop does to the machine what its body does to it. -/
theorem loop (condition : Expr) {body : Stmt}
    (executed : ∀ {machine : Machine}, machine.Within repertoire →
      Lawful repertoire activity machine body.EndsWith
        ((Task.execute body).run setting depth setting.turns machine))
    (increment : Option Expr) (turns : Nat) (known : machine.Within repertoire) :
    Lawful repertoire activity machine (Stmt.whileLoop condition body increment).EndsWith
      ((Task.loop condition body increment).run setting depth turns machine) := by
  induction turns generalizing machine with
  | zero =>
      rw [Task.run_loop_zero]
      exact ⟨.refl, .limit (.inr rfl)⟩
  | succ turns ih =>
      rw [Task.run_loop]
      refine (lawful.evaluate condition known).ofEvaluation.andThen fun value after evolves _ => ?_
      have knownAfter := evolves.within known
      split
      · refine (executed knownAfter).andThen fun completion after' evolves' ends => ?_
        have knownAfter' := evolves'.within knownAfter
        cases completion with
        | breakLoop keyword => exact ⟨.refl, trivial⟩
        | returned keyword value =>
            rcases ends with ⟨result, occurs⟩
            exact ⟨.refl, result, .whileBody rfl occurs⟩
        | normal | continueLoop =>
            refine (lawful.evaluateOption increment knownAfter').ofEvaluation.andThen
              fun _ _ evolves'' _ => ?_
            exact ih (evolves''.within knownAfter')
      · exact ⟨.refl, trivial⟩

/-- The body of a function is executed in a frame of its own, where its parameters are bound. -/
theorem functionBody {name : Token} {parameters : List Token} {body : List Stmt}
    {closure : Option FrameId} (has : repertoire.Has (.function name parameters body closure))
    (arguments : List Value) (known : machine.Within repertoire) :
    Lawful repertoire .execution (machine.enter closure) (Stmt.EndWith body)
      (andThen (defineAll parameters arguments (machine.enter closure)) fun _ machine =>
        (Task.executeAll body).run setting depth setting.turns machine) :=
  (lawful_defineAll parameters arguments).andThen fun _ _ evolves _ =>
    lawful.executeAll (repertoire.bodies name parameters body closure has) (evolves.within known)

theorem call {target : Callable} (has : repertoire.Has target) (arguments : List Value)
    (known : machine.Within repertoire) :
    Lawful repertoire .evaluation machine (fun _ => True)
      ((Task.call target arguments).run setting depth setting.turns machine) := by
  cases target with
  | native name arity action =>
      rw [Task.run_native]
      exact lawful_act has arguments
  | function name parameters body closure =>
      have mayEnter : machine.MayEnter repertoire closure := .inr ⟨name, parameters, body, has⟩
      rw [Task.run_function]
      have executed := lawful.functionBody has arguments known
      refine (executed.inFrame mayEnter).andThen fun completion after _ ends => ?_
      cases completion with
      | normal | returned => exact ⟨.refl, trivial⟩
      | breakLoop keyword =>
          rcases ends with impossible | ⟨statement, isStatement, occurs⟩
          · cases impossible
          · exact ⟨.refl, .strayBreak has isStatement occurs⟩
      | continueLoop keyword =>
          rcases ends with impossible | ⟨statement, isStatement, occurs⟩
          · cases impossible
          · exact ⟨.refl, .strayContinue has isStatement occurs⟩

end LawfulWithin

theorem lawful_evaluate (operands : LawfulWithin repertoire setting (depth + 2))
    (arguments : LawfulWithin repertoire setting (depth + 1))
    (bodies : LawfulWithin repertoire setting depth) (expression : Expr)
    (known : machine.Within repertoire) {turns : Nat} :
    Lawful repertoire .evaluation machine (fun _ => True)
      ((Task.evaluate expression).run setting (depth + 4) turns machine) := by
  rw [Task.run_evaluate]
  cases expression with
  | literal value => exact ⟨.refl, trivial⟩
  | «variable» name => exact lawful_read name
  | grouping inner => exact operands.evaluate inner known
  | assign name value =>
      refine (operands.evaluate value known).andThen fun value after evolves _ => ?_
      exact (lawful_assign name value).andThen fun _ _ _ _ => ⟨.refl, trivial⟩
  | unary operator right =>
      refine (operands.evaluate right known).andThen fun operand after evolves _ => ?_
      exact lawful_settle fun reason faulted => .unary (Operator.unary_iff.mpr faulted)
  | binary left operator right =>
      refine (operands.evaluate left known).andThen fun first after evolves _ => ?_
      refine (operands.evaluate right (evolves.within known)).andThen fun second _ _ _ => ?_
      exact lawful_settle fun reason faulted => .binary (Operator.binary_iff.mpr faulted)
  | logical left operator right =>
      refine (operands.evaluate left known).andThen fun first after evolves _ => ?_
      split
      · exact ⟨.refl, trivial⟩
      · exact (operands.evaluate right (evolves.within known)).andThen
          fun _ _ _ _ => ⟨.refl, trivial⟩
  | ternary condition thenBranch elseBranch =>
      refine (operands.evaluate condition known).andThen fun value after evolves _ => ?_
      split
      · exact operands.evaluate thenBranch (evolves.within known)
      · exact operands.evaluate elseBranch (evolves.within known)
  | call callee paren expressions =>
      refine (operands.evaluate callee known).andThen fun value after evolves _ => ?_
      have knownAfter := evolves.within known
      refine (arguments.evaluateAll expressions knownAfter).andThen fun values _ evolves' _ => ?_
      have knownAfter' := evolves'.within knownAfter
      refine (lawful_callee knownAfter' paren value values.length).andThen
        fun target _ evolves'' has => ?_
      exact bodies.call has values (evolves''.within knownAfter')

theorem lawful_execute (parts : LawfulWithin repertoire setting (depth + 1))
    (lists : LawfulWithin repertoire setting depth) {statement : Stmt}
    (covers : repertoire.Covers statement) (known : machine.Within repertoire) {turns : Nat} :
    Lawful repertoire .execution machine statement.EndsWith
      ((Task.execute statement).run setting (depth + 3) turns machine) := by
  cases running : machine.interrupted with
  | true =>
      rw [Task.run_execute_of_interrupted _ _ _ running]
      exact ⟨.refl, .interrupt⟩
  | false =>
      rw [Task.run_execute _ _ _ running]
      cases statement with
      | hole => exact ⟨.refl, trivial⟩
      | breakLoop keyword | continueLoop keyword => exact ⟨.refl, .here⟩
      | expression value =>
          exact (parts.evaluate value known).execution.andThen fun _ _ _ _ => ⟨.refl, trivial⟩
      | print value =>
          exact (parts.evaluate value known).execution.andThen fun _ _ _ _ => ⟨.print, trivial⟩
      | var name initializer =>
          refine (parts.evaluateOption initializer known).execution.andThen fun value _ _ _ => ?_
          exact (lawful_define name value).andThen fun _ _ _ _ => ⟨.refl, trivial⟩
      | block statements => exact lists.enterBlock covers known
      | ifElse condition thenBranch elseBranch =>
          refine (parts.evaluate condition known).execution.andThen fun value after evolves _ => ?_
          have knownAfter := evolves.within known
          split
          · exact (parts.execute (covers.lift .thenBranch) knownAfter).mono
              fun completion ends => ends.lift .thenBranch
          · cases elseBranch with
            | none => exact ⟨.refl, trivial⟩
            | some elseBranch =>
                exact (parts.execute (covers.lift .elseBranch) knownAfter).mono
                  fun completion ends => ends.lift .elseBranch
      | whileLoop condition body increment =>
          have coversBody := covers.lift (.whileBody rfl)
          exact parts.loop condition (parts.execute coversBody) increment _ known
      | forLoop initializer condition increment body =>
          refine (parts.execute covers.desugarFor known).mono fun completion ends => ?_
          exact ends.of_desugarFor
      | function name parameters body =>
          have has := covers name parameters body .here
          refine .follow (.keep has) ?_
          exact (lawful_define name _).andThen fun _ _ _ _ => ⟨.refl, trivial⟩
      | returnValue keyword value =>
          exact (parts.evaluateOption value known).execution.andThen
            fun _ _ _ _ => ⟨.refl, value, .here⟩

/-! ## Induction on the room on the stack -/

theorem lawful_tooDeep {α : Type} {Expected : α → Prop} :
    Lawful repertoire activity machine Expected (.error .tooDeep machine) :=
  ⟨.refl, .limit (.inl rfl)⟩

/-- The evaluator keeps to the rules, whatever room is left on the stack. -/
theorem lawfulWithin (repertoire : Repertoire) (setting : Setting) (depth : Nat) :
    LawfulWithin repertoire setting depth := by
  induction depth using Nat.strongRecOn with
  | ind depth ih =>
      constructor
      · intro expression machine known
        by_cases shallow : depth < 4
        · rw [Task.run_evaluate_of_shallow _ _ _ expression shallow]
          exact lawful_tooDeep
        · rcases Nat.exists_eq_add_of_le' (Nat.not_lt.mp shallow) with ⟨depth, rfl⟩
          exact lawful_evaluate (ih _ (by omega)) (ih _ (by omega)) (ih _ (by omega))
            expression known
      · intro statement covers machine known
        by_cases shallow : depth < 3
        · rw [Task.run_execute_of_shallow _ _ _ statement shallow]
          exact lawful_tooDeep
        · rcases Nat.exists_eq_add_of_le' (Nat.not_lt.mp shallow) with ⟨depth, rfl⟩
          exact lawful_execute (ih _ (by omega)) (ih _ (by omega)) covers known

/-- What holds where a statement does not start, because there is no room or an interrupt is
pending, and where it does, holds of every execution of it. -/
@[elab_as_elim]
theorem execute_of_parts {motive : Outcome Completion → Prop} {statement : Stmt}
    (tooDeep : motive (.error .tooDeep machine)) (interrupt : motive (.error .interrupt machine))
    (started : ∀ depth, machine.interrupted = false →
      motive ((Task.execute statement).run setting (depth + 3) setting.turns machine)) :
    motive (execute setting depth statement machine) := by
  change motive ((Task.execute statement).run setting depth setting.turns machine)
  by_cases shallow : depth < 3
  · rwa [Task.run_execute_of_shallow _ _ _ _ shallow]
  rcases Nat.exists_eq_add_of_le' (Nat.not_lt.mp shallow) with ⟨depth, rfl⟩
  cases running : machine.interrupted with
  | true => rwa [Task.run_execute_of_interrupted _ _ _ running]
  | false => exact started depth running

/-- Executing a block keeps to the rules for evaluation: it binds no name in the current frame. -/
theorem lawful_executeBlock {statements : List Stmt}
    (covers : repertoire.Covers (.block statements)) (known : machine.Within repertoire) :
    Lawful repertoire .evaluation machine (Stmt.block statements).EndsWith
      (execute setting depth (.block statements) machine) := by
  refine execute_of_parts lawful_tooDeep ⟨.refl, .interrupt⟩ fun depth running => ?_
  rw [Task.run_execute _ _ _ running]
  exact (lawfulWithin repertoire setting depth).enterBlock covers known

theorem interpret_machine (setting : Setting) (program : List Stmt) (machine : Machine) :
    (interpret setting program machine).2 =
      { final (Run.executeAll (execute setting setting.depth) program machine) with
        interrupted := false } := by
  unfold interpret
  cases Run.executeAll (execute setting setting.depth) program machine <;> rfl

end LoxLang

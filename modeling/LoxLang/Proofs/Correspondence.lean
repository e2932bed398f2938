import LoxLang.Proofs.EvaluatorSteps

/-!
# Corresponding runs

Two runs correspond when each does what the other does, up to a correspondence of what they are made
of: the tokens of their programs, which may stand elsewhere, the frames they use, the identities of
their callables, and the marks and the output that were there before. This module says when values,
trees, machines and outcomes correspond, and shows that all that the machine does with names, values
and callables leads from corresponding machines to corresponding outcomes.
-/

namespace LoxLang

open Run

/-- How two runs correspond. The tokens of a tree are all of one origin, and what corresponds to a
token is the same symbol. Frames correspond in the order of their age, the global frame to itself,
and callables one to one. -/
structure Correspondence where
  Origin : Type
  token : Origin → Token → Token → Prop
  frame : FrameId → FrameId → Prop
  identity : Nat → Nat → Prop
  mark : Nat → Nat → Prop
  output : Array String → Array String → Prop
  clock : Nat → Float
  clock' : Nat → Float
  symbol : ∀ origin {name name'}, token origin name name' →
    name.kind = name'.kind ∧ name.lexeme = name'.lexeme
  older : ∀ {id id' other other'}, frame id id' → frame other other' → (id < other ↔ id' < other')
  globals : frame Heap.globals Heap.globals
  unique : ∀ {left left' right right'}, identity left left' → identity right right' →
    (left = right ↔ left' = right')
  unmarked : mark 0 0
  push : ∀ {lines lines'} (line : String), output lines lines' →
    output (lines.push line) (lines'.push line)

namespace Correspondence

variable (between : Correspondence)

/-! ## What corresponds -/

/-- Corresponding values: they are the same but for the identity of a callable and the mark of a
number. -/
inductive Values : Value → Value → Prop
  | nil : Values .nil .nil
  | boolean (value : Bool) : Values (.boolean value) (.boolean value)
  | number (value : Float) {mark mark' : Nat} (marks : between.mark mark mark') :
      Values (.number value mark) (.number value mark')
  | string (text : String) : Values (.string text) (.string text)
  | callable (isNative : Bool) (name : String) (arity : Int) {identity identity' : Nat}
      (identities : between.identity identity identity') :
      Values (.callable ⟨identity, isNative, name, arity⟩)
        (.callable ⟨identity', isNative, name, arity⟩)

/-- Corresponding expressions, with tokens of one origin. -/
inductive Exprs (origin : between.Origin) : Expr → Expr → Prop
  | literal {value value' : Value} (values : between.Values value value') :
      Exprs origin (.literal value) (.literal value')
  | «variable» {name name' : Token} (names : between.token origin name name') :
      Exprs origin (.variable name) (.variable name')
  | assign {name name' : Token} {value value' : Expr} (names : between.token origin name name')
      (values : Exprs origin value value') :
      Exprs origin (.assign name value) (.assign name' value')
  | unary {operator operator' : Token} {right right' : Expr}
      (operators : between.token origin operator operator') (rights : Exprs origin right right') :
      Exprs origin (.unary operator right) (.unary operator' right')
  | binary {left left' : Expr} {operator operator' : Token} {right right' : Expr}
      (lefts : Exprs origin left left') (operators : between.token origin operator operator')
      (rights : Exprs origin right right') :
      Exprs origin (.binary left operator right) (.binary left' operator' right')
  | logical {left left' : Expr} {operator operator' : Token} {right right' : Expr}
      (lefts : Exprs origin left left') (operators : between.token origin operator operator')
      (rights : Exprs origin right right') :
      Exprs origin (.logical left operator right) (.logical left' operator' right')
  | ternary {condition condition' thenBranch thenBranch' elseBranch elseBranch' : Expr}
      (conditions : Exprs origin condition condition')
      (thenBranches : Exprs origin thenBranch thenBranch')
      (elseBranches : Exprs origin elseBranch elseBranch') :
      Exprs origin (.ternary condition thenBranch elseBranch)
        (.ternary condition' thenBranch' elseBranch')
  | grouping {inner inner' : Expr} (inners : Exprs origin inner inner') :
      Exprs origin (.grouping inner) (.grouping inner')
  | call {callee callee' : Expr} {paren paren' : Option Token} {arguments arguments' : List Expr}
      (callees : Exprs origin callee callee')
      (parens : Option.Rel (between.token origin) paren paren')
      (allArguments : List.Forall₂ (Exprs origin) arguments arguments') :
      Exprs origin (.call callee paren arguments) (.call callee' paren' arguments')

/-- Corresponding statements, with tokens of one origin. -/
inductive Stmts (origin : between.Origin) : Stmt → Stmt → Prop
  | hole : Stmts origin .hole .hole
  | expression {value value' : Expr} (values : between.Exprs origin value value') :
      Stmts origin (.expression value) (.expression value')
  | print {value value' : Expr} (values : between.Exprs origin value value') :
      Stmts origin (.print value) (.print value')
  | var {name name' : Token} {initializer initializer' : Option Expr}
      (names : between.token origin name name')
      (initializers : Option.Rel (between.Exprs origin) initializer initializer') :
      Stmts origin (.var name initializer) (.var name' initializer')
  | block {statements statements' : List Stmt}
      (all : List.Forall₂ (Stmts origin) statements statements') :
      Stmts origin (.block statements) (.block statements')
  | ifElse {condition condition' : Expr} {thenBranch thenBranch' : Stmt}
      {elseBranch elseBranch' : Option Stmt}
      (conditions : between.Exprs origin condition condition')
      (thenBranches : Stmts origin thenBranch thenBranch')
      (elseBranches : Option.Rel (Stmts origin) elseBranch elseBranch') :
      Stmts origin (.ifElse condition thenBranch elseBranch)
        (.ifElse condition' thenBranch' elseBranch')
  | whileLoop {condition condition' : Expr} {body body' : Stmt} {increment increment' : Option Expr}
      (conditions : between.Exprs origin condition condition') (bodies : Stmts origin body body')
      (increments : Option.Rel (between.Exprs origin) increment increment') :
      Stmts origin (.whileLoop condition body increment) (.whileLoop condition' body' increment')
  | forLoop {initializer initializer' : Option Stmt}
      {condition condition' increment increment' : Option Expr} {body body' : Stmt}
      (initializers : Option.Rel (Stmts origin) initializer initializer')
      (conditions : Option.Rel (between.Exprs origin) condition condition')
      (increments : Option.Rel (between.Exprs origin) increment increment')
      (bodies : Stmts origin body body') :
      Stmts origin (.forLoop initializer condition increment body)
        (.forLoop initializer' condition' increment' body')
  | breakLoop {keyword keyword' : Option Token}
      (keywords : Option.Rel (between.token origin) keyword keyword') :
      Stmts origin (.breakLoop keyword) (.breakLoop keyword')
  | continueLoop {keyword keyword' : Option Token}
      (keywords : Option.Rel (between.token origin) keyword keyword') :
      Stmts origin (.continueLoop keyword) (.continueLoop keyword')
  | function {name name' : Token} {parameters parameters' : List Token} {body body' : List Stmt}
      (names : between.token origin name name')
      (allParameters : List.Forall₂ (between.token origin) parameters parameters')
      (bodies : List.Forall₂ (Stmts origin) body body') :
      Stmts origin (.function name parameters body) (.function name' parameters' body')
  | returnValue {keyword keyword' : Option Token} {value value' : Option Expr}
      (keywords : Option.Rel (between.token origin) keyword keyword')
      (values : Option.Rel (between.Exprs origin) value value') :
      Stmts origin (.returnValue keyword value) (.returnValue keyword' value')

/-- Corresponding completions, with a keyword of one origin. -/
inductive Completions (origin : between.Origin) : Completion → Completion → Prop
  | normal : Completions origin .normal .normal
  | breakLoop {keyword keyword' : Option Token}
      (keywords : Option.Rel (between.token origin) keyword keyword') :
      Completions origin (.breakLoop keyword) (.breakLoop keyword')
  | continueLoop {keyword keyword' : Option Token}
      (keywords : Option.Rel (between.token origin) keyword keyword') :
      Completions origin (.continueLoop keyword) (.continueLoop keyword')
  | returned {keyword keyword' : Option Token} {value value' : Value}
      (keywords : Option.Rel (between.token origin) keyword keyword')
      (values : between.Values value value') :
      Completions origin (.returned keyword value) (.returned keyword' value')

/-- Corresponding reasons to end early: they are the same but for the token of a fault. -/
inductive Aborts : Abort → Abort → Prop
  | fault (origin : between.Origin) {token token' : Option Token} (cause : Cause)
      (tokens : Option.Rel (between.token origin) token token') :
      Aborts (.fault ⟨token, cause⟩) (.fault ⟨token', cause⟩)
  | interrupt : Aborts .interrupt .interrupt
  | quit (status : ExitStatus) : Aborts (.quit status) (.quit status)
  | overflow (message : String) : Aborts (.overflow message) (.overflow message)
  | host (kind : HostErrorKind) (message : String) :
      Aborts (.host kind message) (.host kind message)
  | tooDeep : Aborts .tooDeep .tooDeep
  | exhausted : Aborts .exhausted .exhausted

mutual

/-- Corresponding callables. -/
inductive Callables : Callable → Callable → Prop
  | native (name : String) (arity : Int) {action action' : Action}
      (actions : Actions action action') :
      Callables (.native name arity action) (.native name arity action')
  | function (origin : between.Origin) {name name' : Token} {parameters parameters' : List Token}
      {body body' : List Stmt} {closure closure' : Option FrameId}
      (names : between.token origin name name')
      (allParameters : List.Forall₂ (between.token origin) parameters parameters')
      (bodies : List.Forall₂ (between.Stmts origin) body body')
      (closures : Option.Rel between.frame closure closure') :
      Callables (.function name parameters body closure)
        (.function name' parameters' body' closure')

/-- Corresponding natives. -/
inductive Actions : Action → Action → Prop
  | clock : Actions .clock .clock
  | produce {recipe recipe' : Recipe} (recipes : Recipes recipe recipe') :
      Actions (.produce recipe) (.produce recipe')
  | pick (index : Int) : Actions (.pick index) (.pick index)
  | abort {reason reason' : Abort} (reasons : between.Aborts reason reason') :
      Actions (.abort reason) (.abort reason')

/-- Natives that make corresponding values. -/
inductive Recipes : Recipe → Recipe → Prop
  | constant {value value' : Value} (values : between.Values value value') :
      Recipes (.constant value) (.constant value')
  | callable {target target' : Callable} (targets : Callables target target') :
      Recipes (.callable target) (.callable target')

end

/-- Corresponding bindings have the same name. -/
inductive Bindings : String × Value → String × Value → Prop
  | intro (name : String) {value value' : Value} (values : between.Values value value') :
      Bindings (name, value) (name, value')

/-- Corresponding frames bind the same names, in the same order, to corresponding values. -/
structure Frames (frame frame' : Frame) : Prop where
  enclosing : Option.Rel between.frame frame.enclosing frame'.enclosing
  bindings : List.Forall₂ between.Bindings frame.bindings frame'.bindings

/-- Corresponding machines. What is new on one of them corresponds to what is new on the other. -/
structure Machines (machine machine' : Machine) : Prop where
  frames : ∀ {id id'}, between.frame id id' →
    Option.Rel between.Frames machine.heap.frames[id]? machine'.heap.frames[id']?
  newFrames : ∀ more, between.frame (machine.heap.size + more) (machine'.heap.size + more)
  current : between.frame machine.current machine'.current
  callables : ∀ {identity identity'}, between.identity identity identity' →
    Option.Rel between.Callables machine.callables[identity]? machine'.callables[identity']?
  newCallables : ∀ more,
    between.identity (machine.callables.size + more) (machine'.callables.size + more)
  newMarks : ∀ more, between.mark (machine.marks + 1 + more) (machine'.marks + 1 + more)
  readings : ∀ more,
    between.clock (machine.readings + more) = between.clock' (machine'.readings + more)
  output : between.output machine.output machine'.output
  interrupted : machine.interrupted = machine'.interrupted

/-- Corresponding outcomes, with results that are related in a given way. -/
inductive Outcomes {α : Type} (Results : α → α → Prop) : Outcome α → Outcome α → Prop
  | ok {result result' : α} {machine machine' : Machine} (results : Results result result')
      (machines : between.Machines machine machine') :
      Outcomes Results (.ok result machine) (.ok result' machine')
  | error {reason reason' : Abort} {machine machine' : Machine}
      (reasons : between.Aborts reason reason') (machines : between.Machines machine machine') :
      Outcomes Results (.error reason machine) (.error reason' machine')

variable {between} {origin : between.Origin} {machine machine' : Machine}

/-! ## Values and operators -/

theorem Values.isTruthy_eq {value value' : Value} (values : between.Values value value') :
    value.isTruthy = value'.isTruthy := by
  cases values <;> rfl

theorem Values.display_eq {value value' : Value} (values : between.Values value value') :
    value.display = value'.display := by
  cases values <;> rfl

theorem Values.equals_eq {left left' right right' : Value} (lefts : between.Values left left')
    (rights : between.Values right right') : left.equals right = left'.equals right' := by
  cases lefts with
  | callable _ _ _ identities =>
      cases rights with
      | callable _ _ _ others =>
          rw [Bool.eq_iff_iff]
          simp only [Value.equals, beq_iff_eq]
          exact between.unique identities others
      | nil | boolean | number | string => rfl
  | nil | boolean | number | string => cases rights <;> rfl

/-- A fault at corresponding tokens. -/
theorem Aborts.atToken {token token' : Token} (cause : Cause)
    (tokens : between.token origin token token') :
    between.Aborts (.atToken token cause) (.atToken token' cause) :=
  .fault origin cause (.some tokens)

variable (between) in
/-- Corresponding results of an operator. -/
inductive Results : Except Abort Value → Except Abort Value → Prop
  | ok {value value' : Value} (values : between.Values value value') :
      Results (.ok value) (.ok value')
  | error {reason reason' : Abort} (reasons : between.Aborts reason reason') :
      Results (.error reason) (.error reason')

theorem Results.number (value : Float) :
    between.Results (.ok (.number value)) (.ok (.number value)) :=
  .ok (.number value between.unmarked)

theorem Results.boolean (value : Bool) :
    between.Results (.ok (.boolean value)) (.ok (.boolean value)) :=
  .ok (.boolean value)

section Operators

variable {operator operator' : Token} {left left' right right' : Value}
  (operators : between.token origin operator operator')
include operators

theorem results_unary (rights : between.Values right right') :
    between.Results (Operator.unary operator right) (Operator.unary operator' right') := by
  rcases between.symbol origin operators with ⟨sameKind, sameLexeme⟩
  unfold Operator.unary
  rw [← sameKind, ← sameLexeme]
  split
  · rw [rights.isTruthy_eq]
    exact .boolean _
  · cases rights with
    | number value => exact .number _
    | nil | boolean | string | callable => exact .error (.atToken _ operators)
  · exact .error (.atToken _ operators)

theorem results_repeatText (text : String) (count : Float) :
    between.Results (Operator.repeatText operator text count)
      (Operator.repeatText operator' text count) := by
  unfold Operator.repeatText
  split
  · exact .error (.atToken _ operators)
  · split
    · exact .error (.atToken _ operators)
    · split
      · exact .error (.host _ _)
      · exact .ok (.string _)

theorem results_onNumbers {compute compute' : Float → Float → Except Abort Value}
    (computed : ∀ first second, between.Results (compute first second) (compute' first second))
    (lefts : between.Values left left') (rights : between.Values right right') :
    between.Results (Operator.onNumbers operator compute left right)
      (Operator.onNumbers operator' compute' left' right') := by
  cases lefts with
  | number first =>
      cases rights with
      | number second => exact computed first second
      | nil | boolean | string | callable => exact .error (.atToken _ operators)
  | nil | boolean | string | callable => exact .error (.atToken _ operators)

theorem results_add (lefts : between.Values left left') (rights : between.Values right right') :
    between.Results (Operator.add operator left right) (Operator.add operator' left' right') := by
  cases lefts with
  | string text =>
      rw [Operator.add, Operator.add, rights.display_eq]
      exact .ok (.string _)
  | number first =>
      cases rights with
      | number second => exact .number _
      | nil | boolean | string | callable => exact .error (.atToken _ operators)
  | nil | boolean | callable => exact .error (.atToken _ operators)

theorem results_multiply (lefts : between.Values left left')
    (rights : between.Values right right') :
    between.Results (Operator.multiply operator left right)
      (Operator.multiply operator' left' right') := by
  cases lefts with
  | string text =>
      cases rights with
      | number count => exact results_repeatText operators text count
      | nil | boolean | string | callable => exact .error (.atToken _ operators)
  | number first =>
      cases rights with
      | number second => exact .number _
      | nil | boolean | string | callable => exact .error (.atToken _ operators)
  | nil | boolean | callable => exact .error (.atToken _ operators)

theorem results_divide (lefts : between.Values left left') (rights : between.Values right right') :
    between.Results (Operator.divide operator left right)
      (Operator.divide operator' left' right') := by
  refine results_onNumbers operators (fun first second => ?_) lefts rights
  split
  · exact .error (.atToken _ operators)
  · exact .number _

theorem results_binary (lefts : between.Values left left') (rights : between.Values right right') :
    between.Results (Operator.binary operator left right)
      (Operator.binary operator' left' right') := by
  rcases between.symbol origin operators with ⟨sameKind, sameLexeme⟩
  unfold Operator.binary
  rw [← sameKind, ← sameLexeme, lefts.equals_eq rights]
  split
  · exact results_add operators lefts rights
  · exact results_multiply operators lefts rights
  · exact results_divide operators lefts rights
  · exact .boolean _
  · exact .boolean _
  · exact results_onNumbers operators (fun _ _ => .number _) lefts rights
  · exact results_onNumbers operators (fun _ _ => .boolean _) lefts rights
  · exact results_onNumbers operators (fun _ _ => .boolean _) lefts rights
  · exact results_onNumbers operators (fun _ _ => .boolean _) lefts rights
  · exact results_onNumbers operators (fun _ _ => .boolean _) lefts rights
  · exact .error (.atToken _ operators)

end Operators

theorem values_getD {values values' : List Value}
    (allValues : List.Forall₂ between.Values values values') (index : Nat) :
    between.Values (values.getD index .nil) (values'.getD index .nil) := by
  induction allValues generalizing index with
  | nil => exact .nil
  | cons values _ ih =>
      cases index with
      | zero => exact values
      | succ index => exact ih index

theorem values_pick {arguments arguments' : List Value}
    (allArguments : List.Forall₂ between.Values arguments arguments') (index : Int) :
    between.Values (pick arguments index) (pick arguments' index) := by
  unfold pick
  rw [← allArguments.length_eq]
  generalize (if index < 0 then index + arguments.length else index) = fromFront
  dsimp only
  split
  · exact .nil
  · exact values_getD allArguments _

theorem Callables.arity_eq {target target' : Callable}
    (targets : between.Callables target target') : target.arity = target'.arity := by
  cases targets with
  | native => rfl
  | function _ _ allParameters => simp only [Callable.arity, allParameters.length_eq]

/-! ## Outcomes -/

namespace Outcomes

variable {α β : Type} {Results : α → α → Prop} {Results' : β → β → Prop}

theorem andThen {first first' : Outcome α} {next next' : α → Machine → Outcome β}
    (outcomes : between.Outcomes Results first first')
    (nexts : ∀ {result result' machine machine'}, Results result result' →
      between.Machines machine machine' →
      between.Outcomes Results' (next result machine) (next' result' machine')) :
    between.Outcomes Results' (first.andThen next) (first'.andThen next') := by
  cases outcomes with
  | ok results machines => exact nexts results machines
  | error reasons machines => exact .error reasons machines

theorem fault {token token' : Option Token} (cause : Cause)
    (tokens : Option.Rel (between.token origin) token token')
    (machines : between.Machines machine machine') :
    between.Outcomes Results (Run.fault token cause machine) (Run.fault token' cause machine') :=
  .error (.fault origin cause tokens) machines

end Outcomes

/-! ## Frames -/

namespace Frames

variable {frame frame' : Frame}

theorem get? (frames : between.Frames frame frame') (name : String) :
    Option.Rel between.Values (frame.get? name) (frame'.get? name) := by
  have sameLookup {bindings bindings' : List (String × Value)}
      (all : List.Forall₂ between.Bindings bindings bindings') :
      Option.Rel between.Values (bindings.lookup name) (bindings'.lookup name) := by
    induction all with
    | nil => exact .none
    | cons binding _ ih =>
        rcases binding with ⟨bound, values⟩
        simp only [List.lookup_cons]
        split
        · exact .some values
        · exact ih
  exact sameLookup frames.bindings

theorem binds_eq (frames : between.Frames frame frame') (name : String) :
    frame.binds name = frame'.binds name := by
  have sameSome {found found' : Option Value} (values : Option.Rel between.Values found found') :
      found.isSome = found'.isSome := by
    cases values <;> rfl
  exact sameSome (frames.get? name)

theorem define (frames : between.Frames frame frame') (name : String) {value value' : Value}
    (values : between.Values value value') :
    between.Frames (frame.define name value) (frame'.define name value') := by
  refine ⟨frames.enclosing, ?_⟩
  exact List.rel_append frames.bindings (.cons ⟨name, values⟩ .nil)

theorem assign (frames : between.Frames frame frame') (name : String) {value value' : Value}
    (values : between.Values value value') :
    between.Frames (frame.assign name value) (frame'.assign name value') := by
  refine ⟨frames.enclosing, ?_⟩
  refine List.rel_map (fun binding binding' same => ?_) frames.bindings
  rcases same with ⟨bound, olds⟩
  dsimp only
  split
  · exact ⟨bound, values⟩
  · exact ⟨bound, olds⟩

end Frames

/-! ## Names -/

theorem sameFrame {id id' other other' : FrameId} (ids : between.frame id id')
    (others : between.frame other other') : id = other ↔ id' = other' := by
  simp only [Nat.le_antisymm_iff, ← Nat.not_lt, between.older ids others, between.older others ids]

namespace Machines

variable (machines : between.Machines machine machine')
include machines

theorem resolve? {id id' : FrameId} (ids : between.frame id id') (name : String) :
    Option.Rel between.frame (machine.heap.resolve? id name) (machine'.heap.resolve? id' name) := by
  induction id using Nat.strongRecOn generalizing id' with
  | ind id ih =>
      have frames := machines.frames ids
      rw [Heap.resolve?, Heap.resolve?]
      generalize machine.heap.frames[id]? = found at frames
      generalize machine'.heap.frames[id']? = found' at frames
      cases frames with
      | none => exact .none
      | @some frame frame' frames =>
          dsimp only
          rw [frames.binds_eq name]
          split
          · exact .some ids
          · have enclosing := frames.enclosing
            generalize frame.enclosing = outer at enclosing
            generalize frame'.enclosing = outer' at enclosing
            cases enclosing with
            | none => exact .none
            | @some parent parent' parents =>
                have sameOrder := between.older parents ids
                dsimp only
                split
                · next older =>
                    rw [if_pos (sameOrder.mp older)]
                    exact ih parent older parents
                · next notOlder =>
                    rw [if_neg (mt sameOrder.mpr notOlder)]
                    exact .none

theorem get? (name : String) :
    Option.Rel between.Values (machine.heap.get? machine.current name)
      (machine'.heap.get? machine'.current name) := by
  have resolved := machines.resolve? machines.current name
  unfold Heap.get?
  generalize machine.heap.resolve? machine.current name = found at resolved
  generalize machine'.heap.resolve? machine'.current name = found' at resolved
  cases resolved with
  | none => exact .none
  | @some id id' ids =>
      have frames := machines.frames ids
      dsimp only
      generalize machine.heap.frames[id]? = frame at frames
      generalize machine'.heap.frames[id']? = frame' at frames
      cases frames with
      | none => exact .none
      | some frames => exact frames.get? name

/-- Changing corresponding frames in corresponding ways. -/
theorem modify {id id' : FrameId} (ids : between.frame id id') {change change' : Frame → Frame}
    (changes : ∀ {frame frame'}, between.Frames frame frame' →
      between.Frames (change frame) (change' frame')) :
    between.Machines { machine with heap := machine.heap.modify id change }
      { machine' with heap := machine'.heap.modify id' change' } := by
  refine {
    machines with
    frames := fun {other other'} others => ?_
    newFrames := ?_ }
  · have frames := machines.frames others
    simp only [Heap.getElem?_modify, sameFrame ids others]
    split
    · generalize machine.heap.frames[other]? = frame at frames
      generalize machine'.heap.frames[other']? = frame' at frames
      cases frames with
      | none => exact .none
      | some frames => exact .some (changes frames)
    · exact frames
  · simpa only [Heap.size_modify] using machines.newFrames

variable {name name' : Token} (names : between.token origin name name')
include names

theorem read : between.Outcomes between.Values (read name machine) (read name' machine') := by
  rcases between.symbol origin names with ⟨-, sameLexeme⟩
  have found := machines.get? name.lexeme
  unfold Run.read Heap.get
  rw [← sameLexeme]
  generalize machine.heap.get? machine.current name.lexeme = value at found
  generalize machine'.heap.get? machine'.current name.lexeme = value' at found
  cases found with
  | none => exact .error (.fault origin _ (.some names)) machines
  | some values => exact .ok values machines

variable {value value' : Value} (values : between.Values value value')
include values

theorem assign :
    between.Outcomes (fun _ _ => True) (assign name value machine)
      (assign name' value' machine') := by
  rcases between.symbol origin names with ⟨-, sameLexeme⟩
  have resolved := machines.resolve? machines.current name.lexeme
  unfold Run.assign Heap.resolve
  rw [← sameLexeme]
  generalize machine.heap.resolve? machine.current name.lexeme = found at resolved
  generalize machine'.heap.resolve? machine'.current name.lexeme = found' at resolved
  cases resolved with
  | none => exact .error (.fault origin _ (.some names)) machines
  | some ids => exact .ok trivial (machines.modify ids fun frames => frames.assign _ values)

theorem define :
    between.Outcomes (fun _ _ => True) (define name value machine)
      (define name' value' machine') := by
  rcases between.symbol origin names with ⟨-, sameLexeme⟩
  have sameBinds : machine.heap.binds machine.current name.lexeme =
      machine'.heap.binds machine'.current name.lexeme := by
    have frames := machines.frames machines.current
    unfold Heap.binds
    generalize machine.heap.frames[machine.current]? = frame at frames
    generalize machine'.heap.frames[machine'.current]? = frame' at frames
    cases frames with
    | none => rfl
    | some frames => exact frames.binds_eq _
  unfold Run.define
  rw [← sameLexeme, sameBinds]
  split
  · exact .fault _ (.some names) machines
  · exact .ok trivial (machines.modify machines.current fun frames => frames.define _ values)

end Machines

theorem Machines.defineAll {names names' : List Token} {values values' : List Value}
    (machines : between.Machines machine machine')
    (allNames : List.Forall₂ (between.token origin) names names')
    (allValues : List.Forall₂ between.Values values values') :
    between.Outcomes (fun _ _ => True) (defineAll names values machine)
      (defineAll names' values' machine') := by
  induction allNames generalizing values values' machine machine' with
  | nil => exact .ok trivial machines
  | cons names _ ih =>
      cases allValues with
      | nil => exact .ok trivial machines
      | cons values allValues =>
          rw [defineAll_cons, defineAll_cons]
          exact (machines.define names values).andThen fun _ machines => ih machines allValues

/-! ## New values -/

namespace Machines

variable (machines : between.Machines machine machine')
include machines

theorem print (line : String) :
    between.Machines { machine with output := machine.output.push line }
      { machine' with output := machine'.output.push line } :=
  { machines with output := between.push line machines.output }

theorem keep {target target' : Callable} (targets : between.Callables target target') :
    between.Values (machine.keep target).1 (machine'.keep target').1 ∧
      between.Machines (machine.keep target).2 (machine'.keep target').2 := by
  have isNew : between.identity machine.callables.size machine'.callables.size :=
    machines.newCallables 0
  refine ⟨?_, {
    machines with
    callables := fun {identity identity'} identities => ?_
    newCallables := fun more => ?_ }⟩
  · cases targets with
    | native name arity => exact .callable true name arity isNew
    | function origin names allParameters =>
        have sameLexeme := (between.symbol origin names).2
        have sameLength := allParameters.length_eq
        simp only [Machine.keep, Callable.reference, sameLexeme, sameLength]
        exact .callable false _ _ isNew
  · have sameIdentity := between.unique identities isNew
    simp only [Machine.keep, Array.getElem?_push, sameIdentity]
    split
    · exact .some targets
    · exact machines.callables identities
  · simpa only [Machine.keep, Array.size_push, Nat.add_assoc, Nat.add_comm 1 more] using
      machines.newCallables (more + 1)

theorem distinguish {value value' : Value} (values : between.Values value value') :
    between.Values (machine.distinguish value).1 (machine'.distinguish value').1 ∧
      between.Machines (machine.distinguish value).2 (machine'.distinguish value').2 := by
  cases values with
  | number value marks =>
      simp only [Machine.distinguish]
      split
      · refine ⟨.number value (machines.newMarks 0), { machines with newMarks := fun more => ?_ }⟩
        simpa only [Nat.add_assoc, Nat.add_comm 1 more] using machines.newMarks (more + 1)
      · exact ⟨.number value between.unmarked, machines⟩
  | nil => exact ⟨.nil, machines⟩
  | boolean value => exact ⟨.boolean value, machines⟩
  | string text => exact ⟨.string text, machines⟩
  | callable isNative name arity identities =>
      exact ⟨.callable isNative name arity identities, machines⟩

theorem make {recipe recipe' : Recipe} (recipes : between.Recipes recipe recipe') :
    between.Outcomes between.Values (make recipe machine) (make recipe' machine') := by
  cases recipes with
  | constant values =>
      have made := machines.distinguish values
      exact .ok made.1 made.2
  | callable targets =>
      have made := machines.keep targets
      exact .ok made.1 made.2

theorem settle {result result' : Except Abort Value} (results : between.Results result result') :
    between.Outcomes between.Values (settle result machine) (settle result' machine') := by
  cases results with
  | ok values => exact machines.make (.constant values)
  | error reasons => exact .error reasons machines

/-! ## Frames of blocks and calls -/

theorem enter {enclosing enclosing' : Option FrameId}
    (enclosings : Option.Rel between.frame enclosing enclosing') :
    between.Machines (machine.enter enclosing) (machine'.enter enclosing') := by
  have isNew : between.frame machine.heap.size machine'.heap.size := machines.newFrames 0
  refine {
    machines with
    frames := fun {id id'} ids => ?_
    newFrames := fun more => ?_
    current := isNew }
  · simp only [Machine.enter, Heap.getElem?_push, sameFrame ids isNew]
    split
    · exact .some ⟨enclosings, .nil⟩
    · exact machines.frames ids
  · simpa only [Machine.enter, Heap.size_push, Nat.add_assoc, Nat.add_comm 1 more] using
      machines.newFrames (more + 1)

theorem leave {id id' : FrameId} (ids : between.frame id id') {size size' : Nat}
    (sizes : ∀ more, between.frame (size + more) (size' + more)) :
    between.Machines (machine.leave id size) (machine'.leave id' size') := by
  have isSize : between.frame size size' := sizes 0
  have isTop : between.frame machine.heap.size machine'.heap.size := machines.newFrames 0
  refine {
    machines with
    frames := fun {other other'} others => ?_
    newFrames := fun more => ?_
    current := ids }
  · simp only [Machine.leave, Heap.getElem?_shrink, between.older others isSize]
    split
    · exact machines.frames others
    · exact .none
  · have sameOrder := between.older isTop isSize
    simp only [Machine.leave, Heap.size_shrink]
    by_cases below : machine.heap.size < size
    · rw [Nat.min_eq_right below.le, Nat.min_eq_right (sameOrder.mp below).le]
      exact machines.newFrames more
    · have notBelow := mt sameOrder.mpr below
      rw [Nat.min_eq_left (Nat.not_lt.mp below), Nat.min_eq_left (Nat.not_lt.mp notBelow)]
      exact sizes more

/-- What is done in new frames corresponds after they are left. -/
theorem after {α : Type} {Results : α → α → Prop} {outcome outcome' : Outcome α}
    (outcomes : between.Outcomes Results outcome outcome') :
    between.Outcomes Results (outcome.after (·.leave machine.current machine.heap.size))
      (outcome'.after (·.leave machine'.current machine'.heap.size)) := by
  cases outcomes with
  | ok results inside => exact .ok results (inside.leave machines.current machines.newFrames)
  | error reasons inside => exact .error reasons (inside.leave machines.current machines.newFrames)

/-! ## Calls -/

theorem act {arguments arguments' : List Value}
    (allArguments : List.Forall₂ between.Values arguments arguments') {action action' : Action}
    (actions : between.Actions action action') :
    between.Outcomes between.Values (act between.clock arguments action machine)
      (act between.clock' arguments' action' machine') := by
  cases actions with
  | clock =>
      have sameReading : between.clock machine.readings = between.clock' machine'.readings :=
        machines.readings 0
      simp only [Run.act, sameReading]
      refine .ok (.number _ between.unmarked) { machines with readings := fun more => ?_ }
      simpa only [Nat.add_assoc, Nat.add_comm 1 more] using machines.readings (more + 1)
  | produce recipes => exact machines.make recipes
  | abort reasons => exact .error reasons machines
  | pick index => exact .ok (values_pick allArguments index) machines

theorem callee {paren paren' : Option Token}
    (parens : Option.Rel (between.token origin) paren paren') {value value' : Value}
    (values : between.Values value value') (count : Nat) :
    between.Outcomes between.Callables (callee paren value count machine)
      (callee paren' value' count machine') := by
  cases values with
  | @callable isNative name arity identity identity' identities =>
      have targets := machines.callables identities
      simp only [Run.callee]
      generalize machine.callables[identity]? = target at targets
      generalize machine'.callables[identity']? = target' at targets
      cases targets with
      | none => exact .fault _ parens machines
      | some targets =>
          dsimp only
          rw [targets.arity_eq]
          split
          · exact .ok targets machines
          · exact .fault _ parens machines
  | nil | boolean | number | string => exact .fault _ parens machines

theorem callResult {completion completion' : Completion}
    (completions : between.Completions origin completion completion') :
    between.Outcomes between.Values (callResult completion machine)
      (callResult completion' machine') := by
  cases completions with
  | normal => exact .ok .nil machines
  | returned _ values => exact .ok values machines
  | breakLoop keywords => exact .fault _ keywords machines
  | continueLoop keywords => exact .fault _ keywords machines

end Machines

end Correspondence

end LoxLang

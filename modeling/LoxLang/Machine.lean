import LoxLang.Callable

/-!
# The machine

The state of a running program: its frames, the frame that it is in, its callables, what it has
printed, and the sources of what is new in every run, marks and readings of the clock. A frame is
added to the heap when a block or a function is entered and taken away when it is left, however
that happens; nothing can refer to it any more, because functions see the global frame only.

There is always memory for a frame, and what is printed is always taken: a machine only runs out of
room on the stack.
-/

namespace LoxLang

/-- The state of a running program. -/
structure Machine where
  heap : Heap
  current : FrameId := Heap.globals
  callables : Array Callable := #[]
  output : Array String := #[]
  marks : Nat := 0
  readings : Nat := 0
  interrupted : Bool := false

/-- A computation on the machine, which may be ended early. -/
abbrev Run := EStateM Abort Machine

namespace Machine

/-- Keeps a new callable and refers to it. -/
def keep (machine : Machine) (target : Callable) : Value × Machine :=
  let identity := machine.callables.size
  (.callable (target.reference identity),
    { machine with callables := machine.callables.push target })

/-- A value that is the same as no other one if it is not a number. -/
def distinguish (machine : Machine) : Value → Value × Machine
  | .number value _ =>
      if value.isNaN then
        (.number value (machine.marks + 1), { machine with marks := machine.marks + 1 })
      else (.number value, machine)
  | value => (value, machine)

/-- Makes a new value. -/
def make (machine : Machine) : Recipe → Value × Machine
  | .constant value => machine.distinguish value
  | .callable target => machine.keep target

/-- The machine with a native as one more global name, or the fault that the name is taken. -/
def defineNative (machine : Machine) (name : String) (arity : Int) (action : Action) :
    Except Fault Machine :=
  let token : Token := { kind := .identifier, lexeme := name }
  let (value, machine) := machine.keep (.native name arity action)
  (machine.heap.define Heap.globals token value).map fun heap => { machine with heap }

/-- The machine without any global name. -/
def empty : Machine :=
  { heap := ⟨#[{ enclosing := none }]⟩ }

/-- The machine before a program is run: the clock is the only global name. -/
def initial : Machine :=
  let (clock, machine) := empty.keep (.native "clock" 0 .clock)
  { machine with heap := machine.heap.bind Heap.globals "clock" clock }

/-- The machine in a new frame that is enclosed by a given one. -/
@[noinline]
def enter (machine : Machine) (enclosing : Option FrameId) : Machine :=
  let frame := machine.heap.size
  { machine with heap := machine.heap.push { enclosing }, current := frame }

/-- The machine back in a frame, with only the frames that there were before: the first `size`. -/
@[noinline]
def leave (machine : Machine) (frame : FrameId) (size : Nat) : Machine :=
  { machine with heap := machine.heap.shrink size, current := frame }

/-- The global names and their values, in the order of definition. -/
def globals (machine : Machine) : List (String × Value) :=
  (machine.heap.frames[Heap.globals]?.map (·.bindings)).getD []

end Machine

namespace Run

/-- Ends a computation with a fault at a token, if there is one. -/
def fault {α : Type} (token : Option Token) (cause : Cause) : Run α :=
  fun machine => .error (.fault ⟨token, cause⟩) machine

/-- The value of a name. -/
def read (name : Token) : Run Value :=
  fun machine =>
    match machine.heap.get machine.current name with
    | .ok value => .ok value machine
    | .error fault => .error (.fault fault) machine

/-- Gives a new value to a name in the nearest frame that binds it. -/
def assign (name : Token) (value : Value) : Run Unit :=
  fun machine =>
    match machine.heap.resolve machine.current name with
    | .ok found => .ok () { machine with heap := machine.heap.rebind found name.lexeme value }
    | .error fault => .error (.fault fault) machine

/-- Binds a name in the current frame. -/
def define (name : Token) (value : Value) : Run Unit :=
  fun machine =>
    if machine.heap.binds machine.current name.lexeme then
      fault name (.alreadyDefined name.lexeme) machine
    else .ok () { machine with heap := machine.heap.bind machine.current name.lexeme value }

/-- Binds names to values in the current frame, one after another. -/
def defineAll : List Token → List Value → Run Unit
  | name :: names, value :: values, machine =>
      match define name value machine with
      | .ok () machine => defineAll names values machine
      | .error reason machine => .error reason machine
  | _, _, machine => .ok () machine

/-- Prints a line. -/
def print (line : String) : Run Unit :=
  fun machine => .ok () { machine with output := machine.output.push line }

/-- Makes a new value. -/
def make (recipe : Recipe) : Run Value :=
  fun machine =>
    let (value, machine) := machine.make recipe
    .ok value machine

/-- The result of an operator, which is new, or the reason to end the run. -/
def settle (result : Except Abort Value) : Run Value :=
  fun machine =>
    match result with
    | .ok value => make (.constant value) machine
    | .error reason => .error reason machine

/-- Runs a computation in a new frame that is enclosed by a given one, and goes back to the current
frame however the computation ends. -/
@[inline]
def inFrame {α : Type} (enclosing : Option FrameId) (body : Run α) : Run α :=
  fun machine =>
    let outer := machine.current
    let size := machine.heap.size
    match body (machine.enter enclosing) with
    | .ok value machine => .ok value (machine.leave outer size)
    | .error reason machine => .error reason (machine.leave outer size)

/-- Runs a computation in a new frame that is enclosed by the current one. -/
@[inline]
def inBlock {α : Type} (body : Run α) : Run α :=
  fun machine => inFrame machine.current body machine

end Run

end LoxLang

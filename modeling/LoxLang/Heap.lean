import LoxLang.Fault

/-!
# Frames

A frame binds names to values and may be enclosed by another frame. Frames live in a heap and refer
to each other by their index; a frame is always younger than the one that encloses it. A name means
the binding in the nearest frame that has it, going outwards.
-/

namespace LoxLang

/-- The index of a frame in the heap. -/
abbrev FrameId := Nat

/-- One scope of a program: the frame around it and its bindings, in the order of definition. -/
structure Frame where
  enclosing : Option FrameId
  bindings : List (String × Value) := []

namespace Frame

/-- The names of a frame, in the order of definition. -/
def names (frame : Frame) : List String :=
  frame.bindings.map (·.1)

/-- The value of a name in a frame. -/
def get? (frame : Frame) (name : String) : Option Value :=
  frame.bindings.lookup name

/-- Whether a frame binds a name. -/
def binds (frame : Frame) (name : String) : Bool :=
  (frame.get? name).isSome

/-- A frame with one more binding. -/
def define (frame : Frame) (name : String) (value : Value) : Frame :=
  { frame with bindings := frame.bindings ++ [(name, value)] }

/-- A frame where a name that it binds has another value. -/
def assign (frame : Frame) (name : String) (value : Value) : Frame :=
  { frame with
    bindings := frame.bindings.map fun (bound, old) =>
      if bound == name then (bound, value) else (bound, old) }

end Frame

/-- All frames of a program. -/
structure Heap where
  frames : Array Frame := #[]

namespace Heap

/-- The frame of the global names. -/
def globals : FrameId := 0

/-- The number of frames. -/
def size (heap : Heap) : Nat :=
  heap.frames.size

/-- A heap with one more frame, whose index is the size of the old heap. -/
def push (heap : Heap) (frame : Frame) : Heap :=
  ⟨heap.frames.push frame⟩

/-- A heap with only its first frames. -/
def shrink (heap : Heap) (size : Nat) : Heap :=
  ⟨heap.frames.shrink size⟩

/-- A heap where one frame is changed. -/
def modify (heap : Heap) (id : FrameId) (change : Frame → Frame) : Heap :=
  ⟨heap.frames.modify id change⟩

/-- Whether a frame binds a name; the frames around it do not matter. -/
def binds (heap : Heap) (id : FrameId) (name : String) : Bool :=
  heap.frames[id]?.any (·.binds name)

/-- A heap where a frame has one more binding. -/
def bind (heap : Heap) (id : FrameId) (name : String) (value : Value) : Heap :=
  heap.modify id (·.define name value)

/-- A heap where a name that a frame binds has another value there. -/
def rebind (heap : Heap) (id : FrameId) (name : String) (value : Value) : Heap :=
  heap.modify id (·.assign name value)

/-- The nearest frame that binds a name, from a given frame outwards. -/
def resolve? (heap : Heap) (id : FrameId) (name : String) : Option FrameId :=
  match heap.frames[id]? with
  | none => none
  | some frame =>
      if frame.binds name then some id
      else
        match frame.enclosing with
        | none => none
        | some parent => if parent < id then heap.resolve? parent name else none
termination_by id

/-- The nearest frame that binds a name, or the fault that there is none. -/
def resolve (heap : Heap) (id : FrameId) (name : Token) : Except Fault FrameId :=
  match heap.resolve? id name.lexeme with
  | some found => .ok found
  | none => .error ⟨some name, .undefined name.lexeme⟩

/-- The value of a name as seen from a frame. -/
def get? (heap : Heap) (id : FrameId) (name : String) : Option Value :=
  match heap.resolve? id name with
  | none => none
  | some found => heap.frames[found]?.bind (·.get? name)

/-- The value of a name as seen from a frame, or the fault that there is none. -/
def get (heap : Heap) (id : FrameId) (name : Token) : Except Fault Value :=
  match heap.get? id name.lexeme with
  | some value => .ok value
  | none => .error ⟨some name, .undefined name.lexeme⟩

/-- Gives a new value to a name in the nearest frame that binds it. -/
def assign (heap : Heap) (id : FrameId) (name : Token) (value : Value) : Except Fault Heap :=
  match heap.resolve id name with
  | .ok found => .ok (heap.rebind found name.lexeme value)
  | .error fault => .error fault

/-- Binds a name in a frame that does not bind it yet. -/
def define (heap : Heap) (id : FrameId) (name : Token) (value : Value) : Except Fault Heap :=
  if heap.binds id name.lexeme then .error ⟨some name, .alreadyDefined name.lexeme⟩
  else .ok (heap.bind id name.lexeme value)

/-- The form of a frame that traces show, with the frames around it. -/
def inspect (heap : Heap) (id : FrameId) : String :=
  match heap.frames[id]? with
  | none => "None"
  | some frame =>
      let names := ", ".intercalate (frame.names.map Text.quoted)
      let enclosing :=
        match frame.enclosing with
        | none => "None"
        | some parent => if parent < id then heap.inspect parent else "None"
      "Environment([" ++ names ++ "], enclosing=" ++ enclosing ++ ")"
termination_by id

end Heap

end LoxLang

import Mathlib
import LoxLang.Machine

/-!
# Rules for frames

What a name means in a frame and what the machine does with names, as rules. A name means
the binding in the nearest frame that has it, going outwards; it can be bound once in every frame.
-/

namespace LoxLang

/-- How a computation on the machine ends: with a result or early, and with the machine as it is
then. -/
abbrev Outcome (α : Type) := EStateM.Result Abort Machine α

namespace Frame

theorem binds_iff {frame : Frame} {name : String} :
    frame.binds name = true ↔ name ∈ frame.names := by
  rw [binds, get?, List.lookup_isSome_iff, names, List.mem_map]
  constructor
  · rintro ⟨binding, isBinding, same⟩
    exact ⟨binding, isBinding, (beq_iff_eq.mp same).symm⟩
  · rintro ⟨binding, isBinding, same⟩
    exact ⟨binding, isBinding, beq_iff_eq.mpr same.symm⟩

@[simp]
theorem names_define (frame : Frame) (name : String) (value : Value) :
    (frame.define name value).names = frame.names ++ [name] := by
  simp [define, names]

@[simp]
theorem names_assign (frame : Frame) (name : String) (value : Value) :
    (frame.assign name value).names = frame.names := by
  rw [names, names, assign, List.map_map]
  refine List.map_congr_left fun binding _ => ?_
  simp only [Function.comp_apply]
  split <;> rfl

@[simp]
theorem enclosing_define (frame : Frame) (name : String) (value : Value) :
    (frame.define name value).enclosing = frame.enclosing := rfl

@[simp]
theorem enclosing_assign (frame : Frame) (name : String) (value : Value) :
    (frame.assign name value).enclosing = frame.enclosing := rfl

end Frame

namespace Heap

/-- `Resolves heap id name found` says that `found` is the nearest frame that binds a name, from a
given frame outwards. A frame is enclosed by an older one. -/
inductive Resolves (heap : Heap) (name : String) : FrameId → FrameId → Prop
  | here {id : FrameId} {frame : Frame} (isFrame : heap.frames[id]? = some frame)
      (bound : name ∈ frame.names) : Resolves heap name id id
  | outwards {id parent found : FrameId} {frame : Frame} (isFrame : heap.frames[id]? = some frame)
      (unbound : name ∉ frame.names) (enclosing : frame.enclosing = some parent)
      (older : parent < id)
      (resolves : Resolves heap name parent found) : Resolves heap name id found

/-- `Sees heap name id value` says that a name has a value as seen from a frame. -/
def Sees (heap : Heap) (name : String) (id : FrameId) (value : Value) : Prop :=
  ∃ found frame, Resolves heap name id found ∧ heap.frames[found]? = some frame ∧
    frame.get? name = some value

/-- Whether a frame itself binds a name. -/
def Binds (heap : Heap) (name : String) (id : FrameId) : Prop :=
  ∃ frame, heap.frames[id]? = some frame ∧ name ∈ frame.names

theorem resolve?_eq_some_iff {heap : Heap} {name : String} {id found : FrameId} :
    heap.resolve? id name = some found ↔ Resolves heap name id found := by
  constructor
  · intro resolved
    fun_induction resolve? heap id name with
    | case1 => cases resolved
    | case2 id frame isFrame binds =>
        cases resolved
        exact .here isFrame (Frame.binds_iff.mp binds)
    | case3 id frame isFrame notBinds noParent => cases resolved
    | case4 id frame isFrame notBinds parent enclosing older ih =>
        exact .outwards isFrame (fun bound => notBinds (Frame.binds_iff.mpr bound)) enclosing older
          (ih resolved)
    | case5 => cases resolved
  · intro resolves
    induction resolves with
    | here isFrame bound =>
        rw [resolve?, isFrame]
        simp [Frame.binds_iff.mpr bound]
    | outwards isFrame unbound enclosing older _ ih =>
        rw [resolve?, isFrame]
        simp [mt Frame.binds_iff.mp unbound, enclosing, older, ih]

theorem resolve?_eq_none_iff {heap : Heap} {name : String} {id : FrameId} :
    heap.resolve? id name = none ↔ ∀ found, ¬ Resolves heap name id found := by
  rw [Option.eq_none_iff_forall_not_mem]
  simp only [Option.mem_def, resolve?_eq_some_iff]

theorem binds_iff {heap : Heap} {name : String} {id : FrameId} :
    heap.binds id name = true ↔ Binds heap name id := by
  unfold binds Binds
  cases heap.frames[id]? with
  | none => simp
  | some frame => simp [Frame.binds_iff]

theorem exists_sees_of_resolves {heap : Heap} {name : String} {id found : FrameId}
    (resolves : Resolves heap name id found) : ∃ value, Sees heap name id value := by
  have boundThere : ∃ frame, heap.frames[found]? = some frame ∧ name ∈ frame.names := by
    induction resolves with
    | here isFrame bound => exact ⟨_, isFrame, bound⟩
    | outwards _ _ _ _ _ ih => exact ih
  rcases boundThere with ⟨frame, isFrame, bound⟩
  rcases Option.isSome_iff_exists.mp (Frame.binds_iff.mpr bound) with ⟨value, isValue⟩
  exact ⟨value, found, frame, resolves, isFrame, isValue⟩

/-! ### Frames at an index -/

section Indices

variable (heap : Heap) (id index : FrameId)

@[simp]
theorem size_push (frame : Frame) : (heap.push frame).size = heap.size + 1 := by
  simp [size, push]

@[simp]
theorem size_shrink (size : Nat) : (heap.shrink size).size = min size heap.size := by
  simp [Heap.size, shrink]

@[simp]
theorem size_modify (change : Frame → Frame) : (heap.modify id change).size = heap.size := by
  simp [size, modify]

theorem getElem?_push (frame : Frame) :
    (heap.push frame).frames[index]? =
      if index = heap.size then some frame else heap.frames[index]? := by
  exact Array.getElem?_push

theorem getElem?_shrink (size : Nat) :
    (heap.shrink size).frames[index]? = if index < size then heap.frames[index]? else none := by
  have taken : (heap.shrink size).frames.toList = heap.frames.toList.take size :=
    Array.toList_shrink
  rw [← Array.getElem?_toList, taken, List.getElem?_take, Array.getElem?_toList]

theorem getElem?_modify (change : Frame → Frame) :
    (heap.modify id change).frames[index]? =
      if id = index then heap.frames[index]?.map change else heap.frames[index]? := by
  simp [modify, Array.getElem?_modify]

end Indices

end Heap

/-! ## What the machine does with names -/

namespace Machine

/-- The machine where the current frame has one more binding. -/
def bound (machine : Machine) (name : Token) (value : Value) : Machine :=
  { machine with heap := machine.heap.bind machine.current name.lexeme value }

/-- The machine where a name that a frame binds has another value there. -/
def rebound (machine : Machine) (found : FrameId) (name : Token) (value : Value) : Machine :=
  { machine with heap := machine.heap.rebind found name.lexeme value }

/-- Whether the current frame itself binds a name. -/
def Binds (machine : Machine) (name : Token) : Prop :=
  machine.heap.Binds name.lexeme machine.current

/-- Whether a name means the binding in a frame, as seen from the current one. -/
def Resolves (machine : Machine) (name : Token) (found : FrameId) : Prop :=
  machine.heap.Resolves name.lexeme machine.current found

/-- Whether a name has a value, as seen from the current frame. -/
def Sees (machine : Machine) (name : Token) (value : Value) : Prop :=
  machine.heap.Sees name.lexeme machine.current value

/-- Whether a name has no meaning in the current frame. -/
def Lacks (machine : Machine) (name : Token) : Prop :=
  ∀ found, ¬ machine.Resolves name found

end Machine

/-- `Declares names values machine outcome` says how names are bound to values in the current frame,
one after another. -/
inductive Declares : List Token → List Value → Machine → Outcome Unit → Prop
  | noName {values : List Value} {machine : Machine} : Declares [] values machine (.ok () machine)
  | noValue {names : List Token} {machine : Machine} : Declares names [] machine (.ok () machine)
  | next {name : Token} {value : Value} {names : List Token} {values : List Value}
      {machine : Machine} {outcome : Outcome Unit} (free : ¬ machine.Binds name)
      (others : Declares names values (machine.bound name value) outcome) :
      Declares (name :: names) (value :: values) machine outcome
  | taken {name : Token} {value : Value} {names : List Token} {values : List Value}
      {machine : Machine} (binds : machine.Binds name) :
      Declares (name :: names) (value :: values) machine
        (.error (.atToken name (.alreadyDefined name.lexeme)) machine)

namespace Run

variable {machine : Machine} {name : Token} {value : Value}

theorem read_of_sees (sees : machine.Sees name value) : read name machine = .ok value machine := by
  rcases sees with ⟨found, frame, resolves, isFrame, isValue⟩
  simp [read, Heap.get, Heap.get?, Heap.resolve?_eq_some_iff.mpr resolves, isFrame, isValue]

theorem read_of_lacks (lacks : machine.Lacks name) :
    read name machine = .error (.atToken name (.undefined name.lexeme)) machine := by
  simp [read, Heap.get, Heap.get?, Heap.resolve?_eq_none_iff.mpr lacks, Abort.atToken]

theorem assign_of_resolves {found : FrameId} (resolves : machine.Resolves name found) :
    assign name value machine = .ok () (machine.rebound found name value) := by
  simp [assign, Heap.resolve, Heap.resolve?_eq_some_iff.mpr resolves, Machine.rebound]

theorem assign_of_lacks (lacks : machine.Lacks name) :
    assign name value machine = .error (.atToken name (.undefined name.lexeme)) machine := by
  simp [assign, Heap.resolve, Heap.resolve?_eq_none_iff.mpr lacks, Abort.atToken]

theorem define_of_free (free : ¬ machine.Binds name) :
    define name value machine = .ok () (machine.bound name value) := by
  simp [define, mt Heap.binds_iff.mp free, Machine.bound]

theorem define_of_binds (binds : machine.Binds name) :
    define name value machine = .error (.atToken name (.alreadyDefined name.lexeme)) machine := by
  simp [define, Heap.binds_iff.mpr binds, fault, Abort.atToken]

theorem sees_or_lacks (machine : Machine) (name : Token) :
    (∃ value, machine.Sees name value) ∨ machine.Lacks name := by
  by_cases resolves : ∃ found, machine.Resolves name found
  · rcases resolves with ⟨found, resolves⟩
    exact .inl (Heap.exists_sees_of_resolves resolves)
  · exact .inr (not_exists.mp resolves)

theorem declares_iff {names : List Token} {values : List Value} {machine : Machine}
    {outcome : Outcome Unit} :
    Declares names values machine outcome ↔ defineAll names values machine = outcome := by
  constructor
  · intro declares
    induction declares with
    | noName => simp [defineAll]
    | noValue => simp [defineAll]
    | next free _ ih => simp [defineAll, define_of_free free, ih]
    | taken binds => simp [defineAll, define_of_binds binds]
  · rintro rfl
    induction names generalizing values machine with
    | nil => exact .noName
    | cons name names ih =>
        cases values with
        | nil => exact .noValue
        | cons value values =>
            by_cases binds : machine.Binds name
            · simp only [defineAll, define_of_binds binds]
              exact .taken binds
            · simp only [defineAll, define_of_free binds]
              exact .next binds ih

end Run
end LoxLang

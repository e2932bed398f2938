import LoxLang.Proofs.Evolution

/-!
# Scopes are kept

However the evaluation of an expression or the execution of a statement ends, the machine is back in
the frame it was in, no frame is gone, moved into another one or short of a name, and no frame has a
name more, except that a statement may bind names in the frame that it is executed in.
-/

namespace LoxLang

open Run Outcome

/-- `Kept activity before after` says that an activity has kept the scopes of the machine: the
current frame is the same, and every frame is still there, enclosed by the same frame and with all
of its names. Only the execution of a statement has more names, and only in the current frame. -/
structure Kept (activity : Activity) (before after : Machine) : Prop where
  current : after.current = before.current
  size : after.heap.size = before.heap.size
  frames : ∀ id frame, before.heap.frames[id]? = some frame →
    ∃ frame', after.heap.frames[id]? = some frame' ∧ frame'.enclosing = frame.enclosing ∧
      frame.names <+: frame'.names ∧
      (activity = .evaluation ∨ id ≠ before.current → frame'.names = frame.names)

namespace Kept

variable {activity : Activity} {machine machine' machine'' : Machine}

theorem of_heap_eq (sameHeap : machine'.heap = machine.heap)
    (sameCurrent : machine'.current = machine.current) : Kept activity machine machine' := by
  refine ⟨sameCurrent, by rw [sameHeap], fun id frame isFrame => ?_⟩
  exact ⟨frame, by rw [sameHeap, isFrame], rfl, List.prefix_rfl, fun _ => rfl⟩

theorem trans (first : Kept activity machine machine') (second : Kept activity machine' machine'') :
    Kept activity machine machine'' := by
  refine ⟨second.current.trans first.current, second.size.trans first.size,
    fun id frame isFrame => ?_⟩
  rcases first.frames id frame isFrame with ⟨frame', isFrame', enclosing', names', same'⟩
  rcases second.frames id frame' isFrame' with ⟨frame'', isFrame'', enclosing'', names'', same''⟩
  refine ⟨frame'', isFrame'', enclosing''.trans enclosing', names'.trans names'', fun other => ?_⟩
  rw [first.current] at same''
  exact (same'' other).trans (same' other)

/-- A new value for a name changes no names. -/
theorem rebound (found : FrameId) (name : Token) (value : Value) :
    Kept activity machine (machine.rebound found name value) := by
  refine ⟨rfl, by simp [Machine.rebound, Heap.rebind], fun id frame isFrame => ?_⟩
  simp only [Machine.rebound, Heap.rebind, Heap.getElem?_modify, isFrame, Option.map_some]
  split
  · exact ⟨_, rfl, by simp, by simp, by simp⟩
  · exact ⟨_, rfl, rfl, List.prefix_rfl, fun _ => rfl⟩

/-- A new name is bound in the current frame. -/
theorem bound (name : Token) (value : Value) :
    Kept .execution machine (machine.bound name value) := by
  refine ⟨rfl, by simp [Machine.bound, Heap.bind], fun id frame isFrame => ?_⟩
  simp only [Machine.bound, Heap.bind, Heap.getElem?_modify, isFrame, Option.map_some]
  split
  · next isCurrent =>
      refine ⟨_, rfl, by simp, by simp, ?_⟩
      rintro (impossible | notCurrent)
      · cases impossible
      · exact absurd isCurrent.symm notCurrent
  · exact ⟨_, rfl, rfl, List.prefix_rfl, fun _ => rfl⟩

/-- What happens in a new frame binds no names in the frames outside of it. -/
theorem inFrame {enclosing : Option FrameId}
    (inside : Kept .execution (machine.enter enclosing) machine') :
    Kept activity machine (machine'.leave machine.current machine.heap.size) := by
  have size : machine'.heap.size = machine.heap.size + 1 := by
    simpa [Machine.enter] using inside.size
  refine ⟨rfl, by simp [Machine.leave, size], fun id frame isFrame => ?_⟩
  have isOld : id < machine.heap.size := (Array.getElem?_eq_some_iff.mp isFrame).1
  have isEntered : (machine.enter enclosing).heap.frames[id]? = some frame := by
    simp only [Machine.enter, Heap.getElem?_push, Nat.ne_of_lt isOld, if_false, isFrame]
  rcases inside.frames id frame isEntered with ⟨frame', isFrame', enclosing', -, same⟩
  have sameNames : frame'.names = frame.names := same (.inr (Nat.ne_of_lt isOld))
  refine ⟨frame', ?_, enclosing', by rw [sameNames], fun _ => sameNames⟩
  simp only [Machine.leave, Heap.getElem?_shrink, isOld, if_true, isFrame']

end Kept

/-- All that a run can do to the machine keeps its scopes. -/
theorem Evolves.kept {repertoire : Repertoire} {activity : Activity} {machine machine' : Machine}
    (evolves : Evolves repertoire activity machine machine') : Kept activity machine machine' := by
  induction evolves with
  | refl | print | mark | reading | keep => exact .of_heap_eq rfl rfl
  | trans _ _ ihFirst ihSecond => exact ihFirst.trans ihSecond
  | rebind => exact .rebound _ _ _
  | bind => exact .bound _ _
  | inFrame _ _ ih => exact ih.inFrame

/-- Interpreting a program comes back to the frame in which it started. -/
theorem interpret_current (setting : Setting) (program : List Stmt) (machine : Machine) :
    (interpret setting program machine).2.current = machine.current := by
  have covers : ∀ statement ∈ program, Repertoire.all.Covers statement :=
    fun statement _ => Repertoire.covers_all statement
  have lawful := (lawfulWithin .all setting setting.depth).executeAll covers machine.within_all
  rw [interpret_machine]
  exact lawful.evolves.kept.current

/-- However an expression, a statement, a block or a call ends, and in whichever state it starts, it
keeps the scopes of the machine, and only a statement that is not a block binds names in the current
frame. -/
theorem scopes_kept (setting : Setting) (depth : Nat) (machine : Machine) :
    (∀ expression, Kept .evaluation machine (final (evaluate setting depth expression machine))) ∧
    (∀ statement, Kept .execution machine (final (execute setting depth statement machine))) ∧
    (∀ statements,
      Kept .evaluation machine (final (execute setting depth (.block statements) machine))) ∧
    (∀ target arguments, Kept .evaluation machine
      (final (invoke setting.clock (execute setting depth) target arguments machine))) := by
  have lawful := lawfulWithin .all setting depth
  have known := machine.within_all
  refine ⟨fun expression => ?_, fun statement => ?_, fun statements => ?_,
    fun target arguments => ?_⟩
  · exact (lawful.evaluate expression known).evolves.kept
  · exact (lawful.execute (Repertoire.covers_all statement) known).evolves.kept
  · exact (lawful_executeBlock (Repertoire.covers_all _) known).evolves.kept
  · have has : Repertoire.all.Has target := trivial
    exact (lawful.call has arguments known).evolves.kept

end LoxLang

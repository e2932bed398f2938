import LoxLang.Proofs.Scopes
import LoxLang.Proofs.SessionSteps

/-!
# Functions see the global frame

Every function that a machine comes to hold while the sources of a session are run sees the global
frame and no other. So a call changes no frame that was there before except the global one: its own
frames are enclosed by each other and by the global frame, and by nothing else.
-/

namespace LoxLang

open Run Outcome

/-- The functions that have the global frame as their closure. -/
def Repertoire.global : Repertoire :=
  .fitting (fun _ closure => closure = some Heap.globals) (fun _ => True) (fun _ _ _ => rfl)

namespace Repertoire

theorem global_function {name : Token} {parameters : List Token} {body : List Stmt}
    {closure : Option FrameId} :
    global.Has (.function name parameters body closure) ↔ closure = some Heap.globals := by
  simp only [global, fitting, Callable.Fits]

theorem covers_global (statement : Stmt) : global.Covers statement :=
  fun _ _ _ _ => global_function.mpr rfl

end Repertoire

/-! ## States of a session -/

/-- `Reachable machine` says that a machine is in a state that it can be in between two runs of a
session or during a run: while expressions are evaluated and statements executed, in the frame of a
block, or in that of a call of a function that the machine holds. -/
inductive Machine.Reachable : Machine → Prop
  | session {programs : List (List Stmt)} {session : Session} (ran : session.Ran programs) :
      Reachable session.machine
  | evaluate {machine : Machine} (reachable : Reachable machine) (setting : Setting) (depth : Nat)
      (expression : Expr) : Reachable (final (evaluate setting depth expression machine))
  | execute {machine : Machine} (reachable : Reachable machine) (setting : Setting) (depth : Nat)
      (statement : Stmt) : Reachable (final (execute setting depth statement machine))
  | block {machine : Machine} (reachable : Reachable machine) :
      Reachable (machine.enter machine.current)
  | call {machine : Machine} (reachable : Reachable machine) {name : Token}
      {parameters : List Token} {body : List Stmt} {closure : Option FrameId}
      (isHeld : .function name parameters body closure ∈ machine.callables)
      (arguments : List Value) :
      Reachable (final (defineAll parameters arguments (machine.enter closure)))

/-- What holds of the machine between two runs and during them: all callables see at most the global
frame, which exists. -/
structure Machine.GlobalOnly (machine : Machine) : Prop where
  within : machine.Within .global
  hasGlobals : Heap.globals < machine.heap.size

namespace Machine.GlobalOnly

variable {activity : Activity} {machine machine' : Machine}

theorem evolve (globalOnly : machine.GlobalOnly)
    (evolves : Evolves .global activity machine machine') :
    machine'.GlobalOnly := by
  refine ⟨evolves.within globalOnly.within, ?_⟩
  rw [evolves.kept.size]
  exact globalOnly.hasGlobals

theorem enter (globalOnly : machine.GlobalOnly) (enclosing : Option FrameId) :
    (machine.enter enclosing).GlobalOnly := by
  refine ⟨globalOnly.within, ?_⟩
  simp only [Machine.enter, Heap.size_push]
  exact Nat.lt_succ_of_lt globalOnly.hasGlobals

theorem initial : Machine.initial.GlobalOnly :=
  ⟨within_initial trivial, by decide⟩

end Machine.GlobalOnly

theorem Session.Ran.globalOnly {programs : List (List Stmt)} {session : Session}
    (ran : session.Ran programs) : session.machine.GlobalOnly := by
  induction ran with
  | start => exact .initial
  | aside _ sameMachine ih => rwa [sameMachine]
  | @run _ session _ setting source ih =>
      have covers : ∀ statement ∈ session.accepted source, Repertoire.global.Covers statement :=
        fun statement _ => Repertoire.covers_global statement
      rcases session.evolves_run source setting covers ih.within with
        ⟨machine, evolves, sameHeap, sameCallables⟩
      rcases ih.evolve evolves with ⟨within, hasGlobals⟩
      refine ⟨?_, by rwa [sameHeap]⟩
      rwa [Machine.Within, sameCallables]

theorem Machine.Reachable.globalOnly {machine : Machine} (reachable : machine.Reachable) :
    machine.GlobalOnly := by
  induction reachable with
  | session ran => exact ran.globalOnly
  | evaluate _ setting depth expression ih =>
      exact ih.evolve ((lawfulWithin .global setting depth).evaluate expression ih.within).evolves
  | execute _ setting depth statement ih =>
      have covers := Repertoire.covers_global statement
      exact ih.evolve ((lawfulWithin .global setting depth).execute covers ih.within).evolves
  | block _ ih => exact ih.enter _
  | call _ _ arguments ih => exact (ih.enter _).evolve (lawful_defineAll _ arguments).evolves

/-! ## Frames that a call does not touch -/

/-- Whether a frame is the global one or none of the first ones. -/
def Heap.Beyond (first : Nat) (id : FrameId) : Prop :=
  id = Heap.globals ∨ first ≤ id

/-- `Detached first machine` says that of the first frames the machine can get at the global one
only: neither the current frame nor a frame that encloses a later one is among the others. -/
structure Machine.Detached (first : Nat) (machine : Machine) : Prop where
  size : first ≤ machine.heap.size
  current : Heap.Beyond first machine.current
  enclosing : ∀ {id frame parent}, first ≤ id → machine.heap.frames[id]? = some frame →
    frame.enclosing = some parent → Heap.Beyond first parent

namespace Machine.Detached

variable {first : Nat} {machine machine' : Machine}

theorem beyond_of_resolves (detached : machine.Detached first) {name : Token} :
    ∀ {found : FrameId}, machine.Resolves name found → Heap.Beyond first found := by
  have fromFrame {id outer : FrameId} (resolves : machine.heap.Resolves name.lexeme id outer)
      (beyond : Heap.Beyond first id) : Heap.Beyond first outer := by
    induction resolves with
    | here => exact beyond
    | outwards isFrame _ enclosing older _ ih =>
        rcases beyond with rfl | later
        · exact absurd older (Nat.not_lt_zero _)
        · exact ih (detached.enclosing later isFrame enclosing)
  intro found resolves
  exact fromFrame resolves detached.current

theorem modify (detached : machine.Detached first) (id : FrameId) {change : Frame → Frame}
    (sameEnclosing : ∀ frame, (change frame).enclosing = frame.enclosing) :
    Detached first { machine with heap := machine.heap.modify id change } := by
  refine ⟨?_, detached.current, fun {other frame parent} later isFrame isParent => ?_⟩
  · simpa only [Heap.size_modify] using detached.size
  · simp only [Heap.getElem?_modify] at isFrame
    split at isFrame
    · rcases Option.map_eq_some_iff.mp isFrame with ⟨old, isOld, rfl⟩
      exact detached.enclosing later isOld ((sameEnclosing old).symm.trans isParent)
    · exact detached.enclosing later isFrame isParent

theorem enter {enclosing : Option FrameId} (large : first ≤ machine.heap.size)
    (beyond : ∀ parent, enclosing = some parent → Heap.Beyond first parent)
    (chained : ∀ {id frame parent}, first ≤ id → machine.heap.frames[id]? = some frame →
      frame.enclosing = some parent → Heap.Beyond first parent) :
    (machine.enter enclosing).Detached first := by
  refine ⟨?_, .inr large, fun {id frame parent} later isFrame isParent => ?_⟩
  · simp only [Machine.enter, Heap.size_push]
    exact Nat.le_succ_of_le large
  · simp only [Machine.enter, Heap.getElem?_push] at isFrame
    split at isFrame
    · cases isFrame
      exact beyond parent isParent
    · exact chained later isFrame isParent

theorem leave (detached : machine'.Detached first) {id : FrameId} (beyond : Heap.Beyond first id)
    {size : Nat} (large : first ≤ size) : (machine'.leave id size).Detached first := by
  refine ⟨?_, beyond, fun {id frame parent} later isFrame isParent => ?_⟩
  · simp only [Machine.leave, Heap.size_shrink]
    exact Nat.le_min.mpr ⟨large, detached.size⟩
  · simp only [Machine.leave, Heap.getElem?_shrink] at isFrame
    split at isFrame
    · exact detached.enclosing later isFrame isParent
    · cases isFrame

end Machine.Detached

/-- `Untouched first machine machine'` says that the first frames are the same on two machines,
except the global one. -/
def Untouched (first : Nat) (machine machine' : Machine) : Prop :=
  ∀ id, id ≠ Heap.globals → id < first → machine'.heap.frames[id]? = machine.heap.frames[id]?

theorem Untouched.modify {first : Nat} {machine : Machine} {id : FrameId}
    (beyond : Heap.Beyond first id) (change : Frame → Frame) :
    Untouched first machine { machine with heap := machine.heap.modify id change } := by
  intro other notGlobal isFirst
  have notSame : id ≠ other := by
    rintro rfl
    rcases beyond with isGlobal | later
    · exact notGlobal isGlobal
    · exact Nat.not_le.mpr isFirst later
  simp only [Heap.getElem?_modify, notSame, if_false]

/-- A run on a detached machine touches none of the first frames but the global one. -/
theorem Evolves.untouched {activity : Activity} {machine machine' : Machine}
    (evolves : Evolves .global activity machine machine') {first : Nat}
    (detached : machine.Detached first) :
    machine'.Detached first ∧ Untouched first machine machine' := by
  induction evolves with
  | refl | print | mark | reading | keep =>
      exact ⟨⟨detached.size, detached.current, detached.enclosing⟩, fun _ _ _ => rfl⟩
  | trans _ _ ihFirst ihSecond =>
      rcases ihFirst detached with ⟨detached', same⟩
      rcases ihSecond detached' with ⟨detached'', same'⟩
      exact ⟨detached'', fun id notGlobal isFirst =>
        (same' id notGlobal isFirst).trans (same id notGlobal isFirst)⟩
  | rebind resolves =>
      exact ⟨detached.modify _ fun _ => rfl, .modify (detached.beyond_of_resolves resolves) _⟩
  | bind => exact ⟨detached.modify _ fun _ => rfl, .modify detached.current _⟩
  | @inFrame _ machine inner enclosing mayEnter _ ih =>
      have beyond : ∀ parent, enclosing = some parent → Heap.Beyond first parent := by
        rintro parent rfl
        rcases mayEnter with isCurrent | ⟨name, parameters, body, seesGlobals⟩
        · rw [Option.some.inj isCurrent]
          exact detached.current
        · exact .inl (Option.some.inj (Repertoire.global_function.mp seesGlobals))
      rcases ih (.enter detached.size beyond detached.enclosing) with ⟨detached', same⟩
      refine ⟨detached'.leave detached.current detached.size, fun id notGlobal isFirst => ?_⟩
      have isOld : id < machine.heap.size := Nat.lt_of_lt_of_le isFirst detached.size
      simp only [Machine.leave, Heap.getElem?_shrink, isOld, if_true, same id notGlobal isFirst]
      simp only [Machine.enter, Heap.getElem?_push, Nat.ne_of_lt isOld, if_false]

theorem Outcome.final_after {α : Type} (change : Machine → Machine) (outcome : Outcome α) :
    final (outcome.after change) = change outcome.final := by
  cases outcome <;> rfl

theorem Outcome.final_callResult (outcome : Outcome Completion) :
    final (outcome.andThen fun completion machine => callResult completion machine) =
      outcome.final := by
  cases outcome with
  | error => rfl
  | ok completion => cases completion <;> rfl

/-- A call of a function that sees the global frame only touches no other frame that there was. -/
theorem untouched_call (setting : Setting) (depth : Nat) (name : Token) (parameters : List Token)
    (body : List Stmt) (arguments : List Value) {machine : Machine}
    (known : machine.Within .global) :
    Untouched machine.heap.size machine
      (final ((Task.call (.function name parameters body (some Heap.globals)) arguments).run setting
        depth setting.turns machine)) := by
  have has : Repertoire.global.Has (.function name parameters body (some Heap.globals)) :=
    Repertoire.global_function.mpr rfl
  have executed := (lawfulWithin .global setting depth).functionBody has arguments known
  have detached : (machine.enter (some Heap.globals)).Detached machine.heap.size := by
    refine .enter (Nat.le_refl _) (fun parent isParent => .inl (Option.some.inj isParent).symm) ?_
    intro id frame parent later isFrame
    have isOld := (Array.getElem?_eq_some_iff.mp isFrame).1
    exact absurd isOld (Nat.not_lt.mpr later)
  intro id notGlobal isOld
  have same := (executed.evolves.untouched detached).2 id notGlobal isOld
  rw [Task.run_function, final_callResult, final_after]
  simp only [Machine.leave, Heap.getElem?_shrink, isOld, if_true, same]
  simp only [Machine.enter, Heap.getElem?_push, Nat.ne_of_lt isOld, if_false]

end LoxLang

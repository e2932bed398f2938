import LoxLang.Proofs.Closures
import LoxLang.Proofs.EvaluatorAgreement
import LoxLang.Proofs.Simulation

/-!
# Calls are isolated from their callers

What a call of a function does depends on the global names, on its arguments and on the clock, and
not on the frames of its caller: two calls that agree in the former have the same outcome, print the
same lines and leave the same global names, whichever frames there are and whichever is current.
Values are the same here up to a renaming of callables, since each machine counts its own.
-/

namespace LoxLang

open Run Outcome

/-! ## Two callers -/

/-- `Aligned Known start start' index index'` says that two indices correspond: they are known to,
or they are at the same distance behind all that was there at the start. -/
def Aligned (Known : Nat → Nat → Prop) (start start' index index' : Nat) : Prop :=
  (index < start ∧ index' < start' ∧ Known index index') ∨
    ∃ more, index = start + more ∧ index' = start' + more

namespace Aligned

variable {Known : Nat → Nat → Prop} {start start' left left' right right' : Nat}

/-- Two pairs of corresponding indices are in the same order, unless both are known to correspond:
what is new comes behind all that was there, and in its own order. -/
theorem known_or_sameOrder (isLeft : Aligned Known start start' left left')
    (isRight : Aligned Known start start' right right') :
    (Known left left' ∧ Known right right') ∨
      ((left = right ↔ left' = right') ∧ (left < right ↔ left' < right')) := by
  rcases isLeft with ⟨below, below', isKnown⟩ | ⟨more, rfl, rfl⟩ <;>
    rcases isRight with ⟨below₂, below₂', isKnown₂⟩ | ⟨more₂, rfl, rfl⟩
  · exact .inl ⟨isKnown, isKnown₂⟩
  · exact .inr ⟨by omega, by omega⟩
  · exact .inr ⟨by omega, by omega⟩
  · exact .inr ⟨by omega, by omega⟩

theorem eq_iff (known : ∀ {left left' right right'}, Known left left' → Known right right' →
      (left = right ↔ left' = right'))
    (isLeft : Aligned Known start start' left left')
    (isRight : Aligned Known start start' right right') : left = right ↔ left' = right' := by
  rcases isLeft.known_or_sameOrder isRight with ⟨leftKnown, rightKnown⟩ | ⟨sameEq, -⟩
  · exact known leftKnown rightKnown
  · exact sameEq

theorem lt_iff (known : ∀ {left left' right right'}, Known left left' → Known right right' →
      (left < right ↔ left' < right'))
    (isLeft : Aligned Known start start' left left')
    (isRight : Aligned Known start start' right right') : left < right ↔ left' < right' := by
  rcases isLeft.known_or_sameOrder isRight with ⟨leftKnown, rightKnown⟩ | ⟨-, sameLt⟩
  · exact known leftKnown rightKnown
  · exact sameLt

end Aligned

/-- Which callables and marks of two machines are the same: callables one to one, and what has no
mark is the same as what has none. -/
structure Matching where
  identity : Nat → Nat → Prop
  mark : Nat → Nat → Prop
  unique : ∀ {left left' right right'}, identity left left' → identity right right' →
    (left = right ↔ left' = right')
  unmarked : mark 0 0

namespace Correspondence

/-- The correspondence of two calls that are made on two machines. Of the frames that there were,
only the global one corresponds to a frame, to itself; callables and marks correspond as a matching
says; and what is new corresponds in order. Tokens are the same. -/
def ofCallers (matching : Matching) (machine machine' : Machine)
    (hasGlobals : Heap.globals < machine.heap.size)
    (hasGlobals' : Heap.globals < machine'.heap.size)
    (clock clock' : Nat → Float) : Correspondence where
  Origin := Unit
  token _ name name' := name = name'
  frame := Aligned (fun id id' => id = Heap.globals ∧ id' = Heap.globals) machine.heap.size
    machine'.heap.size
  identity := Aligned matching.identity machine.callables.size machine'.callables.size
  mark := Aligned matching.mark (machine.marks + 1) (machine'.marks + 1)
  output lines lines' := ∃ printed, lines = machine.output ++ printed ∧
    lines' = machine'.output ++ printed
  clock := clock
  clock' := clock'
  symbol _ := by
    rintro name _ rfl
    exact ⟨rfl, rfl⟩
  older := Aligned.lt_iff (by rintro _ _ _ _ ⟨rfl, rfl⟩ ⟨rfl, rfl⟩; rfl)
  globals := .inl ⟨hasGlobals, hasGlobals', rfl, rfl⟩
  unique := Aligned.eq_iff matching.unique
  unmarked := .inl ⟨Nat.succ_pos _, Nat.succ_pos _, matching.unmarked⟩
  push := by
    rintro _ _ line ⟨printed, rfl, rfl⟩
    exact ⟨printed.push line, by simp, by simp⟩

/-- What two machines have in common on which a function is called: the global names, the callables,
and what the clock will show. -/
structure Common (between : Correspondence) (machine machine' : Machine) : Prop where
  globals : Option.Rel between.Frames machine.heap.frames[Heap.globals]?
    machine'.heap.frames[Heap.globals]?
  callables : ∀ {identity identity'}, between.identity identity identity' →
    Option.Rel between.Callables machine.callables[identity]? machine'.callables[identity']?
  readings : ∀ more,
    between.clock (machine.readings + more) = between.clock' (machine'.readings + more)
  interrupted : machine.interrupted = machine'.interrupted

end Correspondence

/-- The machine with the global frame as its current one. -/
def Machine.atGlobals (machine : Machine) : Machine :=
  { machine with current := Heap.globals }

theorem Correspondence.Common.machines {matching : Matching} {machine machine' : Machine}
    {hasGlobals : Heap.globals < machine.heap.size}
    {hasGlobals' : Heap.globals < machine'.heap.size}
    {clock clock' : Nat → Float}
    (common : (ofCallers matching machine machine' hasGlobals hasGlobals' clock clock').Common
      machine machine') :
    (ofCallers matching machine machine' hasGlobals hasGlobals' clock clock').Machines
      machine.atGlobals machine'.atGlobals where
  frames := by
    rintro id id' (⟨-, -, rfl, rfl⟩ | ⟨more, rfl, rfl⟩)
    · exact common.globals
    · have isNone : machine.heap.frames[machine.heap.size + more]? = none :=
        Array.getElem?_eq_none (Nat.le_add_right _ _)
      have isNone' : machine'.heap.frames[machine'.heap.size + more]? = none :=
        Array.getElem?_eq_none (Nat.le_add_right _ _)
      simp only [Machine.atGlobals, isNone, isNone']
      exact .none
  newFrames more := .inr ⟨more, rfl, rfl⟩
  current := .inl ⟨hasGlobals, hasGlobals', rfl, rfl⟩
  callables := common.callables
  newCallables more := .inr ⟨more, rfl, rfl⟩
  newMarks more := .inr ⟨more, rfl, rfl⟩
  readings := common.readings
  output := ⟨#[], by simp [Machine.atGlobals], by simp [Machine.atGlobals]⟩
  interrupted := common.interrupted

/-- Whether a callable is a function that was declared in a program. -/
def Callable.IsFunction : Callable → Prop
  | .function _ _ _ _ => True
  | .native _ _ _ => False

/-- The outcome of a call, whichever frame is current at its end. -/
def calling (setting : Setting) (depth : Nat) (target : Callable) (arguments : List Value)
    (machine : Machine) : Outcome Value :=
  Outcome.after Machine.atGlobals
    (invoke setting.clock (execute setting depth) target arguments machine)

/-- A function is called alike from all frames. -/
theorem calling_eq {target : Callable} (isFunction : target.IsFunction) (setting : Setting)
    (depth : Nat) (arguments : List Value) (machine : Machine) :
    calling setting depth target arguments machine =
      (Task.call target arguments).run setting depth setting.turns machine.atGlobals := by
  cases target with
  | native => exact isFunction.elim
  | function name parameters body closure =>
      change Outcome.after _ ((Task.call (.function name parameters body closure) arguments).run
        setting depth setting.turns machine) = _
      rw [Task.run_function, Task.run_function]
      have sameEntry : machine.atGlobals.enter closure = machine.enter closure := rfl
      rw [sameEntry]
      cases andThen (defineAll parameters arguments (machine.enter closure)) fun _ machine =>
          (Task.executeAll body).run setting depth setting.turns machine with
      | error => rfl
      | ok completion => cases completion <;> rfl

/-! ## Calls that have everything in common but the frames of their callers -/

section Callers

variable {matching : Matching} {machine machine' : Machine}
  {hasGlobals : Heap.globals < machine.heap.size} {hasGlobals' : Heap.globals < machine'.heap.size}
  {clock clock' : Nat → Float} {between : Correspondence}
  (isBetween : between = .ofCallers matching machine machine' hasGlobals hasGlobals' clock clock')
  (common : between.Common machine machine') {target target' : Callable}
  (targets : between.Callables target target') (isFunction : target.IsFunction)
  {arguments arguments' : List Value}
  (allArguments : List.Forall₂ between.Values arguments arguments') {setting setting' : Setting}
  (isClock : setting.clock = clock) (isClock' : setting'.clock = clock')
include isBetween common targets isFunction allArguments isClock isClock'

/-- Calls within the same limits have the same outcome, also if it is due to a limit. -/
theorem outcomes_of_sameLimits (sameTurns : setting.turns = setting'.turns) (depth : Nat) :
    between.Outcomes between.Values (calling setting depth target arguments machine)
      (calling setting' depth target' arguments' machine') := by
  have isFunction' : target'.IsFunction := by
    cases targets with
    | native => exact isFunction.elim
    | function => trivial
  subst isBetween
  have settings : Correspondence.Settings (.ofCallers matching machine machine' hasGlobals
      hasGlobals' clock clock') setting setting' := ⟨sameTurns, isClock, isClock'⟩
  rw [calling_eq isFunction, calling_eq isFunction']
  exact (Correspondence.simulatedWithin settings depth).call settings targets allArguments
    common.machines

/-- Calls that reach no limit have the same outcome, whatever their limits are. -/
theorem outcomes_of_unlimited {depth depth' : Nat}
    (unlimited : ¬ Limited (invoke setting.clock (execute setting depth) target arguments machine))
    (unlimited' : ¬ Limited
      (invoke setting'.clock (execute setting' depth') target' arguments' machine')) :
    between.Outcomes between.Values (calling setting depth target arguments machine)
      (calling setting' depth' target' arguments' machine') := by
  -- Both calls have their outcome within all large limits, so also within the same ones.
  have agrees : Agrees clock _ _ := (Task.call target arguments).agrees machine
  have agrees' : Agrees clock' _ _ := (Task.call target' arguments').agrees machine'
  rcases agrees.reached ((agrees.within isClock unlimited _).mp rfl) with ⟨bound, reached⟩
  rcases agrees'.reached ((agrees'.within isClock' unlimited' _).mp rfl) with ⟨bound', reached'⟩
  have enough := Nat.le_max_left bound bound'
  have enough' := Nat.le_max_right bound bound'
  let large : Setting := ⟨max bound bound', max bound bound', clock⟩
  let large' : Setting := ⟨max bound bound', max bound bound', clock'⟩
  have sameTurns : large.turns = large'.turns := rfl
  have outcomes : between.Outcomes between.Values
      (calling large (max bound bound') target arguments machine)
      (calling large' (max bound bound') target' arguments' machine') :=
    outcomes_of_sameLimits isBetween common targets isFunction allArguments rfl rfl sameTurns _
  have same := reached large _ rfl enough enough
  have same' := reached' large' _ rfl enough' enough'
  simp only [Task.run] at same same'
  unfold calling at outcomes ⊢
  rwa [same, same'] at outcomes

end Callers

/-- Functions see the global names and their own frames only. In every state that a session can come
to, all functions in all frames have the global frame as their closure; a call of a function touches
no other frame that there was; and its outcome, with what it prints and what it makes of the global
names, is the same for all callers, as long as no limit is reached or the limits are the same. -/
theorem functions_isolated {machine : Machine} (reachable : machine.Reachable) :
    (∀ {id : FrameId} {frame : Frame} {bound : String} {value : Value}
      {name parameters body closure},
      machine.heap.frames[id]? = some frame → (bound, value) ∈ frame.bindings →
      machine.Denotes value (.function name parameters body closure) →
      closure = some Heap.globals) ∧
    ∀ {target}, target ∈ machine.callables → target.IsFunction →
      ∀ (arguments : List Value) (setting : Setting) (depth : Nat),
        Untouched machine.heap.size machine
          (final (invoke setting.clock (execute setting depth) target arguments machine)) ∧
        ∀ {matching machine' hasGlobals hasGlobals' target' arguments'} {setting' : Setting}
          {depth' : Nat} {between : Correspondence},
          between = .ofCallers matching machine machine' hasGlobals hasGlobals' setting.clock
            setting'.clock →
          between.Common machine machine' → between.Callables target target' →
          List.Forall₂ between.Values arguments arguments' →
          (setting.turns = setting'.turns ∧ depth = depth' ∨
            ¬ Limited (invoke setting.clock (execute setting depth) target arguments machine) ∧
            ¬ Limited (invoke setting'.clock (execute setting' depth') target' arguments'
              machine')) →
          between.Outcomes between.Values (calling setting depth target arguments machine)
            (calling setting' depth' target' arguments' machine') := by
  have globalOnly := reachable.globalOnly
  refine ⟨fun {_ _ _ _ name parameters body closure} _ _ denotes => ?_,
    fun {target} isHeld isFunction arguments setting depth => ⟨?_, ?_⟩⟩
  · rcases denotes with ⟨reference, -, isTarget⟩
    exact Repertoire.global_function.mp (globalOnly.within _ (Array.mem_of_getElem? isTarget))
  · cases target with
    | native => exact isFunction.elim
    | function name parameters body closure =>
        have seesGlobals := Repertoire.global_function.mp (globalOnly.within _ isHeld)
        subst seesGlobals
        exact untouched_call setting depth name parameters body arguments globalOnly.within
  · intro matching machine' _ _ target' arguments' setting' depth' between isBetween common targets
      allArguments limits
    rcases limits with ⟨sameTurns, rfl⟩ | ⟨unlimited, unlimited'⟩
    · exact outcomes_of_sameLimits isBetween common targets isFunction allArguments rfl rfl
        sameTurns depth
    · exact outcomes_of_unlimited isBetween common targets isFunction allArguments rfl rfl
        unlimited unlimited'

/-- A function that prints its argument. -/
def echoDeclaration : Stmt :=
  .function { kind := .identifier, lexeme := "echo" } [{ kind := .identifier, lexeme := "line" }]
    [.print (.variable { kind := .identifier, lexeme := "line" })]

/-- The machine after a function was declared. -/
def echoMachine : Machine :=
  final (execute ⟨20, 5, fun _ => 0⟩ 20 echoDeclaration Machine.initial)

/-- The same machine in a block, where a name is bound that hides a global one. -/
def echoMachineInBlock : Machine :=
  (echoMachine.enter (some Heap.globals)).bound { kind := .identifier, lexeme := "clock" } .nil

theorem echoMachine_reachable : echoMachine.Reachable :=
  .execute (.session (.start {} {})) _ _ _

/-- All callables of a machine are the same as those of itself, and no value has a mark. -/
def Matching.same : Matching where
  identity index index' := index = index'
  mark index index' := index = 0 ∧ index' = 0
  unique := Eq.congr
  unmarked := ⟨rfl, rfl⟩

/-- The correspondence of calls from the global frame and from the block. -/
def echoCallers : Correspondence :=
  .ofCallers .same echoMachine echoMachineInBlock (by decide) (by decide) (fun _ => 0) (fun _ => 0)

theorem echoCallers_clock : echoCallers.identity 0 0 :=
  .inl ⟨by decide, by decide, rfl⟩

theorem echoCallers_echo : echoCallers.identity 1 1 :=
  .inl ⟨by decide, by decide, rfl⟩

theorem echoCallers_callables {identity identity' : Nat}
    (identities : echoCallers.identity identity identity') :
    Option.Rel echoCallers.Callables echoMachine.callables[identity]?
      echoMachineInBlock.callables[identity']? := by
  rcases identities with ⟨below, -, rfl⟩ | ⟨more, rfl, rfl⟩
  · match identity, below with
    | 0, _ => exact .some (.native "clock" 0 .clock)
    | 1, _ =>
        exact .some (.function () rfl (.cons rfl .nil) (.cons (.print (.variable rfl)) .nil)
          (.some echoCallers.globals))
  · rw [Array.getElem?_eq_none (Nat.le_add_right _ _),
      Array.getElem?_eq_none (Nat.le_add_right _ _)]
    exact .none

theorem echoCallers_common : echoCallers.Common echoMachine echoMachineInBlock where
  globals := by
    have clock : echoCallers.Bindings ("clock", _) ("clock", _) :=
      ⟨"clock", .callable true "clock" 0 echoCallers_clock⟩
    have echo : echoCallers.Bindings ("echo", _) ("echo", _) :=
      ⟨"echo", .callable false "echo" 1 echoCallers_echo⟩
    exact .some ⟨.none, .cons clock (.cons echo .nil)⟩
  callables := echoCallers_callables
  readings _ := rfl
  interrupted := rfl

theorem functions_isolated_echo :
    ∃ target ∈ echoMachine.callables, target.IsFunction ∧
      ∀ line, Untouched 1 echoMachine (final (invoke (fun _ => 0) (execute ⟨20, 5, fun _ => 0⟩ 20)
          target [.string line] echoMachine)) ∧
        echoCallers.Outcomes echoCallers.Values
          (calling ⟨20, 5, fun _ => 0⟩ 20 target [.string line] echoMachine)
          (calling ⟨20, 5, fun _ => 0⟩ 20 target [.string line] echoMachineInBlock) := by
  have isTarget : echoMachine.callables[1]? = some _ := rfl
  have isHeld := Array.mem_of_getElem? isTarget
  refine ⟨_, isHeld, trivial, fun line => ?_⟩
  have isolated := (functions_isolated echoMachine_reachable).2 isHeld trivial [.string line]
    ⟨20, 5, fun _ => 0⟩ 20
  cases echoCallers_callables echoCallers_echo with
  | some targets =>
      exact ⟨isolated.1, isolated.2 rfl echoCallers_common targets (.cons (.string line) .nil)
        (.inl ⟨rfl, rfl⟩)⟩

end LoxLang

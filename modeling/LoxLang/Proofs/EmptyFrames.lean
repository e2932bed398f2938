import LoxLang.Proofs.Scopes

/-!
# Empty frames are not seen

A frame that binds nothing can stand between a frame and all that it encloses without anything being
different: names mean the same, and what happens in the frames inside it happens there as well. So
a block whose statements bind nothing themselves does what its statements do.
-/

namespace LoxLang

open Run Outcome

/-! ## Heaps with an empty frame -/

/-- A frame that refers to the frame around it in another way. -/
def Frame.refer (change : FrameId → FrameId) (frame : Frame) : Frame :=
  { frame with enclosing := frame.enclosing.map change }

namespace Heap

/-- Where a reference to a frame leads when an empty frame stands in front of the frame `base`: to
the empty frame in place of `base`, and to the frames behind it. -/
def reference (base id : Nat) : Nat :=
  if id < base then id else id + 1

/-- Where a frame stands when there is an empty frame in front of the frame `base`. -/
def place (base id : Nat) : Nat :=
  if id ≤ base then id else id + 1

/-- A heap with an empty frame in front of the frame `base`. What was enclosed by that frame is
enclosed by the empty one. -/
def padded (base : Nat) (heap : Heap) : Heap :=
  ⟨(heap.frames.take (base + 1)).push { enclosing := some base } ++
    (heap.frames.drop (base + 1)).map (Frame.refer (reference base))⟩

variable {base : Nat} {heap : Heap}

theorem size_padded (base : Nat) (heap : Heap) : (heap.padded base).size = heap.size + 1 := by
  simp [padded, size]
  omega

theorem ext_getElem? {left right : Heap}
    (same : ∀ id : Nat, left.frames[id]? = right.frames[id]?) : left = right := by
  cases left
  cases right
  exact congrArg Heap.mk (Array.ext_getElem? same)

theorem getElem?_padded (present : base < heap.size) (id : Nat) :
    (heap.padded base).frames[id]? =
      if id ≤ base then heap.frames[id]?
      else if id = base + 1 then some { enclosing := some base }
      else heap.frames[id - 1]?.map (Frame.refer (reference base)) := by
  have enough : base + 1 ≤ heap.frames.size := present
  have length : (heap.frames.take (base + 1)).size = base + 1 := by
    simpa using enough
  simp only [padded]
  split
  · next outer =>
      rw [Array.getElem?_append_left (by simp only [Array.size_push]; omega), Array.getElem?_push,
        if_neg (by omega), Array.take_eq_extract, Array.getElem?_extract, if_pos (by omega),
        Nat.zero_add]
  split
  · next isEmpty =>
      rw [Array.getElem?_append_left (by simp only [Array.size_push]; omega), Array.getElem?_push,
        if_pos (by omega)]
  · next notOuter notEmpty =>
      have behind : base + 1 + (id - (base + 1 + 1)) = id - 1 := by omega
      rw [Array.getElem?_append_right (by simp only [Array.size_push]; omega), Array.getElem?_map,
        Array.size_push, length, Array.drop_eq_extract, Array.getElem?_extract, behind]
      split
      · rfl
      · next beyond =>
          rw [Array.getElem?_eq_none (by omega)]

/-- The frames up to `base` are the same. -/
theorem padded_outer (present : base < heap.size) {id : Nat} (outer : id ≤ base) :
    (heap.padded base).frames[id]? = heap.frames[id]? := by
  rw [getElem?_padded present, if_pos outer]

theorem padded_empty (present : base < heap.size) :
    (heap.padded base).frames[base + 1]? = some { enclosing := some base } := by
  rw [getElem?_padded present, if_neg (by omega), if_pos rfl]

/-- The other frames stand one place further. -/
theorem padded_inner (present : base < heap.size) {id : Nat} (inner : base < id) :
    (heap.padded base).frames[id + 1]? =
      heap.frames[id]?.map (Frame.refer (reference base)) := by
  rw [getElem?_padded present, if_neg (by omega), if_neg (by omega), Nat.add_sub_cancel]

/-- Every index of a heap with an empty frame is one of these three. -/
theorem padded_cases {motive : Nat → Prop} (base : Nat) (outer : ∀ id ≤ base, motive id)
    (empty : motive (base + 1)) (inner : ∀ id, base < id → motive (id + 1)) (id : Nat) :
    motive id := by
  rcases Nat.lt_trichotomy id (base + 1) with less | rfl | more
  · exact outer id (by omega)
  · exact empty
  · have isBehind : id = id - 1 + 1 := by omega
    rw [isBehind]
    exact inner (id - 1) (by omega)

theorem modify_padded (present : base < heap.size) (id : Nat) {change : Frame → Frame}
    (commutes : ∀ frame, (change frame).refer (reference base) =
      change (frame.refer (reference base))) :
    (heap.modify id change).padded base = (heap.padded base).modify (place base id) change := by
  have presentAfter : base < (heap.modify id change).size := by simpa using present
  refine ext_getElem? (padded_cases base ?_ ?_ ?_)
  · intro other outer
    rw [padded_outer presentAfter outer, getElem?_modify, getElem?_modify,
      padded_outer present outer]
    unfold place
    grind
  · rw [padded_empty presentAfter, getElem?_modify, padded_empty present]
    unfold place
    grind
  · intro other inner
    rw [padded_inner presentAfter inner, getElem?_modify, getElem?_modify,
      padded_inner present inner]
    unfold place
    grind

theorem push_padded (present : base < heap.size) (frame : Frame) :
    (heap.push frame).padded base =
      (heap.padded base).push (frame.refer (reference base)) := by
  have presentAfter : base < (heap.push frame).size := by
    rw [size_push]
    omega
  refine ext_getElem? (padded_cases base ?_ ?_ ?_)
  · intro other outer
    rw [padded_outer presentAfter outer, getElem?_push, getElem?_push, padded_outer present outer,
      size_padded]
    grind
  · rw [padded_empty presentAfter, getElem?_push, padded_empty present, size_padded]
    grind
  · intro other inner
    rw [padded_inner presentAfter inner, getElem?_push, getElem?_push, padded_inner present inner,
      size_padded]
    grind

theorem shrink_padded (present : base < heap.size) {size : Nat} (remains : base < size) :
    (heap.shrink size).padded base = (heap.padded base).shrink (size + 1) := by
  have presentAfter : base < (heap.shrink size).size := by
    rw [size_shrink]
    omega
  refine ext_getElem? (padded_cases base ?_ ?_ ?_)
  · intro other outer
    rw [padded_outer presentAfter outer, getElem?_shrink, getElem?_shrink,
      padded_outer present outer]
    grind
  · rw [padded_empty presentAfter, getElem?_shrink, padded_empty present]
    grind
  · intro other inner
    rw [padded_inner presentAfter inner, getElem?_shrink, getElem?_shrink,
      padded_inner present inner]
    grind

/-! ### Names -/

theorem resolve?_le {id found : Nat} {name : String}
    (resolved : heap.resolve? id name = some found) : found ≤ id := by
  have resolves := resolve?_eq_some_iff.mp resolved
  induction resolves with
  | here => exact Nat.le_refl _
  | outwards _ _ _ older resolves ih =>
      exact Nat.le_trans (ih (resolve?_eq_some_iff.mpr resolves)) (Nat.le_of_lt older)

theorem resolve?_outer (present : base < heap.size) {id : Nat} (outer : id ≤ base)
    (name : String) : (heap.padded base).resolve? id name = heap.resolve? id name := by
  induction id using Nat.strongRecOn with
  | ind id ih =>
      rw [resolve?, padded_outer present outer]
      conv => rhs; rw [resolve?]
      cases heap.frames[id]? with
      | none => rfl
      | some frame =>
          dsimp only
          split
          · rfl
          · cases frame.enclosing with
            | none => rfl
            | some parent =>
                dsimp only
                split
                · next older => exact ih parent older (Nat.le_trans (Nat.le_of_lt older) outer)
                · rfl

/-- Names mean the same. -/
theorem resolve?_padded (present : base < heap.size) (id : Nat) (name : String) :
    (heap.padded base).resolve? (reference base id) name =
      (heap.resolve? id name).map (place base) := by
  have fromOuter {id : Nat} (outer : id ≤ base) :
      (heap.padded base).resolve? id name = (heap.resolve? id name).map (place base) := by
    rw [resolve?_outer present outer]
    cases isFound : heap.resolve? id name with
    | none => rfl
    | some found =>
        have older := resolve?_le isFound
        rw [Option.map_some, place, if_pos (by omega)]
  induction id using Nat.strongRecOn with
  | ind id ih =>
      rcases Nat.lt_trichotomy id base with less | rfl | more
      · rw [reference, if_pos less]
        exact fromOuter (Nat.le_of_lt less)
      · -- The empty frame has nothing, so the search goes on in the frame behind it.
        rw [reference, if_neg (by omega), resolve?, padded_empty present]
        simp only [Frame.binds, Frame.get?, List.lookup_nil, Option.isSome_none,
          Bool.false_eq_true, if_false, Nat.lt_succ_self, if_true]
        exact fromOuter (Nat.le_refl _)
      · rw [reference, if_neg (by omega), resolve?, padded_inner present more]
        conv => rhs; rw [resolve?]
        cases heap.frames[id]? with
        | none => rfl
        | some frame =>
            have sameNames : (frame.refer (reference base)).binds name = frame.binds name := rfl
            simp only [Option.map_some, sameNames]
            split
            · rw [Option.map_some, place, if_neg (by omega)]
            · cases isParent : frame.enclosing with
              | none => simp [Frame.refer, isParent]
              | some parent =>
                  have sameOrder : reference base parent < id + 1 ↔ parent < id := by
                    unfold reference
                    grind
                  simp only [Frame.refer, isParent, Option.map_some, sameOrder]
                  split
                  · next older => exact ih parent older
                  · rfl

theorem bind_get?_place (present : base < heap.size) (id : Nat) (name : String) :
    (heap.padded base).frames[place base id]?.bind (·.get? name) =
      heap.frames[id]?.bind (·.get? name) := by
  unfold place
  split
  · next outer => rw [padded_outer present outer]
  · next inner =>
      rw [padded_inner present (by omega)]
      cases heap.frames[id]? <;> rfl

theorem get?_padded (present : base < heap.size) (id : Nat) (name : String) :
    (heap.padded base).get? (reference base id) name = heap.get? id name := by
  rw [get?, get?, resolve?_padded present]
  cases heap.resolve? id name with
  | none => rfl
  | some found => exact bind_get?_place present found name

/-- A frame inside the empty one binds the same names. -/
theorem binds_padded (present : base < heap.size) {id : Nat} (inner : base < id)
    (name : String) : (heap.padded base).binds (reference base id) name = heap.binds id name := by
  rw [binds, binds, reference, if_neg (by omega), padded_inner present inner]
  cases heap.frames[id]? <;> rfl

end Heap

/-! ## Machines with an empty frame -/

/-- The callables that see no frame from `base` on. All functions see the global frame, so that must
be an older one. -/
def Repertoire.seeing {base : Nat} (positive : 0 < base) : Repertoire :=
  .fitting (fun _ closure => ∀ id : Nat, closure = some id → id < base) (fun _ => True) <| by
    intro body closure statement name parameters inner function isStatement occurs id isGlobal
    cases isGlobal
    exact positive

theorem Repertoire.covers_seeing {base : Nat} (positive : 0 < base) (statement : Stmt) :
    (seeing positive).Covers statement := by
  intro name parameters body occurs
  simp only [seeing, fitting, Callable.Fits]
  intro id isGlobal
  cases isGlobal
  exact positive

namespace Machine

/-- The machine with an empty frame in front of the frame `base`. If it is in that frame, it is then
in the empty one. -/
def padded (base : Nat) (machine : Machine) : Machine :=
  { machine with
    heap := machine.heap.padded base
    current := Heap.reference base machine.current }

/-- Whether an empty frame in front of the frame `base` is not seen by what the machine does in the
frame `here`: no callable sees a frame from `base` on. -/
structure Hosts {base : Nat} (positive : 0 < base) (here : Nat) (machine : Machine) : Prop where
  present : base < machine.heap.size
  current : machine.current = here
  known : machine.Within (.seeing positive)

end Machine

namespace Outcome

/-- `Unseen positive here Expected outcome outcome'` says that two outcomes are the same but for an
empty frame that the second machine has, and that a result is as expected. -/
inductive Unseen {α : Type} {base : Nat} (positive : 0 < base) (here : Nat) (Expected : α → Prop) :
    Outcome α → Outcome α → Prop
  | ok {result : α} {machine : Machine} (expected : Expected result)
      (hosts : machine.Hosts positive here) :
      Unseen positive here Expected (.ok result machine) (.ok result (machine.padded base))
  | error {reason : Abort} {machine : Machine} (hosts : machine.Hosts positive here) :
      Unseen positive here Expected (.error reason machine) (.error reason (machine.padded base))

end Outcome

section Unseen

variable {α β : Type} {base here : Nat} {positive : 0 < base} {machine : Machine}

namespace Outcome.Unseen

variable {Expected : α → Prop} {Expected' : β → Prop} {outcome outcome' : Outcome α}

theorem andThen {next next' : α → Machine → Outcome β}
    (unseen : Unseen positive here Expected outcome outcome')
    (unseenNext : ∀ result machine, Expected result → machine.Hosts positive here →
      Unseen positive here Expected' (next result machine) (next' result (machine.padded base))) :
    Unseen positive here Expected' (outcome.andThen next) (outcome'.andThen next') := by
  cases unseen with
  | ok expected hosts => exact unseenNext _ _ expected hosts
  | error hosts => exact .error hosts

theorem eq_after (unseen : Unseen positive here Expected outcome outcome') :
    outcome' = outcome.after (·.padded base) := by
  cases unseen <;> rfl

/-- Leaving a frame that is inside the empty one. -/
theorem leave {inner size : Nat} (unseen : Unseen positive inner Expected outcome outcome')
    (remains : base < size) :
    Unseen positive here Expected (outcome.after (·.leave here size))
      (outcome'.after (·.leave (Heap.reference base here) (size + 1))) := by
  have left {machine : Machine} (hosts : machine.Hosts positive inner) :
      (machine.leave here size).Hosts positive here ∧
        (machine.padded base).leave (Heap.reference base here) (size + 1) =
          (machine.leave here size).padded base := by
    refine ⟨⟨?_, rfl, hosts.known⟩, ?_⟩
    · have present := hosts.present
      rw [Machine.leave, Heap.size_shrink]
      omega
    · simp only [Machine.leave, Machine.padded, Heap.shrink_padded hosts.present remains]
  cases unseen with
  | ok expected hosts =>
      rw [after_ok, after_ok, (left hosts).2]
      exact .ok expected (left hosts).1
  | error hosts =>
      rw [after_error, after_error, (left hosts).2]
      exact .error (left hosts).1

end Outcome.Unseen

/-! ## What the machine does with names, values and callables -/

namespace Machine.Hosts

variable (hosts : machine.Hosts positive here)
include hosts

/-- What happens in a new frame. -/
theorem inFrame {Expected : α → Prop} (enclosing : Option FrameId) (body : Machine → Outcome α)
    (inside : ∀ {machine' : Machine}, machine'.Hosts positive machine.heap.size →
      Unseen positive machine.heap.size Expected (body machine') (body (machine'.padded base))) :
    Unseen positive here Expected
      (Outcome.after (·.leave machine.current machine.heap.size) (body (machine.enter enclosing)))
      (Outcome.after (·.leave (machine.padded base).current (machine.padded base).heap.size)
        (body ((machine.padded base).enter (enclosing.map (Heap.reference base))))) := by
  have present := hosts.present
  have entered : (machine.enter enclosing).Hosts positive machine.heap.size := by
    refine ⟨?_, rfl, hosts.known⟩
    rw [Machine.enter, Heap.size_push]
    omega
  have place : Heap.reference base machine.heap.size = machine.heap.size + 1 := by
    rw [Heap.reference, if_neg (by omega)]
  have sameFrame : (machine.padded base).enter (enclosing.map (Heap.reference base)) =
      (machine.enter enclosing).padded base := by
    simp only [Machine.enter, padded, Heap.push_padded present, Heap.size_padded, place]
    rfl
  have size : (machine.padded base).heap.size = machine.heap.size + 1 := Heap.size_padded _ _
  have back : (machine.padded base).current = Heap.reference base here := by
    rw [← hosts.current]
    rfl
  rw [sameFrame, size, back, hosts.current]
  exact (inside entered).leave present

theorem modify (id : Nat) (change : Frame → Frame)
    (commutes : ∀ frame, (change frame).refer (Heap.reference base) =
      change (frame.refer (Heap.reference base))) :
    Unseen positive here (fun _ => True)
      (.ok () { machine with heap := machine.heap.modify id change })
      (.ok () { machine.padded base with
        heap := (machine.heap.padded base).modify (Heap.place base id) change }) := by
  have changed : Hosts positive here { machine with heap := machine.heap.modify id change } := by
    refine ⟨?_, hosts.current, hosts.known⟩
    rw [Heap.size_modify]
    exact hosts.present
  rw [← Heap.modify_padded hosts.present id commutes]
  exact .ok trivial changed

theorem read (name : Token) :
    Unseen positive here (fun _ => True) (read name machine) (read name (machine.padded base)) := by
  have sameValue := Heap.get?_padded hosts.present machine.current name.lexeme
  simp only [Run.read, Heap.get, padded, sameValue]
  cases machine.heap.get? machine.current name.lexeme with
  | none => exact .error hosts
  | some value => exact .ok trivial hosts

theorem assign (name : Token) (value : Value) :
    Unseen positive here (fun _ => True) (assign name value machine)
      (assign name value (machine.padded base)) := by
  have sameFrame := Heap.resolve?_padded hosts.present machine.current name.lexeme
  simp only [Run.assign, Heap.resolve, padded, sameFrame]
  cases machine.heap.resolve? machine.current name.lexeme with
  | none => exact .error hosts
  | some found => exact hosts.modify found (·.assign name.lexeme value) fun _ => rfl

theorem define (inside : base < here) (name : Token) (value : Value) :
    Unseen positive here (fun _ => True) (define name value machine)
      (define name value (machine.padded base)) := by
  have isInside : base < machine.current := hosts.current ▸ inside
  have sameBinds := Heap.binds_padded hosts.present isInside name.lexeme
  have samePlace : Heap.reference base machine.current = Heap.place base machine.current := by
    rw [Heap.reference, Heap.place, if_neg (Nat.lt_asymm isInside),
      if_neg (Nat.not_le.mpr isInside)]
  simp only [Run.define, padded, sameBinds]
  split
  · exact .error hosts
  · rw [samePlace]
    have bound := hosts.modify machine.current (·.define name.lexeme value) fun _ => rfl
    unfold padded at bound
    rwa [samePlace] at bound

theorem defineAll (inside : base < here) (names : List Token) (values : List Value) :
    Unseen positive here (fun _ => True) (defineAll names values machine)
      (defineAll names values (machine.padded base)) := by
  induction names generalizing values machine with
  | nil => exact .ok trivial hosts
  | cons name names ih =>
      cases values with
      | nil => exact .ok trivial hosts
      | cons value values =>
          rw [defineAll_cons, defineAll_cons]
          exact (hosts.define inside name value).andThen fun _ _ _ hosts => ih hosts values

theorem keep {target : Callable} (has : (Repertoire.seeing positive).Has target) :
    (machine.keep target).2.Hosts positive here := by
  have evolves : Evolves (.seeing positive) .evaluation machine (machine.keep target).2 := .keep has
  exact ⟨hosts.present, hosts.current, evolves.within hosts.known⟩

theorem make {recipe : Recipe}
    (has : ∀ target, recipe = .callable target → (Repertoire.seeing positive).Has target) :
    Unseen positive here (fun _ => True) (Run.make recipe machine)
      (Run.make recipe (machine.padded base)) := by
  cases recipe with
  | callable target => exact .ok trivial (hosts.keep (has target rfl))
  | constant value =>
      cases value with
      | number value mark =>
          have marked : Hosts positive here { machine with marks := machine.marks + 1 } :=
            ⟨hosts.present, hosts.current, hosts.known⟩
          simp only [Run.make, Machine.make, distinguish]
          split
          · exact .ok trivial marked
          · exact .ok trivial hosts
      | nil | boolean | string | callable => exact .ok trivial hosts

theorem settle (result : Except Abort Value) :
    Unseen positive here (fun _ => True) (settle result machine)
      (settle result (machine.padded base)) := by
  cases result with
  | error reason => exact .error hosts
  | ok value =>
      have noCallable : ∀ target, Recipe.constant value = .callable target →
          (Repertoire.seeing positive).Has target := by
        intro target impossible
        cases impossible
      exact hosts.make noCallable

theorem act {name : String} {arity : Int} {action : Action}
    (has : (Repertoire.seeing positive).Has (.native name arity action)) (clock : Nat → Float)
    (arguments : List Value) :
    Unseen positive here (fun _ => True) (act clock arguments action machine)
      (act clock arguments action (machine.padded base)) := by
  cases action with
  | clock =>
      have read : Hosts positive here { machine with readings := machine.readings + 1 } :=
        ⟨hosts.present, hosts.current, hosts.known⟩
      exact .ok trivial read
  | pick index => exact .ok trivial hosts
  | abort reason => exact .error hosts
  | produce recipe =>
      refine hosts.make fun target isTarget => ?_
      rw [isTarget] at has
      exact (Repertoire.seeing positive).products _ _ _ has

theorem callee (paren : Option Token) (value : Value) (count : Nat) :
    Unseen positive here (Repertoire.seeing positive).Has (callee paren value count machine)
      (callee paren value count (machine.padded base)) := by
  by_cases denotes : ∃ target, machine.Denotes value target
  · rcases denotes with ⟨target, denotes⟩
    have denotesToo : (machine.padded base).Denotes value target := denotes
    by_cases fits : target.arity = count
    · rw [callee_of_fits paren denotes fits, callee_of_fits paren denotesToo fits]
      rcases denotes with ⟨reference, -, isTarget⟩
      exact .ok (hosts.known target (Array.mem_of_getElem? isTarget)) hosts
    · rw [callee_of_misfits paren denotes fits, callee_of_misfits paren denotesToo fits]
      exact .error hosts
  · have denotesNothing := not_exists.mp denotes
    have denotesNothingToo : ∀ target, ¬(machine.padded base).Denotes value target :=
      denotesNothing
    rw [callee_of_denotesNothing paren denotesNothing,
      callee_of_denotesNothing paren denotesNothingToo]
    exact .error hosts

end Machine.Hosts

/-! ## Parts of programs -/

/-- Whether no expression sees the empty frame, and no statement inside it, when a given room is
left on the stack. -/
structure UnseenWithin (positive : 0 < base) (setting : Setting) (depth : Nat) : Prop where
  evaluate {here : Nat} (behind : base ≤ here) (expression : Expr) {machine : Machine}
    (hosts : machine.Hosts positive here) :
    Unseen positive here (fun _ => True)
      ((Task.evaluate expression).run setting depth setting.turns machine)
      ((Task.evaluate expression).run setting depth setting.turns (machine.padded base))
  execute {here : Nat} (inside : base < here) (statement : Stmt) {machine : Machine}
    (hosts : machine.Hosts positive here) :
    Unseen positive here (fun _ => True)
      ((Task.execute statement).run setting depth setting.turns machine)
      ((Task.execute statement).run setting depth setting.turns (machine.padded base))

variable {setting : Setting} {depth : Nat}

/-- Statements in order, where each of them does not see the empty frame. -/
theorem unseen_executeAll {statements : List Stmt}
    (executed : ∀ statement ∈ statements, ∀ {machine : Machine}, machine.Hosts positive here →
      Unseen positive here (fun _ => True)
        ((Task.execute statement).run setting depth setting.turns machine)
        ((Task.execute statement).run setting depth setting.turns (machine.padded base)))
    (hosts : machine.Hosts positive here) :
    Unseen positive here (fun _ => True)
      ((Task.executeAll statements).run setting depth setting.turns machine)
      ((Task.executeAll statements).run setting depth setting.turns (machine.padded base)) := by
  induction statements generalizing machine with
  | nil =>
      rw [Task.run_executeAll_nil, Task.run_executeAll_nil]
      exact .ok trivial hosts
  | cons statement rest ih =>
      rw [List.forall_mem_cons] at executed
      rw [Task.run_executeAll_cons, Task.run_executeAll_cons]
      refine (executed.1 hosts).andThen fun completion _ _ hosts => ?_
      cases completion with
      | normal => exact ih executed.2 hosts
      | breakLoop | continueLoop | returned => exact .ok trivial hosts

namespace UnseenWithin

variable (unseen : UnseenWithin positive setting depth) (hosts : machine.Hosts positive here)
include unseen hosts

theorem evaluateOption (behind : base ≤ here) (expression : Option Expr) :
    Unseen positive here (fun _ => True)
      ((Task.evaluateOption expression).run setting depth setting.turns machine)
      ((Task.evaluateOption expression).run setting depth setting.turns (machine.padded base)) := by
  cases expression with
  | none => exact .ok trivial hosts
  | some expression => exact unseen.evaluate behind expression hosts

theorem evaluateAll (behind : base ≤ here) (expressions : List Expr) :
    Unseen positive here (fun _ => True)
      ((Task.evaluateAll expressions).run setting depth setting.turns machine)
      ((Task.evaluateAll expressions).run setting depth setting.turns (machine.padded base)) := by
  induction expressions generalizing machine with
  | nil =>
      rw [Task.run_evaluateAll_nil, Task.run_evaluateAll_nil]
      exact .ok trivial hosts
  | cons expression rest ih =>
      rw [Task.run_evaluateAll_cons, Task.run_evaluateAll_cons]
      refine (unseen.evaluate behind expression hosts).andThen fun value _ _ hosts => ?_
      exact (ih hosts).andThen fun values _ _ hosts => .ok trivial hosts

theorem executeAll (inside : base < here) (statements : List Stmt) :
    Unseen positive here (fun _ => True)
      ((Task.executeAll statements).run setting depth setting.turns machine)
      ((Task.executeAll statements).run setting depth setting.turns (machine.padded base)) :=
  unseen_executeAll (fun statement _ _ hosts => unseen.execute inside statement hosts) hosts

theorem enterBlock (statements : List Stmt) :
    Unseen positive here (fun _ => True)
      (Outcome.after (·.leave machine.current machine.heap.size)
        ((Task.executeAll statements).run setting depth setting.turns
          (machine.enter machine.current)))
      (Outcome.after (·.leave (machine.padded base).current (machine.padded base).heap.size)
        ((Task.executeAll statements).run setting depth setting.turns
          ((machine.padded base).enter (machine.padded base).current))) :=
  hosts.inFrame (some machine.current)
    (fun machine => (Task.executeAll statements).run setting depth setting.turns machine)
    fun hosts' => unseen.executeAll hosts' hosts.present statements

theorem loop (inside : base < here) (condition : Expr) (body : Stmt) (increment : Option Expr)
    (turns : Nat) :
    Unseen positive here (fun _ => True)
      ((Task.loop condition body increment).run setting depth turns machine)
      ((Task.loop condition body increment).run setting depth turns (machine.padded base)) := by
  induction turns generalizing machine with
  | zero =>
      rw [Task.run_loop_zero, Task.run_loop_zero]
      exact .error hosts
  | succ turns ih =>
      rw [Task.run_loop, Task.run_loop]
      refine (unseen.evaluate inside.le condition hosts).andThen fun value _ _ hosts => ?_
      split
      · refine (unseen.execute inside body hosts).andThen fun completion _ _ hosts => ?_
        cases completion with
        | breakLoop | returned => exact .ok trivial hosts
        | normal | continueLoop =>
            exact (unseen.evaluateOption hosts inside.le increment).andThen
              fun _ _ _ hosts => ih hosts
      · exact .ok trivial hosts

/-- A function sees only frames that are as they were, and its own one is inside the empty frame. -/
theorem call {target : Callable} (has : (Repertoire.seeing positive).Has target)
    (arguments : List Value) :
    Unseen positive here (fun _ => True)
      ((Task.call target arguments).run setting depth setting.turns machine)
      ((Task.call target arguments).run setting depth setting.turns (machine.padded base)) := by
  cases target with
  | native name arity action =>
      rw [Task.run_native, Task.run_native]
      exact hosts.act has _ arguments
  | function name parameters body closure =>
      have sameClosure : closure.map (Heap.reference base) = closure := by
        cases closure with
        | none => rfl
        | some id =>
            have older : id < base := by
              simp only [Repertoire.seeing, Repertoire.fitting, Callable.Fits] at has
              exact has id rfl
            rw [Option.map_some, Heap.reference, if_pos older]
      have executed : Unseen positive here (fun _ => True)
          (Outcome.after (·.leave machine.current machine.heap.size)
            (andThen (defineAll parameters arguments (machine.enter closure)) fun _ machine =>
              (Task.executeAll body).run setting depth setting.turns machine))
          (Outcome.after (·.leave (machine.padded base).current (machine.padded base).heap.size)
            (andThen (defineAll parameters arguments ((machine.padded base).enter
              (closure.map (Heap.reference base)))) fun _ machine =>
                (Task.executeAll body).run setting depth setting.turns machine)) :=
        hosts.inFrame closure
          (fun machine => andThen (defineAll parameters arguments machine) fun _ machine =>
            (Task.executeAll body).run setting depth setting.turns machine)
          fun hosts' => (hosts'.defineAll hosts.present parameters arguments).andThen
            fun _ _ _ hosts'' => unseen.executeAll hosts'' hosts.present body
      rw [sameClosure] at executed
      rw [Task.run_function, Task.run_function]
      refine executed.andThen fun completion _ _ hosts => ?_
      cases completion with
      | normal | returned => exact .ok trivial hosts
      | breakLoop | continueLoop => exact .error hosts

end UnseenWithin

theorem unseen_evaluate (operands : UnseenWithin positive setting (depth + 2))
    (arguments : UnseenWithin positive setting (depth + 1))
    (bodies : UnseenWithin positive setting depth) (behind : base ≤ here) (expression : Expr)
    (hosts : machine.Hosts positive here) {turns : Nat} :
    Unseen positive here (fun _ => True)
      ((Task.evaluate expression).run setting (depth + 4) turns machine)
      ((Task.evaluate expression).run setting (depth + 4) turns (machine.padded base)) := by
  rw [Task.run_evaluate, Task.run_evaluate]
  cases expression with
  | literal value => exact .ok trivial hosts
  | «variable» name => exact hosts.read name
  | grouping inner => exact operands.evaluate behind inner hosts
  | assign name value =>
      refine (operands.evaluate behind value hosts).andThen fun value _ _ hosts => ?_
      exact (hosts.assign name value).andThen fun _ _ _ hosts => .ok trivial hosts
  | unary operator right =>
      refine (operands.evaluate behind right hosts).andThen fun operand _ _ hosts => ?_
      exact hosts.settle _
  | binary left operator right =>
      refine (operands.evaluate behind left hosts).andThen fun first _ _ hosts => ?_
      refine (operands.evaluate behind right hosts).andThen fun second _ _ hosts => ?_
      exact hosts.settle _
  | logical left operator right =>
      refine (operands.evaluate behind left hosts).andThen fun first _ _ hosts => ?_
      split
      · exact .ok trivial hosts
      · exact (operands.evaluate behind right hosts).andThen fun _ _ _ hosts => .ok trivial hosts
  | ternary condition thenBranch elseBranch =>
      refine (operands.evaluate behind condition hosts).andThen fun value _ _ hosts => ?_
      split
      · exact operands.evaluate behind thenBranch hosts
      · exact operands.evaluate behind elseBranch hosts
  | call callee paren expressions =>
      refine (operands.evaluate behind callee hosts).andThen fun value _ _ hosts => ?_
      refine (arguments.evaluateAll hosts behind expressions).andThen fun values _ _ hosts => ?_
      refine (hosts.callee paren value values.length).andThen fun target _ has hosts => ?_
      exact bodies.call hosts has values

/-- Executions are compared where the statement starts. -/
theorem unseen_of_started {statement : Stmt} (hosts : machine.Hosts positive here)
    (started : ∀ room, depth = room + 3 → machine.interrupted = false →
      (machine.padded base).interrupted = false →
      Unseen positive here (fun _ => True)
        ((Task.execute statement).run setting (room + 3) setting.turns machine)
        ((Task.execute statement).run setting (room + 3) setting.turns (machine.padded base))) :
    Unseen positive here (fun _ => True)
      ((Task.execute statement).run setting depth setting.turns machine)
      ((Task.execute statement).run setting depth setting.turns (machine.padded base)) := by
  by_cases shallow : depth < 3
  · rw [Task.run_execute_of_shallow _ _ _ _ shallow, Task.run_execute_of_shallow _ _ _ _ shallow]
    exact .error hosts
  rcases Nat.exists_eq_add_of_le' (Nat.not_lt.mp shallow) with ⟨room, rfl⟩
  cases running : machine.interrupted with
  | true =>
      have runningToo : (machine.padded base).interrupted = true := running
      rw [Task.run_execute_of_interrupted _ _ _ running,
        Task.run_execute_of_interrupted _ _ _ runningToo]
      exact .error hosts
  | false => exact started room rfl running running

theorem unseen_execute (parts : UnseenWithin positive setting (depth + 1))
    (lists : UnseenWithin positive setting depth) (inside : base < here) (statement : Stmt)
    (hosts : machine.Hosts positive here) (running : machine.interrupted = false)
    (runningToo : (machine.padded base).interrupted = false) {turns : Nat} :
    Unseen positive here (fun _ => True)
      ((Task.execute statement).run setting (depth + 3) turns machine)
      ((Task.execute statement).run setting (depth + 3) turns (machine.padded base)) := by
  rw [Task.run_execute _ _ _ running, Task.run_execute _ _ _ runningToo]
  cases statement with
  | hole | breakLoop | continueLoop => exact .ok trivial hosts
  | expression value =>
      exact (parts.evaluate inside.le value hosts).andThen fun _ _ _ hosts => .ok trivial hosts
  | print value =>
      refine (parts.evaluate inside.le value hosts).andThen fun value machine _ hosts => ?_
      have printed : Machine.Hosts positive here
          { machine with output := machine.output.push value.display } :=
        ⟨hosts.present, hosts.current, hosts.known⟩
      exact .ok trivial printed
  | var name initializer =>
      refine (parts.evaluateOption hosts inside.le initializer).andThen fun value _ _ hosts => ?_
      exact (hosts.define inside name value).andThen fun _ _ _ hosts => .ok trivial hosts
  | block statements => exact lists.enterBlock hosts statements
  | ifElse condition thenBranch elseBranch =>
      refine (parts.evaluate inside.le condition hosts).andThen fun value _ _ hosts => ?_
      split
      · exact parts.execute inside thenBranch hosts
      · cases elseBranch with
        | none => exact .ok trivial hosts
        | some elseBranch => exact parts.execute inside elseBranch hosts
  | whileLoop condition body increment =>
      exact parts.loop hosts inside condition body increment _
  | forLoop initializer condition increment body => exact parts.execute inside _ hosts
  | function name parameters body =>
      have declared : (Repertoire.seeing positive).Has
          (.function name parameters body (some Heap.globals)) :=
        Repertoire.covers_seeing positive _ name parameters body .here
      exact ((hosts.keep declared).define inside name _).andThen
        fun _ _ _ hosts => .ok trivial hosts
  | returnValue keyword value =>
      exact (parts.evaluateOption hosts inside.le value).andThen
        fun _ _ _ hosts => .ok trivial hosts

/-- The empty frame is not seen, whatever room is left on the stack. -/
theorem unseenWithin (positive : 0 < base) (setting : Setting) (depth : Nat) :
    UnseenWithin positive setting depth := by
  induction depth using Nat.strongRecOn with
  | ind depth ih =>
      constructor
      · intro here behind expression machine hosts
        by_cases shallow : depth < 4
        · rw [Task.run_evaluate_of_shallow _ _ _ expression shallow,
            Task.run_evaluate_of_shallow _ _ _ expression shallow]
          exact .error hosts
        · rcases Nat.exists_eq_add_of_le' (Nat.not_lt.mp shallow) with ⟨depth, rfl⟩
          exact unseen_evaluate (ih _ (by omega)) (ih _ (by omega)) (ih _ (by omega)) behind
            expression hosts
      · intro here inside statement machine hosts
        refine unseen_of_started hosts ?_
        rintro room rfl running runningToo
        exact unseen_execute (ih _ (by omega)) (ih _ (by omega)) inside statement hosts running
          runningToo

/-! ## Blocks that bind nothing -/

/-- Whether a statement is of a form that binds no name in the frame where it stands. -/
def Stmt.BindsNothing : Stmt → Prop
  | .expression _ | .block _ => True
  | _ => False

theorem unseen_bindsNothing {statement : Stmt} (bindsNothing : statement.BindsNothing)
    (hosts : machine.Hosts positive base) :
    Unseen positive base (fun _ => True)
      ((Task.execute statement).run setting depth setting.turns machine)
      ((Task.execute statement).run setting depth setting.turns (machine.padded base)) := by
  refine unseen_of_started hosts ?_
  rintro room rfl running runningToo
  rw [Task.run_execute _ _ _ running, Task.run_execute _ _ _ runningToo]
  cases statement with
  | expression value =>
      have evaluated := (unseenWithin positive setting (room + 1)).evaluate (Nat.le_refl _)
        value hosts
      exact evaluated.andThen fun _ _ _ hosts => .ok trivial hosts
  | block statements =>
      exact (unseenWithin positive setting room).enterBlock hosts statements
  | _ => exact bindsNothing.elim

/-- Whether the machine is in the frame `base`, and this is its youngest frame. -/
structure Machine.Innermost (positive : 0 < base) (machine : Machine) : Prop where
  hosts : machine.Hosts positive base
  youngest : machine.heap.size = base + 1
  running : machine.interrupted = false

namespace Machine.Innermost

variable (innermost : machine.Innermost positive)
include innermost

theorem evolve {activity : Activity} {machine' : Machine}
    (evolves : Evolves (.seeing positive) activity machine machine') :
    machine'.Innermost positive := by
  have kept := evolves.kept
  have known := evolves.within innermost.hosts.known
  have youngest : machine'.heap.size = base + 1 := kept.size.trans innermost.youngest
  refine ⟨⟨?_, kept.current.trans innermost.hosts.current, known⟩, youngest, ?_⟩
  · omega
  · exact evolves.interrupted_eq.trans innermost.running

theorem beyond {id : Nat} (younger : base < id) : machine.heap.frames[id]? = none := by
  have size : machine.heap.frames.size = base + 1 := innermost.youngest
  exact Array.getElem?_eq_none (by omega)

/-- The frame of a block is empty when it is entered. -/
theorem enter_eq : machine.enter machine.current = machine.padded base := by
  have present := innermost.hosts.present
  have sameHeap : machine.heap.push { enclosing := some base } = machine.heap.padded base := by
    refine Heap.ext_getElem? (Heap.padded_cases base ?_ ?_ ?_)
    · intro id outer
      rw [Heap.padded_outer present outer, Heap.getElem?_push, innermost.youngest,
        if_neg (Nat.ne_of_lt (Nat.lt_succ_of_le outer))]
    · rw [Heap.padded_empty present, Heap.getElem?_push, innermost.youngest, if_pos rfl]
    · intro id inner
      rw [Heap.padded_inner present inner, Heap.getElem?_push, innermost.youngest,
        innermost.beyond inner, innermost.beyond (Nat.lt_succ_of_lt inner),
        if_neg (Nat.ne_of_gt (Nat.succ_lt_succ inner)), Option.map_none]
  have place : Heap.reference base base = base + 1 := by
    rw [Heap.reference, if_neg (Nat.lt_irrefl _)]
  simp only [enter, padded, innermost.hosts.current, innermost.youngest, sameHeap, place]

/-- Nothing is left of an empty frame. -/
theorem leave_padded : (machine.padded base).leave base (base + 1) = machine := by
  have sameHeap : (machine.heap.padded base).shrink (base + 1) = machine.heap := by
    refine Heap.ext_getElem? fun id => ?_
    rw [Heap.getElem?_shrink]
    split
    · next outer => exact Heap.padded_outer innermost.hosts.present (Nat.le_of_lt_succ outer)
    · next younger => exact (innermost.beyond (Nat.not_lt.mp younger)).symm
  have sameCurrent : base = machine.current := innermost.hosts.current.symm
  unfold leave padded
  rw [sameHeap]
  exact congrArg (fun current => { machine with current }) sameCurrent

/-- A block whose statements bind nothing does what its statements do. -/
theorem run_block {statements : List Stmt}
    (bindNothing : ∀ statement ∈ statements, statement.BindsNothing) (turns : Nat) :
    (Task.execute (.block statements)).run setting (depth + 3) turns machine =
      (Task.executeAll statements).run setting depth setting.turns machine := by
  have unseen : Unseen positive base (fun _ => True)
      ((Task.executeAll statements).run setting depth setting.turns machine)
      ((Task.executeAll statements).run setting depth setting.turns (machine.padded base)) :=
    unseen_executeAll (fun statement isStatement _ hosts =>
      unseen_bindsNothing (bindNothing statement isStatement) hosts) innermost.hosts
  have covers : ∀ statement ∈ statements, (Repertoire.seeing positive).Covers statement :=
    fun statement _ => Repertoire.covers_seeing positive statement
  have lawful := (lawfulWithin (.seeing positive) setting depth).executeAll covers
    innermost.hosts.known
  have last := innermost.evolve lawful.evolves
  rw [Task.run_execute _ _ _ innermost.running]
  dsimp only
  rw [innermost.enter_eq, unseen.eq_after, innermost.hosts.current, innermost.youngest]
  generalize (Task.executeAll statements).run setting depth setting.turns machine = outcome at last
  cases outcome with
  | ok completion machine' => exact congrArg (EStateM.Result.ok completion) last.leave_padded
  | error reason machine' => exact congrArg (EStateM.Result.error reason) last.leave_padded

end Machine.Innermost

end Unseen

end LoxLang

import LoxLang.Proofs.FrameChains

/-!
# Frames that are shared

A frame may enclose many others, so what is assigned or bound through one frame can be seen from
others. A new value is seen from exactly those frames where the name means the same binding, and a
new binding from exactly those where nothing nearer hides it; every other name means what it meant,
for all frames. Reading and assigning fault exactly if no frame on the chain binds the name, and
binding does if the frame itself binds it; a fault leaves all frames as they were.
-/

namespace LoxLang

namespace Frame

variable {frame : Frame} {name : String}

theorem exists_get?_of_mem (bound : name ∈ frame.names) : ∃ value, frame.get? name = some value :=
  Option.isSome_iff_exists.mp (binds_iff.mpr bound)

theorem get?_eq_none_of_notMem (unbound : name ∉ frame.names) : frame.get? name = none :=
  Option.not_isSome_iff_eq_none.mp fun bound => unbound (binds_iff.mp bound)

/-- The first binding of a list is passed if it has another name. -/
theorem lookup_cons_eq_ite (name bound : String) (value : Value)
    (bindings : List (String × Value)) :
    ((bound, value) :: bindings).lookup name =
      if name = bound then some value else bindings.lookup name := by
  by_cases same : name = bound
  · simp [same]
  · rw [List.lookup_cons, beq_false_of_ne same, if_neg same]

theorem get?_define (frame : Frame) (name other : String) (value : Value) :
    (frame.define name value).get? other =
      (frame.get? other).or (if other = name then some value else none) := by
  rw [get?, define, get?, List.lookup_append, lookup_cons_eq_ite, List.lookup_nil]

theorem get?_assign (frame : Frame) (name other : String) (value : Value) :
    (frame.assign name value).get? other =
      if other = name then (frame.get? name).map fun _ => value else frame.get? other := by
  rw [get?, assign, get?, get?]
  induction frame.bindings with
  | nil => simp
  | cons binding bindings ih =>
      rcases binding with ⟨bound, old⟩
      by_cases isName : bound = name
      · subst isName
        by_cases same : other = bound
        · simp [same]
        · simpa [lookup_cons_eq_ite, same] using ih
      · by_cases same : other = bound
        · simp [same, isName]
        · simpa [lookup_cons_eq_ite, same, isName, Ne.symm isName] using ih

end Frame

namespace Heap

/-- `Updated before after name value Affected` says what a new value for a name changes of what the
frames see: those that are affected see the name with the value, and all else that any frame sees
is as before, faults included. -/
structure Updated (before after : Heap) (name : String) (value : Value)
    (Affected : FrameId → Prop) : Prop where
  affected : ∀ id (token : Token), token.lexeme = name → Affected id →
    after.get id token = .ok value
  others : ∀ id (token : Token), ¬ (token.lexeme = name ∧ Affected id) →
    after.get id token = before.get id token

/-- `Extended before after added` says that a heap still has all frames and no others, each enclosed
as before and with its names in the same order, followed by those that were added to the frame. -/
structure Extended (before after : Heap) (added : FrameId → List String) : Prop where
  size : after.size = before.size
  frames : ∀ {id frame}, before.frames[id]? = some frame →
    ∃ frame', after.frames[id]? = some frame' ∧ frame'.enclosing = frame.enclosing ∧
      frame'.names = frame.names ++ added id

variable {heap : Heap} {name other : String} {id found changed : FrameId} {value : Value}

/-! ### What a frame sees -/

theorem get?_eq_bind (heap : Heap) (id : FrameId) (name : String) :
    heap.get? id name =
      (heap.resolve? id name).bind fun found => heap.frames[found]?.bind (·.get? name) := by
  unfold get?
  cases heap.resolve? id name <;> rfl

theorem get_congr {heap' : Heap} {token : Token}
    (same : heap'.get? id token.lexeme = heap.get? id token.lexeme) :
    heap'.get id token = heap.get id token := by
  rw [get, get, same]

theorem get_of_get? {token : Token} (sees : heap.get? id token.lexeme = some value) :
    heap.get id token = .ok value := by
  rw [get, sees]

/-- Frames that were changed look the same to a frame if a name means the binding in the same frame
and the binding there is the same. -/
theorem get?_congr {heap' : Heap}
    (sameFrame : heap'.resolve? id name = heap.resolve? id name)
    (sameValue : ∀ found, Resolves heap name id found →
      heap'.frames[found]?.bind (·.get? name) = heap.frames[found]?.bind (·.get? name)) :
    heap'.get? id name = heap.get? id name := by
  rw [get?_eq_bind, get?_eq_bind, sameFrame]
  cases resolved : heap.resolve? id name with
  | none => rfl
  | some found => exact sameValue found (resolve?_eq_some_iff.mp resolved)

/-! ### A new value -/

theorem binds_rebind :
    (heap.rebind changed name value).Binds other id ↔ heap.Binds other id := by
  unfold Binds
  rw [rebind, getElem?_modify]
  split
  · cases heap.frames[id]? with
    | none => simp
    | some frame => simp
  · rfl

theorem resolve?_rebind (nested : heap.Nested) (name other : String) (id changed : FrameId)
    (value : Value) :
    (heap.rebind changed name value).resolve? id other = heap.resolve? id other := by
  ext found
  rw [resolve?_eq_some_iff, resolve?_eq_some_iff, resolves_iff (nested.rebind _ _ _),
    resolves_iff nested]
  simp only [Unshadowed, OnChain, enclosedBy_rebind, binds_rebind]

/-- A new value for a name is seen by the frames where the name means the binding that has it. -/
theorem updated_rebind (nested : heap.Nested) (binds : heap.Binds name changed) (value : Value) :
    Updated heap (heap.rebind changed name value) name value
      fun id => heap.resolve? id name = some changed := by
  constructor
  · rintro id token rfl resolved
    rcases binds with ⟨frame, isFrame, bound⟩
    rcases Frame.exists_get?_of_mem bound with ⟨old, isOld⟩
    apply get_of_get?
    rw [get?_eq_bind, resolve?_rebind nested, resolved, Option.bind_some, rebind, getElem?_modify,
      if_pos rfl, isFrame]
    simp [Frame.get?_assign, isOld]
  · intro id token other
    refine get_congr (get?_congr (resolve?_rebind nested _ _ _ _ _) fun found resolves => ?_)
    rw [rebind, getElem?_modify]
    split
    · next isChanged =>
        subst isChanged
        have notName : token.lexeme ≠ name := by
          rintro rfl
          exact other ⟨rfl, resolve?_eq_some_iff.mpr resolves⟩
        cases heap.frames[changed]? with
        | none => rfl
        | some frame => simp [Frame.get?_assign, notName]
    · rfl

/-! ### A new binding -/

section NewBinding

variable (nested : heap.Nested) (present : changed < heap.size)

include present in
theorem binds_bind :
    (heap.bind changed name value).Binds other id ↔
      heap.Binds other id ∨ id = changed ∧ other = name := by
  unfold Binds
  rw [bind, getElem?_modify]
  split
  · next isChanged =>
      subst isChanged
      rw [Array.getElem?_eq_getElem present]
      simp
  · next notChanged => simp [Ne.symm notChanged]

include nested present

/-- What a name means when there is a new binding: the nearest one, where the new one counts. -/
theorem resolve?_bind_iff :
    (heap.bind changed name value).resolve? id other = some found ↔
      (heap.Binds other found ∨ found = changed ∧ other = name) ∧ heap.OnChain id found ∧
        ∀ nearer, heap.OnChain id nearer → heap.OnChain nearer found →
          (heap.Binds other nearer ∨ nearer = changed ∧ other = name) → nearer = found := by
  rw [resolve?_eq_some_iff, resolves_iff (nested.bind _ _ _)]
  simp only [Unshadowed, OnChain, enclosedBy_bind, binds_bind present]

theorem resolve?_bind_of_unshadowed (unshadowed : heap.Unshadowed name id changed) :
    (heap.bind changed name value).resolve? id name = some changed := by
  rcases unshadowed with ⟨onChain, nearest⟩
  refine (resolve?_bind_iff nested present).mpr
    ⟨.inr ⟨rfl, rfl⟩, onChain, fun nearer around inside binds => ?_⟩
  rcases binds with binds | ⟨isChanged, -⟩
  · exact nearest nearer around inside binds
  · exact isChanged

/-- Where a nearer binding hides the new one, the name means what it meant. -/
theorem resolve?_bind_of_shadowed (shadowed : ¬ heap.Unshadowed name id changed) :
    (heap.bind changed name value).resolve? id name = heap.resolve? id name := by
  ext found
  rw [resolve?_bind_iff nested present, resolve?_eq_some_iff, resolves_iff nested]
  constructor
  · rintro ⟨binds | ⟨rfl, -⟩, onChain, nearest⟩
    · exact ⟨binds, onChain, fun nearer around inside binds =>
        nearest nearer around inside (.inl binds)⟩
    · exact absurd ⟨onChain, fun nearer around inside binds =>
        nearest nearer around inside (.inl binds)⟩ shadowed
  · rintro ⟨binds, onChain, nearest⟩
    refine ⟨.inl binds, onChain, fun nearer around inside bindsNearer => ?_⟩
    rcases bindsNearer with bindsNearer | ⟨rfl, -⟩
    · exact nearest nearer around inside bindsNearer
    · -- The changed frame would be nearer than the one that binds the name, and nothing hides it.
      refine absurd ⟨around, fun nearer' around' inside' binds' => ?_⟩ shadowed
      have isFound := nearest nearer' around' (inside'.trans inside) binds'
      subst isFound
      exact Nat.le_antisymm (OnChain.le nested inside) (OnChain.le nested inside')

theorem resolve?_bind_of_ne (notName : other ≠ name) :
    (heap.bind changed name value).resolve? id other = heap.resolve? id other := by
  ext found
  rw [resolve?_bind_iff nested present, resolve?_eq_some_iff, resolves_iff nested]
  simp only [notName, and_false, or_false]
  rfl

/-- A new binding is seen by the frames around which nothing nearer hides it. -/
theorem updated_bind (free : ¬ heap.Binds name changed) (value : Value) :
    Updated heap (heap.bind changed name value) name value
      fun id => heap.Unshadowed name id changed := by
  have isFrame := Array.getElem?_eq_getElem present
  constructor
  · rintro id token rfl unshadowed
    have unbound : (heap.frames[changed]).get? token.lexeme = none :=
      Frame.get?_eq_none_of_notMem fun bound => free ⟨_, isFrame, bound⟩
    apply get_of_get?
    rw [get?_eq_bind, resolve?_bind_of_unshadowed nested present unshadowed, Option.bind_some,
      bind, getElem?_modify, if_pos rfl, isFrame]
    simp [Frame.get?_define, unbound]
  · intro id token other
    have sameFrame : (heap.bind changed name value).resolve? id token.lexeme =
        heap.resolve? id token.lexeme := by
      by_cases isName : token.lexeme = name
      · subst isName
        exact resolve?_bind_of_shadowed nested present fun unshadowed => other ⟨rfl, unshadowed⟩
      · exact resolve?_bind_of_ne nested present isName
    refine get_congr (get?_congr sameFrame fun found resolves => ?_)
    -- A binding that is there already comes before the new one.
    rcases ((resolves_iff nested).mp resolves).1 with ⟨frame, isFrame', bound⟩
    rcases Frame.exists_get?_of_mem bound with ⟨old, isOld⟩
    rw [bind, getElem?_modify, isFrame']
    split
    · simp [Frame.get?_define, isOld]
    · rfl

end NewBinding

/-! ### Links and names that stay -/

theorem extended_modify {change : Frame → Frame} {names : List String}
    (sameLink : ∀ frame, (change frame).enclosing = frame.enclosing)
    (addsNames : ∀ frame, (change frame).names = frame.names ++ names) :
    Extended heap (heap.modify changed change) fun id => if id = changed then names else [] := by
  refine ⟨size_modify heap changed change, fun {id frame} isFrame => ?_⟩
  rw [getElem?_modify, isFrame]
  split
  · next isChanged => exact ⟨change frame, rfl, sameLink frame, by simp [isChanged, addsNames]⟩
  · next notChanged => exact ⟨frame, rfl, rfl, by simp [Ne.symm notChanged]⟩

theorem extended_bind (heap : Heap) (changed : FrameId) (name : String) (value : Value) :
    Extended heap (heap.bind changed name value) fun id => if id = changed then [name] else [] :=
  extended_modify (fun _ => rfl) (Frame.names_define · name value)

theorem extended_rebind (heap : Heap) (changed : FrameId) (name : String) (value : Value) :
    Extended heap (heap.rebind changed name value) fun _ => [] := by
  have addsNone (frame : Frame) : (frame.assign name value).names = frame.names ++ [] :=
    (Frame.names_assign frame name value).trans (List.append_nil _).symm
  have extended : Extended heap (heap.rebind changed name value) _ :=
    extended_modify (fun _ => rfl) addsNone
  simpa only [ite_self] using extended

/-! ### Results and faults -/

variable {token : Token} {fault : Fault} {after : Heap}

theorem resolve_eq_ok_iff :
    heap.resolve id token = .ok found ↔ heap.resolve? id token.lexeme = some found := by
  rw [resolve]
  cases heap.resolve? id token.lexeme <;> simp

theorem resolve?_eq_none_iff_unbound (nested : heap.Nested) :
    heap.resolve? id name = none ↔ heap.Unbound name id := by
  rw [resolve?_eq_none_iff, not_resolves_iff nested]

theorem get?_eq_none_iff : heap.get? id name = none ↔ heap.resolve? id name = none := by
  cases resolved : heap.resolve? id name with
  | none => simp [get?_eq_bind, resolved]
  | some found =>
      rcases exists_sees_of_resolves (resolve?_eq_some_iff.mp resolved) with
        ⟨value, found', frame, resolves, isFrame, isValue⟩
      simp [get?_eq_bind, resolve?_eq_some_iff.mpr resolves, isFrame, isValue]

theorem get_eq_error_iff (nested : heap.Nested) :
    heap.get id token = .error fault ↔
      fault = ⟨some token, .undefined token.lexeme⟩ ∧ heap.Unbound token.lexeme id := by
  rw [← resolve?_eq_none_iff_unbound nested, ← get?_eq_none_iff, get]
  cases heap.get? id token.lexeme <;> simp [eq_comm]

theorem assign_eq_error_iff (nested : heap.Nested) :
    heap.assign id token value = .error fault ↔
      fault = ⟨some token, .undefined token.lexeme⟩ ∧ heap.Unbound token.lexeme id := by
  rw [← resolve?_eq_none_iff_unbound nested, assign, resolve]
  cases heap.resolve? id token.lexeme <;> simp [eq_comm]

theorem define_eq_error_iff :
    heap.define id token value = .error fault ↔
      fault = ⟨some token, .alreadyDefined token.lexeme⟩ ∧ heap.Binds token.lexeme id := by
  rw [← binds_iff, define]
  cases heap.binds id token.lexeme <;> simp [eq_comm]

theorem assign_eq_ok_iff :
    heap.assign id token value = .ok after ↔
      ∃ found, heap.resolve id token = .ok found ∧
        after = heap.rebind found token.lexeme value := by
  rw [assign]
  cases heap.resolve id token <;> simp [eq_comm]

theorem define_eq_ok_iff :
    heap.define id token value = .ok after ↔
      ¬ heap.Binds token.lexeme id ∧ after = heap.bind id token.lexeme value := by
  rw [← binds_iff, define]
  cases heap.binds id token.lexeme <;> simp [eq_comm]

theorem updated_of_assign (nested : heap.Nested)
    (assigned : heap.assign id token value = .ok after) :
    heap.Updated after token.lexeme value
      fun other => heap.resolve other token = heap.resolve id token := by
  rcases assign_eq_ok_iff.mp assigned with ⟨found, resolved, rfl⟩
  have resolves := resolve?_eq_some_iff.mp (resolve_eq_ok_iff.mp resolved)
  simp only [resolved, resolve_eq_ok_iff]
  exact updated_rebind nested ((resolves_iff nested).mp resolves).1 value

theorem extended_of_assign (assigned : heap.assign id token value = .ok after) :
    heap.Extended after fun _ => [] := by
  rcases assign_eq_ok_iff.mp assigned with ⟨found, -, rfl⟩
  exact extended_rebind heap found token.lexeme value

theorem updated_of_define (nested : heap.Nested) (present : id < heap.size)
    (defined : heap.define id token value = .ok after) :
    heap.Updated after token.lexeme value fun other => heap.Unshadowed token.lexeme other id := by
  rcases define_eq_ok_iff.mp defined with ⟨free, rfl⟩
  exact updated_bind nested present free value

theorem extended_of_define (defined : heap.define id token value = .ok after) :
    heap.Extended after fun other => if other = id then [token.lexeme] else [] := by
  rcases define_eq_ok_iff.mp defined with ⟨-, rfl⟩
  exact extended_bind heap id token.lexeme value

end Heap

/-! ## Operations of the machine -/

namespace Machine

/-- How an operation on frames ends as one of the machine: the machine has the new frames, or, if
there is a fault, it is as it was before. -/
def settled {α : Type} (machine : Machine) : Except Fault (α × Heap) → Outcome α
  | .ok (result, heap) => .ok result { machine with heap }
  | .error fault => .error (.fault fault) machine

theorem read_eq_settled (machine : Machine) (name : Token) :
    Run.read name machine =
      machine.settled ((machine.heap.get machine.current name).map (·, machine.heap)) := by
  unfold Run.read
  cases machine.heap.get machine.current name <;> rfl

theorem assign_eq_settled (machine : Machine) (name : Token) (value : Value) :
    Run.assign name value machine =
      machine.settled ((machine.heap.assign machine.current name value).map ((), ·)) := by
  unfold Run.assign Heap.assign
  cases machine.heap.resolve machine.current name <;> rfl

theorem define_eq_settled (machine : Machine) (name : Token) (value : Value) :
    Run.define name value machine =
      machine.settled ((machine.heap.define machine.current name value).map ((), ·)) := by
  unfold Run.define Heap.define
  cases machine.heap.binds machine.current name.lexeme <;> rfl

end Machine

/-- What reading, assigning and binding do to frames that are shared. Every forest of frames can be
numbered so that frames are enclosed by older ones, and with such numbers a name is found in the
nearest frame of the chain that binds it; reading and assigning fault exactly if there is none, and
binding does if the frame itself binds the name. A new value is seen by exactly the frames where the
name means the same binding, a new binding by exactly those where nothing nearer hides it, and no
frame is moved or has its names in another order. The machine does just this in its current frame,
and with a fault it stays as it was. -/
theorem frames_shared :
    (∀ heap : Heap, heap.IsForest → ∃ place heap', Heap.Renumbered place heap heap' ∧
      heap'.Nested) ∧
    (∀ heap : Heap, heap.Nested → ∀ id < heap.size, ∀ (name : Token) (value : Value),
      (∀ found, heap.resolve id name = .ok found ↔
        heap.Binds name.lexeme found ∧ heap.Unshadowed name.lexeme id found) ∧
      (∀ fault, heap.get id name = .error fault ↔
        fault = ⟨some name, .undefined name.lexeme⟩ ∧ heap.Unbound name.lexeme id) ∧
      (∀ fault, heap.assign id name value = .error fault ↔
        fault = ⟨some name, .undefined name.lexeme⟩ ∧ heap.Unbound name.lexeme id) ∧
      (∀ fault, heap.define id name value = .error fault ↔
        fault = ⟨some name, .alreadyDefined name.lexeme⟩ ∧ heap.Binds name.lexeme id) ∧
      (∀ after, heap.assign id name value = .ok after →
        heap.Updated after name.lexeme value
          (fun other => heap.resolve other name = heap.resolve id name) ∧
        heap.Extended after fun _ => []) ∧
      (∀ after, heap.define id name value = .ok after →
        heap.Updated after name.lexeme value (fun other => heap.Unshadowed name.lexeme other id) ∧
        heap.Extended after fun other => if other = id then [name.lexeme] else [])) ∧
    (∀ (machine : Machine) (name : Token) (value : Value),
      Run.read name machine =
        machine.settled ((machine.heap.get machine.current name).map (·, machine.heap)) ∧
      Run.assign name value machine =
        machine.settled ((machine.heap.assign machine.current name value).map ((), ·)) ∧
      Run.define name value machine =
        machine.settled ((machine.heap.define machine.current name value).map ((), ·))) := by
  refine ⟨fun heap forest => forest.exists_nested,
    fun heap nested id present name value => ⟨fun found => ?_, fun fault => ?_, fun fault => ?_,
      fun fault => ?_, fun after assigned => ⟨?_, ?_⟩, fun after defined => ⟨?_, ?_⟩⟩,
    fun machine name value => ⟨?_, ?_, ?_⟩⟩
  · rw [Heap.resolve_eq_ok_iff, Heap.resolve?_eq_some_iff, Heap.resolves_iff nested]
  · exact Heap.get_eq_error_iff nested
  · exact Heap.assign_eq_error_iff nested
  · exact Heap.define_eq_error_iff
  · exact Heap.updated_of_assign nested assigned
  · exact Heap.extended_of_assign assigned
  · exact Heap.updated_of_define nested present defined
  · exact Heap.extended_of_define defined
  · exact machine.read_eq_settled name
  · exact machine.assign_eq_settled name value
  · exact machine.define_eq_settled name value

/-- Two blocks in the global frame, and a block in the first of them, which hides a global name. -/
def branches : Heap :=
  ⟨#[{ enclosing := none, bindings := [("a", .string "outer")] },
    { enclosing := some 0, bindings := [("a", .string "inner")] },
    { enclosing := some 0 },
    { enclosing := some 1 }]⟩

/-- A frame that stands before the one around it. -/
def backwards : Heap :=
  ⟨#[{ enclosing := some 1 }, { enclosing := none }]⟩

theorem branches_nested : branches.Nested := by
  constructor
  rintro id outer ⟨frame, isFrame, isOuter⟩
  match id, isFrame with
  | 0, rfl => cases isOuter
  | 1, rfl => cases isOuter; decide
  | 2, rfl => cases isOuter; decide
  | 3, rfl => cases isOuter; decide

theorem backwards_enclosedBy {id outer : FrameId} (enclosed : backwards.EnclosedBy id outer) :
    id = 0 ∧ outer = 1 := by
  rcases enclosed with ⟨frame, isFrame, isOuter⟩
  match id, isFrame with
  | 0, rfl => exact ⟨rfl, (Option.some.inj isOuter).symm⟩
  | 1, rfl => cases isOuter

theorem backwards_isForest : backwards.IsForest where
  closed enclosed := by
    rw [(backwards_enclosedBy enclosed).2]
    decide
  acyclic id around := by
    rcases Relation.TransGen.head'_iff.mp around with ⟨_, first, _⟩
    rcases Relation.TransGen.tail'_iff.mp around with ⟨_, _, last⟩
    cases (backwards_enclosedBy first).1.symm.trans (backwards_enclosedBy last).2

theorem frames_shared_branches :
    let name : Token := { kind := .identifier, lexeme := "a" }
    let missing : Token := { kind := .identifier, lexeme := "b" }
    let assigned := branches.rebind 0 "a" (.string "new")
    let defined := branches.bind 2 "a" (.string "own")
    (∃ place heap', Heap.Renumbered place backwards heap' ∧ heap'.Nested) ∧
    2 < branches.size ∧
    branches.assign 2 name (.string "new") = .ok assigned ∧
    assigned.get 0 name = .ok (.string "new") ∧ assigned.get 3 name = .ok (.string "inner") ∧
    branches.define 2 name (.string "own") = .ok defined ∧
    defined.get 2 name = .ok (.string "own") ∧ defined.get 0 name = .ok (.string "outer") ∧
    branches.get 3 missing = .error ⟨some missing, .undefined "b"⟩ ∧
    branches.define 1 name .nil = .error ⟨some name, .alreadyDefined "a"⟩ := by
  intro name missing assigned defined
  have present : 2 < branches.size := by decide
  have isAssigned : branches.assign 2 name (.string "new") = .ok assigned := by cbv
  have isDefined : branches.define 2 name (.string "own") = .ok defined := by cbv
  have laws := frames_shared.2.1 branches branches_nested 2 present name
  rcases laws (.string "new") with ⟨-, -, -, -, assigns, -⟩
  rcases laws (.string "own") with ⟨-, -, -, -, -, defines⟩
  have afterAssign := (assigns assigned isAssigned).1
  have afterDefine := (defines defined isDefined).1
  have sameFrame : branches.resolve 0 name = branches.resolve 2 name := by cbv
  have otherFrame : branches.resolve 3 name ≠ branches.resolve 2 name := by
    have hidden : branches.resolve 3 name = .ok 1 := by cbv
    have seen : branches.resolve 2 name = .ok 0 := by cbv
    simp [hidden, seen]
  have outside : ¬ branches.Unshadowed "a" 0 2 := fun unshadowed =>
    absurd (Heap.OnChain.le branches_nested unshadowed.1) (by decide)
  refine ⟨frames_shared.1 backwards backwards_isForest, present, isAssigned, ?_, ?_, isDefined, ?_,
    ?_, by cbv, by cbv⟩
  · exact afterAssign.affected 0 name rfl sameFrame
  · rw [afterAssign.others 3 name fun affected => otherFrame affected.2]
    cbv
  · exact afterDefine.affected 2 name rfl (Heap.unshadowed_self branches_nested "a" 2)
  · rw [afterDefine.others 0 name fun affected => outside affected.2]
    cbv

end LoxLang

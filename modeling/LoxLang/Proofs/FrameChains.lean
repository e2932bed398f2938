import LoxLang.Proofs.Closures
import LoxLang.Proofs.GlobalNames

/-!
# Chains of frames

The frames of a heap form a forest: a frame is enclosed by at most one other frame, which may
enclose many, and none is around itself. The chain of a frame is the frame itself with all frames
around it. A name means the binding in the nearest frame of the chain that has it, and what happens
in one frame can be seen from all frames on whose chains it is and where nothing nearer hides it.

Frames are numbered in the order in which they were made, so a frame is enclosed by an older one.
Every finite forest has such a numbering, and the frames of every state that a session can come to
have it.
-/

namespace LoxLang

open Run Outcome

namespace Heap

/-- Whether a frame is enclosed by another one, with none between them. -/
def EnclosedBy (heap : Heap) (id outer : FrameId) : Prop :=
  ∃ frame, heap.frames[id]? = some frame ∧ frame.enclosing = some outer

/-- Whether `outer` is on the chain of a frame: it is the frame itself or one around it. -/
def OnChain (heap : Heap) (id outer : FrameId) : Prop :=
  Relation.ReflTransGen heap.EnclosedBy id outer

/-- Whether `outer` is on the chain of a frame and no nearer frame binds a name. -/
def Unshadowed (heap : Heap) (name : String) (id outer : FrameId) : Prop :=
  heap.OnChain id outer ∧
    ∀ nearer, heap.OnChain id nearer → heap.OnChain nearer outer → heap.Binds name nearer →
      nearer = outer

/-- Whether no frame on the chain of a frame binds a name. -/
def Unbound (heap : Heap) (name : String) (id : FrameId) : Prop :=
  ∀ outer, heap.OnChain id outer → ¬ heap.Binds name outer

/-- Whether all frames are enclosed by older ones. -/
structure Nested (heap : Heap) : Prop where
  older : ∀ {id outer : FrameId}, heap.EnclosedBy id outer → outer < id

variable {heap : Heap} {name : String} {id outer parent found : FrameId}

theorem EnclosedBy.unique (enclosed : heap.EnclosedBy id outer)
    (enclosed' : heap.EnclosedBy id parent) : outer = parent := by
  rcases enclosed with ⟨frame, isFrame, isOuter⟩
  rcases enclosed' with ⟨frame', isFrame', isParent⟩
  have sameFrame : frame = frame' := Option.some.inj (isFrame.symm.trans isFrame')
  subst sameFrame
  exact Option.some.inj (isOuter.symm.trans isParent)

theorem OnChain.le (nested : heap.Nested) (onChain : heap.OnChain id outer) : outer ≤ id := by
  induction onChain with
  | refl => exact Nat.le_refl id
  | tail _ enclosed older => exact Nat.le_trans (Nat.le_of_lt (nested.older enclosed)) older

theorem OnChain.eq_or_parent (enclosed : heap.EnclosedBy id parent)
    (onChain : heap.OnChain id outer) : outer = id ∨ heap.OnChain parent outer := by
  rcases onChain.cases_head with same | ⟨next, enclosed', onChain'⟩
  · exact .inl same.symm
  · exact .inr (enclosed.unique enclosed' ▸ onChain')

theorem unshadowed_self (nested : heap.Nested) (name : String) (id : FrameId) :
    heap.Unshadowed name id id :=
  ⟨.refl, fun _ around inside _ => Nat.le_antisymm (around.le nested) (inside.le nested)⟩

/-! ### Names and chains -/

/-- A name means the binding in the nearest frame of the chain that has it. -/
theorem resolves_iff (nested : heap.Nested) :
    Resolves heap name id found ↔ heap.Binds name found ∧ heap.Unshadowed name id found := by
  constructor
  · intro resolves
    induction resolves with
    | here isFrame bound => exact ⟨⟨_, isFrame, bound⟩, unshadowed_self nested name _⟩
    | @outwards id parent found frame isFrame unbound enclosing _ _ ih =>
        rcases ih with ⟨binds, onChain, nearest⟩
        have enclosed : heap.EnclosedBy id parent := ⟨frame, isFrame, enclosing⟩
        refine ⟨binds, .head enclosed onChain, fun nearer around inside bindsNearer => ?_⟩
        rcases around.eq_or_parent enclosed with rfl | around'
        · rcases bindsNearer with ⟨frame', isFrame', bound⟩
          have sameFrame : frame = frame' := Option.some.inj (isFrame.symm.trans isFrame')
          exact absurd bound (sameFrame ▸ unbound)
        · exact nearest nearer around' inside bindsNearer
  · rintro ⟨binds, onChain, nearest⟩
    -- The chain is followed outwards; each frame before the last one is nearer, so it is passed.
    induction onChain using Relation.ReflTransGen.head_induction_on with
    | refl =>
        rcases binds with ⟨frame, isFrame, bound⟩
        exact .here isFrame bound
    | @head id parent enclosed onChain ih =>
        have older : parent < id := nested.older enclosed
        have notLast : id ≠ found :=
          Nat.ne_of_gt (Nat.lt_of_le_of_lt (OnChain.le nested onChain) older)
        rcases enclosed with ⟨frame, isFrame, enclosing⟩
        refine .outwards isFrame (fun bound => notLast ?_) enclosing older (ih ?_)
        · exact nearest id .refl (.head ⟨frame, isFrame, enclosing⟩ onChain) ⟨frame, isFrame, bound⟩
        · exact fun nearer around => nearest nearer (.head ⟨frame, isFrame, enclosing⟩ around)

/-- A name has no meaning in a frame if no frame on its chain binds it. -/
theorem not_resolves_iff (nested : heap.Nested) :
    (∀ found, ¬ Resolves heap name id found) ↔ heap.Unbound name id := by
  constructor
  · intro lacks outer onChain binds
    induction onChain using Relation.ReflTransGen.head_induction_on with
    | refl =>
        rcases binds with ⟨frame, isFrame, bound⟩
        exact lacks _ (.here isFrame bound)
    | @head id parent enclosed _ ih =>
        rcases enclosed with ⟨frame, isFrame, enclosing⟩
        have older : parent < id := nested.older ⟨frame, isFrame, enclosing⟩
        have unbound : name ∉ frame.names := fun bound => lacks id (.here isFrame bound)
        exact ih fun found resolves =>
          lacks found (.outwards isFrame unbound enclosing older resolves)
  · intro unbound found resolves
    rcases (resolves_iff nested).mp resolves with ⟨binds, onChain, -⟩
    exact unbound found onChain binds

/-! ### Forests -/

/-- Whether the frames of a heap, numbered in whichever way, form a forest: all of them are enclosed
by frames of the heap, if any, and none is around itself. -/
structure IsForest (heap : Heap) : Prop where
  closed : ∀ {id outer : FrameId}, heap.EnclosedBy id outer → outer < heap.size
  acyclic : ∀ id, ¬ Relation.TransGen heap.EnclosedBy id id

/-- `Renumbered place heap heap'` says that two heaps hold the same frames under different numbers,
where `place` gives the number in the second heap. -/
structure Renumbered (place : FrameId → FrameId) (heap heap' : Heap) : Prop where
  size : heap'.size = heap.size
  injective : ∀ {id id' : FrameId}, id < heap.size → id' < heap.size → place id = place id' →
    id = id'
  frames : ∀ {id : FrameId} {frame : Frame}, heap.frames[id]? = some frame →
    heap'.frames[place id]? = some { frame with enclosing := frame.enclosing.map place }

/-- The number of a frame when the frames of a heap are put in another order. -/
def placeIn (heap : Heap) (order : Equiv.Perm (Fin heap.size)) (id : FrameId) : FrameId :=
  if isId : id < heap.size then order.symm ⟨id, isId⟩ else id

/-- The frames of a heap in another order, which says which frame comes at an index. -/
def reordered (heap : Heap) (order : Equiv.Perm (Fin heap.size)) : Heap :=
  ⟨Array.ofFn fun index : Fin heap.size =>
    { heap.frames[order index] with
      enclosing := heap.frames[order index].enclosing.map (heap.placeIn order) }⟩

theorem renumbered_reordered (order : Equiv.Perm (Fin heap.size)) :
    Renumbered (heap.placeIn order) heap (heap.reordered order) := by
  refine ⟨Array.size_ofFn, fun isId isId' same => ?_, fun {id frame} isFrame => ?_⟩
  · simp only [placeIn, dif_pos isId, dif_pos isId'] at same
    exact Fin.mk.inj (order.symm.injective (Fin.ext same))
  · rcases Array.getElem?_eq_some_iff.mp isFrame with ⟨isId, rfl⟩
    have isPlace : heap.placeIn order id = order.symm ⟨id, isId⟩ := dif_pos isId
    simp [reordered, isPlace]

/-- Reordered frames are enclosed by older ones if the order puts a frame behind the one around
it. -/
theorem nested_reordered {order : Equiv.Perm (Fin heap.size)}
    (closed : ∀ {id outer : FrameId}, heap.EnclosedBy id outer → outer < heap.size)
    (behind : ∀ {id outer : Fin heap.size}, heap.EnclosedBy id outer →
      order.symm outer < order.symm id) : (heap.reordered order).Nested := by
  constructor
  rintro id outer ⟨frame, isFrame, enclosing⟩
  rcases Array.getElem?_eq_some_iff.mp isFrame with ⟨isId, rfl⟩
  let index : Fin heap.size := ⟨id, (renumbered_reordered order).size ▸ isId⟩
  have isOuter : heap.frames[order index].enclosing.map (heap.placeIn order) = some outer := by
    simpa [reordered, index] using enclosing
  rcases Option.map_eq_some_iff.mp isOuter with ⟨old, isOld, rfl⟩
  have enclosed : heap.EnclosedBy (order index) old := ⟨_, Array.getElem?_eq_getElem _, isOld⟩
  have present : old < heap.size := closed enclosed
  have earlier : order.symm ⟨old, present⟩ < order.symm (order index) := behind enclosed
  have isPlace : heap.placeIn order old = order.symm ⟨old, present⟩ := dif_pos present
  rw [Equiv.symm_apply_apply] at earlier
  rw [isPlace]
  exact earlier

/-- The number of frames around a frame. -/
noncomputable def depth (heap : Heap) (id : FrameId) : Nat :=
  {outer | Relation.TransGen heap.EnclosedBy id outer}.ncard

theorem IsForest.depth_lt (forest : heap.IsForest) (enclosed : heap.EnclosedBy id outer) :
    heap.depth outer < heap.depth id := by
  have below : {around | Relation.TransGen heap.EnclosedBy id around} ⊆ Set.Iio heap.size := by
    intro around isAround
    rcases Relation.TransGen.tail'_iff.mp isAround with ⟨_, _, enclosed'⟩
    exact forest.closed enclosed'
  refine Set.ncard_lt_ncard ⟨fun around isAround => .head enclosed isAround, fun all => ?_⟩
    ((Set.finite_Iio heap.size).subset below)
  exact forest.acyclic outer (all (.single enclosed))

/-- The frames of every forest can be numbered so that each is enclosed by an older one: the more
frames are around a frame, the later it comes. -/
theorem IsForest.exists_nested (forest : heap.IsForest) :
    ∃ place heap', Renumbered place heap heap' ∧ heap'.Nested := by
  let depths : Fin heap.size → Nat := fun index => heap.depth index
  refine ⟨_, _, renumbered_reordered (Tuple.sort depths),
    nested_reordered forest.closed fun {id outer} enclosed => ?_⟩
  apply (Tuple.monotone_sort depths).reflect_lt
  simpa [depths] using forest.depth_lt enclosed

/-! ### Chains of changed heaps -/

theorem enclosedBy_modify {changed : FrameId} {change : Frame → Frame}
    (sameLink : ∀ frame, (change frame).enclosing = frame.enclosing) :
    (heap.modify changed change).EnclosedBy = heap.EnclosedBy := by
  funext id outer
  unfold EnclosedBy
  rw [getElem?_modify]
  split
  · cases heap.frames[id]? with
    | none => simp
    | some frame => simp [sameLink]
  · rfl

@[simp]
theorem enclosedBy_rebind (heap : Heap) (changed : FrameId) (name : String) (value : Value) :
    (heap.rebind changed name value).EnclosedBy = heap.EnclosedBy :=
  enclosedBy_modify fun _ => rfl

@[simp]
theorem enclosedBy_bind (heap : Heap) (changed : FrameId) (name : String) (value : Value) :
    (heap.bind changed name value).EnclosedBy = heap.EnclosedBy :=
  enclosedBy_modify fun _ => rfl

namespace Nested

theorem rebind (nested : heap.Nested) (changed : FrameId) (name : String) (value : Value) :
    (heap.rebind changed name value).Nested :=
  ⟨fun enclosed => nested.older (enclosedBy_rebind heap changed name value ▸ enclosed)⟩

theorem bind (nested : heap.Nested) (changed : FrameId) (name : String) (value : Value) :
    (heap.bind changed name value).Nested :=
  ⟨fun enclosed => nested.older (enclosedBy_bind heap changed name value ▸ enclosed)⟩

theorem push (nested : heap.Nested) {enclosing : Option FrameId}
    (present : ∀ outer, enclosing = some outer → outer < heap.size) :
    (heap.push { enclosing }).Nested := by
  constructor
  rintro id outer ⟨frame, isFrame, isOuter⟩
  rw [getElem?_push] at isFrame
  split at isFrame
  · next isNew =>
      cases isFrame
      exact isNew ▸ present outer isOuter
  · exact nested.older ⟨frame, isFrame, isOuter⟩

theorem shrink (nested : heap.Nested) (size : Nat) : (heap.shrink size).Nested := by
  constructor
  rintro id outer ⟨frame, isFrame, isOuter⟩
  rw [getElem?_shrink] at isFrame
  split at isFrame
  · exact nested.older ⟨frame, isFrame, isOuter⟩
  · cases isFrame

end Nested

end Heap

/-! ## The frames of a session -/

/-- Whether the frames of a machine are enclosed by older ones and the current frame exists. -/
structure Machine.HasChains (machine : Machine) : Prop where
  nested : machine.heap.Nested
  current : machine.current < machine.heap.size

namespace Machine.HasChains

variable {machine : Machine}

theorem hasGlobals (hasChains : machine.HasChains) : Heap.globals < machine.heap.size :=
  Nat.lt_of_le_of_lt (Nat.zero_le _) hasChains.current

theorem enter {enclosing : Option FrameId} (hasChains : machine.HasChains)
    (mayEnter : machine.MayEnter .global enclosing) : (machine.enter enclosing).HasChains := by
  refine ⟨hasChains.nested.push fun outer isOuter => ?_, ?_⟩
  · rcases mayEnter with isCurrent | ⟨name, parameters, body, has⟩
    · cases isCurrent.symm.trans isOuter
      exact hasChains.current
    · cases (Repertoire.global_function.mp has).symm.trans isOuter
      exact hasChains.hasGlobals
  · simp [Machine.enter]

/-- Whatever a run does, frames are enclosed by older ones: a new one is enclosed by the current or
the global one. -/
theorem nested_of_evolves {activity : Activity} {machine' : Machine}
    (hasChains : machine.HasChains) (evolves : Evolves .global activity machine machine') :
    machine'.heap.Nested := by
  induction evolves with
  | refl | print | mark | reading | keep => exact hasChains.nested
  | @trans _ before between after first _ ihFirst ihSecond =>
      have current : between.current < between.heap.size := by
        rw [first.kept.current, first.kept.size]
        exact hasChains.current
      exact ihSecond ⟨ihFirst hasChains, current⟩
  | rebind => exact hasChains.nested.rebind _ _ _
  | bind => exact hasChains.nested.bind _ _ _
  | inFrame mayEnter _ ih => exact (ih (hasChains.enter mayEnter)).shrink _

theorem evolve {activity : Activity} {machine' : Machine} (hasChains : machine.HasChains)
    (evolves : Evolves .global activity machine machine') : machine'.HasChains := by
  refine ⟨hasChains.nested_of_evolves evolves, ?_⟩
  rw [evolves.kept.current, evolves.kept.size]
  exact hasChains.current

theorem initial : Machine.initial.HasChains := by
  have noFrames : Heap.Nested {} := ⟨fun ⟨_, isFrame, _⟩ => by simp at isFrame⟩
  have onlyGlobals : Machine.empty.heap.Nested := noFrames.push nofun
  exact ⟨onlyGlobals.bind _ _ _, by decide⟩

end Machine.HasChains

theorem Session.Ran.hasChains {programs : List (List Stmt)} {session : Session}
    (ran : session.Ran programs) : session.machine.HasChains := by
  induction ran with
  | start => exact .initial
  | aside _ sameMachine ih => rwa [sameMachine]
  | @run _ session ran setting source ih =>
      have covers : ∀ statement ∈ session.accepted source, Repertoire.global.Covers statement :=
        fun statement _ => Repertoire.covers_global statement
      rcases session.evolves_run source setting covers ran.globalOnly.within with
        ⟨machine, evolves, sameHeap, -⟩
      have top := (ran.run setting source).atTop
      refine ⟨?_, ?_⟩
      · rw [sameHeap]
        exact ih.nested_of_evolves evolves
      · rw [top.current]
        exact top.hasGlobals

/-- In every state that a session can come to, all frames are enclosed by older ones. -/
theorem Machine.Reachable.hasChains {machine : Machine} (reachable : machine.Reachable) :
    machine.HasChains := by
  induction reachable with
  | session ran => exact ran.hasChains
  | evaluate reachable setting depth expression ih =>
      have within := reachable.globalOnly.within
      exact ih.evolve ((lawfulWithin .global setting depth).evaluate expression within).evolves
  | execute reachable setting depth statement ih =>
      have within := reachable.globalOnly.within
      have covers := Repertoire.covers_global statement
      exact ih.evolve ((lawfulWithin .global setting depth).execute covers within).evolves
  | block _ ih => exact ih.enter (.inl rfl)
  | call reachable isHeld arguments ih =>
      have has := reachable.globalOnly.within _ isHeld
      have entered := ih.enter (.inr ⟨_, _, _, has⟩)
      exact entered.evolve (lawful_defineAll _ arguments).evolves

end LoxLang

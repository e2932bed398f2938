import LoxLang.Proofs.Acceptance
import LoxLang.Proofs.Scopes
import LoxLang.Proofs.SessionSteps

/-!
# Global names

Only a declaration at the top of a program binds a global name: the branches and the bodies of loops
of a parsed program are blocks, a `for` loop is one, and what stands in a block or in the body of a
function is executed in a frame of its own. So the global names after a run are those before it,
followed by the names that were declared before the first statement which did not complete normally.
-/

namespace LoxLang

open Run Outcome

/-! ## Statements that only declare at their top -/

namespace Stmt

/-- The name that a statement declares in the frame that it is executed in. -/
def declared? : Stmt → Option String
  | .var name _ | .function name _ _ => some name.lexeme
  | _ => none

/-- Whether a statement is a block. -/
def IsBlock (statement : Stmt) : Prop :=
  ∃ statements, statement = .block statements

/-- Whether the branches and the body of a statement are blocks, so that the names that are declared
in them are bound in a frame of their own. -/
def Encloses : Stmt → Prop
  | .ifElse _ thenBranch elseBranch => thenBranch.IsBlock ∧ ∀ branch ∈ elseBranch, branch.IsBlock
  | .whileLoop _ body _ => body.IsBlock
  | _ => True

theorem Encloses.echo {statement : Stmt} (encloses : statement.Encloses) :
    statement.echo.Encloses := by
  cases statement with
  | expression => trivial
  | _ => exact encloses

end Stmt

namespace Grammar

theorem Declaration.encloses {tokens : List Token} {tree : Stmt}
    (declaration : Declaration tokens tree) : tree.Encloses := by
  rcases declaration with ⟨declaration⟩
  cases declaration with
  | var declaration => cases declaration <;> trivial
  | expression statement => cases statement; trivial
  | ifThen => exact ⟨⟨_, rfl⟩, by simp⟩
  | ifElse => exact ⟨⟨_, rfl⟩, by simp [Stmt.IsBlock]⟩
  | whileLoop => exact ⟨_, rfl⟩
  | function | print | block | forLoop | breakLoop | continueLoop | returnValue => trivial

theorem Phrase.Many.forall_of_items {α : Type} {Item : Phrase α} {Holds : α → Prop}
    {tokens : List Token} {trees : List α} (many : Many Item tokens trees)
    (items : ∀ {tokens tree}, Item tokens tree → Holds tree) : ∀ tree ∈ trees, Holds tree := by
  induction many with
  | done => simp
  | more item _ ih => exact List.forall_mem_cons.mpr ⟨items item, ih⟩

end Grammar

namespace Parse

theorem encloses_echoLast {statements : List Stmt}
    (all : ∀ statement ∈ statements, statement.Encloses) :
    ∀ statement ∈ echoLast statements, statement.Encloses := by
  induction statements with
  | nil => simp [echoLast]
  | cons statement rest ih =>
      rw [List.forall_mem_cons] at all
      cases rest with
      | nil => simpa [echoLast] using all.1.echo
      | cons next rest =>
          have isLater : echoLast (statement :: next :: rest) =
              statement :: echoLast (next :: rest) := rfl
          rw [isLater, List.forall_mem_cons]
          exact ⟨all.1, ih all.2⟩

/-- The branches and the bodies of loops of a parsed program are blocks. -/
theorem encloses_of_quiet {interactive : Bool} {text : List Char}
    (quiet : (ofText interactive text).diagnostics = []) :
    ∀ statement ∈ (ofText interactive text).statements, statement.Encloses := by
  rcases List.append_eq_nil_iff.mp quiet with ⟨-, quietParse⟩
  have read : Grammar.Phrase.Many (Grammar.DeclarationWithin nestingLimit)
    (Scan.ofText interactive text).tokens _ :=
    manyWithin_of_quiet quietParse
  have all := read.forall_of_items fun declaration =>
    (Grammar.declaration_of_within _ _ _ declaration).encloses
  cases interactive with
  | false => exact all
  | true => exact encloses_echoLast all

end Parse

/-! ## What a statement does to the global names -/

/-- The global names, in the order of definition. -/
def Machine.globalNames (machine : Machine) : List String :=
  machine.globals.map (·.1)

variable {machine machine' : Machine} {setting : Setting} {depth : Nat}

theorem Machine.globalNames_of_frame {frame : Frame}
    (isFrame : machine.heap.frames[Heap.globals]? = some frame) :
    machine.globalNames = frame.names := by
  simp [globalNames, globals, isFrame, Frame.names]

/-- Whatever keeps the names of the global frame keeps the global names. -/
theorem Kept.globalNames_eq {activity : Activity} (kept : Kept activity machine machine')
    (elsewhere : activity = .evaluation ∨ Heap.globals ≠ machine.current) :
    machine'.globalNames = machine.globalNames := by
  cases isFrame : machine.heap.frames[Heap.globals]? with
  | some frame =>
      rcases kept.frames _ frame isFrame with ⟨frame', isFrame', -, -, same⟩
      rw [Machine.globalNames_of_frame isFrame', Machine.globalNames_of_frame isFrame,
        same elsewhere]
  | none =>
      have small : machine'.heap.frames[Heap.globals]? = none := by
        have sameSize : machine'.heap.frames.size = machine.heap.frames.size := kept.size
        rw [Array.getElem?_eq_none_iff] at isFrame ⊢
        rwa [sameSize]
      simp [Machine.globalNames, Machine.globals, isFrame, small]

/-- A statement that declares nothing and encloses its parts binds no name in the current frame. -/
theorem lawful_executeEnclosing {statement : Stmt} (encloses : statement.Encloses)
    (declaresNone : statement.declared? = none) :
    Lawful .all .evaluation machine (fun _ => True) (execute setting depth statement machine) := by
  have known := machine.within_all
  have blocks {body : Stmt} (isBlock : body.IsBlock) (depth : Nat) (machine : Machine) :
      Lawful .all .evaluation machine body.EndsWith
        ((Task.execute body).run setting depth setting.turns machine) := by
    rcases isBlock with ⟨statements, rfl⟩
    exact lawful_executeBlock (Repertoire.covers_all _) machine.within_all
  refine execute_of_parts lawful_tooDeep ⟨.refl, .interrupt⟩ fun depth running => ?_
  have parts := lawfulWithin .all setting (depth + 1)
  rw [Task.run_execute _ _ _ running]
  cases statement with
  | hole | breakLoop | continueLoop => exact ⟨.refl, trivial⟩
  | var | function => cases declaresNone
  | expression value =>
      exact (parts.evaluate value known).andThen fun _ _ _ _ => ⟨.refl, trivial⟩
  | print value =>
      exact (parts.evaluate value known).andThen fun _ _ _ _ => ⟨.print, trivial⟩
  | returnValue keyword value =>
      exact (parts.evaluateOption value known).andThen fun _ _ _ _ => ⟨.refl, trivial⟩
  | block statements =>
      have covers := Repertoire.covers_all (.block statements)
      exact ((lawfulWithin .all setting depth).enterBlock covers known).mono fun _ _ => trivial
  | forLoop initializer condition increment body =>
      exact (blocks ⟨_, rfl⟩ _ machine).mono fun _ _ => trivial
  | whileLoop condition body increment =>
      -- The condition and the increment are only evaluated, and the body is a block. So the law for
      -- loops applies with the stricter activity, in which no name is bound.
      have looped := parts.loop condition (fun {machine} _ => blocks encloses _ machine) increment
        setting.turns known
      exact looped.mono fun _ _ => trivial
  | ifElse condition thenBranch elseBranch =>
      refine (parts.evaluate condition known).andThen fun value after _ _ => ?_
      split
      · exact (blocks encloses.1 _ after).mono fun _ _ => trivial
      · cases elseBranch with
        | none => exact ⟨.refl, trivial⟩
        | some elseBranch =>
            exact (blocks (encloses.2 _ rfl) _ after).mono fun _ _ => trivial

theorem globalNames_executeEnclosing {statement : Stmt} (encloses : statement.Encloses)
    (declaresNone : statement.declared? = none) :
    (final (execute setting depth statement machine)).globalNames = machine.globalNames :=
  (lawful_executeEnclosing encloses declaresNone).evolves.kept.globalNames_eq (.inl rfl)

/-- Whether no frame of a heap binds a name twice. -/
def Heap.Distinct (heap : Heap) : Prop :=
  ∀ {id : FrameId} {frame : Frame}, heap.frames[id]? = some frame → frame.names.Nodup

/-- Whether the machine is in its global frame, as it is between two statements of a program, and no
frame binds a name twice. -/
structure Machine.AtTop (machine : Machine) : Prop where
  current : machine.current = Heap.globals
  hasGlobals : Heap.globals < machine.heap.size
  distinct : machine.heap.Distinct

/-- `Extends machine name outcome` says what an outcome has made of the global names: they are one
name longer, if there is one, where it is a normal completion, and the same in all other cases. -/
def Outcome.Extends (machine : Machine) (name : Option String) : Outcome Completion → Prop
  | .ok .normal after => after.globalNames = machine.globalNames ++ name.toList
  | outcome => outcome.final.globalNames = machine.globalNames

theorem Machine.globalNames_bound (atGlobals : machine.current = Heap.globals)
    (hasGlobals : Heap.globals < machine.heap.size) (name : Token) (value : Value) :
    (machine.bound name value).globalNames = machine.globalNames ++ [name.lexeme] := by
  have isFrame := Array.getElem?_eq_getElem hasGlobals
  have isBound : (machine.bound name value).heap.frames[Heap.globals]? =
      some ((machine.heap.frames[Heap.globals]).define name.lexeme value) := by
    simp only [Machine.bound, Heap.bind, Heap.getElem?_modify, atGlobals, if_true, isFrame,
      Option.map_some]
  rw [globalNames_of_frame isBound, globalNames_of_frame isFrame, Frame.names_define]

/-- A name is bound after something was evaluated, if it is free. -/
theorem extends_define {name : Token} {value : Value} (kept : Kept .evaluation machine machine')
    (top : machine.AtTop) :
    Extends machine (some name.lexeme)
      (andThen (define name value machine') fun _ machine => .ok .normal machine) := by
  have sameNames := kept.globalNames_eq (.inl rfl)
  by_cases binds : machine'.Binds name
  · rw [define_of_binds binds]
    exact sameNames
  · have atGlobals : machine'.current = Heap.globals := kept.current.trans top.current
    have hasGlobals : Heap.globals < machine'.heap.size := kept.size ▸ top.hasGlobals
    rw [define_of_free binds]
    exact (Machine.globalNames_bound atGlobals hasGlobals name value).trans
      (congrArg (· ++ [name.lexeme]) sameNames)

theorem extends_none {outcome : Outcome Completion}
    (sameNames : outcome.final.globalNames = machine.globalNames) :
    Extends machine none outcome := by
  unfold Extends
  split
  · rw [Option.toList_none, List.append_nil]
    exact sameNames
  · exact sameNames

/-- A statement at the top of a program adds the name that it declares to the global names, if it
completes normally, and nothing else. -/
theorem extends_execute {statement : Stmt} (encloses : statement.Encloses) (top : machine.AtTop) :
    Extends machine statement.declared? (execute setting depth statement machine) := by
  cases statement with
  | var name initializer =>
      refine execute_of_parts rfl rfl fun depth running => ?_
      have evaluated := (lawfulWithin .all setting (depth + 1)).evaluateOption initializer
        machine.within_all
      rw [Task.run_execute _ _ _ running]
      dsimp only
      generalize (Task.evaluateOption initializer).run setting (depth + 1) setting.turns machine =
        outcome at evaluated
      cases outcome with
      | error reason after => exact evaluated.1.kept.globalNames_eq (.inl rfl)
      | ok value after => exact extends_define evaluated.1.kept top
  | function name parameters body =>
      refine execute_of_parts rfl rfl fun depth running => ?_
      rw [Task.run_execute _ _ _ running]
      exact extends_define (.of_heap_eq rfl rfl) top
  | _ => exact extends_none (globalNames_executeEnclosing encloses rfl)

/-! ## What a program does to the global names -/

/-- No run binds a name twice in one frame. -/
theorem Evolves.distinct {repertoire : Repertoire} {activity : Activity}
    (evolves : Evolves repertoire activity machine machine') (distinct : machine.heap.Distinct) :
    machine'.heap.Distinct := by
  induction evolves with
  | refl | print | mark | reading | keep => exact distinct
  | trans _ _ ihFirst ihSecond => exact ihSecond (ihFirst distinct)
  | rebind =>
      intro id frame isFrame
      simp only [Machine.rebound, Heap.rebind, Heap.getElem?_modify] at isFrame
      split at isFrame
      · rcases Option.map_eq_some_iff.mp isFrame with ⟨old, isOld, rfl⟩
        rw [Frame.names_assign]
        exact distinct isOld
      · exact distinct isFrame
  | bind free =>
      -- A name is bound only where it is free, which is what keeps the names of a frame distinct.
      intro id frame isFrame
      simp only [Machine.bound, Heap.bind, Heap.getElem?_modify] at isFrame
      split at isFrame
      · next isCurrent =>
          subst isCurrent
          rcases Option.map_eq_some_iff.mp isFrame with ⟨old, isOld, rfl⟩
          rw [Frame.names_define, List.nodup_append_comm]
          exact List.nodup_cons.mpr ⟨fun isName => free ⟨old, isOld, isName⟩, distinct isOld⟩
      · exact distinct isFrame
  | inFrame _ _ ih =>
      intro id frame isFrame
      simp only [Machine.leave, Heap.getElem?_shrink] at isFrame
      split at isFrame
      · refine ih (fun {id frame} isEntered => ?_) isFrame
        simp only [Machine.enter, Heap.getElem?_push] at isEntered
        split at isEntered
        · cases isEntered
          exact List.nodup_nil
        · exact distinct isEntered
      · cases isFrame

namespace Machine.AtTop

theorem initial : Machine.initial.AtTop where
  current := rfl
  hasGlobals := by decide
  distinct := by
    intro id frame isFrame
    cases id with
    | zero =>
        cases isFrame
        decide
    | succ => cases isFrame

theorem evolve (top : machine.AtTop) {repertoire : Repertoire} {activity : Activity}
    (evolves : Evolves repertoire activity machine machine') : machine'.AtTop where
  current := evolves.kept.current.trans top.current
  hasGlobals := evolves.kept.size ▸ top.hasGlobals
  distinct := evolves.distinct top.distinct

theorem nodup_globalNames (top : machine.AtTop) : machine.globalNames.Nodup := by
  have isFrame := Array.getElem?_eq_getElem top.hasGlobals
  rw [globalNames_of_frame isFrame]
  exact top.distinct isFrame

end Machine.AtTop

/-- The statements that complete normally when statements are executed in order: those before the
first that does not. -/
def Run.completed (execute : Stmt → Run Completion) : List Stmt → Machine → List Stmt
  | [], _ => []
  | statement :: rest, machine =>
      match execute statement machine with
      | .ok .normal machine => statement :: completed execute rest machine
      | _ => []

/-- Where all statements complete normally, all of them are completed. -/
theorem Run.completed_of_normal {execute : Stmt → Run Completion} {statements : List Stmt}
    (executed : executeAll execute statements machine = .ok .normal machine') :
    completed execute statements machine = statements := by
  induction statements generalizing machine with
  | nil => rfl
  | cons statement rest ih =>
      rw [executeAll_cons] at executed
      unfold completed
      cases isOutcome : execute statement machine with
      | error reason after =>
          rw [isOutcome] at executed
          cases executed
      | ok completion after =>
          rw [isOutcome] at executed
          cases completion with
          | normal => exact congrArg (statement :: ·) (ih executed)
          | breakLoop | continueLoop | returned => cases executed

/-- Executing the statements of a program adds the names that the completed ones declare. -/
theorem globalNames_executeAll {statements : List Stmt}
    (all : ∀ statement ∈ statements, statement.Encloses) (top : machine.AtTop) :
    (final (executeAll (execute setting depth) statements machine)).globalNames =
      machine.globalNames ++
        (completed (execute setting depth) statements machine).filterMap Stmt.declared? := by
  induction statements generalizing machine with
  | nil => simp [executeAll, completed, final]
  | cons statement rest ih =>
      rw [List.forall_mem_cons] at all
      have extended : Extends machine _ (execute setting depth statement machine) :=
        extends_execute all.1 top
      have lawful := (lawfulWithin .all setting depth).execute (Repertoire.covers_all statement)
        machine.within_all
      simp only [Task.run] at lawful
      rw [executeAll_cons]
      unfold completed
      generalize execute setting depth statement machine = outcome at extended lawful
      cases outcome with
      | error reason after => exact extended.trans (List.append_nil _).symm
      | ok completion after =>
          cases completion with
          | breakLoop | continueLoop | returned => exact extended.trans (List.append_nil _).symm
          | normal =>
              have topAfter := top.evolve lawful.1
              refine (ih all.2 topAfter).trans ?_
              have isExtended : after.globalNames =
                  machine.globalNames ++ statement.declared?.toList := extended
              rw [isExtended, List.append_assoc]
              cases isName : statement.declared? <;> simp [isName]

namespace Session

variable (session : Session) (source : String)

/-- A run leaves the frames of the machine as executing the accepted statements leaves them. -/
theorem final_run_scopes (setting : Setting) :
    let executed := Outcome.final
      (executeAll (LoxLang.execute setting setting.depth) (session.accepted source) session.machine)
    (final (run setting source session)).machine.heap = executed.heap ∧
      (final (run setting source session)).machine.current = executed.current := by
  by_cases admits : session.Admits source
  · rw [run_of_admits _ _ admits, accepted, if_pos admits, final_interpret_machine,
      prepared_machine, interpret_machine]
    exact ⟨rfl, rfl⟩
  · rw [final_run_of_not_admits _ _ admits, accepted, if_neg admits]
    exact ⟨rfl, rfl⟩

variable {session source}

theorem atTop_run (top : session.machine.AtTop) (setting : Setting) :
    (final (run setting source session)).machine.AtTop := by
  have executed := (lawfulWithin .all setting setting.depth).executeAll
    (fun statement (_ : statement ∈ session.accepted source) => Repertoire.covers_all statement)
    session.machine.within_all
  have topAfter := top.evolve executed.evolves
  rcases session.final_run_scopes source setting with ⟨sameHeap, sameCurrent⟩
  refine ⟨sameCurrent.trans topAfter.current, ?_, ?_⟩
  · rw [sameHeap]
    exact topAfter.hasGlobals
  · rw [sameHeap]
    exact topAfter.distinct

theorem Ran.atTop {programs : List (List Stmt)} (ran : session.Ran programs) :
    session.machine.AtTop := by
  induction ran with
  | start => exact .initial
  | aside _ sameMachine ih => rwa [sameMachine]
  | run _ setting source ih => exact atTop_run ih setting

theorem encloses_of_accepted : ∀ statement ∈ session.accepted source, statement.Encloses := by
  unfold accepted
  split
  · next admits =>
      exact Parse.encloses_of_quiet (List.append_eq_nil_iff.mp admits.1).2
  · simp

/-- The names after a run are those before it and those that its completed statements declare. -/
theorem globalNames_final_run (top : session.machine.AtTop) (setting : Setting) :
    (final (run setting source session)).machine.globalNames =
      session.machine.globalNames ++
        (completed (LoxLang.execute setting setting.depth) (session.accepted source)
          session.machine).filterMap Stmt.declared? := by
  rw [← globalNames_executeAll encloses_of_accepted top]
  simp only [Machine.globalNames, Machine.globals, (session.final_run_scopes source setting).1]

/-- A run without errors completes all statements. -/
theorem completed_of_run {setting : Setting} {after : Session}
    (finished : run setting source session = .ok true after) :
    completed (LoxLang.execute setting setting.depth) (session.accepted source) session.machine =
      (session.parsed source).statements := by
  have admits := admits_of_run finished
  rw [run_of_admits _ _ admits] at finished
  have isFinished := finished_of_interpret finished
  rw [prepared_machine] at isFinished
  rcases executeAll_of_finished isFinished with ⟨machine, executed⟩
  rw [accepted, if_pos admits]
  exact completed_of_normal executed

/-- Global names are exactly the declarations at the top of programs that were executed. Between two
runs, and after a run with whichever outcome, the machine is in its global frame and no name is
bound twice. A run adds the names that are declared, in their order, before the first statement that
does not complete normally: all of them if it finds no errors, none if it does not come to execute
the program. Nothing else adds or removes a global name: no expression, no statement that is
executed in another frame, and no statement of a program that declares nothing itself. -/
theorem globalNames_declared :
    (∀ {programs : List (List Stmt)} {session : Session}, session.Ran programs →
      session.machine.AtTop) ∧
    (∀ (setting : Setting) (source : String) (session : Session), session.machine.AtTop →
      let after := (final (run setting source session)).machine
      let done := completed (LoxLang.execute setting setting.depth) (session.accepted source)
        session.machine
      after.AtTop ∧
      after.globalNames = session.machine.globalNames ++ done.filterMap Stmt.declared? ∧
      after.globalNames.Nodup ∧
      (∀ ended, run setting source session = .ok true ended →
        done = (session.parsed source).statements) ∧
      (¬ session.Admits source → done = [])) ∧
    (∀ (setting : Setting) (depth : Nat) (expression : Expr) (machine : Machine),
      (Outcome.final (LoxLang.evaluate setting depth expression machine)).globalNames =
        machine.globalNames) ∧
    (∀ (setting : Setting) (depth : Nat) (statement : Stmt) (machine : Machine),
      machine.current ≠ Heap.globals →
      (Outcome.final (LoxLang.execute setting depth statement machine)).globalNames =
        machine.globalNames) ∧
    (∀ (setting : Setting) (depth : Nat) (source : String) (session : Session) (machine : Machine),
      ∀ statement ∈ session.accepted source, statement.declared? = none →
      (Outcome.final (LoxLang.execute setting depth statement machine)).globalNames =
        machine.globalNames) := by
  refine ⟨Ran.atTop, ?_, ?_, ?_, ?_⟩
  · intro setting source session top
    have topAfter : (final (run setting source session)).machine.AtTop := atTop_run top setting
    refine ⟨topAfter, globalNames_final_run top setting, topAfter.nodup_globalNames, ?_, ?_⟩
    · intro ended finished
      exact completed_of_run finished
    · intro refused
      rw [accepted, if_neg refused]
      rfl
  · intro setting depth expression machine
    have lawful := (lawfulWithin .all setting depth).evaluate expression machine.within_all
    exact lawful.evolves.kept.globalNames_eq (.inl rfl)
  · intro setting depth statement machine elsewhere
    have lawful := (lawfulWithin .all setting depth).execute (Repertoire.covers_all statement)
      machine.within_all
    exact lawful.evolves.kept.globalNames_eq (.inr elsewhere.symm)
  · intro setting depth source session machine statement isStatement declaresNone
    exact globalNames_executeEnclosing (encloses_of_accepted statement isStatement) declaresNone

/-- A program that declares names at its top, in a function, in a block and in a loop, and that is
stopped in the middle by a name which nothing defines. -/
def stoppedProgram : String :=
  "var a; fun f(p) \x7b var inner; \x7d f(a); \x7b var inside; \x7d " ++
    "for (var i = true; i; i = false) \x7b var each; \x7d var b = missing; var c;"

theorem globalNames_declared_stoppedProgram :
    let session : Session := ⟨{}, {}, .initial, {}⟩
    session.machine.AtTop ∧
      (final (run ⟨40, 5, fun _ => 0⟩ stoppedProgram session)).machine.globalNames =
        ["clock", "a", "f"] := by
  intro session
  have top : session.machine.AtTop := globalNames_declared.1 (.start {} {})
  refine ⟨top, ?_⟩
  rw [(globalNames_declared.2.1 ⟨40, 5, fun _ => 0⟩ stoppedProgram session top).2.1]
  decide +kernel

end Session

end LoxLang

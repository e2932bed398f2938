import LoxLang.Proofs.NestingLimits
import LoxLang.Proofs.Scopes
import LoxLang.Proofs.Shortening

/-!
# Limits and their errors

The parser has a limit of nesting and the evaluator has a limited room on the stack. Neither of them
changes what a program does: it is reported or recorded that a limit has been reached, and where it
has not been reached, every greater limit gives the same. A loop may take as many turns as it needs,
so that `EndsWithin` does not depend on the number of turns that the evaluator is allowed.
-/

namespace LoxLang

open Outcome

/-- Whether a fault is a stack overflow by its message. -/
def Fault.IsOverflow (fault : Fault) : Prop :=
  fault.cause.message = Cause.stackOverflow.message

/-- Whether a stack overflow is recorded at the end of a program. -/
def Verdict.RecordsOverflow (verdict : Verdict) : Prop :=
  ∃ fault : Fault, fault.IsOverflow ∧ verdict = .faulted fault

/-- `EndsWithin clock limit program machine verdict after` says how a program ends that is
interpreted with some room on the stack: with a verdict, and with a machine that it leaves. -/
def EndsWithin (clock : Nat → Float) (limit : Nat) (program : List Stmt) (machine : Machine)
    (verdict : Verdict) (after : Machine) : Prop :=
  ∃ turns, interpret ⟨limit, turns, clock⟩ program machine = (verdict, after) ∧
    verdict ≠ .escaped .exhausted

/-- A program that is interpreted within limits does what it does within wider ones, or it is ended
by a limit when less has been printed. -/
theorem interpret_or_cut {limits : Abort → Prop} {setting setting' : Setting}
    (lengthens : setting.Lengthens limits setting') (less : setting.depth ≤ setting'.depth)
    (isLimit : setting.depth < setting'.depth → limits .tooDeep) (program : List Stmt)
    (machine : Machine) :
    interpret setting program machine = interpret setting' program machine ∨
      (∃ reason, limits reason ∧
        (interpret setting program machine).1 = .ofAbort reason) ∧
      (interpret setting program machine).2.PrintedBefore
        (interpret setting' program machine).2 := by
  have shortened := (shortenedWithin lengthens less isLimit).executeAll program machine
  simp only [Task.run] at shortened
  generalize isOutcome : Run.executeAll (execute setting setting.depth) program machine = outcome
    at shortened
  generalize isFull : Run.executeAll (execute setting' setting'.depth) program machine = full
    at shortened
  cases shortened with
  | same => exact .inl (by simp only [interpret, isOutcome, isFull])
  | cut isLimit _ goesOn =>
      refine .inr ⟨⟨_, isLimit, ?_⟩, ?_⟩
      · simp only [interpret, isOutcome]
      · rw [interpret_machine, interpret_machine, isOutcome, isFull]
        exact goesOn

section Limits

variable {clock : Nat → Float} {limit limit' : Nat} {program : List Stmt}
  {machine after after' : Machine} {verdict verdict' : Verdict}

/-- A program that has ended does the same if it is allowed more turns. -/
theorem interpret_of_more {turns turns' : Nat} (more : turns ≤ turns')
    (ended : interpret ⟨limit, turns, clock⟩ program machine = (verdict, after))
    (isEnd : verdict ≠ .escaped .exhausted) :
    interpret ⟨limit, turns', clock⟩ program machine = (verdict, after) := by
  have lengthens : Setting.Lengthens (· = .exhausted) ⟨limit, turns, clock⟩
      ⟨limit, turns', clock⟩ := ⟨rfl, more, fun _ => rfl⟩
  have sameRoom : limit < limit → Abort.tooDeep = .exhausted := (absurd · (Nat.lt_irrefl _))
  rcases interpret_or_cut lengthens le_rfl sameRoom program machine with
    same | ⟨⟨_, rfl, isVerdict⟩, -⟩
  · rw [← same, ended]
  · rw [ended] at isVerdict
    exact absurd isVerdict isEnd

/-- More room on the stack changes nothing unless a stack overflow was recorded, and then less was
printed. -/
theorem interpret_or_overflow (clock : Nat → Float) (less : limit ≤ limit') (turns : Nat)
    (program : List Stmt) (machine : Machine) :
    interpret ⟨limit, turns, clock⟩ program machine =
        interpret ⟨limit', turns, clock⟩ program machine ∨
      (interpret ⟨limit, turns, clock⟩ program machine).1.RecordsOverflow ∧
      (interpret ⟨limit, turns, clock⟩ program machine).2.PrintedBefore
        (interpret ⟨limit', turns, clock⟩ program machine).2 := by
  have lengthens : Setting.Lengthens (· = .tooDeep) ⟨limit, turns, clock⟩
      ⟨limit', turns, clock⟩ := ⟨rfl, le_rfl, fun more => absurd more (Nat.lt_irrefl _)⟩
  rcases interpret_or_cut lengthens less (fun _ => rfl) program machine with
    same | ⟨⟨_, rfl, isVerdict⟩, goesOn⟩
  · exact .inl same
  · exact .inr ⟨⟨⟨none, .stackOverflow⟩, rfl, isVerdict⟩, goesOn⟩

namespace EndsWithin

/-- Two programs that end do so with the same number of turns. -/
theorem interpret_max (ends : EndsWithin clock limit program machine verdict after)
    (ends' : EndsWithin clock limit' program machine verdict' after') :
    ∃ turns, interpret ⟨limit, turns, clock⟩ program machine = (verdict, after) ∧
      interpret ⟨limit', turns, clock⟩ program machine = (verdict', after') := by
  rcases ends with ⟨turns, ended, isEnd⟩
  rcases ends' with ⟨turns', ended', isEnd'⟩
  exact ⟨max turns turns', interpret_of_more (Nat.le_max_left _ _) ended isEnd,
    interpret_of_more (Nat.le_max_right _ _) ended' isEnd'⟩

theorem eq_or_overflow (less : limit ≤ limit')
    (ends : EndsWithin clock limit program machine verdict after)
    (ends' : EndsWithin clock limit' program machine verdict' after') :
    (verdict' = verdict ∧ after' = after) ∨
      verdict.RecordsOverflow ∧ after.PrintedBefore after' := by
  rcases ends.interpret_max ends' with ⟨turns, ended, ended'⟩
  have compared := interpret_or_overflow clock less turns program machine
  rw [ended, ended'] at compared
  rcases compared with same | recorded
  · rw [Prod.mk.injEq] at same
    exact .inl ⟨same.1.symm, same.2.symm⟩
  · exact .inr recorded

/-- What ends without a stack overflow ends in the same way with more room on the stack. -/
theorem mono (less : limit ≤ limit') (ends : EndsWithin clock limit program machine verdict after)
    (recordsNone : ¬ verdict.RecordsOverflow) :
    EndsWithin clock limit' program machine verdict after := by
  rcases ends with ⟨turns, ended, isEnd⟩
  refine ⟨turns, ?_, isEnd⟩
  have compared := interpret_or_overflow clock less turns program machine
  rw [ended] at compared
  rcases compared with same | ⟨recorded, -⟩
  · exact same.symm
  · exact absurd recorded recordsNone

theorem current (ends : EndsWithin clock limit program machine verdict after) :
    after.current = machine.current := by
  rcases ends with ⟨turns, ended, -⟩
  have kept := interpret_current ⟨limit, turns, clock⟩ program machine
  rwa [ended] at kept

end EndsWithin

end Limits

/-! ## Where stack overflows come from -/

/-- The message of a stack overflow is that of no other cause that the evaluator gives. -/
theorem Cause.overflow_or_reported {cause : Cause}
    (isOverflow : cause.message = Cause.stackOverflow.message) :
    cause = .stackOverflow ∨ ∃ actor message, cause = .reported actor message := by
  have sameHead : cause.message.toList.head? = some 'S' := by
    rw [isOverflow]
    decide
  cases cause with
  | stackOverflow => exact .inl rfl
  | reported actor message => exact .inr ⟨actor, message, rfl⟩
  | undefined | alreadyDefined | unknownUnary | unknownBinary | wrongArity | strayLoopExit =>
      rw [message.eq_def] at sameHead
      simp at sameHead
  | _ => exact absurd sameHead (by decide)

/-- All functions, and the natives that report no stack overflow as a fault of their own. -/
def Repertoire.withoutOverflows : Repertoire :=
  .fitting (fun _ _ => True) (fun reason => ∀ fault : Fault, reason = .fault fault →
    ¬ fault.IsOverflow) (fun _ _ _ => trivial)

/-- No fault that ends a run early is a stack overflow: an overflow is recorded in its own way. -/
theorem Raised.not_isOverflow {reason : Abort} {fault : Fault}
    (raised : Raised .withoutOverflows reason) (isReason : reason = .fault fault) :
    ¬ fault.IsOverflow := by
  intro isOverflow
  have isCause := Cause.overflow_or_reported isOverflow
  cases raised with
  | native has =>
      simp only [Repertoire.withoutOverflows, Repertoire.fitting, Callable.Fits, Action.Fits] at has
      exact has fault isReason isOverflow
  | unary faulted => cases faulted <;> cases isReason <;> simp at isCause
  | binary faulted => cases faulted <;> cases isReason <;> simp at isCause
  | limit isLimit => rcases isLimit with rfl | rfl <;> cases isReason
  | undefined | taken | notCallable | wrongArity | strayBreak | strayContinue | interrupt =>
      cases isReason <;> simp at isCause

/-- A stack overflow is at no token. -/
theorem EndsWithin.token_of_isOverflow {clock : Nat → Float} {limit : Nat} {program : List Stmt}
    {machine after : Machine} {fault : Fault}
    (ends : EndsWithin clock limit program machine (.faulted fault) after)
    (known : machine.Within .withoutOverflows) (isOverflow : fault.IsOverflow) :
    fault.token = none := by
  rcases ends with ⟨turns, ended, -⟩
  have covers : ∀ statement ∈ program, Repertoire.withoutOverflows.Covers statement :=
    fun _ _ _ _ _ _ => trivial
  have executed := (lawfulWithin .withoutOverflows ⟨limit, turns, clock⟩ limit).executeAll covers
    known
  have isCause := Cause.overflow_or_reported isOverflow
  unfold interpret at ended
  simp only [Task.run] at executed
  cases isOutcome : Run.executeAll (execute ⟨limit, turns, clock⟩ limit) program machine with
  | ok completion _ =>
      rw [isOutcome] at ended
      cases completion <;> cases ended <;> simp at isCause
  | error reason _ =>
      rw [isOutcome] at executed ended
      cases reason with
      | fault raised =>
          cases ended
          exact absurd isOverflow (executed.2.not_isOverflow rfl)
      | overflow message => cases ended; rfl
      | tooDeep => cases ended; rfl
      | interrupt | quit | host | exhausted => cases ended

/-! ## Main result -/

/-- Limits turn success into their own errors and into nothing else. Where the parser does not
report that something is nested too deeply, the parse is the same with every greater limit. Where a
program ends without a stack overflow, it ends with every greater limit, with the same verdict on
the same machine and in no other way. Where a stack overflow is recorded, the machine is in the
global frame again, the fault is at no token, and what was printed is printed first with every
greater limit with which the program ends. -/
theorem limits_give_own_errors {limit limit' : Nat} (less : limit ≤ limit') :
    (∀ (interactive : Bool) (tokens : List Token) (ending : Token),
      let parse := Parse.ofTokens limit interactive tokens ending
      (∀ diagnostic ∈ parse.diagnostics, diagnostic.message ≠ GrammarFault.tooDeep.message) →
        Parse.ofTokens limit' interactive tokens ending = parse) ∧
    ∀ (clock : Nat → Float) (program : List Stmt) (machine : Machine) (verdict : Verdict)
      (after : Machine), EndsWithin clock limit program machine verdict after →
      (¬ verdict.RecordsOverflow → ∀ verdict' after',
        EndsWithin clock limit' program machine verdict' after' ↔
          verdict' = verdict ∧ after' = after) ∧
      (∀ fault : Fault, fault.IsOverflow → verdict = .faulted fault →
        (machine.current = Heap.globals → after.current = Heap.globals) ∧
        (machine.Within .withoutOverflows → fault.token = none) ∧
        ∀ verdict' after', EndsWithin clock limit' program machine verdict' after' →
          after.output.toList <+: after'.output.toList) := by
  refine ⟨fun interactive tokens ending => ?_, fun clock program machine verdict after ends => ?_⟩
  · intro parse reportsNone
    rcases Parse.ofTokens_or_reports less interactive tokens ending with
      same | ⟨diagnostic, isReported, isTooDeep⟩
    · exact same.symm
    · exact absurd isTooDeep (reportsNone diagnostic isReported)
  · refine ⟨fun recordsNone verdict' after' => ⟨fun ends' => ?_, ?_⟩, ?_⟩
    · rcases ends.eq_or_overflow less ends' with same | ⟨recorded, -⟩
      · exact same
      · exact absurd recorded recordsNone
    · rintro ⟨rfl, rfl⟩
      exact ends.mono less recordsNone
    · rintro fault isOverflow rfl
      refine ⟨fun atGlobal => ends.current.trans atGlobal,
        fun known => ends.token_of_isOverflow known isOverflow, fun verdict' after' ends' => ?_⟩
      rcases ends.eq_or_overflow less ends' with ⟨-, rfl⟩ | ⟨-, printed⟩
      · exact List.prefix_rfl
      · exact printed

/-- A program that prints in a block in a block. -/
def nestedBlocks : List Stmt :=
  [.print (.literal (.string "outer")), .block [.block [.print (.literal (.string "inner"))]]]

/-- The same program is cut short with too little room, and is not with enough. -/
theorem nestedBlocks_runs :
    let clock := fun _ : Nat => (0 : Float)
    let cut := interpret ⟨8, 0, clock⟩ nestedBlocks .initial
    let whole := interpret ⟨12, 0, clock⟩ nestedBlocks .initial
    let tokens : List Token := [⟨.nilWord, "nil", .nil, ⟨1, 1⟩⟩, ⟨.semicolon, ";", .nil, ⟨1, 4⟩⟩]
    let ending : Token := ⟨.endOfText, "", .nil, ⟨1, 5⟩⟩
    8 ≤ 12 ∧ cut.1 = .faulted ⟨none, .stackOverflow⟩ ∧ cut.2.output = #["outer"] ∧
      cut.2.current = Heap.globals ∧ (⟨none, .stackOverflow⟩ : Fault).token = none ∧
      cut.2.output.toList <+: whole.2.output.toList ∧
      whole.1 = .finished ∧ whole.2.output = #["outer", "inner"] ∧
      (∀ verdict after, EndsWithin clock 20 nestedBlocks .initial verdict after ↔
        verdict = whole.1 ∧ after = whole.2) ∧
      Parse.ofTokens 20 false tokens ending = Parse.ofTokens 18 false tokens ending := by
  intro clock cut whole tokens ending
  have cutEnds : EndsWithin clock 8 nestedBlocks .initial (.faulted ⟨none, .stackOverflow⟩) cut.2 :=
    ⟨0, rfl, nofun⟩
  have wholeEnds : EndsWithin clock 12 nestedBlocks .initial .finished whole.2 := ⟨0, rfl, nofun⟩
  have known : Machine.initial.Within .withoutOverflows := Machine.within_initial trivial
  have recorded := ((limits_give_own_errors (by decide : 8 ≤ 12)).2 clock nestedBlocks .initial _ _
    cutEnds).2 ⟨none, .stackOverflow⟩ rfl rfl
  have same := ((limits_give_own_errors (by decide : 12 ≤ 20)).2 clock nestedBlocks .initial _ _
    wholeEnds).1 (by rintro ⟨fault, -, ⟨⟩⟩)
  have parsed := (limits_give_own_errors (by decide : 18 ≤ 20)).1 false tokens ending
    (by decide +kernel)
  exact ⟨by decide, rfl, rfl, recorded.1 rfl, recorded.2.1 known, recorded.2.2 _ _ wholeEnds, rfl,
    rfl, same, parsed⟩

end LoxLang

import LoxLang.Proofs.MovedPrograms
import LoxLang.Proofs.Relocation
import LoxLang.Proofs.SessionSteps
import LoxLang.Proofs.Simulation

/-!
# Layout does not matter

Blanks, newlines and comments decide where the symbols of a text stand, and nothing else about a
run. Two texts of the same symbols, run in sessions that are the same but for positions, give the
same answer and the same output, and leave sessions that are again the same but for positions: in
the tokens of the functions that they hold, in the diagnostics that are waiting and in the fault.
-/

namespace LoxLang

/-! ## What is left without positions -/

/-- The place of everything where positions are left out. -/
def Position.erased (_ : Position) : Position := ⟨0, 0⟩

/-- A token without its position. -/
def Token.symbol (token : Token) : Token :=
  token.move .erased

/-- A diagnostic without its position. -/
def Diagnostic.finding (diagnostic : Diagnostic) : Diagnostic :=
  diagnostic.move .erased

theorem Token.lexeme_eq_of_symbol_eq {token token' : Token} (same : token.symbol = token'.symbol) :
    token.lexeme = token'.lexeme := by
  have lexemes := congrArg Token.lexeme same
  exact lexemes

theorem Token.kind_eq_of_symbol_eq {token token' : Token} (same : token.symbol = token'.symbol) :
    token.kind = token'.kind := by
  have kinds := congrArg Token.kind same
  exact kinds

theorem Token.summary_symbol (token : Token) : token.symbol.summary = token.summary := rfl

/-- Whether two texts differ in layout only: they have the same symbols, and scanning finds the same
faults in them. -/
structure SameSymbols (interactive : Bool) (text text' : List Char) : Prop where
  tokens : (Scan.ofText interactive text).tokens.map (·.symbol) =
    (Scan.ofText interactive text').tokens.map (·.symbol)
  diagnostics : (Scan.ofText interactive text).diagnostics.map (·.finding) =
    (Scan.ofText interactive text').diagnostics.map (·.finding)

namespace SameSymbols

variable {interactive : Bool} {text text' : List Char}

/-- Texts of the same symbols have the same trees and the same diagnostics, but for positions. -/
theorem parse (same : SameSymbols interactive text text') :
    (Parse.ofText interactive text).move .erased =
      (Parse.ofText interactive text').move .erased := by
  -- Parsing commutes with moving the tokens, also if all of them are moved to one place.
  have moved (scan : Scan) : Parse.ofTokens Parse.nestingLimit interactive
      (scan.tokens.map (·.symbol)) scan.ending.symbol =
        (Parse.ofScan interactive scan).move .erased :=
    Parse.ofTokens_move _ _ _ _
  have sameParse : (Parse.ofScan interactive (Scan.ofText interactive text)).move .erased =
      (Parse.ofScan interactive (Scan.ofText interactive text')).move .erased := by
    rw [← moved, ← moved, same.tokens]
    rfl
  simp only [Parse.move, Parse.mk.injEq] at sameParse
  simp only [Parse.move, Parse.ofText, List.map_append, sameParse, Parse.mk.injEq, true_and,
    List.append_cancel_right_eq]
  exact same.diagnostics

theorem summaries (same : SameSymbols interactive text text') :
    (Scan.ofText interactive text).allTokens.map (·.summary) =
      (Scan.ofText interactive text').allTokens.map (·.summary) := by
  have symbols := congrArg (List.map (·.summary)) same.tokens
  simp only [List.map_map, Function.comp_def, Token.summary_symbol] at symbols
  simp only [Scan.allTokens, List.map_append, symbols]
  rfl

end SameSymbols

namespace Correspondence

/-- The correspondence of runs of the same symbols: only positions differ. -/
def ofLayout (clock clock' : Nat → Float) : Correspondence where
  Origin := Unit
  token _ token token' := token.symbol = token'.symbol
  frame id id' := id = id'
  identity index index' := index = index'
  mark index index' := index = index'
  output lines lines' := lines = lines'
  clock := clock
  clock' := clock'
  symbol _ {_ _} same := ⟨Token.kind_eq_of_symbol_eq same, Token.lexeme_eq_of_symbol_eq same⟩
  older := older_of_eq
  globals := rfl
  unique := Eq.congr
  unmarked := Nat.zero_eq
  push := by
    rintro _ _ _ rfl
    rfl

variable {clock clock' : Nat → Float}

theorem ofLayout_fixed : (ofLayout clock clock').Fixed :=
  ⟨Iff.rfl, Iff.rfl, Iff.rfl⟩

theorem ofLayout_together : (ofLayout clock clock').MovesTogether () .erased :=
  ⟨id, fun _ => ofLayout_fixed.values_iff.mpr rfl⟩

end Correspondence

open Correspondence

/-! ## Machines and sessions that are the same but for positions -/

/-- `Alike clock clock' machine machine'` says that two machines are the same but for the positions
of the tokens in their functions, and that their clocks will show the same. -/
structure Machine.Alike (clock clock' : Nat → Float) (machine machine' : Machine) : Prop where
  heap : machine.heap = machine'.heap
  current : machine.current = machine'.current
  callables : ∀ identity : Nat, Option.Rel (ofLayout clock clock').Callables
    machine.callables[identity]? machine'.callables[identity]?
  output : machine.output = machine'.output
  marks : machine.marks = machine'.marks
  readings : ∀ more, clock (machine.readings + more) = clock' (machine'.readings + more)
  interrupted : machine.interrupted = machine'.interrupted

variable {clock clock' : Nat → Float}

theorem Machine.Alike.size_eq {machine machine' : Machine}
    (alike : machine.Alike clock clock' machine') :
    machine.callables.size = machine'.callables.size := by
  -- The callables are compared one by one, so the sizes are compared by where they end.
  have sameEnd (identity : Nat) :
      machine.callables.size ≤ identity ↔ machine'.callables.size ≤ identity := by
    rw [← Array.getElem?_eq_none_iff, ← Array.getElem?_eq_none_iff]
    have targets := alike.callables identity
    generalize machine.callables[identity]? = target at targets
    generalize machine'.callables[identity]? = target' at targets
    cases targets <;> simp
  exact Nat.le_antisymm ((sameEnd _).mpr (Nat.le_refl _)) ((sameEnd _).mp (Nat.le_refl _))

theorem Correspondence.ofLayout_machines_iff {machine machine' : Machine} :
    (ofLayout clock clock').Machines machine machine' ↔ machine.Alike clock clock' machine' := by
  constructor
  · intro machines
    exact
      { heap := ofLayout_fixed.heap_eq machines
        current := machines.current
        callables := fun _ => machines.callables rfl
        output := machines.output
        marks := Nat.succ.inj (machines.newMarks 0)
        readings := machines.readings
        interrupted := machines.interrupted }
  · intro alike
    exact
      { frames := fun ids => ofLayout_fixed.frames_of_heap_eq alike.heap ids
        newFrames := fun more => congrArg (fun heap : Heap => heap.size + more) alike.heap
        current := alike.current
        callables := by
          rintro identity _ rfl
          exact alike.callables identity
        newCallables := fun _ => congrArg (· + _) alike.size_eq
        newMarks := fun _ => congrArg (· + 1 + _) alike.marks
        readings := alike.readings
        output := alike.output
        interrupted := alike.interrupted }

/-- `Alike clock clock' session session'` says that two sessions are the same but for positions, and
for the sources that they were given last. -/
structure Session.Alike (clock clock' : Nat → Float) (session session' : Session) : Prop where
  mode : session.mode = session'.mode
  fatal : session.reporter.fatal = session'.reporter.fatal
  colored : session.reporter.colored = session'.reporter.colored
  queue : session.reporter.queue.map (·.finding) = session'.reporter.queue.map (·.finding)
  runtimeError : session.reporter.runtimeError.map (·.finding) =
    session'.reporter.runtimeError.map (·.finding)
  machine : session.machine.Alike clock clock' session'.machine
  transcript : session.transcript = session'.transcript

/-- `SameResults clock clock' result result'` says that two runs have the same answer or end for the
same reason, and that they leave sessions that are the same but for positions. -/
inductive Session.SameResults (clock clock' : Nat → Float) :
    EStateM.Result Abort Session Bool → EStateM.Result Abort Session Bool → Prop
  | ok (answer : Bool) {after after' : Session} (alike : after.Alike clock clock' after') :
      SameResults clock clock' (.ok answer after) (.ok answer after')
  | error (reason : Abort) {after after' : Session} (alike : after.Alike clock clock' after') :
      SameResults clock clock' (.error reason after) (.error reason after')

namespace Session

variable {session session' : Session} {source source' : String}

namespace Alike

protected theorem refl (clock : Nat → Float) (session : Session) :
    session.Alike clock clock session := by
  have callables (identity : Nat) : Option.Rel (ofLayout clock clock).Callables
      session.machine.callables[identity]? session.machine.callables[identity]? := by
    cases session.machine.callables[identity]? with
    | none => exact .none
    | some target =>
        have tokens : ∀ token ∈ target.tokens, (ofLayout clock clock).token () token token :=
          fun _ _ => rfl
        exact .some (callables_refl ofLayout_together.values (fun _ => rfl) target tokens)
  have machine : session.machine.Alike clock clock session.machine :=
    ⟨rfl, rfl, callables, rfl, rfl, fun _ => rfl, rfl⟩
  exact ⟨rfl, rfl, rfl, rfl, rfl, machine, rfl⟩

theorem parsed (alike : session.Alike clock clock' session')
    (same : SameSymbols session.mode.interactive source.toList source'.toList) :
    (session.parsed source).move .erased = (session'.parsed source').move .erased := by
  rw [Session.parsed, Session.parsed, ← alike.mode]
  exact same.parse

theorem trace (alike : session.Alike clock clock' session') (text : String) :
    (session.trace text).Alike clock clock' (session'.trace text) :=
  { alike with
    transcript := by
      simp only [Session.trace, Session.write, alike.colored, alike.transcript] }

/-- The diagnostics that are waiting when a source has been parsed. -/
theorem queue_examined (alike : session.Alike clock clock' session')
    (same : SameSymbols session.mode.interactive source.toList source'.toList) :
    (session.reporter.queue ++ (session.parsed source).diagnostics).map (·.finding) =
      (session'.reporter.queue ++ (session'.parsed source').diagnostics).map (·.finding) := by
  have sameDiagnostics : (session.parsed source).diagnostics.map (·.finding) =
      (session'.parsed source').diagnostics.map (·.finding) :=
    congrArg Parse.diagnostics (alike.parsed same)
  rw [List.map_append, List.map_append, alike.queue, sameDiagnostics]

theorem quiet_iff (alike : session.Alike clock clock' session')
    (same : SameSymbols session.mode.interactive source.toList source'.toList) :
    session.reporter.queue ++ (session.parsed source).diagnostics = [] ↔
      session'.reporter.queue ++ (session'.parsed source').diagnostics = [] := by
  rw [← List.map_eq_nil_iff, alike.queue_examined same, List.map_eq_nil_iff]

theorem tokensShown (alike : session.Alike clock clock' session')
    (same : SameSymbols session.mode.interactive source.toList source'.toList) :
    session.tokensShown source = session'.tokensShown source' := by
  unfold Session.tokensShown
  dsimp only
  rw [← alike.mode, same.summaries, (alike.trace _).transcript, alike.transcript]

/-- Scanning and parsing leave sessions alike. -/
theorem examined (alike : session.Alike clock clock' session')
    (same : SameSymbols session.mode.interactive source.toList source'.toList) :
    (session.examined source).Alike clock clock' (session'.examined source') :=
  { alike with
    queue := alike.queue_examined same
    transcript := alike.tokensShown same }

theorem statements (alike : session.Alike clock clock' session')
    (same : SameSymbols session.mode.interactive source.toList source'.toList) :
    (session.parsed source).statements.map (·.move .erased) =
      (session'.parsed source').statements.map (·.move .erased) :=
  congrArg Parse.statements (alike.parsed same)

/-- A tree is shown without positions. -/
theorem program_eq (alike : session.Alike clock clock' session')
    (same : SameSymbols session.mode.interactive source.toList source'.toList) :
    Stmt.program (session.parsed source).statements =
      Stmt.program (session'.parsed source').statements := by
  rw [← Stmt.program_move .erased, alike.statements same, Stmt.program_move]

theorem shows_iff (alike : session.Alike clock clock' session')
    (same : SameSymbols session.mode.interactive source.toList source'.toList) :
    session.Shows source ↔ session'.Shows source' := by
  have printed : Printer.print (session.parsed source).statements =
      Printer.print (session'.parsed source').statements := by
    rw [← Printer.print_move .erased, alike.statements same, Printer.print_move]
  rw [Session.Shows, Session.Shows, alike.mode, printed]

theorem prepared (alike : session.Alike clock clock' session')
    (same : SameSymbols session.mode.interactive source.toList source'.toList) :
    (session.prepared source).Alike clock clock' (session'.prepared source') := by
  have examined := alike.examined same
  unfold Session.prepared
  rw [← alike.mode, alike.program_eq same]
  split
  · exact examined.trace _
  · exact examined

/-- Programs of the same symbols correspond. -/
theorem programs (alike : session.Alike clock clock' session')
    (same : SameSymbols session.mode.interactive source.toList source'.toList) :
    List.Forall₂ ((ofLayout clock clock').Stmts ()) (session.parsed source).statements
      (session'.parsed source').statements := by
  refine stmts_of_moveAll_eq ofLayout_together _ _ ?_
  rw [Stmt.moveAll_eq_map, Stmt.moveAll_eq_map, alike.statements same]

end Alike

theorem finding_diagnostic_eq {fault fault' : Fault}
    (faults : (ofLayout clock clock').Faults fault fault') :
    fault.diagnostic.finding = fault'.diagnostic.finding := by
  rcases faults with ⟨origin, cause, tokens⟩
  cases tokens with
  | none => rfl
  | some same =>
      simp only [Fault.diagnostic, Token.lexeme_eq_of_symbol_eq same]
      rfl

/-- Programs that correspond are interpreted alike. -/
theorem sameResults_interpret {setting : Setting} {program program' : List Stmt}
    (alike : session.Alike setting.clock clock' session')
    (programs : List.Forall₂ ((ofLayout setting.clock clock').Stmts ()) program program') :
    SameResults setting.clock clock' (interpret setting program session)
      (interpret { setting with clock := clock' } program' session') := by
  have settings : (ofLayout setting.clock clock').Settings setting
      { setting with clock := clock' } := ⟨rfl, rfl, rfl⟩
  have machines := ofLayout_machines_iff.mpr alike.machine
  rcases interpreted settings rfl programs machines with ⟨verdicts, machines⟩
  rw [interpret_eq, interpret_eq]
  generalize LoxLang.interpret setting program session.machine = ended at verdicts machines
  generalize LoxLang.interpret { setting with clock := clock' } program' session'.machine = ended'
    at verdicts machines
  rcases ended with ⟨verdict, machine⟩
  rcases ended' with ⟨verdict', machine'⟩
  have alikeMachines : machine.Alike setting.clock clock' machine' :=
    ofLayout_machines_iff.mp machines
  have concluded : (session.concluded machine).Alike setting.clock clock'
      (session'.concluded machine') :=
    { alike with
      machine := { alikeMachines with output := rfl }
      transcript := by simp only [Session.concluded, alike.transcript, alikeMachines.output] }
  cases verdicts with
  | finished => exact .ok true concluded
  | escaped reason => exact .error reason concluded
  | faulted faults =>
      refine .ok false { concluded with runtimeError := ?_ }
      exact congrArg some (finding_diagnostic_eq faults)

/-- Texts of the same symbols are run alike in sessions that are alike. -/
theorem sameResults_run {setting : Setting} (alike : session.Alike setting.clock clock' session')
    (same : SameSymbols session.mode.interactive source.toList source'.toList) :
    SameResults setting.clock clock' (run setting source session)
      (run { setting with clock := clock' } source' session') := by
  rw [run_eq, run_eq]
  by_cases quiet : session.reporter.queue ++ (session.parsed source).diagnostics = []
  · rw [if_pos quiet, if_pos ((alike.quiet_iff same).mp quiet)]
    by_cases shown : session.Shows source
    · rw [if_pos shown, if_pos ((alike.shows_iff same).mp shown)]
      exact sameResults_interpret (alike.prepared same) (alike.programs same)
    · rw [if_neg shown, if_neg (mt (alike.shows_iff same).mpr shown)]
      exact .error unprintable (alike.examined same)
  · rw [if_neg quiet, if_neg (mt (alike.quiet_iff same).mpr quiet)]
    exact .ok false (alike.examined same)

/-- Layout never changes what a text means. In every session, two texts of the same symbols are run
with the same answer, or end early for the same reason, and with the same output, and leave sessions
that are the same but for positions. The same holds if the two sessions were already different in
positions, and if they have different clocks that show the same. -/
theorem run_sameSymbols (setting : Setting) (clock' : Nat → Float) (source source' : String) :
    (∀ session : Session,
      SameSymbols session.mode.interactive source.toList source'.toList →
      SameResults setting.clock setting.clock (run setting source session)
        (run setting source' session)) ∧
    (∀ session session' : Session, session.Alike setting.clock clock' session' →
      SameSymbols session.mode.interactive source.toList source'.toList →
      SameResults setting.clock clock' (run setting source session)
        (run { setting with clock := clock' } source' session')) := by
  constructor
  · intro session same
    exact sameResults_run (.refl setting.clock session) same
  · intro session session' alike same
    exact sameResults_run alike same

/-- A function that uses a name which nothing defines, on one line. -/
def onOneLine : String := "fun show(it) \x7b print it; print missing; \x7d"

/-- The same function, spread over several lines and with comments. -/
def onManyLines : String :=
  "// Shows it.\nfun show (it)\n\x7b\n  print it; /* and then */\n  print missing;\n\x7d\n"

theorem SameResults.final {result result' : EStateM.Result Abort Session Bool}
    (same : SameResults clock clock' result result') :
    (final result).Alike clock clock' (final result') := by
  cases same with
  | ok answer alike => exact alike
  | error reason alike => exact alike

theorem run_sameSymbols_onManyLines :
    let setting : Setting := ⟨30, 5, fun _ => 0⟩
    let session : Session := ⟨{}, {}, .initial, {}⟩
    SameSymbols false onOneLine.toList onManyLines.toList ∧
    SameSymbols false "show(nil);".toList "show\n( nil ) ;".toList ∧
    SameResults setting.clock setting.clock
      (run setting "show(nil);" (final (run setting onOneLine session)))
      (run setting "show\n( nil ) ;" (final (run setting onManyLines session))) := by
  intro setting session
  have sameDeclarations : SameSymbols false onOneLine.toList onManyLines.toList :=
    ⟨by cbv, by cbv⟩
  have sameCalls : SameSymbols false "show(nil);".toList "show\n( nil ) ;".toList :=
    ⟨by cbv, by cbv⟩
  have alike := ((run_sameSymbols setting setting.clock _ _).1 session sameDeclarations).final
  refine ⟨sameDeclarations, sameCalls, (run_sameSymbols setting setting.clock _ _).2 _ _ alike ?_⟩
  rw [final_run_mode]
  exact sameCalls

end Session

end LoxLang

import LoxLang.Proofs.Histories
import LoxLang.Proofs.ShellLines

/-!
# Where the token of a fault was read

A function keeps the tokens of the source that declared it for as long as a session lasts. So a
fault of a run points at a token of the source that is run, or at one of a source that was run
earlier. Excerpts are taken from one source only, which is the one that was run last when the fault
is reported. Therefore the excerpt for a fault shows the offending line if the token was read from
that source; otherwise it shows whatever stands there in the wrong source.
-/

namespace LoxLang

/-! ## Tokens of functions -/

theorem Stmt.tokens_subset_allTokens {statement : Stmt} {statements : List Stmt}
    (isStatement : statement ∈ statements) : statement.tokens ⊆ Stmt.allTokens statements := by
  induction isStatement with
  | head => exact List.subset_append_left _ _
  | tail _ _ ih => exact List.Subset.trans ih (List.subset_append_right _ _)

theorem Stmt.Occurs.tokens_subset {loops : Bool} {part whole : Stmt}
    (occurs : Occurs loops part whole) : part.tokens ⊆ whole.tokens := by
  intro token isToken
  induction occurs with
  | here => exact isToken
  | block isStatement _ ih => exact tokens_subset_allTokens isStatement ih
  | thenBranch _ ih | elseBranch _ ih | whileBody _ _ ih | initializer _ ih | forBody _ _ ih =>
      simp only [Stmt.tokens, Stmt.optionalTokens, List.mem_append]
      tauto

/-- The callables with no tokens but known ones. -/
def Repertoire.mentioning (Known : Token → Prop) : Repertoire where
  Has target := ∀ token ∈ target.tokens, Known token
  bodies name parameters body closure known statement isStatement := by
    intro name' parameters' body' occurs token isToken
    have inBody : token ∈ Stmt.allTokens body :=
      Stmt.tokens_subset_allTokens isStatement (occurs.tokens_subset isToken)
    exact known token (.tail _ (List.mem_append_right _ inBody))
  products _ _ _ known := known

theorem Repertoire.covers_mentioning {Known : Token → Prop} {program : List Stmt}
    (known : ∀ token ∈ Stmt.allTokens program, Known token) :
    ∀ statement ∈ program, (mentioning Known).Covers statement :=
  fun _ isStatement _ _ _ occurs token isToken =>
    known token (Stmt.tokens_subset_allTokens isStatement (occurs.tokens_subset isToken))

/-- The source that a request runs. -/
def Request.source? : Request → Option String
  | .run source => some source
  | .file path contents => contents.text? path
  | .parse _ | .scan _ | .report | .reset => none

/-- The source that a line runs. -/
def Shell.source? (line : String) : Option String :=
  match command line with
  | .run source => some source
  | .ignore | .help | .endOfInput | .exit => none

namespace Session

variable {setting : Setting} {source lexeme : String} {session : Session} {token : Token}

/-- A run brings no tokens into a session but those of its program. -/
theorem mentions_of_run (mentions : (final (run setting source session)).Mentions token) :
    session.Meets source token := by
  have known : session.machine.Within (.mentioning (session.Meets source)) :=
    fun target isTarget token isToken => .inr ⟨target, isTarget, isToken⟩
  rcases session.evolves_run source setting (Repertoire.covers_mentioning fun _ => .inl) known with
    ⟨machine, evolves, -, sameCallables⟩
  rcases mentions with ⟨target, isTarget, isToken⟩
  rw [sameCallables] at isTarget
  exact evolves.within known target isTarget token isToken

/-! ## The sources of a session -/

/-- Whether a token was read from one of some sources. -/
def ReadFrom (interactive : Bool) (sources : List String) (token : Token) : Prop :=
  ∃ source ∈ sources, token ∈ (Scan.ofText interactive source.toList).tokens

/-- Whether all tokens of the functions that a session holds were read from some sources. -/
structure DrawsOn (interactive : Bool) (sources : List String) (session : Session) : Prop where
  mode : session.mode.interactive = interactive
  read : ∀ token, session.Mentions token → ReadFrom interactive sources token

variable {interactive : Bool} {sources : List String}

theorem ReadFrom.mono {more : List String} (read : ReadFrom interactive sources token)
    (included : sources ⊆ more) : ReadFrom interactive more token := by
  rcases read with ⟨source, isSource, isToken⟩
  exact ⟨source, included isSource, isToken⟩

theorem DrawsOn.fresh (mode : SessionMode) (fatal colored : Bool) :
    (fresh mode fatal colored).DrawsOn mode.interactive [] :=
  ⟨rfl, fun _ mentions => absurd mentions not_mentions_fresh⟩

/-- What a session draws on depends on its mode and its machine only. -/
theorem DrawsOn.aside {after : Session} (drawsOn : session.DrawsOn interactive sources)
    (sameMode : after.mode = session.mode) (sameMachine : after.machine = session.machine) :
    after.DrawsOn interactive sources := by
  refine ⟨by rw [sameMode, drawsOn.mode], fun token mentions => ?_⟩
  rw [Mentions, sameMachine] at mentions
  exact drawsOn.read token mentions

theorem DrawsOn.run (drawsOn : session.DrawsOn interactive sources) :
    (final (run setting source session)).DrawsOn interactive (sources ++ [source]) := by
  refine ⟨by rw [final_run_mode, drawsOn.mode], fun token mentions => ?_⟩
  rcases mentions_of_run mentions with isOwn | mentioned
  · have isRead := tokens_accepted_subset isOwn
    rw [drawsOn.mode] at isRead
    exact ⟨source, List.mem_append_right _ (.head _), isRead⟩
  · exact (drawsOn.read token mentioned).mono (List.subset_append_left _ _)

/-- A session draws on the sources of all that it was given one after another. -/
theorem DrawsOn.foldl {Item : Type} {step : Session → Item → Session}
    {source? : Item → Option String}
    (each : ∀ {session sources} item, session.DrawsOn interactive sources →
      (step session item).DrawsOn interactive (sources ++ (source? item).toList))
    (items : List Item) (drawsOn : session.DrawsOn interactive sources) :
    (items.foldl step session).DrawsOn interactive (sources ++ items.filterMap source?) := by
  induction items generalizing session sources with
  | nil => simpa using drawsOn
  | cons item items ih =>
      have rest := ih (each item drawsOn)
      cases isSource : source? item with
      | none => simpa [isSource] using rest
      | some source => simpa [isSource] using rest

/-! ## Requests -/

variable {requests : List Request} {diagnostic : Diagnostic}

/-- Running the text of a file is running it and, unless that is ended early, reporting on it. -/
theorem final_runOnce (setting : Setting) (source : String) (session : Session) :
    final (runOnce setting source session) = final (run setting source session) ∨
      final (runOnce setting source session) = (final (run setting source session)).report := by
  cases isRun : run setting source session with
  | ok answer after =>
      rw [runOnce_of_ok isRun]
      exact .inr rfl
  | error reason after =>
      rw [runOnce_of_error isRun]
      exact .inl rfl

theorem DrawsOn.serve (drawsOn : session.DrawsOn interactive sources) (request : Request) :
    (session.serve setting request).DrawsOn interactive
      (sources ++ request.source?.toList) := by
  cases request with
  | run source => exact drawsOn.run
  | file path contents =>
      rw [Request.source?, Session.serve]
      cases isText : contents.text? path with
      | none =>
          rcases @exists_transcript_of_noText setting path contents session isText with
            ⟨transcript, isFinal⟩
          rw [isFinal, Option.toList_none, List.append_nil]
          exact drawsOn.aside rfl rfl
      | some source =>
          rw [runFile_of_text isText]
          rcases final_runOnce setting source session with isRun | isReport
          · rw [isRun]
            exact drawsOn.run
          · rw [isReport]
            exact drawsOn.run.aside rfl rfl
  | parse source =>
      rw [Session.serve, parse_eq, Request.source?, Option.toList_none, List.append_nil]
      exact drawsOn.aside rfl rfl
  | scan | report | reset =>
      rw [Request.source?, Option.toList_none, List.append_nil]
      exact drawsOn.aside rfl rfl

theorem drawsOn_serveAll (mode : SessionMode) (fatal colored : Bool) (requests : List Request) :
    ((fresh mode fatal colored).serveAll setting requests).DrawsOn mode.interactive
      (requests.filterMap Request.source?) :=
  (DrawsOn.fresh mode fatal colored).foldl (fun request drawsOn => drawsOn.serve request) requests

/-- The source that excerpts are taken from is the one that was run last. -/
theorem source_serve (request : Request) :
    (session.serve setting request).reporter.source =
      request.source?.or session.reporter.source := by
  cases request with
  | run source => exact (final_run_reporter setting source session).1
  | file path contents =>
      rw [Request.source?, Session.serve]
      cases isText : contents.text? path with
      | none => exact congrArg Reporter.source (final_runFile_of_noText isText).1
      | some source =>
          rw [runFile_of_text isText]
          have isSource := (final_run_reporter setting source session).1
          rcases final_runOnce setting source session with isRun | isReport
          · rw [isRun]
            exact isSource
          · rw [isReport]
            exact isSource
  | parse source =>
      rw [Session.serve, parse_eq]
      rfl
  | scan | report | reset => rfl

theorem source_serveAll (requests : List Request) :
    (session.serveAll setting requests).reporter.source =
      (requests.filterMap Request.source?).getLast?.or session.reporter.source := by
  induction requests using List.reverseRecOn with
  | nil => rfl
  | append_singleton earlier request ih =>
      rw [serveAll_snoc, source_serve, ih]
      cases isSource : request.source? with
      | none => simp [isSource]
      | some source => simp [isSource]

/-- A fault that waits after some requests was there before, or is that of one of their runs. -/
theorem LeftBehind.recorded_or_before {waiting : Option Diagnostic}
    (left : LeftBehind setting session requests waiting) (isWaiting : waiting = some diagnostic) :
    session.reporter.runtimeError = some diagnostic ∨
      ∃ (earlier : List Request) (source : String) (later : List Request) (fault : Fault),
        requests = earlier ++ Request.run source :: later ∧
          (session.serveAll setting earlier).Records setting source fault ∧
          fault.diagnostic = diagnostic := by
  induction left with
  | start => exact .inl isWaiting
  | kept _ keeps ih =>
      refine (ih isWaiting).imp_right ?_
      rintro ⟨earlier, source, later, fault, rfl, records, isFault⟩
      exact ⟨earlier, source, later ++ [_], fault, List.append_assoc _ _ _, records, isFault⟩
  | cleared => cases isWaiting
  | recorded records => exact .inr ⟨_, _, [], _, rfl, records, Option.some.inj isWaiting⟩

/-! ## Lines -/

theorem DrawsOn.answer (drawsOn : session.DrawsOn interactive sources) (line : String) :
    (final (Shell.answer setting line session)).DrawsOn interactive
      (sources ++ (Shell.source? line).toList) := by
  rw [Shell.answer, Shell.source?]
  cases Shell.command line with
  | ignore | help | endOfInput | exit =>
      rw [Option.toList_none, List.append_nil]
      exact drawsOn.aside rfl rfl
  | run source =>
      rw [Shell.final_obey_run, Shell.runSource]
      have afterRun := @DrawsOn.run setting source _ _ _ drawsOn
      cases isRun : Session.run setting source session with
      | ok answer after =>
          rw [isRun] at afterRun
          exact afterRun.aside rfl rfl
      | error reason after =>
          -- Settling what has escaped writes about it and changes the reporter only.
          rw [isRun] at afterRun
          dsimp only
          split
          · exact afterRun.aside rfl rfl
          · exact afterRun.aside rfl rfl

theorem drawsOn_answerAll (mode : SessionMode) (fatal colored : Bool) (lines : List String) :
    (Shell.answerAll setting lines (fresh mode fatal colored)).DrawsOn mode.interactive
      (lines.filterMap Shell.source?) :=
  (DrawsOn.fresh mode fatal colored).foldl (fun line drawsOn => drawsOn.answer line) lines

/-! ## Excerpts -/

/-- Where a token at which a run of a source faults was read: from that source, or, if it is one of
a function that the session held before, from one of the sources that were run earlier. -/
def Traces (interactive : Bool) (earlier : List String) (source : String) (session : Session)
    (token : Token) : Prop :=
  token ∈ (Scan.ofText interactive source.toList).tokens ∨
    session.Mentions token ∧ ReadFrom interactive earlier token

theorem Records.traces {fault : Fault} (records : session.Records setting source fault)
    (drawsOn : session.DrawsOn interactive sources) (hasToken : fault.token = some token) :
    session.Traces interactive sources source token := by
  rcases records.meets hasToken with isOwn | mentioned
  · rw [← drawsOn.mode]
    exact .inl (tokens_accepted_subset isOwn)
  · exact .inr ⟨mentioned, drawsOn.read token mentioned⟩

/-- The excerpt for a fault shows the offending line if its token was read from the source that the
excerpt is taken from. -/
theorem explains_of_token {reporter : Reporter} {fault : Fault}
    (isSource : reporter.source = some source) (hasToken : fault.token = some token)
    (isRead : token ∈ (Scan.ofText interactive source.toList).tokens)
    (newlines : Text.NewlinesOnly source.toList) :
    reporter.Explains source.toList fault.diagnostic := by
  rcases fault with ⟨_, cause⟩
  cases hasToken
  have isPlace := points_of_token (List.mem_append_left _ isRead)
  refine Points.explains isPlace isSource newlines fun isEmpty => ?_
  rw [isEmpty] at isRead
  simp [Scan.ofText, Segment.segments, Segment.placed, Scan.lacksSemicolon] at isRead

/-- A report starts with the fault that is waiting. -/
theorem adds_report_of_runtimeError (isFault : session.reporter.runtimeError = some diagnostic) :
    ∃ rest, session.transcript.Adds session.report.transcript ""
      (session.reporter.announcement diagnostic ++ rest) := by
  refine ⟨String.join (session.reporter.queue.map session.reporter.announcement), ?_⟩
  have adds := Shell.adds_report (.refl session.transcript)
  simpa [Reporter.report, isFault] using adds

/-- A line with a fault prints, behind its traces and its output, what is to be printed about the
fault, with an excerpt of the line. -/
theorem adds_answer_of_records {line : String} {fault : Fault} (ready : session.Ready)
    (isRun : Shell.command line = .run source) (records : session.Records setting source fault) :
    ∃ output, session.transcript.Adds (final (Shell.answer setting line session)).transcript output
      ((session.reporter.register source).announcement fault.diagnostic) := by
  rcases records with ⟨admits, faulted⟩
  rw [accepted, if_pos admits] at faulted
  rw [Shell.answer, isRun, Shell.final_obey_run]
  cases (Shell.runSource_settled ready setting source).2 with
  | diagnosed wrong => exact absurd (List.append_eq_nil_iff.mp admits.1).2 wrong
  | unprintable _ noRoom _ _ => exact absurd admits.2 noRoom
  | interpreted _ _ ended closing adds =>
      rw [ended] at faulted
      cases faulted
      cases closing
      exact ⟨_, adds⟩

/-- Where a fault comes from that is reported, and what its excerpt shows. A fault that waits in a
session is that of one of its runs, and one that is shown for a line is that of the line. Its token
was read from the source of that run, or from an earlier source by which a function was declared.
The excerpt is always taken from the source that was run last, so that it shows the offending line
if the token was read from that source. -/
theorem excerpt_of_latest (mode : SessionMode) (fatal colored : Bool) (setting : Setting) :
    (∀ (requests : List Request) (diagnostic : Diagnostic),
      let now := (fresh mode fatal colored).serveAll setting requests
      now.reporter.runtimeError = some diagnostic →
      (∃ rest, now.transcript.Adds (now.serve setting .report).transcript ""
        (now.reporter.announcement diagnostic ++ rest)) ∧
      ∃ (earlier : List Request) (source : String) (later : List Request) (fault : Fault)
        (latest : String), requests = earlier ++ Request.run source :: later ∧
        let before := (fresh mode fatal colored).serveAll setting earlier
        before.Records setting source fault ∧ fault.diagnostic = diagnostic ∧
        (requests.filterMap Request.source?).getLast? = some latest ∧
        now.reporter.source = some latest ∧
        ∀ token, fault.token = some token →
          before.Traces mode.interactive (earlier.filterMap Request.source?) source token ∧
          (token ∈ (Scan.ofText mode.interactive latest.toList).tokens →
            Text.NewlinesOnly latest.toList → now.reporter.Explains latest.toList diagnostic)) ∧
    (∀ (lines : List String) (line source : String) (fault : Fault),
      let before := Shell.answerAll setting lines (fresh mode false colored)
      let reporter := before.reporter.register source
      Shell.command line = .run source → before.Records setting source fault →
      (∃ output, before.transcript.Adds (final (Shell.answer setting line before)).transcript output
        (reporter.announcement fault.diagnostic)) ∧
      ∀ token, fault.token = some token →
        before.Traces mode.interactive (lines.filterMap Shell.source?) source token ∧
        (token ∈ (Scan.ofText mode.interactive source.toList).tokens →
          Text.NewlinesOnly source.toList →
          reporter.Explains source.toList fault.diagnostic)) := by
  constructor
  · intro requests diagnostic now isWaiting
    refine ⟨adds_report_of_runtimeError isWaiting, ?_⟩
    rcases (leftBehind_iff.mpr rfl).recorded_or_before isWaiting with
      ⟨⟨⟩⟩ | ⟨earlier, source, later, fault, isRequests, records, rfl⟩
    -- There is a last source, since the run that recorded the fault has one.
    have isSource : now.reporter.source = (requests.filterMap Request.source?).getLast? := by
      rw [source_serveAll]
      exact Option.or_none
    have isSome : (requests.filterMap Request.source?).getLast?.isSome := by
      simp [isRequests, Request.source?]
    rcases Option.isSome_iff_exists.mp isSome with ⟨latest, isLatest⟩
    rw [isLatest] at isSource
    refine ⟨earlier, source, later, fault, latest, isRequests, records, rfl, isLatest, isSource,
      fun token hasToken => ⟨?_, ?_⟩⟩
    · exact records.traces (drawsOn_serveAll mode fatal colored earlier) hasToken
    · exact explains_of_token isSource hasToken
  · intro lines line source fault before reporter isRun records
    have ready : (fresh mode false colored).Ready := ⟨rfl, rfl, rfl, rfl, rfl⟩
    refine ⟨adds_answer_of_records (Shell.answerAll_ready ready setting lines) isRun records,
      fun token hasToken => ⟨?_, explains_of_token rfl hasToken⟩⟩
    exact records.traces (drawsOn_answerAll mode false colored lines) hasToken

/-- A fault with a token, by how a program ends. -/
theorem exists_records (admits : session.Admits source)
    (pointsAt : (LoxLang.interpret setting (session.accepted source)
      session.machine).1.token?.map (·.lexeme) = some lexeme) :
    ∃ fault token, session.Records setting source fault ∧ fault.token = some token ∧
      token.lexeme = lexeme := by
  rcases Option.map_eq_some_iff.mp pointsAt with ⟨token, hasToken, isLexeme⟩
  cases isVerdict : (LoxLang.interpret setting (session.accepted source) session.machine).1 with
  | faulted fault =>
      rw [isVerdict] at hasToken
      exact ⟨fault, token, ⟨admits, isVerdict⟩, hasToken, isLexeme⟩
  | finished | escaped =>
      rw [isVerdict] at hasToken
      cases hasToken

/-- A line that declares a function in which a name is not defined. -/
def declaringLine : String :=
  "fun f() \x7b return missing; \x7d"

/-- A shell in which the function is declared. -/
def declared : Session :=
  Shell.answerAll ⟨30, 5, fun _ => 0⟩ [declaringLine] (fresh { interactive := true } false false)

theorem declaringLine_source : [declaringLine].filterMap Shell.source? = [declaringLine] := by
  decide +kernel

/-- Faults of a source and of a line whose tokens stand in these themselves. -/
theorem excerpt_of_latest_own :
    (∃ diagnostic,
      let now := (fresh {} true false).serveAll ⟨30, 5, fun _ => 0⟩ [.run "nil;\nx;"]
      now.reporter.runtimeError = some diagnostic ∧
        now.reporter.Explains "nil;\nx;".toList diagnostic) ∧
    ∃ fault, declared.Records ⟨30, 5, fun _ => 0⟩ "x" fault ∧
      (declared.reporter.register "x").Explains "x".toList fault.diagnostic := by
  constructor
  · have isFaulted : ((fresh {} true false).serveAll ⟨30, 5, fun _ => 0⟩
        [.run "nil;\nx;"]).reporter.runtimeError.isSome = true := by
      decide +kernel
    have pointsAt : (LoxLang.interpret ⟨30, 5, fun _ => 0⟩
        ((fresh {} true false).accepted "nil;\nx;") .initial).1.token?.isSome = true := by
      decide +kernel
    rcases Option.isSome_iff_exists.mp isFaulted with ⟨diagnostic, isWaiting⟩
    rcases (excerpt_of_latest {} true false ⟨30, 5, fun _ => 0⟩).1 _ diagnostic isWaiting with
      ⟨-, earlier, source, later, fault, latest, isRequests, records, -, isLatest, -, excerpts⟩
    cases isLatest
    cases earlier with
    | cons => simp at isRequests
    | nil =>
        cases isRequests
        have faulted : (LoxLang.interpret ⟨30, 5, fun _ => 0⟩
            ((fresh {} true false).accepted "nil;\nx;") .initial).1 = .faulted fault := records.2
        rw [faulted] at pointsAt
        rcases Option.isSome_iff_exists.mp pointsAt with ⟨token, hasToken⟩
        rcases excerpts token hasToken with ⟨isRead | ⟨-, _, ⟨⟩, -⟩, explains⟩
        exact ⟨diagnostic, isWaiting,
          explains isRead (by simp [Text.NewlinesOnly, Text.isLineBreak])⟩
  · have admits : declared.Admits "x" := by decide +kernel
    have pointsAt : (LoxLang.interpret ⟨30, 5, fun _ => 0⟩ (declared.accepted "x")
        declared.machine).1.token?.map (·.lexeme) = some "x" := by
      decide +kernel
    have isRun : Shell.command "x" = .run "x" := by decide +kernel
    have noSuch : ∀ token ∈ (Scan.ofText true declaringLine.toList).tokens,
        token.lexeme ≠ "x" := by
      decide +kernel
    rcases exists_records admits pointsAt with ⟨fault, token, records, hasToken, isLexeme⟩
    rcases (excerpt_of_latest { interactive := true } true false ⟨30, 5, fun _ => 0⟩).2
      [declaringLine] "x" "x" fault isRun records with ⟨-, excerpts⟩
    rw [declaringLine_source] at excerpts
    rcases excerpts token hasToken with ⟨isOwn | ⟨-, source, isSource, isRead⟩, explains⟩
    · exact ⟨fault, records, explains isOwn (by simp [Text.NewlinesOnly, Text.isLineBreak])⟩
    · rw [List.mem_singleton.mp isSource] at isRead
      exact absurd isLexeme (noSuch token isRead)

/-- A call of a function that an earlier line declared. The fault in the function is shown with the
line of the call, although its token was read from the earlier line. -/
theorem excerpt_of_caller :
    (∃ fault token, declared.Records ⟨30, 5, fun _ => 0⟩ "f()" fault ∧ fault.token = some token ∧
      token ∈ (Scan.ofText true declaringLine.toList).tokens ∧
      token ∉ (Scan.ofText true "f()".toList).tokens) ∧
    (final (Shell.answer ⟨30, 5, fun _ => 0⟩ "f()" declared)).transcript.text =
      "[Line 1:18] [Environment]: error: Undefined variable 'missing'.\n  f()\n     ^\n" := by
  refine ⟨?_, by decide +kernel⟩
  have admits : declared.Admits "f()" := by decide +kernel
  have pointsAt : (LoxLang.interpret ⟨30, 5, fun _ => 0⟩ (declared.accepted "f()")
      declared.machine).1.token?.map (·.lexeme) = some "missing" := by
    decide +kernel
  have noSuch : ∀ token ∈ (Scan.ofText true "f()".toList).tokens, token.lexeme ≠ "missing" := by
    decide +kernel
  rcases exists_records admits pointsAt with ⟨fault, token, records, hasToken, isLexeme⟩
  have notRead : token ∉ (Scan.ofText true "f()".toList).tokens :=
    fun isRead => noSuch token isRead isLexeme
  have drawsOn : declared.DrawsOn true [declaringLine] := by
    rw [← declaringLine_source]
    exact drawsOn_answerAll { interactive := true } false false [declaringLine]
  rcases records.traces drawsOn hasToken with isRead | ⟨-, source, isSource, isRead⟩
  · exact absurd isRead notRead
  · rw [List.mem_singleton.mp isSource] at isRead
    exact ⟨fault, token, records, hasToken, isRead, notRead⟩

end Session

end LoxLang

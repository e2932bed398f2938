import LoxLang.Proofs.Continuation
import LoxLang.Proofs.Excerpts
import LoxLang.Proofs.Exits
import LoxLang.Proofs.Holes

/-!
# Diagnostics point at the offending text

Every diagnostic and every fault of a program comes from a place in its source: a scan reports
segments, the rules of the grammar report tokens of the scan, and the tokens in a tree, which the
faults of a run point at, are tokens of the scan as well. The excerpt for such a place shows the
line on which the offending text starts.
-/

namespace LoxLang

/-! ## Offences -/

/-- `Offence text before offending` says what can be wrong with a text, and which text stands before
it: a token, a character that starts nothing, the first character of what is never closed, or the
end of the text. -/
inductive Offence (text : List Char) : List Char → List Char → Prop
  | token {front back : List Segment} {kind : TokenKind} {lexeme : List Char} {literal : Value}
      (cut : Segment.segments text = front ++ .token kind lexeme literal :: back) :
      Offence text (front.flatMap Segment.text) lexeme
  | unexpected {front back : List Segment} {character : Char}
      (cut : Segment.segments text = front ++ .unexpected character :: back) :
      Offence text (front.flatMap Segment.text) [character]
  | openString {front back : List Segment} {body : List Char}
      (cut : Segment.segments text = front ++ .openString ('"' :: body) :: back) :
      Offence text (front.flatMap Segment.text) ['"']
  | openComment {front back : List Segment} {body : List Char}
      (cut : Segment.segments text = front ++ .openComment ('/' :: body) :: back) :
      Offence text (front.flatMap Segment.text) ['/']
  | ending : Offence text text []

/-- Whether a report at a place, on so many characters, is about an offence in a text. At the end of
the text there are no such characters. -/
def Points (text : List Char) (position : Position) (length : Nat) : Prop :=
  ∃ before offending, Offence text before offending ∧ position = Position.behind before ∧
    (length = offending.length ∨ before = text)

namespace Segment

variable {text : List Char} {front back : List Segment} {segment : Segment}

theorem text_eq_of_cut (cut : segments text = front ++ segment :: back) :
    text = front.flatMap Segment.text ++ (segment.text ++ back.flatMap Segment.text) := by
  have whole := flatMap_text_of_segmented (segmented_segments text)
  rw [cut] at whole
  simpa using whole.symm

theorem Fits.text_ne_nil {rest : List Char} (fits : Fits segment rest) : segment.text ≠ [] := by
  cases fits with
  | integer nonempty => exact nonempty
  | _ => simp [Segment.text]

/-- A segment with a place is a segment of the cut, and the place is behind those before it. -/
theorem exists_cut_of_placed {position : Position}
    (isPlaced : (position, segment) ∈ placed .start (segments text)) :
    ∃ front back, segments text = front ++ segment :: back ∧
      position = Position.behind (front.flatMap Segment.text) := by
  have general : ∀ {start pieces}, (position, segment) ∈ placed start pieces →
      ∃ front back, pieces = front ++ segment :: back ∧
        position = start.after (front.flatMap Segment.text) := by
    intro start pieces isPlaced
    induction pieces generalizing start with
    | nil => cases isPlaced
    | cons piece pieces ih =>
        rcases List.mem_cons.mp isPlaced with isFirst | isLater
        · rcases Prod.mk.inj isFirst with ⟨rfl, rfl⟩
          exact ⟨[], pieces, rfl, rfl⟩
        · rcases ih isLater with ⟨front, back, rfl, isPosition⟩
          refine ⟨piece :: front, back, rfl, ?_⟩
          rw [isPosition, List.flatMap_cons, Position.after_append]
  rcases general isPlaced with ⟨front, back, cut, isPosition⟩
  exact ⟨front, back, cut, isPosition.trans (Position.start_after _)⟩

end Segment

theorem Offence.whole {text before offending : List Char}
    (offence : Offence text before offending) :
    ∃ rest, text = before ++ (offending ++ rest) := by
  cases offence with
  | token cut => exact ⟨_, Segment.text_eq_of_cut cut⟩
  | unexpected cut => exact ⟨_, Segment.text_eq_of_cut cut⟩
  | openString cut => exact ⟨_, by simpa [Segment.text] using Segment.text_eq_of_cut cut⟩
  | openComment cut => exact ⟨_, by simpa [Segment.text] using Segment.text_eq_of_cut cut⟩
  | ending => exact ⟨[], by simp⟩

/-! ## Scanning and parsing -/

variable {interactive : Bool} {text : List Char} {diagnostic : Diagnostic} {token : Token}

theorem points_of_token (isToken : token ∈ (Scan.ofText interactive text).allTokens) :
    Points text token.position (max token.lexeme.length 1) := by
  have atEnd : ∀ length, Points text (Position.start.after text) length := fun length =>
    ⟨text, [], .ending, Position.start_after text, .inr rfl⟩
  have fromSegment : token ∈ (Segment.placed .start (Segment.segments text)).filterMap
      (fun located => located.2.token? located.1) →
      Points text token.position (max token.lexeme.length 1) := by
    intro isRead
    rcases List.mem_filterMap.mp isRead with ⟨⟨position, segment⟩, isPlaced, isTaken⟩
    rcases Segment.exists_cut_of_placed isPlaced with ⟨front, back, cut, isPosition⟩
    have isPiece : segment ∈ Segment.segments text := by simp [cut]
    rcases Segment.fits_of_mem (Segment.segmented_segments text) isPiece with ⟨rest, fits⟩
    have nonempty := List.length_pos_iff.mpr fits.text_ne_nil
    cases segment with
    | token kind lexeme literal =>
        cases isTaken
        refine ⟨_, lexeme, .token cut, isPosition, .inl ?_⟩
        rw [String.length_ofList]
        exact Nat.max_eq_left nonempty
    | _ => cases isTaken
  rcases List.mem_append.mp isToken with isRead | isEnd
  · simp only [Scan.ofText] at isRead
    split at isRead
    · rcases List.mem_append.mp isRead with isRead | isSupplied
      · exact fromSegment isRead
      · rw [List.mem_singleton.mp isSupplied]
        exact atEnd _
    · exact fromSegment isRead
  · rw [List.mem_singleton.mp isEnd]
    exact atEnd _

/-- A run leaves the diagnostics of its source in the queue, and keeps the source for excerpts. -/
theorem Session.final_run_reporter (setting : Setting) (source : String) (session : Session) :
    (final (run setting source session)).reporter.source = some source ∧
      (final (run setting source session)).reporter.queue =
        session.reporter.queue ++ (session.parsed source).diagnostics := by
  by_cases admits : session.Admits source
  · rw [run_of_admits _ _ admits, interpret_eq]
    rcases LoxLang.interpret setting (session.parsed source).statements
      (session.prepared source).machine with ⟨verdict, machine⟩
    cases verdict with
    | finished | escaped | faulted =>
        simp only [final, concluded, prepared_reporter, Reporter.record]
        exact ⟨rfl, rfl⟩
  · rw [final_run_of_not_admits _ _ admits]
    exact ⟨rfl, rfl⟩

namespace Session

/-- A session that has not run anything yet. -/
def fresh (mode : SessionMode) (fatal colored : Bool) : Session where
  mode := mode
  reporter := { fatal, colored }

variable {mode : SessionMode} {fatal colored : Bool} {setting : Setting} {source : String}
  {session : Session}

/-- The tokens that a run of a source can come across: those of its program, and those of the
functions that are there before. -/
def Meets (source : String) (session : Session) (token : Token) : Prop :=
  token ∈ Stmt.allTokens (session.accepted source) ∨ session.Mentions token

/-- The correspondence of a run with itself, with no tokens but those that it can come across. -/
def meeting (setting : Setting) (source : String) (session : Session) : Correspondence :=
  .ofSeam 0 (session.Meets source) (fun _ => False) session.machine.output setting.clock

/-- A fault points at a token of the program that is run, or of a function that was there before. -/
theorem Records.meets {fault : Fault} (records : session.Records setting source fault)
    (hasToken : fault.token = some token) : session.Meets source token := by
  -- The run corresponds to itself with these tokens only, and so does the token of its fault.
  have programs : List.Forall₂ ((session.meeting setting source).Stmts Seam.earlier)
      (session.accepted source) (session.accepted source) :=
    Correspondence.stmts_refl (fun _ => Correspondence.ofSeam_fixed.values_iff.mpr rfl) _
      fun _ isToken => .earlier (.inl isToken)
  have machines : (session.meeting setting source).Machines
      { session.machine with output := #[] } session.machine :=
    Correspondence.ofSeam_machines fun target isTarget _ isToken =>
      .inr ⟨target, isTarget, isToken⟩
  have settings : (session.meeting setting source).Settings setting setting := ⟨rfl, rfl, rfl⟩
  have verdicts := (Correspondence.interpreted settings rfl programs machines).1
  rw [records.2] at verdicts
  rcases fault with ⟨_, cause⟩
  cases hasToken
  generalize (LoxLang.interpret _ _ _).1 = verdict at verdicts
  cases verdicts with
  | faulted faults =>
      rcases faults with ⟨origin, _, isSame⟩
      cases isSame with
      | some tokens =>
          cases tokens with
          | earlier meets => exact meets
          | later isLater => cases isLater

theorem not_mentions_fresh : ¬ (fresh mode fatal colored).Mentions token := by
  rintro ⟨target, isTarget, isToken⟩
  have isClock : target = .native "clock" 0 .clock := by
    simpa [fresh, Machine.initial, Machine.empty, Machine.keep] using isTarget
  simp [isClock, Callable.tokens, Action.tokens] at isToken

/-- A session executes nothing but the program of the source. -/
theorem tokens_accepted_subset :
    Stmt.allTokens (session.accepted source) ⊆
      (Scan.ofText session.mode.interactive source.toList).tokens := by
  unfold accepted
  split
  · exact (Parse.told_ofTokens _ _ _ _).2.1
  · exact List.nil_subset _

end Session

/-- Whether a diagnostic points at an offence in a text, and its excerpt shows the line on which
that starts. There is no excerpt only for the end of a text that ends with a newline. -/
def Reporter.Explains (reporter : Reporter) (text : List Char) (diagnostic : Diagnostic) : Prop :=
  ∃ before offending, Offence text before offending ∧
    diagnostic.position = Position.behind before ∧
    (reporter.Shows text before offending diagnostic ∨
      (before = text ∧ (∃ front, text = front ++ ['\n']) ∧ reporter.excerpt? diagnostic = none))

theorem Points.explains {reporter : Reporter} {source : String} {diagnostic : Diagnostic}
    (points : Points source.toList diagnostic.position diagnostic.length)
    (isSource : reporter.source = some source) (newlines : Text.NewlinesOnly source.toList)
    (nonempty : source.toList ≠ []) : reporter.Explains source.toList diagnostic := by
  rcases points with ⟨before, offending, offence, atPlace, spans⟩
  rcases offence.whole with ⟨rest, whole⟩
  have spans' : diagnostic.length = offending.length ∨ offending ++ rest = [] := by
    refine spans.imp_right fun atEnd => ?_
    rw [atEnd] at whole
    simpa using whole
  refine ⟨before, offending, offence, atPlace, ?_⟩
  refine (Reporter.excerpt?_cases isSource newlines whole atPlace spans').imp_right ?_
  rintro ⟨atEnd, isEmpty | endsWithNewline, noExcerpt⟩
  · exact absurd isEmpty nonempty
  · exact ⟨atEnd, endsWithNewline, noExcerpt⟩

/-- The token that a verdict points at. -/
def Verdict.token? : Verdict → Option Token
  | .faulted fault => fault.token
  | _ => none

theorem Verdict.exists_fault {verdict : Verdict} (pointsAt : verdict.token?.isSome = true) :
    ∃ fault token, verdict = .faulted fault ∧ fault.token = some token := by
  cases verdict with
  | faulted fault =>
      rcases Option.isSome_iff_exists.mp pointsAt with ⟨token, hasToken⟩
      exact ⟨fault, token, rfl, hasToken⟩
  | finished | escaped => cases pointsAt

end LoxLang

import LoxLang.Proofs.Acceptance
import LoxLang.Proofs.Relocation
import LoxLang.Proofs.Scanning

/-!
# Texts that are joined by a newline

Nothing reaches over a newline but a quoted text and a block comment. So the cut of two texts with a
newline between them is made of the cuts of both, unless the first one ends within one of these, and
the tokens of the second text only stand so many lines further down. A program of two texts that are
both accepted is the program of the first and then that of the second.
-/

namespace LoxLang

namespace Position

/-- A place so many lines further down. -/
def down (lines : Nat) (position : Position) : Position :=
  ⟨position.line + lines, position.column⟩

theorem after_down (lines : Nat) (position : Position) (text : List Char) :
    (position.down lines).after text = (position.after text).down lines := by
  induction text generalizing position with
  | nil => rfl
  | cons character text ih =>
      have next_down :
          (position.down lines).next character = (position.next character).down lines := by
        unfold next down
        split
        · simp only [mk.injEq, and_true]
          omega
        · rfl
      simpa only [after, List.foldl_cons, next_down] using ih (position.next character)

/-- The place behind a text and a newline is the start, as many lines further down as there are
newlines. -/
theorem after_newline (text : List Char) :
    start.after (text ++ ['\n']) = start.down (text.count '\n' + 1) := by
  rw [start_after]
  simp [behind, down, start]

end Position

namespace Segment

/-- Whether a segment is not one that the end of the text has cut off. -/
def IsClosed : Segment → Prop
  | .openString _ | .openComment _ => False
  | _ => True

theorem stops_newline {excluded : Char → Bool} {rest : List Char} (stops : Stops excluded rest)
    (notNewline : excluded '\n' = false) (more : List Char) :
    Stops excluded (rest ++ '\n' :: more) := by
  cases rest with
  | nil => exact stops_cons.mpr notNewline
  | cons next rest => exact stops_cons.mpr (stops_cons.mp stops)

/-- A segment that fits before a rest fits before the rest and a newline. -/
theorem Fits.newline {segment : Segment} {rest : List Char} (fits : Fits segment rest)
    (isClosed : segment.IsClosed) (more : List Char) : Fits segment (rest ++ '\n' :: more) := by
  cases fits with
  | mark known => exact .mark known
  | comparisonEqual known => exact .comparisonEqual known
  | comparison known stops => exact .comparison known (stops_newline stops rfl more)
  | slash stops => exact .slash (stops_newline stops rfl more)
  | string unquoted => exact .string unquoted
  | integer nonempty digits stops noFraction =>
      refine .integer nonempty digits (stops_newline stops rfl more) fun next others shape => ?_
      match rest with
      | [] => simp at shape
      | [point] =>
          simp only [List.cons_append, List.nil_append, List.cons.injEq] at shape
          rw [← shape.2.1]
          rfl
      | point :: digit :: rest =>
          simp only [List.cons_append, List.cons.injEq] at shape
          rw [← shape.2.1]
          exact noFraction digit rest (by rw [shape.1])
  | decimal wholeNonempty fractionNonempty wholeDigits fractionDigits stops =>
      exact .decimal wholeNonempty fractionNonempty wholeDigits fractionDigits
        (stops_newline stops rfl more)
  | word start parts typed stops => exact .word start parts typed (stops_newline stops rfl more)
  | blank gap => exact .blank gap
  | lineComment oneLine stops => exact .lineComment oneLine (stops_newline stops rfl more)
  | blockComment isFirst => exact .blockComment isFirst
  | unexpected startsNothing => exact .unexpected startsNothing
  | openString | openComment => exact isClosed.elim

theorem Segmented.join {text : List Char} {pieces : List Segment} (first : Segmented text pieces)
    (allClosed : ∀ segment ∈ pieces, segment.IsClosed) {other : List Char}
    {others : List Segment} (second : Segmented other others) :
    Segmented (text ++ '\n' :: other) (pieces ++ .blank '\n' :: others) := by
  induction first with
  | done =>
      have isGap : '\n' ∈ gaps := by decide
      exact .piece (.blank isGap) second
  | piece fits _ ih =>
      rw [List.forall_mem_cons] at allClosed
      rw [List.append_assoc]
      exact .piece (fits.newline allClosed.1 other) (ih allClosed.2)

/-- The segments of two texts with a newline between them. -/
theorem segments_join {text : List Char} (allClosed : ∀ segment ∈ segments text, segment.IsClosed)
    (other : List Char) :
    segments (text ++ '\n' :: other) = segments text ++ .blank '\n' :: segments other :=
  segments_eq_of_segmented ((segmented_segments text).join allClosed (segmented_segments other))

theorem placed_append (position : Position) (pieces others : List Segment) :
    placed position (pieces ++ others) =
      placed position pieces ++ placed (position.after (pieces.flatMap text)) others := by
  induction pieces generalizing position with
  | nil => rfl
  | cons segment pieces ih =>
      simp only [List.cons_append, placed, ih, List.flatMap_cons, Position.after_append]

theorem placed_down (lines : Nat) (position : Position) (pieces : List Segment) :
    placed (position.down lines) pieces =
      (placed position pieces).map fun (place, segment) => (place.down lines, segment) := by
  induction pieces generalizing position with
  | nil => rfl
  | cons segment pieces ih =>
      simp only [placed, Position.after_down, ih, List.map_cons]

theorem exists_placed (position : Position) {segment : Segment} {pieces : List Segment}
    (isPiece : segment ∈ pieces) : ∃ place, (place, segment) ∈ placed position pieces := by
  induction pieces generalizing position with
  | nil => cases isPiece
  | cons piece pieces ih =>
      rcases List.mem_cons.mp isPiece with rfl | isLater
      · exact ⟨position, List.mem_cons_self⟩
      · rcases ih (position.after piece.text) isLater with ⟨place, isPlaced⟩
        exact ⟨place, List.mem_cons_of_mem _ isPlaced⟩

theorem token?_down (lines : Nat) (position : Position) (segment : Segment) :
    segment.token? (position.down lines) =
      (segment.token? position).map (·.move (Position.down lines)) := by
  cases segment <;> rfl

theorem diagnostic?_down (lines : Nat) (position : Position) (segment : Segment) :
    segment.diagnostic? (position.down lines) =
      (segment.diagnostic? position).map (·.move (Position.down lines)) := by
  unfold diagnostic?
  cases segment.complaint? <;> rfl

/-- The segments of two texts with a newline between them, with their places. -/
theorem placed_join {text : List Char} (allClosed : ∀ segment ∈ segments text, segment.IsClosed)
    (other : List Char) :
    placed .start (segments (text ++ '\n' :: other)) =
      placed .start (segments text) ++ (Position.start.after text, .blank '\n') ::
        (placed .start (segments other)).map fun (place, segment) =>
          (place.down (text.count '\n' + 1), segment) := by
  have whole := flatMap_text_of_segmented (segmented_segments text)
  rw [segments_join allClosed, placed_append, whole, placed]
  have behind : (Position.start.after text).after (Segment.blank '\n').text =
      Position.start.down (text.count '\n' + 1) := by
    rw [← Position.after_append, Segment.text, Position.after_newline]
  rw [behind, placed_down]

end Segment

namespace Scan

/-- Scanning two texts with a newline between them. -/
theorem ofText_join {text : List Char}
    (allClosed : ∀ segment ∈ Segment.segments text, segment.IsClosed) (other : List Char) :
    ofText false (text ++ '\n' :: other) =
      { tokens := (ofText false text).tokens ++
          (ofText false other).tokens.map (·.move (Position.down (text.count '\n' + 1)))
        ending := (ofText false other).ending.move (Position.down (text.count '\n' + 1))
        diagnostics := (ofText false text).diagnostics ++ (ofText false other).diagnostics.map
          (·.move (Position.down (text.count '\n' + 1))) } := by
  have endsThere : Position.start.after (text ++ '\n' :: other) =
      (Position.start.after other).down (text.count '\n' + 1) := by
    rw [List.append_cons, Position.after_append, Position.after_newline, Position.after_down]
  have noToken (position : Position) : (Segment.blank '\n').token? position = none := rfl
  have noDiagnostic (position : Position) : (Segment.blank '\n').diagnostic? position = none := rfl
  simp only [ofText, Segment.placed_join allClosed, endsThere, List.filterMap_append,
    List.filterMap_cons, noToken, noDiagnostic, List.filterMap_map, List.map_filterMap,
    Function.comp_def, Segment.token?_down, Segment.diagnostic?_down, Bool.false_and,
    Bool.false_eq_true, if_false]
  rfl

/-- A text does not end within a quoted text or a comment if its scan does not say so. -/
theorem isClosed_of_terminated {interactive : Bool} {text : List Char}
    (terminated : ∀ diagnostic ∈ (ofText interactive text).diagnostics,
      diagnostic.message ≠ "Unterminated string." ∧
        diagnostic.message ≠ "Unterminated block comment.") :
    ∀ segment ∈ Segment.segments text, segment.IsClosed := by
  intro segment isPiece
  rcases Segment.exists_placed .start isPiece with ⟨place, isPlaced⟩
  have isReported {diagnostic : Diagnostic}
      (reports : segment.diagnostic? place = some diagnostic) :
      diagnostic ∈ (ofText interactive text).diagnostics :=
    List.mem_filterMap.mpr ⟨(place, segment), isPlaced, reports⟩
  cases segment with
  | openString => exact (terminated _ (isReported rfl)).1 rfl
  | openComment => exact (terminated _ (isReported rfl)).2 rfl
  | token | blank | lineComment | blockComment | unexpected => trivial

/-- A text without diagnostics does not end within a quoted text or a comment. -/
theorem isClosed_of_quiet {interactive : Bool} {text : List Char}
    (quiet : (ofText interactive text).diagnostics = []) :
    ∀ segment ∈ Segment.segments text, segment.IsClosed := by
  apply @isClosed_of_terminated interactive
  intro diagnostic isDiagnostic
  rw [quiet] at isDiagnostic
  cases isDiagnostic

/-- Scanning a text that ends within no quoted text and no comment, then a newline and another text,
gives the tokens and diagnostics of both, those of the second so many lines further down. -/
theorem ofText_newline (text other : List Char)
    (terminated : ∀ diagnostic ∈ (ofText false text).diagnostics,
      diagnostic.message ≠ "Unterminated string." ∧
        diagnostic.message ≠ "Unterminated block comment.") :
    let joined := ofText false (text ++ '\n' :: other)
    let further := Position.down (1 + text.count '\n')
    joined.allTokens = (ofText false text).allTokens.dropLast ++
        (ofText false other).allTokens.map (·.move further) ∧
      joined.diagnostics = (ofText false text).diagnostics ++
        (ofText false other).diagnostics.map (·.move further) := by
  intro joined further
  have isJoined := ofText_join (isClosed_of_terminated terminated) other
  rw [Nat.add_comm (text.count '\n') 1] at isJoined
  have isTokens : joined.tokens =
      (ofText false text).tokens ++ (ofText false other).tokens.map (·.move further) :=
    congrArg Scan.tokens isJoined
  have isEnding : joined.ending = (ofText false other).ending.move further :=
    congrArg Scan.ending isJoined
  constructor
  · simp only [allTokens, isTokens, isEnding, List.dropLast_concat, List.map_append, List.map_cons,
      List.map_nil, List.append_assoc]
  · exact congrArg Scan.diagnostics isJoined

/-- Each text has an error of its own, and the first one ends with what a newline has to cut off. -/
theorem ofText_newline_errors :
    let text := "@ \"a\nb\" 1.".toList
    let other := "5 \"open".toList
    let joined := ofText false (text ++ '\n' :: other)
    joined.allTokens = (ofText false text).allTokens.dropLast ++
        (ofText false other).allTokens.map (·.move (Position.down 2)) ∧
      joined.diagnostics.map (·.position) = [⟨1, 1⟩, ⟨3, 3⟩] := by
  have terminated : ∀ diagnostic ∈ (ofText false "@ \"a\nb\" 1.".toList).diagnostics,
      diagnostic.message ≠ "Unterminated string." ∧
        diagnostic.message ≠ "Unterminated block comment." := by
    decide +kernel
  have joins := ofText_newline "@ \"a\nb\" 1.".toList "5 \"open".toList terminated
  refine ⟨joins.1, ?_⟩
  rw [joins.2]
  decide +kernel

end Scan

theorem Grammar.Phrase.Many.append {α : Type} {Item : Phrase α} {tokens others : List Token}
    {trees otherTrees : List α} (first : Many Item tokens trees)
    (second : Many Item others otherTrees) :
    Many Item (tokens ++ others) (trees ++ otherTrees) := by
  induction first with
  | done => exact second
  | more item _ ih =>
      rw [List.append_assoc]
      exact .more item ih

namespace Parse

/-- A text is accepted if neither its scan nor the parse of its tokens has a diagnostic. -/
theorem quiet_iff {interactive : Bool} {text : List Char} :
    (ofText interactive text).diagnostics = [] ↔
      (Scan.ofText interactive text).diagnostics = [] ∧
        (ofScan interactive (Scan.ofText interactive text)).diagnostics = [] :=
  List.append_eq_nil_iff

/-- Parsing two texts with a newline between them, both of which are accepted. -/
theorem ofText_join {text other : List Char} (quiet : (ofText false text).diagnostics = [])
    (quietOther : (ofText false other).diagnostics = []) :
    ofText false (text ++ '\n' :: other) =
      ⟨(ofText false text).statements ++ (ofText false other).statements.map
        (·.move (Position.down (text.count '\n' + 1))), []⟩ := by
  rw [quiet_iff] at quiet quietOther
  have scanned := Scan.ofText_join (Scan.isClosed_of_quiet quiet.1) other
  generalize Position.down (text.count '\n' + 1) = shift at scanned ⊢
  have moved : ofTokens nestingLimit false ((Scan.ofText false other).tokens.map (·.move shift))
      ((Scan.ofText false other).ending.move shift) = _ :=
    ofTokens_move nestingLimit false _ _
  have movedQuiet : ((ofTokens nestingLimit false (Scan.ofText false other).tokens
      (Scan.ofText false other).ending).move shift).diagnostics = [] := by
    rw [move, List.map_eq_nil_iff]
    exact quietOther.2
  rw [← moved] at movedQuiet
  have both := (manyWithin_of_quiet quiet.2).append (manyWithin_of_quiet movedQuiet)
  rw [moved] at both
  have parsed : ofScan false (Scan.ofText false (text ++ '\n' :: other)) =
      ⟨(ofText false text).statements ++
        (ofText false other).statements.map (·.move shift), []⟩ := by
    rw [ofScan, scanned]
    exact ofTokens_of_manyWithin both _
  have scanQuiet : (Scan.ofText false (text ++ '\n' :: other)).diagnostics = [] := by
    rw [scanned, quiet.1, quietOther.1]
    rfl
  rw [ofText]
  simp only [parsed, scanQuiet, List.append_nil]

end Parse

end LoxLang

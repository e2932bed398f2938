import LoxLang.Proofs.Segmentation
import LoxLang.Scan

/-!
# Scanning is longest-match tokenisation

The tokens and diagnostics of a scan are read off the one cut of the text into segments that fit.
A segment stands where the text in front of it ends: as many lines down as that text has newlines,
and as many columns in as it has characters behind the last of them. A scan is a function of the
text and keeps nothing for the next one.
-/

namespace LoxLang

namespace Position

/-- The place behind a text, by counting. -/
def behind (before : List Char) : Position :=
  ⟨1 + before.count '\n', 1 + (before.reverse.takeWhile (· != '\n')).length⟩

theorem after_append (position : Position) (left right : List Char) :
    position.after (left ++ right) = (position.after left).after right :=
  List.foldl_append

theorem start_after (before : List Char) : start.after before = behind before := by
  induction before using List.reverseRecOn with
  | nil => rfl
  | append_singleton before character ih =>
      rw [after_append, ih]
      by_cases newline : character = '\n'
      · simp [after, next, behind, newline, Int.add_assoc]
      · simp [after, next, behind, newline, Int.add_assoc]

theorem behind_after (before text : List Char) :
    (behind before).after text = behind (before ++ text) := by
  rw [← start_after, ← after_append, start_after]

end Position

namespace Segment

/-- The segments of a text with their places: behind the texts of the segments before them. -/
def located (pieces : List Segment) : List (Position × Segment) :=
  pieces.zipIdx.map fun (segment, index) =>
    (Position.behind ((pieces.take index).flatMap text), segment)

theorem placed_behind (before : List Char) (pieces : List Segment) :
    placed (Position.behind before) pieces =
      pieces.zipIdx.map fun (segment, index) =>
        (Position.behind (before ++ (pieces.take index).flatMap text), segment) := by
  induction pieces generalizing before with
  | nil => rfl
  | cons segment pieces ih =>
      rw [placed, Position.behind_after, ih, List.zipIdx_cons, List.map_cons]
      simp [List.zipIdx_succ, Function.comp_def]

theorem located_eq_placed (pieces : List Segment) :
    located pieces = placed .start pieces := by
  have atStart := placed_behind [] pieces
  simpa [located, Position.behind, Position.start] using atStart.symm

end Segment

namespace Scan

/-- What a scan says about a place. -/
def complaint (position : Position) (message : String) : Diagnostic :=
  { position, actor := "Scanner", message, place := "", length := 1 }

/-- The tokens of segments: each has the kind, the text and the value of its segment. -/
def tokensOf (pieces : List (Position × Segment)) : List Token :=
  pieces.filterMap fun
    | (position, .token kind lexeme literal) =>
        some { kind, lexeme := String.ofList lexeme, literal, position }
    | _ => none

/-- The diagnostics of segments: one for every unexpected character and one for a text or a comment
that is never closed. -/
def complaintsOf (pieces : List (Position × Segment)) : List Diagnostic :=
  pieces.filterMap fun
    | (position, .unexpected character) =>
        some (complaint position ("Unexpected character: " ++ String.singleton character))
    | (position, .openString _) => some (complaint position "Unterminated string.")
    | (position, .openComment _) => some (complaint position "Unterminated block comment.")
    | _ => none

/-- Whether interactive mode supplies a semicolon behind some tokens: there is a last one, and it is
neither a closing brace nor a semicolon. -/
def NeedsSemicolon (tokens : List Token) : Prop :=
  ∃ last, tokens.getLast? = some last ∧ last.kind ≠ .rightBrace ∧ last.kind ≠ .semicolon

theorem needsSemicolon_iff {tokens : List Token} :
    NeedsSemicolon tokens ↔ lacksSemicolon tokens = true := by
  unfold NeedsSemicolon lacksSemicolon
  cases tokens.getLast? with
  | none => simp
  | some last => simp

theorem tokensOf_eq (pieces : List (Position × Segment)) :
    tokensOf pieces = pieces.filterMap fun (position, segment) => segment.token? position := by
  apply List.filterMap_congr
  rintro ⟨position, segment⟩ -
  cases segment <;> rfl

theorem complaintsOf_eq (pieces : List (Position × Segment)) :
    complaintsOf pieces =
      pieces.filterMap fun (position, segment) => segment.diagnostic? position := by
  apply List.filterMap_congr
  rintro ⟨position, segment⟩ -
  cases segment <;> rfl

/-- A text has exactly one cut into segments that all fit before what follows them. The scan of the
text has the tokens of that cut in order, followed by a semicolon exactly where interactive mode
supplies one, then the token for the end of the text, and it has the diagnostics of the cut in
order. -/
theorem ofText_longest_match (interactive : Bool) (text : List Char) :
    ∃ pieces, (∀ other, Segment.Segmented text other ↔ other = pieces) ∧
      pieces.flatMap Segment.text = text ∧
      (interactive = true ∧ NeedsSemicolon (tokensOf (Segment.located pieces)) →
        (ofText interactive text).tokens = tokensOf (Segment.located pieces) ++
          [⟨.semicolon, ";", .nil, Position.behind text⟩]) ∧
      (¬(interactive = true ∧ NeedsSemicolon (tokensOf (Segment.located pieces))) →
        (ofText interactive text).tokens = tokensOf (Segment.located pieces)) ∧
      (ofText interactive text).ending = ⟨.endOfText, "", .nil, Position.behind text⟩ ∧
      (ofText interactive text).diagnostics = complaintsOf (Segment.located pieces) := by
  refine ⟨Segment.segments text, fun other => Segment.segmented_iff,
    Segment.flatMap_text_of_segmented (Segment.segmented_segments text), ?_, ?_, ?_, ?_⟩
  · rintro ⟨rfl, needs⟩
    rw [tokensOf_eq, Segment.located_eq_placed] at needs ⊢
    simp only [ofText, needsSemicolon_iff.mp needs, Bool.and_self, if_true]
    rw [Position.start_after]
    rfl
  · intro needless
    rw [tokensOf_eq, Segment.located_eq_placed, needsSemicolon_iff, ← Bool.and_eq_true] at needless
    rw [tokensOf_eq, Segment.located_eq_placed]
    simp only [ofText, if_neg needless]
  · rw [← Position.start_after]
    rfl
  · rw [complaintsOf_eq, Segment.located_eq_placed]
    rfl

end Scan

end LoxLang

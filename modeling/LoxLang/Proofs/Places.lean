import LoxLang.Proofs.Offences

/-!
# The places of tokens

A position names one offset of a text: its line counts the newlines before that offset, and its
column the characters from the beginning of the line. The tokens of a scan have the positions of the
offsets where their lexemes stand in the text, whatever comes before them: quoted texts and comments
over several lines, unexpected characters, and what is never closed.
-/

namespace LoxLang

/-! ## Positions and offsets -/

/-- `LineStart text offset start` says that the line of an offset of a text begins at `start`: there
the text begins, or a newline is just before it, and no newline is between it and the offset. -/
structure Text.LineStart (text : List Char) (offset start : Nat) : Prop where
  le : start ≤ offset
  begins : start = 0 ∨ text[start - 1]? = some '\n'
  oneLine : ∀ index, start ≤ index → index < offset → text[index]? ≠ some '\n'

namespace Text.LineStart

variable {text : List Char} {offset further start other : Nat}

theorem not_lt (isStart : LineStart text offset start) (isOther : LineStart text offset other) :
    ¬start < other := by
  intro earlier
  rcases isOther.begins with isFirst | newline
  · omega
  · have within := isOther.le
    exact isStart.oneLine (other - 1) (by omega) (by omega) newline

theorem unique (isStart : LineStart text offset start) (isOther : LineStart text offset other) :
    start = other := by
  have notEarlier := isStart.not_lt isOther
  have notLater := isOther.not_lt isStart
  omega

/-- An earlier offset behind which no newline follows is on the same line. -/
theorem back (isStart : LineStart text further start) (le : offset ≤ further)
    (oneLine : ∀ index, offset ≤ index → index < further → text[index]? ≠ some '\n') :
    LineStart text offset start := by
  refine ⟨?_, isStart.begins, fun index low high => isStart.oneLine index low (by omega)⟩
  rcases isStart.begins with isFirst | newline
  · omega
  · by_contra later
    have within := isStart.le
    exact oneLine (start - 1) (by omega) (by omega) newline

end Text.LineStart

namespace Position

/-- `Marks text offset position` says which position an offset of a text has. -/
def Marks (text : List Char) (offset : Nat) (position : Position) : Prop :=
  position.line = 1 + (text.take offset).count '\n' ∧
    ∃ start, Text.LineStart text offset start ∧ position.column = offset - start + 1

/-- The order of positions: by lines, and by columns within a line. -/
def Precedes (left right : Position) : Prop :=
  left.line < right.line ∨ left.line = right.line ∧ left.column < right.column

/-- The place behind a part of a text is that of its length. -/
theorem marks_behind (before rest : List Char) :
    Marks (before ++ rest) before.length (behind before) := by
  rcases Text.exists_lineStart before with ⟨above, line, rfl, starts, oneLine⟩
  have place := behind_lineStart starts oneLine
  have noNewline : line.count '\n' = 0 := List.count_eq_zero.mpr oneLine
  refine ⟨?_, above.length, ⟨?_, ?_, ?_⟩, ?_⟩
  · rw [place, List.take_left, List.count_append, noNewline, Nat.add_zero]
  · simp
  · rcases starts with rfl | ⟨front, rfl⟩
    · exact .inl rfl
    · right
      simp
  · intro index low high isNewline
    have within : index - above.length < line.length := by
      simp only [List.length_append] at high
      omega
    rw [List.append_assoc, List.getElem?_append_right low, List.getElem?_append_left within]
      at isNewline
    exact oneLine (List.mem_of_getElem? isNewline)
  · simp only [place, List.length_append]
    omega

variable {text : List Char} {offset further : Nat} {position other : Position}

/-- The newlines between two offsets are what their lines differ by. -/
theorem count_take_add (text : List Char) (le : offset ≤ further) :
    (text.take further).count '\n' =
      (text.take offset).count '\n' + ((text.take further).drop offset).count '\n' := by
  have parts := List.take_append_drop offset (text.take further)
  rw [List.take_take, Nat.min_eq_left le] at parts
  rw [← List.count_append, parts]

theorem Marks.precedes (marks : Marks text offset position) (marksOther : Marks text further other)
    (earlier : offset < further) : position.Precedes other := by
  rcases marks with ⟨line, start, isStart, column⟩
  rcases marksOther with ⟨otherLine, otherStart, isOther, otherColumn⟩
  have lines := count_take_add text (Nat.le_of_lt earlier)
  by_cases newline : '\n' ∈ (text.take further).drop offset
  · have counted := List.count_pos_iff.mpr newline
    exact .inl (by omega)
  · have oneLine : ∀ index, offset ≤ index → index < further → text[index]? ≠ some '\n' := by
      intro index low high isNewline
      apply newline
      apply List.mem_of_getElem? (i := index - offset)
      rw [List.getElem?_drop, List.getElem?_take_of_lt (by omega)]
      rwa [Nat.add_sub_cancel' low]
    have sameStart := isStart.unique (isOther.back (Nat.le_of_lt earlier) oneLine)
    have uncounted := List.count_eq_zero.mpr newline
    exact .inr ⟨by omega, by omega⟩

/-- A position determines the offset. -/
theorem Marks.offset_unique (marks : Marks text offset position)
    (marksOther : Marks text further position) : offset = further := by
  have irrefl : ¬position.Precedes position := by
    rintro (less | ⟨-, less⟩) <;> omega
  rcases Nat.lt_trichotomy offset further with earlier | same | later
  · exact absurd (marks.precedes marksOther earlier) irrefl
  · exact same
  · exact absurd (marksOther.precedes marks later) irrefl

end Position

/-! ## Tokens and offsets -/

/-- `ReadAt text offset token` says that a token is read from a segment of a text that starts at an
offset. -/
def Token.ReadAt (text : List Char) (offset : Nat) (token : Token) : Prop :=
  ∃ front lexeme back,
    Segment.segments text = front ++ .token token.kind lexeme token.literal :: back ∧
      token.lexeme = String.ofList lexeme ∧ (front.flatMap Segment.text).length = offset

theorem Token.ReadAt.lexeme {text : List Char} {offset : Nat} {token : Token}
    (read : token.ReadAt text offset) :
    (text.drop offset).take token.lexeme.length = token.lexeme.toList := by
  rcases read with ⟨front, lexeme, back, cut, isLexeme, rfl⟩
  rw [Segment.text_eq_of_cut cut, isLexeme, List.drop_left, String.length_ofList,
    String.toList_ofList]
  exact List.take_left

namespace Segment

/-- The tokens of segments that stand behind a text, each with its offset. -/
def tokensBehind (before : List Char) : List Segment → List (Nat × Token)
  | [] => []
  | segment :: rest =>
      ((segment.token? (Position.behind before)).map (before.length, ·)).toList ++
        tokensBehind (before ++ segment.text) rest

theorem map_tokensBehind (before : List Char) (pieces : List Segment) :
    (tokensBehind before pieces).map (·.2) =
      (placed (Position.behind before) pieces).filterMap fun located =>
        located.2.token? located.1 := by
  induction pieces generalizing before with
  | nil => rfl
  | cons segment pieces ih =>
      rw [tokensBehind, placed, Position.behind_after, List.map_append, ih, List.filterMap_cons]
      cases segment.token? (Position.behind before) <;> rfl

theorem flatMap_text_concat (front : List Segment) (segment : Segment) :
    (front ++ [segment]).flatMap text = front.flatMap text ++ segment.text := by
  simp

variable {text : List Char} {front pieces : List Segment} {entry : Nat × Token}

/-- A token that is read with an offset stands in the text from there on. -/
theorem read_of_tokensBehind (cut : segments text = front ++ pieces)
    (isEntry : entry ∈ tokensBehind (front.flatMap Segment.text) pieces) :
    (front.flatMap Segment.text).length ≤ entry.1 ∧ entry.1 < text.length ∧
      entry.2.ReadAt text entry.1 ∧ entry.2.position.Marks text entry.1 := by
  induction pieces generalizing front with
  | nil => cases isEntry
  | cons segment pieces ih =>
      have whole := text_eq_of_cut cut
      have isPiece : segment ∈ segments text := by simp [cut]
      rcases fits_of_mem (segmented_segments text) isPiece with ⟨rest, fits⟩
      have nonempty := List.length_pos_iff.mpr fits.text_ne_nil
      rcases List.mem_append.mp isEntry with isFirst | isLater
      · cases segment with
        | token kind lexeme literal =>
            rw [List.mem_singleton.mp isFirst]
            refine ⟨Nat.le_refl _, ?_, ⟨front, lexeme, pieces, cut, rfl, rfl⟩, ?_⟩
            · rw [whole]
              simp only [List.length_append]
              omega
            · rw [whole]
              exact Position.marks_behind _ _
        | _ => cases isFirst
      · rw [← flatMap_text_concat] at isLater
        rcases ih (by simpa using cut) isLater with ⟨behind, read⟩
        rw [flatMap_text_concat, List.length_append] at behind
        exact ⟨by omega, read⟩

theorem pairwise_tokensBehind (cut : segments text = front ++ pieces) :
    (tokensBehind (front.flatMap Segment.text) pieces).Pairwise (·.1 < ·.1) := by
  induction pieces generalizing front with
  | nil => exact .nil
  | cons segment pieces ih =>
      have isPiece : segment ∈ segments text := by simp [cut]
      rcases fits_of_mem (segmented_segments text) isPiece with ⟨rest, fits⟩
      have nonempty := List.length_pos_iff.mpr fits.text_ne_nil
      have cutBehind : segments text = (front ++ [segment]) ++ pieces := by simpa using cut
      have later := @ih (front ++ [segment]) cutBehind
      have bound := fun entry => @read_of_tokensBehind text (front ++ [segment]) pieces entry
        cutBehind
      rw [flatMap_text_concat] at later bound
      rw [tokensBehind, List.pairwise_append]
      refine ⟨?_, later, ?_⟩
      · cases segment.token? (Position.behind (front.flatMap Segment.text)) <;> simp
      · intro first isFirst entry isEntry
        have isHere : first.1 = (front.flatMap Segment.text).length := by
          rcases Option.map_eq_some_iff.mp (Option.mem_toList.mp isFirst) with ⟨token, -, rfl⟩
          rfl
        have behind := (bound entry isEntry).1
        rw [List.length_append] at behind
        omega

end Segment

namespace Scan

/-- The tokens of a scan are those read from the text, then at most one supplied semicolon, and the
token for the end. Every one has the position of its offset, which is the end of the text for the
last two, and those that are read stand there with their lexemes. A position determines the offset;
without the supplied semicolon, offsets and positions strictly increase. -/
theorem ofText_places (interactive : Bool) (text : List Char) :
    ∃ (read : List (Nat × Token)) (supplied : List Token) (ending : Token),
      (ofText interactive text).allTokens = read.map (·.2) ++ supplied ++ [ending] ∧
      (∀ entry ∈ read, entry.2.ReadAt text entry.1 ∧ entry.2.position.Marks text entry.1 ∧
        (text.drop entry.1).take entry.2.lexeme.length = entry.2.lexeme.toList) ∧
      (supplied = [] ∨ interactive = true ∧ ∃ token, supplied = [token] ∧
        token.kind = .semicolon ∧ token.lexeme = ";" ∧
        token.position.Marks text text.length) ∧
      (ending.kind = .endOfText ∧ ending.lexeme = "" ∧
        ending.position.Marks text text.length) ∧
      (read.map (·.1) ++ [text.length]).Pairwise (· < ·) ∧
      (read.map (·.2) ++ [ending]).Pairwise (·.position.Precedes ·.position) ∧
      ∀ offset further position, Position.Marks text offset position →
        Position.Marks text further position → offset = further := by
  have cut : Segment.segments text = [] ++ Segment.segments text := rfl
  have marksEnd : (Position.start.after text).Marks text text.length := by
    rw [Position.start_after]
    simpa using Position.marks_behind text []
  have reads := fun entry => @Segment.read_of_tokensBehind text [] _ entry cut
  have increases := Segment.pairwise_tokensBehind cut
  have isRead := Segment.map_tokensBehind [] (Segment.segments text)
  have atStart : Position.behind [] = Position.start := rfl
  rw [atStart] at isRead
  refine ⟨Segment.tokensBehind [] (Segment.segments text),
    if interactive && lacksSemicolon ((Segment.tokensBehind [] (Segment.segments text)).map (·.2))
      then [suppliedSemicolon (Position.start.after text)] else [],
    (ofText interactive text).ending, ?_, ?_, ?_, ⟨rfl, rfl, marksEnd⟩, ?_, ?_, ?_⟩
  · rw [allTokens, isRead]
    simp only [ofText]
    split <;> simp
  · intro entry isEntry
    rcases reads entry isEntry with ⟨-, -, read, marks⟩
    exact ⟨read, marks, read.lexeme⟩
  · split
    · next needs =>
        exact .inr ⟨(Bool.and_eq_true _ _ ▸ needs).1, _, rfl, rfl, rfl, marksEnd⟩
    · exact .inl rfl
  · rw [List.pairwise_append, List.pairwise_map]
    refine ⟨increases, List.pairwise_singleton _ _, ?_⟩
    simp only [List.mem_map, List.mem_singleton]
    rintro offset ⟨entry, isEntry, rfl⟩ bound rfl
    exact (reads entry isEntry).2.1
  · rw [List.pairwise_append, List.pairwise_map]
    refine ⟨increases.imp_of_mem ?_, List.pairwise_singleton _ _, ?_⟩
    · intro entry later isEntry isLater earlier
      exact (reads entry isEntry).2.2.2.precedes (reads later isLater).2.2.2 earlier
    · simp only [List.mem_map, List.mem_singleton]
      rintro token ⟨entry, isEntry, rfl⟩ ending rfl
      rcases reads entry isEntry with ⟨-, within, -, marks⟩
      exact marks.precedes marksEnd within
  · intro offset further position marks marksOther
    exact marks.offset_unique marksOther

end Scan

end LoxLang

import LoxLang.Proofs.Scanning
import LoxLang.Reporter

/-!
# Excerpts show the offending text

A scan counts lines and columns by newlines, character after character, while an excerpt is taken
from the lines of the whole text. In a text without other line breaks the two agree: the line with
the number of a place is the one that the place is on, and there is none only where the place is
behind a newline at the very end.
-/

namespace LoxLang

/-! ## Lines -/

namespace Text

/-- Whether a text has no line breaks but newlines. -/
def NewlinesOnly (text : List Char) : Prop :=
  ∀ character ∈ text, isLineBreak character = true → character = '\n'

/-- `LineIn text above line below` says that a text has a line, with some text above it and some
below, each with the newlines between. -/
structure LineIn (text above line below : List Char) : Prop where
  whole : text = above ++ (line ++ below)
  starts : above = [] ∨ ∃ front, above = front ++ ['\n']
  oneLine : '\n' ∉ line
  ends : below = [] ∨ ∃ rest, below = '\n' :: rest

theorem linesFrom_nil (line : List Char) :
    linesFrom line [] = if line.isEmpty then [] else [line.reverse] := rfl

theorem linesFrom_newline (line rest : List Char) :
    linesFrom line ('\n' :: rest) = line.reverse :: linesFrom [] rest := rfl

theorem linesFrom_other {character : Char} (noBreak : isLineBreak character = false)
    (line rest : List Char) :
    linesFrom line (character :: rest) = linesFrom (character :: line) rest := by
  have notReturn : character ≠ '\r' := by
    rintro rfl
    cases noBreak
  conv =>
    lhs
    unfold linesFrom
  split
  · next shape => cases shape
  · next shape => exact absurd (List.cons.inj shape).1 notReturn
  · next shape =>
      rcases List.cons.inj shape with ⟨rfl, rfl⟩
      rw [noBreak]
      rfl

/-- The characters of a line are collected. -/
theorem linesFrom_append {line : List Char} (noBreaks : ∀ character ∈ line,
    isLineBreak character = false) (begun rest : List Char) :
    linesFrom begun (line ++ rest) = linesFrom (line.reverse ++ begun) rest := by
  induction line generalizing begun with
  | nil => rfl
  | cons character line ih =>
      rw [List.forall_mem_cons] at noBreaks
      rw [List.cons_append, linesFrom_other noBreaks.1, ih noBreaks.2]
      simp

/-- The lines behind a newline come behind as many lines as there are newlines. -/
theorem linesFrom_behind {front : List Char} (newlines : NewlinesOnly front)
    (begun rest : List Char) (index : Nat) :
    (linesFrom begun (front ++ '\n' :: rest))[front.count '\n' + 1 + index]? =
      (linesFrom [] rest)[index]? := by
  induction front generalizing begun with
  | nil => simp [linesFrom_newline, Nat.add_comm 1 index]
  | cons character front ih =>
      unfold NewlinesOnly at newlines ih
      rw [List.forall_mem_cons] at newlines
      by_cases isNewline : character = '\n'
      · rw [isNewline, List.cons_append, linesFrom_newline, List.count_cons_self,
          Nat.add_right_comm, Nat.add_right_comm (front.count '\n'), List.getElem?_cons_succ,
          Nat.add_right_comm]
        exact ih newlines.2 []
      · have noBreak : isLineBreak character = false := by
          simpa using mt newlines.1 isNewline
        rw [List.cons_append, linesFrom_other noBreak, List.count_cons_of_ne isNewline]
        exact ih newlines.2 _

/-- The line with the number that counts the newlines above it, unless it is empty and nothing comes
below it. -/
theorem lines_of_lineIn {text above line below : List Char} (newlines : NewlinesOnly text)
    (isLine : LineIn text above line below) :
    (lines text)[above.count '\n']? = if line = [] ∧ below = [] then none else some line := by
  rcases isLine with ⟨rfl, starts, oneLine, ends⟩
  have noBreaks : ∀ character ∈ line, isLineBreak character = false := by
    intro character isCharacter
    by_contra isBreak
    have isNewline := newlines character (by simp [isCharacter]) (by simpa using isBreak)
    exact oneLine (isNewline ▸ isCharacter)
  have skipped : (lines (above ++ (line ++ below)))[above.count '\n']? =
      (lines (line ++ below))[0]? := by
    rcases starts with rfl | ⟨front, rfl⟩
    · rfl
    · have newlinesInFront : NewlinesOnly front := fun character isCharacter =>
        newlines character (by simp [isCharacter])
      simpa [lines] using linesFrom_behind newlinesInFront [] (line ++ below) 0
  rw [skipped, lines, linesFrom_append noBreaks, List.append_nil]
  rcases ends with rfl | ⟨rest, rfl⟩
  · rcases line.eq_nil_or_concat with rfl | ⟨front, last, rfl⟩ <;> simp [linesFrom_nil]
  · simp [linesFrom_newline]

/-- Every text ends with the beginning of a line. -/
theorem exists_lineStart (before : List Char) :
    ∃ above start, before = above ++ start ∧ (above = [] ∨ ∃ front, above = front ++ ['\n']) ∧
      '\n' ∉ start := by
  induction before using List.reverseRecOn with
  | nil => exact ⟨[], [], rfl, .inl rfl, by simp⟩
  | append_singleton before character ih =>
      by_cases isNewline : character = '\n'
      · exact ⟨before ++ ['\n'], [], by simp [isNewline], .inr ⟨before, rfl⟩, by simp⟩
      · rcases ih with ⟨above, start, rfl, starts, oneLine⟩
        refine ⟨above, start ++ [character], by simp, starts, ?_⟩
        simpa [oneLine] using Ne.symm isNewline

theorem takeWhile_of_oneLine {line : List Char} (oneLine : '\n' ∉ line) (rest : List Char) :
    (line ++ rest).takeWhile (· != '\n') = line ++ rest.takeWhile (· != '\n') := by
  refine List.takeWhile_append_of_pos fun character isCharacter => ?_
  have otherCharacter : character ≠ '\n' := fun isNewline => oneLine (isNewline ▸ isCharacter)
  simpa using otherCharacter

/-- The part of an offending text that is on the line where it starts. -/
def onLine (offending : List Char) : List Char :=
  offending.takeWhile (· != '\n')

/-- The line of an offending text goes on behind it, or the text itself ends the line. -/
theorem exists_lineEnd (offending rest : List Char) :
    ∃ tail below, offending ++ rest = onLine offending ++ tail ++ below ∧
      '\n' ∉ onLine offending ++ tail ∧ (below = [] ∨ ∃ others, below = '\n' :: others) ∧
      min offending.length (onLine offending ++ tail).length = (onLine offending).length := by
  by_cases oneLine : '\n' ∈ offending
  · rcases List.eq_append_cons_of_mem oneLine with ⟨line, others, rfl, isFirst⟩
    have isLine : onLine (line ++ '\n' :: others) = line := by
      simp [onLine, takeWhile_of_oneLine isFirst]
    rw [isLine]
    exact ⟨[], '\n' :: (others ++ rest), by simp, by simpa using isFirst, .inr ⟨_, rfl⟩, by simp⟩
  · have isLine : onLine offending = offending := by
      simpa [onLine] using takeWhile_of_oneLine oneLine []
    rw [isLine]
    refine ⟨rest.takeWhile (· != '\n'), rest.dropWhile (· != '\n'), ?_, ?_, ?_, by simp⟩
    · rw [List.append_assoc, List.takeWhile_append_dropWhile]
    · intro isInside
      rcases List.mem_append.mp isInside with isOffending | isBehind
      · exact oneLine isOffending
      · simpa using List.mem_takeWhile_imp isBehind
    · cases isBelow : rest.dropWhile (· != '\n') with
      | nil => exact .inl rfl
      | cons character others =>
          have isNewline := List.head_dropWhile_not (· != '\n') (l := rest) (by simp [isBelow])
          simp only [isBelow, List.head_cons] at isNewline
          exact .inr ⟨others, by simpa using isNewline⟩

end Text

namespace Position

/-- A place by the beginning of its line. -/
theorem behind_lineStart {above start : List Char}
    (starts : above = [] ∨ ∃ front, above = front ++ ['\n']) (oneLine : '\n' ∉ start) :
    behind (above ++ start) = ⟨1 + above.count '\n', 1 + start.length⟩ := by
  have reversed : '\n' ∉ start.reverse := by simpa using oneLine
  have noNewline : start.count '\n' = 0 := List.count_eq_zero.mpr oneLine
  rw [behind, List.reverse_append, Text.takeWhile_of_oneLine reversed, List.count_append, noNewline]
  rcases starts with rfl | ⟨front, rfl⟩ <;> simp

end Position

/-! ## Excerpts -/

namespace Reporter

variable (reporter : Reporter)

/-- A line with a part of it marked: the line as it is, and below it an underline that has a caret
under the first column of the marked part, and is as long as that part but at least one column. -/
def shown (start marked tail : List Char) : String :=
  "  " ++ String.ofList start ++ reporter.emphasize .alarm (String.ofList marked) ++
    String.ofList tail ++ "\n" ++
  "  " ++ String.ofList (List.replicate start.length ' ') ++
    reporter.emphasize .alarm
      (String.ofList ('^' :: List.replicate (max 1 marked.length - 1) '~'))

/-- Whether the excerpt for a diagnostic shows the line of a text on which an offending text starts
behind `before`, with the part of the offending text marked that is on this line. -/
def Shows (text before offending : List Char) (diagnostic : Diagnostic) : Prop :=
  ∃ above start tail below, before = above ++ start ∧
    Text.LineIn text above (start ++ (Text.onLine offending ++ tail)) below ∧
    diagnostic.position = ⟨1 + above.count '\n', 1 + start.length⟩ ∧
    reporter.excerpt? diagnostic = some (reporter.shown start (Text.onLine offending) tail)

theorem pushn_eq (character : Char) (count : Nat) :
    "".pushn character count = String.ofList (List.replicate count character) := by
  induction count with
  | zero => rfl
  | succ count ih =>
      rw [String.pushn, Nat.repeat, ← String.pushn, ih, List.replicate_succ']
      simp

variable {reporter} {source : String} {before offending rest : List Char} {diagnostic : Diagnostic}

/-- The excerpt for a place in the source, where there is a line that the place is on. -/
theorem excerpt?_of_line {above start tail : List Char}
    (isLine : reporter.offendingLine? diagnostic = some (start ++ (Text.onLine offending ++ tail)))
    (atPlace : diagnostic.position = ⟨1 + above.count '\n', 1 + start.length⟩)
    (spans : min diagnostic.length (Text.onLine offending ++ tail).length =
      (Text.onLine offending).length) :
    reporter.excerpt? diagnostic = some (reporter.shown start (Text.onLine offending) tail) := by
  have isStart : offendingStart diagnostic (start ++ (Text.onLine offending ++ tail)) =
      start.length := by
    simp [offendingStart, atPlace]
  have isEnd : offendingEnd diagnostic (start ++ (Text.onLine offending ++ tail)) =
      start.length + (Text.onLine offending).length := by
    rw [offendingEnd, isStart, List.length_append, Nat.add_min_add_left, spans]
  have width : (Text.onLine offending).length - 1 = max 1 (Text.onLine offending).length - 1 := by
    omega
  simp only [excerpt?, isLine, Option.map_some, isStart, isEnd, underline, pushn_eq,
    Nat.add_sub_cancel_left, shown, width]
  simp [List.take_append, List.drop_append]

/-- The excerpt for a place in a source without other line breaks than newlines shows the line of
the place, and there is none only behind all lines of the source. -/
theorem excerpt?_cases (isSource : reporter.source = some source)
    (newlines : Text.NewlinesOnly source.toList)
    (whole : source.toList = before ++ (offending ++ rest))
    (atPlace : diagnostic.position = Position.behind before)
    (spans : diagnostic.length = offending.length ∨ offending ++ rest = []) :
    reporter.Shows source.toList before offending diagnostic ∨
      (before = source.toList ∧ (source.toList = [] ∨ ∃ front, source.toList = front ++ ['\n']) ∧
        reporter.excerpt? diagnostic = none) := by
  rcases Text.exists_lineStart before with ⟨above, start, rfl, starts, oneLine⟩
  rcases Text.exists_lineEnd offending rest with ⟨tail, below, isRest, oneLine', ends, shortest⟩
  rw [Position.behind_lineStart starts oneLine] at atPlace
  have isLine :
      Text.LineIn source.toList above (start ++ (Text.onLine offending ++ tail)) below := by
    refine ⟨?_, starts, ?_, ends⟩
    · rw [whole, isRest]
      simp
    · rw [List.mem_append]
      exact not_or.mpr ⟨oneLine, oneLine'⟩
  have isNumbered : ¬ diagnostic.position.line < 1 ∧
      diagnostic.position.line.toNat - 1 = above.count '\n' := by
    rw [atPlace]
    dsimp only
    omega
  have isOffending : reporter.offendingLine? diagnostic =
      (Text.lines source.toList)[above.count '\n']? := by
    simp only [offendingLine?, isSource, if_neg isNumbered.1, isNumbered.2]
  rw [Text.lines_of_lineIn newlines isLine] at isOffending
  split at isOffending
  · next isEnd =>
      simp only [List.append_eq_nil_iff] at isEnd
      rcases isEnd with ⟨⟨rfl, noMark, rfl⟩, rfl⟩
      rw [noMark] at isRest
      refine .inr ⟨?_, ?_, ?_⟩
      · rw [whole, isRest]
        simp
      · rw [whole, isRest]
        simpa using starts
      · rw [excerpt?, isOffending, Option.map_none]
  · refine .inl ⟨above, start, tail, below, rfl, isLine, atPlace,
      excerpt?_of_line isOffending atPlace ?_⟩
    rcases spans with isLength | isNothing
    · rw [isLength, shortest]
    · rw [isNothing] at isRest
      have noLine : Text.onLine offending ++ tail = [] :=
        (List.append_eq_nil_iff.mp isRest.symm).1
      simp [(List.append_eq_nil_iff.mp noLine).1, (List.append_eq_nil_iff.mp noLine).2]

end Reporter

end LoxLang

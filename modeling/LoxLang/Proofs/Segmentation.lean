import Mathlib
import LoxLang.Segment

/-!
# Longest-match segmentation

`Segment.Fits` says, one rule for each kind of segment, what a segment of a source text looks like
and what may follow it: a segment fits before a rest of the text when it could not be longer. The
rules speak of characters and of tables of symbols only, and not of how a text is cut.

A text has exactly one cut into segments that all fit before what follows them, and
`Segment.segments` finds it.
-/

namespace LoxLang

namespace Text

theorem isDigit_eq (character : Char) : isDigit character = character.isDigit := rfl

theorem isWordStart_eq (character : Char) :
    isWordStart character = (character.isAlpha || character == '_') := by
  simp only [isWordStart, Char.isAlpha, Char.isUpper, Char.isLower, Char.le_def, ge_iff_le,
    Bool.decide_and]
  rw [Bool.or_comm (decide _ && decide _) (decide _ && decide _)]

theorem isWordPart_eq (character : Char) :
    isWordPart character = (character.isAlphanum || character == '_') := by
  rw [isWordPart, isWordStart_eq, isDigit_eq, Char.isAlphanum]
  cases character.isAlpha <;> cases character.isDigit <;> simp

theorem noDigit_of_isAlpha {character : Char} (isAlpha : character.isAlpha) :
    character.isDigit = false := by
  by_contra isDigit
  simp only [Bool.not_eq_false, Char.isDigit, Char.isAlpha, Char.isUpper, Char.isLower,
    Bool.or_eq_true, Bool.and_eq_true, decide_eq_true_eq, UInt32.le_iff_toNat_le,
    ge_iff_le] at isAlpha isDigit
  have lastDigit : '9'.val.toNat = 57 := rfl
  have firstUpper : 'A'.val.toNat = 65 := rfl
  have firstLower : 'a'.val.toNat = 97 := rfl
  omega

end Text

namespace Segment

/-- The symbols of one character. -/
def marks : List (Char × TokenKind) :=
  [('(', .leftParen), (')', .rightParen), ('\x7b', .leftBrace), ('\x7d', .rightBrace),
   (',', .comma), ('.', .dot), ('-', .minus), ('+', .plus), (';', .semicolon), ('*', .star),
   ('?', .question), (':', .colon)]

/-- The symbols that may have an equals sign behind them: the kind of the character alone, and the
kind of the two together. -/
def comparisons : List (Char × TokenKind × TokenKind) :=
  [('!', .bang, .bangEqual), ('=', .equal, .equalEqual), ('<', .less, .lessEqual),
   ('>', .greater, .greaterEqual)]

/-- The characters between tokens. -/
def gaps : List Char := [' ', '\r', '\t', '\n']

/-- The kind of a word: the one that the table of keywords gives it, and otherwise an identifier. -/
def IsKindOf (kind : TokenKind) (word : String) : Prop :=
  (word, kind) ∈ TokenKind.keywords ∨
    kind = .identifier ∧ ∀ keyword, (word, keyword) ∉ TokenKind.keywords

/-- Whether a text does not go on with a character of an excluded class. -/
def Stops (excluded : Char → Bool) (rest : List Char) : Prop :=
  ∀ next ∈ rest.head?, excluded next = false

/-- Whether a character can start a segment other than an unexpected one. -/
def Starts (character : Char) : Prop :=
  character ∈ marks.map (·.1) ∨ character ∈ comparisons.map (·.1) ∨ character = '/' ∨
    character ∈ gaps ∨ character = '"' ∨ character.isDigit ∨ character.isAlpha ∨ character = '_'

/-- `Fits segment rest` says that a segment may stand before `rest`: it has the form of its kind and
is as long as possible. -/
inductive Fits : Segment → List Char → Prop
  | mark {character : Char} {kind : TokenKind} {rest : List Char}
      (known : (character, kind) ∈ marks) : Fits (.token kind [character] .nil) rest
  | comparisonEqual {character : Char} {alone joined : TokenKind} {rest : List Char}
      (known : (character, alone, joined) ∈ comparisons) :
      Fits (.token joined [character, '='] .nil) rest
  | comparison {character : Char} {alone joined : TokenKind} {rest : List Char}
      (known : (character, alone, joined) ∈ comparisons) (stops : Stops (· == '=') rest) :
      Fits (.token alone [character] .nil) rest
  | slash {rest : List Char} (stops : Stops (fun next => next == '/' || next == '*') rest) :
      Fits (.token .slash ['/'] .nil) rest
  | string {body rest : List Char} (unquoted : '"' ∉ body) :
      Fits (.token .string ('"' :: body ++ ['"']) (.string (String.ofList body))) rest
  | integer {whole rest : List Char} (nonempty : whole ≠ [])
      (digits : ∀ digit ∈ whole, digit.isDigit) (stops : Stops Char.isDigit rest)
      (noFraction : ∀ next more, rest = '.' :: next :: more → next.isDigit = false) :
      Fits (.token .number whole (.number (Decimal.ofNumeral whole []))) rest
  | decimal {whole fraction rest : List Char} (wholeNonempty : whole ≠ [])
      (fractionNonempty : fraction ≠ []) (wholeDigits : ∀ digit ∈ whole, digit.isDigit)
      (fractionDigits : ∀ digit ∈ fraction, digit.isDigit) (stops : Stops Char.isDigit rest) :
      Fits (.token .number (whole ++ '.' :: fraction)
        (.number (Decimal.ofNumeral whole fraction))) rest
  | word {first : Char} {more rest : List Char} {kind : TokenKind}
      (start : first.isAlpha ∨ first = '_')
      (parts : ∀ part ∈ more, part.isAlphanum ∨ part = '_')
      (typed : IsKindOf kind (String.ofList (first :: more)))
      (stops : Stops (fun next => next.isAlphanum || next == '_') rest) :
      Fits (.token kind (first :: more) .nil) rest
  | blank {character : Char} {rest : List Char} (gap : character ∈ gaps) :
      Fits (.blank character) rest
  | lineComment {body rest : List Char} (oneLine : '\n' ∉ body) (stops : Stops (· != '\n') rest) :
      Fits (.lineComment ('/' :: '/' :: body)) rest
  | blockComment {body rest : List Char} (isFirst : ¬['*', '/'] <:+: body ++ ['*']) :
      Fits (.blockComment ('/' :: '*' :: body ++ ['*', '/'])) rest
  | unexpected {character : Char} {rest : List Char} (startsNothing : ¬Starts character) :
      Fits (.unexpected character) rest
  | openString {body : List Char} (unquoted : '"' ∉ body) : Fits (.openString ('"' :: body)) []
  | openComment {body : List Char} (unclosed : ¬['*', '/'] <:+: body) :
      Fits (.openComment ('/' :: '*' :: body)) []

/-- `Segmented text pieces` says that a text consists of the given segments, each of which fits
before what follows it. -/
inductive Segmented : List Char → List Segment → Prop
  | done : Segmented [] []
  | piece {segment : Segment} {rest : List Char} {pieces : List Segment}
      (fits : Fits segment rest) (more : Segmented rest pieces) :
      Segmented (segment.text ++ rest) (segment :: pieces)


/-! ## Runs of characters -/

theorem stops_nil (excluded : Char → Bool) : Stops excluded [] := by
  simp [Stops]

theorem stops_cons {excluded : Char → Bool} {next : Char} {rest : List Char} :
    Stops excluded (next :: rest) ↔ excluded next = false := by
  simp [Stops]

theorem stops_dropWhile (test : Char → Bool) (text : List Char) :
    Stops test (text.dropWhile test) := by
  intro next isNext
  have stopped := List.head?_dropWhile_not test text
  rw [Option.mem_def.mp isNext] at stopped
  simpa using stopped

theorem takeWhile_append_stop {test : Char → Bool} {run rest : List Char}
    (inside : ∀ character ∈ run, test character = true) (stops : Stops test rest) :
    (run ++ rest).takeWhile test = run := by
  rw [List.takeWhile_append_of_pos inside]
  cases rest with
  | nil => simp
  | cons next more => simp [stops_cons.mp stops]

theorem dropWhile_append_stop {test : Char → Bool} {run rest : List Char}
    (inside : ∀ character ∈ run, test character = true) (stops : Stops test rest) :
    (run ++ rest).dropWhile test = rest := by
  rw [List.dropWhile_append_of_pos inside]
  cases rest with
  | nil => simp
  | cons next more => simp [stops_cons.mp stops]

theorem mem_takeWhile {test : Char → Bool} {text : List Char} {character : Char}
    (isTaken : character ∈ text.takeWhile test) : test character = true :=
  (List.all_eq_true.mp (List.all_takeWhile (l := text) (p := test))) character isTaken

/-! ## Tables of symbols -/

theorem mem_marks_iff {character : Char} {kind : TokenKind} :
    (character, kind) ∈ marks ↔ punctuation? character = some kind := by
  unfold punctuation?
  split <;> simp_all [marks, eq_comm]

theorem mem_comparisons_iff {character : Char} {alone joined : TokenKind} :
    (character, alone, joined) ∈ comparisons ↔ comparison? character = some (alone, joined) := by
  unfold comparison?
  split <;> simp_all [comparisons, eq_comm]

theorem mem_gaps_iff {character : Char} : character ∈ gaps ↔ isGap character = true := by
  simp [gaps, isGap, or_assoc]

theorem keywords_functional {left right : String × TokenKind}
    (leftMem : left ∈ TokenKind.keywords) (rightMem : right ∈ TokenKind.keywords)
    (sameWord : left.1 = right.1) : left = right := by
  have distinct : (TokenKind.keywords.map (·.1)).Nodup := by decide
  exact List.inj_on_of_nodup_map distinct leftMem rightMem sameWord

theorem isKindOf_iff {kind : TokenKind} {word : String} :
    IsKindOf kind word ↔ TokenKind.ofWord word = kind := by
  unfold TokenKind.ofWord
  cases found : TokenKind.keywords.lookup word with
  | none =>
      have absent : ∀ keyword, (word, keyword) ∉ TokenKind.keywords := by
        intro keyword present
        simpa using List.lookup_eq_none_iff.mp found _ present
      simp [IsKindOf, absent, eq_comm]
  | some keyword =>
      rcases List.lookup_eq_some_iff.mp found with ⟨before, after, shape, -⟩
      have present : (word, keyword) ∈ TokenKind.keywords := by simp [shape]
      constructor
      · rintro (known | ⟨-, absent⟩)
        · have same := keywords_functional present known rfl
          simpa using same
        · exact absurd present (absent keyword)
      · rintro rfl
        exact .inl present

/-! ## Block comments -/

theorem close_infix_cons_iff {character : Char} {text : List Char} :
    ['*', '/'] <:+: character :: text ↔
      (∃ rest, character = '*' ∧ text = '/' :: rest) ∨ ['*', '/'] <:+: text := by
  rw [List.infix_cons_iff]
  apply or_congr_left
  constructor
  · rintro ⟨rest, shape⟩
    simp only [List.cons_append, List.nil_append, List.cons.injEq] at shape
    exact ⟨rest, shape.1.symm, shape.2.symm⟩
  · rintro ⟨rest, rfl, rfl⟩
    exact ⟨rest, rfl⟩

theorem splitAtClose_eq_none_iff {seen text : List Char} :
    splitAtClose seen text = none ↔ ¬['*', '/'] <:+: text := by
  fun_induction splitAtClose seen text with
  | case1 => simp
  | case2 seen rest => simp [close_infix_cons_iff]
  | case3 seen character text noClose ih =>
      rw [ih, close_infix_cons_iff, not_or]
      refine ⟨fun unclosed => ⟨?_, unclosed⟩, fun unclosed => unclosed.2⟩
      rintro ⟨rest, rfl, rfl⟩
      exact noClose rest rfl rfl

theorem splitAtClose_eq_some_iff {seen text closed rest : List Char} :
    splitAtClose seen text = some (closed, rest) ↔
      ∃ body, text = body ++ '*' :: '/' :: rest ∧ closed = seen.reverse ++ body ++ ['*', '/'] ∧
        ¬['*', '/'] <:+: body ++ ['*'] := by
  fun_induction splitAtClose seen text with
  | case1 => simp
  | case2 seen more =>
      constructor
      · intro found
        simp only [Option.some.injEq, Prod.mk.injEq] at found
        refine ⟨[], by simp [found.2], by simp [← found.1], by simp [close_infix_cons_iff]⟩
      · rintro ⟨body, shape, rfl, isFirst⟩
        rcases body with _ | ⟨first, _ | ⟨second, body⟩⟩
        · simp_all
        · simp only [List.cons_append, List.nil_append, List.cons.injEq] at shape
          exact absurd shape.2.1 (by decide)
        · simp only [List.cons_append, List.cons.injEq] at shape
          refine absurd ?_ isFirst
          simp [close_infix_cons_iff, ← shape.1, ← shape.2.1]
  | case3 seen character text noClose ih =>
      rw [ih]
      constructor
      · rintro ⟨body, rfl, rfl, isFirst⟩
        refine ⟨character :: body, by simp, by simp, ?_⟩
        rw [List.cons_append, close_infix_cons_iff, not_or]
        refine ⟨?_, isFirst⟩
        rintro ⟨more, rfl, shape⟩
        cases body with
        | nil => simp at shape
        | cons first body =>
            simp only [List.cons_append, List.cons.injEq] at shape
            exact noClose _ rfl (by rw [shape.1]; rfl)
      · rintro ⟨body, shape, rfl, isFirst⟩
        cases body with
        | nil =>
            simp only [List.nil_append, List.cons.injEq] at shape
            exact absurd shape.2 (noClose _ shape.1)
        | cons first body =>
            simp only [List.cons_append, List.cons.injEq] at shape
            rcases shape with ⟨rfl, rfl⟩
            rw [List.cons_append, close_infix_cons_iff, not_or] at isFirst
            exact ⟨body, rfl, by simp, isFirst.2⟩

/-! ## A cut fits

`IsCut text cut` says that the first segment of a text and what follows it are the two parts of
`cut`. -/

/-- Whether a text is cut into a segment and a rest that it fits before. -/
def IsCut (text : List Char) (cut : Segment × List Char) : Prop :=
  text = cut.1.text ++ cut.2 ∧ Fits cut.1 cut.2

theorem isCut_splitSlash (rest : List Char) : IsCut ('/' :: rest) (splitSlash rest) := by
  unfold splitSlash
  split
  · next more =>
      refine ⟨by simp [text, List.takeWhile_append_dropWhile], .lineComment ?_ ?_⟩
      · intro isTaken
        simpa using mem_takeWhile isTaken
      · exact stops_dropWhile _ _
  · next more =>
      cases found : splitAtClose ['*', '/'] more with
      | none => exact ⟨by simp [text], .openComment (splitAtClose_eq_none_iff.mp found)⟩
      | some cut =>
          rcases splitAtClose_eq_some_iff.mp found with ⟨body, shape, closed, isFirst⟩
          have comment : cut.1 = '/' :: '*' :: body ++ ['*', '/'] := by simpa using closed
          refine ⟨by simp [text, comment, shape], ?_⟩
          simp only [comment]
          exact .blockComment isFirst
  · next noLine noBlock =>
      refine ⟨by simp [text], .slash ?_⟩
      cases rest with
      | nil => exact stops_nil _
      | cons next more =>
          rw [stops_cons, Bool.or_eq_false_iff]
          constructor
          · exact beq_eq_false_iff_ne.mpr fun same => noLine more (by rw [same])
          · exact beq_eq_false_iff_ne.mpr fun same => noBlock more (by rw [same])

theorem isCut_splitQuote (rest : List Char) : IsCut ('"' :: rest) (splitQuote rest) := by
  have unquoted : '"' ∉ rest.takeWhile (· != '"') := by
    intro isTaken
    simpa using mem_takeWhile isTaken
  have whole := List.takeWhile_append_dropWhile (p := (· != '"')) (l := rest)
  unfold splitQuote
  split
  · next quote more shape =>
      have stopped := stops_dropWhile (· != '"') rest
      rw [shape, stops_cons] at stopped
      have isQuote : quote = '"' := by simpa using stopped
      subst isQuote
      rw [shape] at whole
      exact ⟨by simp [text, whole], .string unquoted⟩
  · next shape =>
      rw [shape, List.append_nil] at whole
      exact ⟨by simp [text, whole], .openString unquoted⟩

/-- A fraction at the start of a text: its digits, if there are any, and what follows. -/
theorem splitFraction_spec (text : List Char) :
    ((splitFraction text).1 = [] ∧ (splitFraction text).2 = text ∧
      ∀ next more, text = '.' :: next :: more → next.isDigit = false) ∨
    ((splitFraction text).1 ≠ [] ∧ text = '.' :: (splitFraction text).1 ++ (splitFraction text).2 ∧
      (∀ digit ∈ (splitFraction text).1, digit.isDigit) ∧
      Stops Char.isDigit (splitFraction text).2) := by
  unfold splitFraction
  split
  · next rest =>
      cases taken : rest.takeWhile Text.isDigit with
      | nil =>
          refine .inl ⟨rfl, rfl, ?_⟩
          intro next more shape
          simp only [List.cons.injEq, true_and] at shape
          subst shape
          by_contra isDigit
          simp [Text.isDigit_eq, isDigit] at taken
      | cons first digits =>
          refine .inr ⟨by simp, ?_, ?_, stops_dropWhile _ _⟩
          · simp only [List.cons_append, List.cons.injEq, true_and]
            rw [← List.cons_append, ← taken, List.takeWhile_append_dropWhile]
          · intro digit (isTaken : digit ∈ first :: digits)
            rw [← taken] at isTaken
            exact mem_takeWhile isTaken
  · next noPoint =>
      refine .inl ⟨rfl, rfl, ?_⟩
      rintro next more rfl
      exact absurd rfl (noPoint (next :: more))

theorem isCut_splitNumeral {first : Char} (isDigit : first.isDigit) (rest : List Char) :
    IsCut (first :: rest) (splitNumeral first rest) := by
  have digits : ∀ digit ∈ first :: rest.takeWhile Text.isDigit, digit.isDigit := by
    intro digit isDigitOf
    rcases List.mem_cons.mp isDigitOf with rfl | isTaken
    · exact isDigit
    · exact mem_takeWhile isTaken
  have whole := List.takeWhile_append_dropWhile (p := Text.isDigit) (l := rest)
  unfold splitNumeral
  rcases splitFraction_spec (rest.dropWhile Text.isDigit) with
    ⟨noDigits, rest_eq, noFraction⟩ | ⟨nonempty, text_eq, fractionDigits, stops⟩
  · split
    · next more shape =>
        simp only [shape] at rest_eq
        subst rest_eq
        exact ⟨by simp [text, whole],
          .integer (by simp) digits (stops_dropWhile _ _) noFraction⟩
    · next fraction more noShape shape =>
        exact absurd (by rw [shape] at noDigits; exact noDigits) noShape
  · split
    · next more shape => simp [shape] at nonempty
    · next fraction more noShape shape =>
        simp only [shape] at text_eq fractionDigits stops
        refine ⟨?_, .decimal (by simp) noShape digits fractionDigits stops⟩
        rw [text_eq] at whole
        simpa [text] using whole.symm

theorem isCut_splitWord {first : Char} (start : Text.isWordStart first) (rest : List Char) :
    IsCut (first :: rest) (splitWord first rest) := by
  have part : ∀ character, Text.isWordPart character = true →
      character.isAlphanum ∨ character = '_' := by
    intro character isPart
    simpa [Text.isWordPart_eq] using isPart
  refine ⟨by simp [splitWord, text, List.takeWhile_append_dropWhile], .word ?_ ?_ ?_ ?_⟩
  · simpa [Text.isWordStart_eq] using start
  · exact fun character isTaken => part character (mem_takeWhile isTaken)
  · exact isKindOf_iff.mpr rfl
  · have stopped := stops_dropWhile Text.isWordPart rest
    rw [← funext Text.isWordPart_eq]
    exact stopped

/-! ## The first segment of a text -/

theorem split_of_mark {first : Char} {kind : TokenKind} (mark : punctuation? first = some kind)
    (rest : List Char) : split first rest = (.token kind [first] .nil, rest) := by
  simp [split, mark]

theorem split_of_equal {first : Char} {alone joined : TokenKind}
    (noMark : punctuation? first = none) (comparison : comparison? first = some (alone, joined))
    (rest : List Char) : split first ('=' :: rest) = (.token joined [first, '='] .nil, rest) := by
  simp [split, noMark, comparison]

theorem split_of_noEqual {first : Char} {alone joined : TokenKind} {rest : List Char}
    (noMark : punctuation? first = none) (comparison : comparison? first = some (alone, joined))
    (stops : Stops (· == '=') rest) : split first rest = (.token alone [first] .nil, rest) := by
  cases rest with
  | nil => simp [split, noMark, comparison]
  | cons next more =>
      have noEqual : next ≠ '=' := by simpa [stops_cons] using stops
      simp [split, noMark, comparison, noEqual]

theorem split_of_noSymbol {first : Char} (noMark : punctuation? first = none)
    (noComparison : comparison? first = none) (rest : List Char) :
    split first rest =
      if first == '/' then splitSlash rest
      else if isGap first then (.blank first, rest)
      else if first == '"' then splitQuote rest
      else if Text.isDigit first then splitNumeral first rest
      else if Text.isWordStart first then splitWord first rest
      else (.unexpected first, rest) := by
  simp [split, noMark, noComparison]

/-- A character starts a segment exactly if one of the tests of `split` is passed. -/
theorem starts_iff {character : Char} :
    Starts character ↔ (punctuation? character).isSome ∨ (comparison? character).isSome ∨
      character = '/' ∨ isGap character ∨ character = '"' ∨ Text.isDigit character ∨
      Text.isWordStart character := by
  have marked : character ∈ marks.map (·.1) ↔ (punctuation? character).isSome := by
    simp [Option.isSome_iff_exists, ← mem_marks_iff]
  have compared : character ∈ comparisons.map (·.1) ↔ (comparison? character).isSome := by
    simp [Option.isSome_iff_exists, ← mem_comparisons_iff]
  simp [Starts, marked, compared, mem_gaps_iff, Text.isDigit_eq, Text.isWordStart_eq]

/-- The first segment of a text fits before what follows it. -/
theorem isCut_split (first : Char) (rest : List Char) :
    IsCut (first :: rest) (split first rest) := by
  cases mark : punctuation? first with
  | some kind =>
      rw [split_of_mark mark]
      exact ⟨rfl, .mark (mem_marks_iff.mpr mark)⟩
  | none =>
      cases comparison : comparison? first with
      | some kinds =>
          have known := mem_comparisons_iff.mpr comparison
          by_cases stops : Stops (· == '=') rest
          · rw [split_of_noEqual mark comparison stops]
            exact ⟨rfl, .comparison known stops⟩
          · cases rest with
            | nil => exact absurd (stops_nil _) stops
            | cons next more =>
                have equal : next = '=' := by simpa [stops_cons] using stops
                subst equal
                rw [split_of_equal mark comparison]
                exact ⟨rfl, .comparisonEqual known⟩
      | none =>
          rw [split_of_noSymbol mark comparison]
          split
          · next isSlash =>
              rw [beq_iff_eq.mp isSlash]
              exact isCut_splitSlash rest
          split
          · next isGap => exact ⟨rfl, .blank (mem_gaps_iff.mpr isGap)⟩
          split
          · next isQuote =>
              rw [beq_iff_eq.mp isQuote]
              exact isCut_splitQuote rest
          split
          · next isDigit => exact isCut_splitNumeral isDigit rest
          split
          · next start => exact isCut_splitWord start rest
          · next noSlash noGap noQuote noDigit noStart =>
              refine ⟨rfl, .unexpected ?_⟩
              rw [starts_iff]
              simp_all

/-! ## What fits is what is cut -/

theorem noMark_of_comparison {character : Char} {alone joined : TokenKind}
    (comparison : comparison? character = some (alone, joined)) :
    punctuation? character = none := by
  have apart : ∀ entry ∈ comparisons, punctuation? entry.1 = none := by decide
  exact apart _ (mem_comparisons_iff.mpr comparison)

/-- The characters of words and numerals are in no table of symbols. -/
theorem noSymbol_of_alphanum {character : Char}
    (isPart : (character.isAlphanum || character == '_') = true) :
    punctuation? character = none ∧ comparison? character = none ∧ (character == '/') = false ∧
      isGap character = false ∧ (character == '"') = false := by
  have marksApart : ∀ entry ∈ marks, (entry.1.isAlphanum || entry.1 == '_') = false := by decide
  have comparisonsApart : ∀ entry ∈ comparisons,
      (entry.1.isAlphanum || entry.1 == '_') = false := by decide
  have gapsApart : ∀ gap ∈ gaps, (gap.isAlphanum || gap == '_') = false := by simp [gaps]
  refine ⟨?_, ?_, ?_, ?_, ?_⟩
  · by_contra isMark
    rcases Option.ne_none_iff_exists'.mp isMark with ⟨kind, mark⟩
    exact absurd isPart (Bool.eq_false_iff.mp (marksApart _ (mem_marks_iff.mpr mark)))
  · by_contra isComparison
    rcases Option.ne_none_iff_exists'.mp isComparison with ⟨kinds, comparison⟩
    exact absurd isPart
      (Bool.eq_false_iff.mp (comparisonsApart _ (mem_comparisons_iff.mpr comparison)))
  · rw [beq_eq_false_iff_ne]
    rintro rfl
    simp at isPart
  · by_contra isGap
    rw [Bool.not_eq_false, ← mem_gaps_iff] at isGap
    exact absurd isPart (Bool.eq_false_iff.mp (gapsApart _ isGap))
  · rw [beq_eq_false_iff_ne]
    rintro rfl
    simp at isPart

theorem split_slash (rest : List Char) : split '/' rest = splitSlash rest := by
  rw [split_of_noSymbol rfl rfl]
  rfl

theorem split_quote (rest : List Char) : split '"' rest = splitQuote rest := by
  rw [split_of_noSymbol rfl rfl]
  rfl

theorem split_digit {first : Char} (isDigit : first.isDigit) (rest : List Char) :
    split first rest = splitNumeral first rest := by
  have isPart : (first.isAlphanum || first == '_') = true := by simp [Char.isAlphanum, isDigit]
  rcases noSymbol_of_alphanum isPart with ⟨noMark, noComparison, noSlash, noGap, noQuote⟩
  rw [split_of_noSymbol noMark noComparison]
  simp [noSlash, noGap, noQuote, Text.isDigit_eq, isDigit]

theorem split_wordStart {first : Char} (start : first.isAlpha ∨ first = '_') (rest : List Char) :
    split first rest = splitWord first rest := by
  have isPart : (first.isAlphanum || first == '_') = true := by
    rcases start with isAlpha | rfl
    · simp [Char.isAlphanum, isAlpha]
    · rfl
  have noDigit : first.isDigit = false := by
    rcases start with isAlpha | rfl
    · exact Text.noDigit_of_isAlpha isAlpha
    · rfl
  rcases noSymbol_of_alphanum isPart with ⟨noMark, noComparison, noSlash, noGap, noQuote⟩
  rw [split_of_noSymbol noMark noComparison]
  simp [noSlash, noGap, noQuote, Text.isDigit_eq, noDigit, Text.isWordStart_eq, start]

theorem splitNumeral_of_noFraction {first : Char} {digits rest : List Char}
    (isDigits : ∀ digit ∈ digits, digit.isDigit) (stops : Stops Char.isDigit rest)
    (noFraction : ∀ next more, rest = '.' :: next :: more → next.isDigit = false) :
    splitNumeral first (digits ++ rest) =
      (.token .number (first :: digits)
        (.number (Decimal.ofNumeral (first :: digits) [])), rest) := by
  have taken : (digits ++ rest).takeWhile Text.isDigit = digits :=
    takeWhile_append_stop isDigits stops
  have dropped : (digits ++ rest).dropWhile Text.isDigit = rest :=
    dropWhile_append_stop isDigits stops
  have fraction : splitFraction rest = ([], rest) := by
    rcases splitFraction_spec rest with
      ⟨noDigits, rest_eq, -⟩ | ⟨nonempty, text_eq, fractionDigits, -⟩
    · exact Prod.ext noDigits rest_eq
    · rcases List.exists_cons_of_ne_nil nonempty with ⟨next, more, shape⟩
      have isDigit := fractionDigits next (by simp [shape])
      rw [shape] at text_eq
      simp [noFraction next _ text_eq] at isDigit
  simp [splitNumeral, taken, dropped, fraction]

theorem splitNumeral_of_fraction {first : Char} {digits fraction rest : List Char}
    (isDigits : ∀ digit ∈ digits, digit.isDigit) (nonempty : fraction ≠ [])
    (fractionDigits : ∀ digit ∈ fraction, digit.isDigit) (stops : Stops Char.isDigit rest) :
    splitNumeral first (digits ++ '.' :: fraction ++ rest) =
      (.token .number (first :: digits ++ '.' :: fraction)
        (.number (Decimal.ofNumeral (first :: digits) fraction)), rest) := by
  have point : Stops Text.isDigit ('.' :: (fraction ++ rest)) := stops_cons.mpr rfl
  have taken : (digits ++ '.' :: (fraction ++ rest)).takeWhile Text.isDigit = digits :=
    takeWhile_append_stop isDigits point
  have dropped : (digits ++ '.' :: (fraction ++ rest)).dropWhile Text.isDigit =
      '.' :: (fraction ++ rest) := dropWhile_append_stop isDigits point
  have fractionTaken : (fraction ++ rest).takeWhile Text.isDigit = fraction :=
    takeWhile_append_stop fractionDigits stops
  have fractionDropped : (fraction ++ rest).dropWhile Text.isDigit = rest :=
    dropWhile_append_stop fractionDigits stops
  have found : splitFraction ('.' :: (fraction ++ rest)) = (fraction, rest) := by
    simp only [splitFraction, fractionTaken, fractionDropped]
  rw [List.append_assoc, List.cons_append]
  simp only [splitNumeral, taken, dropped, found]

theorem splitWord_of_stops {first : Char} {more rest : List Char} {kind : TokenKind}
    (parts : ∀ part ∈ more, part.isAlphanum ∨ part = '_')
    (typed : IsKindOf kind (String.ofList (first :: more)))
    (stops : Stops (fun next => next.isAlphanum || next == '_') rest) :
    splitWord first (more ++ rest) = (.token kind (first :: more) .nil, rest) := by
  rw [← funext Text.isWordPart_eq] at stops
  have inside : ∀ part ∈ more, Text.isWordPart part = true := by
    intro part isPart
    simpa [Text.isWordPart_eq] using parts part isPart
  simp only [splitWord, takeWhile_append_stop inside stops, dropWhile_append_stop inside stops,
    isKindOf_iff.mp typed]

theorem notQuote_of_unquoted {body : List Char} (unquoted : '"' ∉ body) :
    ∀ character ∈ body, (character != '"') = true := by
  intro character inside
  rw [bne_iff_ne]
  rintro rfl
  exact unquoted inside

theorem splitQuote_of_closed {body rest : List Char} (unquoted : '"' ∉ body) :
    splitQuote (body ++ '"' :: rest) =
      (.token .string ('"' :: body ++ ['"']) (.string (String.ofList body)), rest) := by
  have inside := notQuote_of_unquoted unquoted
  have stops : Stops (· != '"') ('"' :: rest) := stops_cons.mpr rfl
  simp only [splitQuote, takeWhile_append_stop inside stops, dropWhile_append_stop inside stops]

theorem splitQuote_of_open {body : List Char} (unquoted : '"' ∉ body) :
    splitQuote body = (.openString ('"' :: body), []) := by
  have inside := notQuote_of_unquoted unquoted
  have stops := stops_nil (· != '"')
  have taken := takeWhile_append_stop inside stops
  have dropped := dropWhile_append_stop inside stops
  rw [List.append_nil] at taken dropped
  simp only [splitQuote, taken, dropped]

theorem splitSlash_of_line {body rest : List Char} (oneLine : '\n' ∉ body)
    (stops : Stops (· != '\n') rest) :
    splitSlash ('/' :: (body ++ rest)) = (.lineComment ('/' :: '/' :: body), rest) := by
  have inside : ∀ character ∈ body, (character != '\n') = true := by
    intro character isInside
    rw [bne_iff_ne]
    rintro rfl
    exact oneLine isInside
  simp only [splitSlash, takeWhile_append_stop inside stops, dropWhile_append_stop inside stops]

theorem splitSlash_of_block {body rest : List Char} (isFirst : ¬['*', '/'] <:+: body ++ ['*']) :
    splitSlash ('*' :: (body ++ '*' :: '/' :: rest)) =
      (.blockComment ('/' :: '*' :: body ++ ['*', '/']), rest) := by
  have found : splitAtClose ['*', '/'] (body ++ '*' :: '/' :: rest) =
      some ('/' :: '*' :: body ++ ['*', '/'], rest) :=
    splitAtClose_eq_some_iff.mpr ⟨body, rfl, rfl, isFirst⟩
  simp only [splitSlash, found]

theorem split_of_startsNothing {character : Char} (startsNothing : ¬Starts character)
    (rest : List Char) : split character rest = (.unexpected character, rest) := by
  simp only [starts_iff, not_or, Bool.not_eq_true, Option.isSome_eq_false_iff,
    Option.isNone_iff_eq_none] at startsNothing
  rcases startsNothing with ⟨noMark, noComparison, noSlash, noGap, noQuote, noDigit, noStart⟩
  rw [split_of_noSymbol noMark noComparison]
  simp [noSlash, noGap, noQuote, noDigit, noStart]

/-- A segment that fits before a rest is what the text starts with. -/
theorem split_of_fits {segment : Segment} {rest : List Char} (fits : Fits segment rest) :
    ∃ first more, segment.text ++ rest = first :: more ∧ split first more = (segment, rest) := by
  cases fits with
  | mark known => exact ⟨_, _, rfl, split_of_mark (mem_marks_iff.mp known) _⟩
  | comparisonEqual known =>
      have comparison := mem_comparisons_iff.mp known
      exact ⟨_, _, rfl, split_of_equal (noMark_of_comparison comparison) comparison _⟩
  | comparison known stops =>
      have comparison := mem_comparisons_iff.mp known
      exact ⟨_, _, rfl, split_of_noEqual (noMark_of_comparison comparison) comparison stops⟩
  | slash stops =>
      refine ⟨_, _, rfl, ?_⟩
      rw [split_slash]
      cases rest with
      | nil => rfl
      | cons next more =>
          simp only [stops_cons, Bool.or_eq_false_iff, beq_eq_false_iff_ne] at stops
          simp [splitSlash, stops]
  | @string body _ unquoted =>
      refine ⟨'"', body ++ '"' :: rest, by simp [text], ?_⟩
      rw [split_quote]
      exact splitQuote_of_closed unquoted
  | integer nonempty digits stops noFraction =>
      rcases List.exists_cons_of_ne_nil nonempty with ⟨first, more, rfl⟩
      refine ⟨first, more ++ rest, rfl, ?_⟩
      rw [split_digit (digits first (by simp))]
      exact splitNumeral_of_noFraction (fun digit isDigit => digits digit (by simp [isDigit]))
        stops noFraction
  | decimal wholeNonempty fractionNonempty wholeDigits fractionDigits stops =>
      rcases List.exists_cons_of_ne_nil wholeNonempty with ⟨first, more, rfl⟩
      refine ⟨first, more ++ '.' :: _ ++ rest, rfl, ?_⟩
      rw [split_digit (wholeDigits first (by simp))]
      exact splitNumeral_of_fraction (fun digit isDigit => wholeDigits digit (by simp [isDigit]))
        fractionNonempty fractionDigits stops
  | word start parts typed stops =>
      refine ⟨_, _, rfl, ?_⟩
      rw [split_wordStart start]
      exact splitWord_of_stops parts typed stops
  | blank gap =>
      refine ⟨_, _, rfl, ?_⟩
      simp only [gaps, List.mem_cons, List.not_mem_nil, or_false] at gap
      rcases gap with rfl | rfl | rfl | rfl <;> rfl
  | lineComment oneLine stops =>
      refine ⟨_, _, rfl, ?_⟩
      rw [split_slash]
      exact splitSlash_of_line oneLine stops
  | @blockComment body _ isFirst =>
      refine ⟨'/', '*' :: (body ++ '*' :: '/' :: rest), by simp [text], ?_⟩
      rw [split_slash]
      exact splitSlash_of_block isFirst
  | unexpected startsNothing => exact ⟨_, _, rfl, split_of_startsNothing startsNothing _⟩
  | @openString body unquoted =>
      refine ⟨'"', body, by simp [text], ?_⟩
      rw [split_quote]
      exact splitQuote_of_open unquoted
  | openComment unclosed =>
      refine ⟨_, _, rfl, ?_⟩
      rw [split_slash]
      simp [splitSlash, splitAtClose_eq_none_iff.mpr unclosed]

/-! ## The cut of a whole text -/

theorem segmented_segments (text : List Char) : Segmented text (segments text) := by
  fun_induction segments text with
  | case1 => exact .done
  | case2 first rest ih =>
      rcases isCut_split first rest with ⟨whole, fits⟩
      have pieces := Segmented.piece fits ih
      rwa [← whole] at pieces

theorem segments_eq_of_segmented {text : List Char} {pieces : List Segment}
    (segmented : Segmented text pieces) : segments text = pieces := by
  induction segmented with
  | done => simp [segments]
  | piece fits more ih =>
      rcases split_of_fits fits with ⟨first, rest, shape, cut⟩
      rw [shape, segments, cut, ih]

/-- A text has exactly one cut into segments that fit, the one that `segments` finds. -/
theorem segmented_iff {text : List Char} {pieces : List Segment} :
    Segmented text pieces ↔ pieces = segments text :=
  ⟨fun segmented => (segments_eq_of_segmented segmented).symm,
    fun found => found ▸ segmented_segments text⟩

theorem flatMap_text_of_segmented {text : List Char} {pieces : List Segment}
    (segmented : Segmented text pieces) : pieces.flatMap Segment.text = text := by
  induction segmented with
  | done => rfl
  | piece fits more ih => rw [List.flatMap_cons, ih]

theorem fits_of_mem {text : List Char} {pieces : List Segment} {segment : Segment}
    (segmented : Segmented text pieces) (isPiece : segment ∈ pieces) :
    ∃ rest, Fits segment rest := by
  induction segmented with
  | done => cases isPiece
  | piece fits _ ih =>
      rcases List.mem_cons.mp isPiece with rfl | isLater
      · exact ⟨_, fits⟩
      · exact ih isLater

end Segment
end LoxLang

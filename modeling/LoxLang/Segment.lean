import LoxLang.Decimal.Reader
import LoxLang.Token

/-!
# Segments of a source text

A source text is cut into consecutive segments, each as long as possible: tokens, blanks, comments,
characters that start nothing, and at the end possibly a quoted text or a comment that is never
closed. Every character of the text belongs to exactly one segment, and a segment does not depend
on where it stands.
-/

namespace LoxLang

/-- A piece of a source text. -/
inductive Segment
  | token (kind : TokenKind) (text : List Char) (literal : Value)
  | blank (character : Char)
  | lineComment (text : List Char)
  | blockComment (text : List Char)
  | unexpected (character : Char)
  | openString (text : List Char)
  | openComment (text : List Char)

namespace Segment

/-- The characters of a segment. -/
def text : Segment → List Char
  | .token _ text _ => text
  | .blank character => [character]
  | .lineComment text => text
  | .blockComment text => text
  | .unexpected character => [character]
  | .openString text => text
  | .openComment text => text

/-- The characters that are tokens by themselves. -/
def punctuation? : Char → Option TokenKind
  | '(' => some .leftParen
  | ')' => some .rightParen
  | '{' => some .leftBrace
  | '}' => some .rightBrace
  | ',' => some .comma
  | '.' => some .dot
  | '-' => some .minus
  | '+' => some .plus
  | ';' => some .semicolon
  | '*' => some .star
  | '?' => some .question
  | ':' => some .colon
  | _ => none

/-- The characters that are one token alone and another one before an equals sign. -/
def comparison? : Char → Option (TokenKind × TokenKind)
  | '!' => some (.bang, .bangEqual)
  | '=' => some (.equal, .equalEqual)
  | '<' => some (.less, .lessEqual)
  | '>' => some (.greater, .greaterEqual)
  | _ => none

/-- The blanks between tokens. -/
def isGap (character : Char) : Bool :=
  character == ' ' || character == '\r' || character == '\t' || character == '\n'

/-- Cuts a text behind its first closing mark of a block comment; `seen` holds the characters that
were read before, reversed. -/
def splitAtClose (seen : List Char) : List Char → Option (List Char × List Char)
  | [] => none
  | '*' :: '/' :: rest => some (('/' :: '*' :: seen).reverse, rest)
  | character :: rest => splitAtClose (character :: seen) rest

/-- The segment that starts with a slash, and what follows it. -/
def splitSlash : List Char → Segment × List Char
  | '/' :: rest =>
      (.lineComment ('/' :: '/' :: rest.takeWhile (· != '\n')), rest.dropWhile (· != '\n'))
  | '*' :: rest =>
      match splitAtClose ['*', '/'] rest with
      | some (text, rest) => (.blockComment text, rest)
      | none => (.openComment ('/' :: '*' :: rest), [])
  | rest => (.token .slash ['/'] .nil, rest)

/-- The segment that starts with a quote, and what follows it. -/
def splitQuote (rest : List Char) : Segment × List Char :=
  let body := rest.takeWhile (· != '"')
  match rest.dropWhile (· != '"') with
  | quote :: rest => (.token .string ('"' :: body ++ [quote]) (.string (String.ofList body)), rest)
  | [] => (.openString ('"' :: body), [])

/-- The fraction at the start of a text, without its point, and what follows it. -/
def splitFraction : List Char → List Char × List Char
  | '.' :: rest =>
      match rest.takeWhile Text.isDigit with
      | [] => ([], '.' :: rest)
      | digits => (digits, rest.dropWhile Text.isDigit)
  | rest => ([], rest)

/-- The segment that starts with a digit, and what follows it. -/
def splitNumeral (first : Char) (rest : List Char) : Segment × List Char :=
  let whole := first :: rest.takeWhile Text.isDigit
  match splitFraction (rest.dropWhile Text.isDigit) with
  | ([], rest) => (.token .number whole (.number (Decimal.ofNumeral whole [])), rest)
  | (fraction, rest) =>
      (.token .number (whole ++ '.' :: fraction) (.number (Decimal.ofNumeral whole fraction)), rest)

/-- The segment that starts with a letter, and what follows it. -/
def splitWord (first : Char) (rest : List Char) : Segment × List Char :=
  let word := first :: rest.takeWhile Text.isWordPart
  (.token (TokenKind.ofWord (String.ofList word)) word .nil, rest.dropWhile Text.isWordPart)

/-- The first segment of a text, given by its first character and the rest, and what follows it. -/
def split (first : Char) (rest : List Char) : Segment × List Char :=
  match punctuation? first, comparison? first, rest with
  | some kind, _, rest => (.token kind [first] .nil, rest)
  | none, some (_, kind), '=' :: rest => (.token kind [first, '='] .nil, rest)
  | none, some (kind, _), rest => (.token kind [first] .nil, rest)
  | none, none, rest =>
      if first == '/' then splitSlash rest
      else if isGap first then (.blank first, rest)
      else if first == '"' then splitQuote rest
      else if Text.isDigit first then splitNumeral first rest
      else if Text.isWordStart first then splitWord first rest
      else (.unexpected first, rest)

theorem length_dropWhile_le (test : Char → Bool) (text : List Char) :
    (text.dropWhile test).length ≤ text.length :=
  (List.dropWhile_sublist test).length_le

theorem length_splitAtClose {seen text closed rest : List Char}
    (found : splitAtClose seen text = some (closed, rest)) : rest.length ≤ text.length := by
  fun_induction splitAtClose seen text with
  | case1 => simp at found
  | case2 seen rest =>
      simp only [Option.some.injEq, Prod.mk.injEq] at found
      simp [← found.2]
      omega
  | case3 seen character text _ ih =>
      have := ih found
      simp only [List.length_cons]
      omega

theorem length_splitSlash_le (rest : List Char) : (splitSlash rest).2.length ≤ rest.length := by
  unfold splitSlash
  split
  · have := length_dropWhile_le (· != '\n') ‹List Char›
    simp only [List.length_cons]
    omega
  · split
    · next found =>
        have := length_splitAtClose found
        simp only [List.length_cons]
        omega
    · simp
  · simp

theorem length_splitQuote_le (rest : List Char) : (splitQuote rest).2.length ≤ rest.length := by
  have bound := length_dropWhile_le (· != '"') rest
  unfold splitQuote
  split
  · next shape => simp only [shape, List.length_cons] at bound ⊢; omega
  · simp

theorem length_splitFraction_le (text : List Char) :
    (splitFraction text).2.length ≤ text.length := by
  unfold splitFraction
  split
  · next rest =>
      have := length_dropWhile_le Text.isDigit rest
      split <;> simp only [List.length_cons] <;> omega
  · simp

theorem length_splitNumeral_le (first : Char) (rest : List Char) :
    (splitNumeral first rest).2.length ≤ rest.length := by
  have digits := length_dropWhile_le Text.isDigit rest
  have fraction := length_splitFraction_le (rest.dropWhile Text.isDigit)
  unfold splitNumeral
  split <;> next shape => simp only [shape] at fraction ⊢; omega

/-- A segment is never empty: what follows it is no longer than what follows its first
character. -/
theorem length_split_le (first : Char) (rest : List Char) :
    (split first rest).2.length ≤ rest.length := by
  unfold split
  split
  · simp
  · simp
  · simp
  · split
    · exact length_splitSlash_le _
    · split
      · simp
      · split
        · exact length_splitQuote_le _
        · split
          · exact length_splitNumeral_le _ _
          · split
            · exact length_dropWhile_le _ _
            · simp

/-- The segments of a text, in order. -/
def segments : List Char → List Segment
  | [] => []
  | first :: rest => (split first rest).1 :: segments (split first rest).2
termination_by text => text.length
decreasing_by
  have := length_split_le first rest
  simp only [List.length_cons]
  omega

end Segment

end LoxLang

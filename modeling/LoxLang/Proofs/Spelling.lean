import LoxLang.Proofs.Numerals
import LoxLang.Proofs.Positions
import LoxLang.Proofs.Segmentation

/-!
# Spelled tokens

A printed text consists of lexemes of tokens and of gaps between them. What a lexeme is scanned as
depends on what follows it, so that `Spells rest text tokens` speaks of a text in front of a given
rest. A token of a source text can be spelled again in front of a character that ends any token.
-/

namespace LoxLang

open Segment

/-- `Spells rest text tokens` says that a text in front of `rest` is made of the lexemes of tokens,
with gaps between them. -/
inductive Spells (rest : List Char) : List Char → List Token → Prop
  | done : Spells rest [] []
  | token {token : Token} {text : List Char} {tokens : List Token}
      (fits : Fits (.token token.kind token.lexeme.toList token.literal) (text ++ rest))
      (more : Spells rest text tokens) : Spells rest (token.lexeme.toList ++ text) (token :: tokens)
  | gap {character : Char} {text : List Char} {tokens : List Token} (isGap : character ∈ gaps)
      (more : Spells rest text tokens) : Spells rest (character :: text) tokens

namespace Spells

theorem append {rest left right : List Char} {first second : List Token}
    (before : Spells (right ++ rest) left first) (after : Spells rest right second) :
    Spells rest (left ++ right) (first ++ second) := by
  induction before with
  | done => exact after
  | token fits _ ih =>
      rw [List.append_assoc, List.cons_append]
      rw [← List.append_assoc] at fits
      exact .token fits ih
  | gap isGap _ ih => exact .gap isGap ih

theorem space {rest text : List Char} {tokens : List Token} (more : Spells rest text tokens) :
    Spells rest (' ' :: text) tokens :=
  .gap (by decide) more

theorem newline {rest text : List Char} {tokens : List Token} (more : Spells rest text tokens) :
    Spells rest ('\n' :: text) tokens :=
  .gap (by decide) more

theorem spaces {rest text : List Char} {tokens : List Token} (count : Nat)
    (more : Spells rest text tokens) : Spells rest (List.replicate count ' ' ++ text) tokens := by
  induction count with
  | zero => exact more
  | succ count ih =>
      rw [List.replicate_succ, List.cons_append]
      exact ih.space

/-- A text whose first token is neither `=` nor `==` does not start with an equals sign. -/
theorem stops_equal {rest text : List Char} {first : Token} {tokens : List Token}
    (spelled : Spells rest text (first :: tokens)) (notEqual : first.kind ≠ .equal)
    (notEqualEqual : first.kind ≠ .equalEqual) : Stops (· == '=') (text ++ rest) := by
  cases spelled with
  | gap isGap _ =>
      rw [List.cons_append, stops_cons, beq_eq_false_iff_ne]
      rintro rfl
      exact absurd isGap (by decide)
  | token fits more =>
      rcases split_of_fits fits with ⟨start, others, shape, cut⟩
      rw [List.append_assoc, show first.lexeme.toList ++ _ = start :: others from shape, stops_cons,
        beq_eq_false_iff_ne]
      rintro rfl
      -- an equals sign starts one of two tokens, and nothing else
      by_cases stops : Stops (· == '=') others
      · rw [split_of_noEqual rfl rfl stops] at cut
        simp only [Prod.mk.injEq, Segment.token.injEq] at cut
        exact notEqual cut.1.1.symm
      · cases others with
        | nil => exact stops (stops_nil _)
        | cons next others =>
            have isEqual : next = '=' := by simpa [stops_cons] using stops
            rw [isEqual, split_of_equal rfl rfl] at cut
            simp only [Prod.mk.injEq, Segment.token.injEq] at cut
            exact notEqualEqual cut.1.1.symm

/-! ## Scanning spelled tokens -/

theorem segments_append {segment : Segment} {rest : List Char} (fits : Fits segment rest) :
    segments (segment.text ++ rest) = segment :: segments rest :=
  segments_eq_of_segmented (.piece fits (segmented_segments rest))

/-- The scan of a spelled text has no diagnostic and the spelled tokens, wherever they stand. -/
theorem placed_segments {text : List Char} {tokens : List Token} (spelled : Spells [] text tokens) :
    ∀ position : Position,
      (((placed position (segments text)).filterMap fun (position, segment) =>
        segment.token? position).map (·.move fun _ => ⟨0, 0⟩)) =
          tokens.map (·.move fun _ => ⟨0, 0⟩) ∧
      (placed position (segments text)).filterMap (fun (position, segment) =>
        segment.diagnostic? position) = [] := by
  induction spelled with
  | done =>
      intro position
      simp [segments, placed]
  | @token token text tokens fits _ ih =>
      intro position
      rw [List.append_nil] at fits
      have cut := segments_append fits
      simp only [Segment.text] at cut
      rw [cut]
      have others := ih (position.after token.lexeme.toList)
      simpa [placed, token?, diagnostic?, complaint?, Segment.text, Token.move] using others
  | @gap character text tokens isGap _ ih =>
      intro position
      have cut := segments_append (.blank isGap : Fits (.blank character) text)
      simp only [Segment.text, List.cons_append, List.nil_append] at cut
      rw [cut]
      have others := ih (position.after [character])
      simpa [placed, token?, diagnostic?, complaint?, Segment.text] using others

theorem scan {text : List Char} {tokens : List Token} (spelled : Spells [] text tokens) :
    (Scan.ofText false text).tokens.map (·.move fun _ => ⟨0, 0⟩) =
      tokens.map (·.move fun _ => ⟨0, 0⟩) ∧ (Scan.ofText false text).diagnostics = [] := by
  simpa [Scan.ofText] using spelled.placed_segments .start

end Spells

/-! ## Tokens of source texts -/

/-- Whether a rest of a text starts with a character that ends every token before it. -/
def Ends (rest : List Char) : Prop :=
  ∃ next more, rest = next :: more ∧ next ∈ [' ', '(', ')', ',', ';']

@[simp]
theorem ends_cons {next : Char} {more : List Char} :
    Ends (next :: more) ↔ next ∈ [' ', '(', ')', ',', ';'] := by
  constructor
  · rintro ⟨_, _, shape, isEnd⟩
    rw [(List.cons.inj shape).1]
    exact isEnd
  · intro isEnd
    exact ⟨next, more, rfl, isEnd⟩

theorem Ends.stops {rest : List Char} (ends : Ends rest) {excluded : Char → Bool}
    (apart : [' ', '(', ')', ',', ';'].any excluded = false) : Stops excluded rest := by
  rcases ends with ⟨next, more, rfl, isEnd⟩
  exact stops_cons.mpr (Bool.eq_false_iff.mpr (List.any_eq_false.mp apart next isEnd))

theorem Ends.noFraction {rest : List Char} (ends : Ends rest) (next : Char) (more : List Char)
    (shape : rest = '.' :: next :: more) : next.isDigit = false := by
  rw [shape, ends_cons] at ends
  exact absurd ends (by decide)

/-- What fits somewhere fits before whatever no token goes on with. -/
theorem fits_of_stops {kind : TokenKind} {lexeme before rest : List Char} {literal : Value}
    (fits : Fits (.token kind lexeme literal) before)
    (stops : ∀ excluded : Char → Bool, [' ', '(', ')', ',', ';'].any excluded = false →
      Stops excluded rest)
    (noFraction : ∀ next more, rest = '.' :: next :: more → next.isDigit = false) :
    Fits (.token kind lexeme literal) rest := by
  cases fits with
  | mark known => exact .mark known
  | comparisonEqual known => exact .comparisonEqual known
  | comparison known _ => exact .comparison known (stops _ (by decide))
  | slash _ => exact .slash (stops _ (by decide))
  | string unquoted => exact .string unquoted
  | integer nonempty digits _ _ => exact .integer nonempty digits (stops _ (by decide)) noFraction
  | decimal wholeNonempty fractionNonempty wholeDigits fractionDigits _ =>
      exact .decimal wholeNonempty fractionNonempty wholeDigits fractionDigits
        (stops _ (by decide))
  | word start parts typed _ => exact .word start parts typed (stops _ (by decide))

/-- What fits somewhere fits before whatever ends a token. -/
theorem fits_of_ends {kind : TokenKind} {lexeme before rest : List Char} {literal : Value}
    (fits : Fits (.token kind lexeme literal) before) (ends : Ends rest) :
    Fits (.token kind lexeme literal) rest :=
  fits_of_stops fits (fun _ apart => ends.stops apart) ends.noFraction

/-- What fits somewhere fits at the end of a text. -/
theorem fits_at_end {kind : TokenKind} {lexeme before : List Char} {literal : Value}
    (fits : Fits (.token kind lexeme literal) before) : Fits (.token kind lexeme literal) [] :=
  fits_of_stops fits (fun _ _ => stops_nil _) (by simp)

/-- A numeral is a token at the end of a text. -/
theorem fits_numeral {whole fraction : List Char} (notEmpty : whole ≠ [])
    (areDigits : ∀ digit ∈ whole ++ fraction, digit.isDigit) :
    Fits (.token .number (Decimal.numeral whole fraction)
      (.number (Decimal.ofNumeral whole fraction))) [] := by
  rw [List.forall_mem_append] at areDigits
  -- an integer has no point
  cases fraction with
  | nil => exact .integer notEmpty areDigits.1 (stops_nil _) (by simp)
  | cons place places =>
      exact .decimal notEmpty (List.cons_ne_nil place places) areDigits.1 areDigits.2 (stops_nil _)

namespace Token

/-- Whether a token can stand in a source text, and its value is finite if it is a number. -/
structure Genuine (token : Token) : Prop where
  fits : ∃ rest, Fits (.token token.kind token.lexeme.toList token.literal) rest
  finite : ∀ value mark, token.literal = .number value mark → value.isFinite = true

/-- The texts of the kinds of tokens that have only one. -/
def spellings : List (TokenKind × List Char) :=
  (.slash, ['/']) :: (marks.map (fun (character, kind) => (kind, [character])) ++
    comparisons.flatMap (fun (character, alone, joined) =>
      [(alone, [character]), (joined, [character, '='])]) ++
    TokenKind.keywords.map fun (word, kind) => (kind, word.toList))

theorem spellings_functional {kind : TokenKind} {left right : List Char}
    (leftMem : (kind, left) ∈ spellings) (rightMem : (kind, right) ∈ spellings) : left = right := by
  have distinct : (spellings.map (·.1)).Nodup := by decide
  have same := List.inj_on_of_nodup_map distinct leftMem rightMem rfl
  exact (Prod.mk.inj same).2

theorem mem_spellings_of_mem_marks {character : Char} {kind : TokenKind}
    (known : (character, kind) ∈ marks) : (kind, [character]) ∈ spellings := by
  simp only [spellings, List.mem_cons, List.mem_append]
  exact .inr (.inl (.inl (List.mem_map.mpr ⟨(character, kind), known, rfl⟩)))

theorem mem_spellings_of_mem_keywords {word : String} {kind : TokenKind}
    (known : (word, kind) ∈ TokenKind.keywords) : (kind, word.toList) ∈ spellings := by
  simp only [spellings, List.mem_cons, List.mem_append]
  exact .inr (.inr (List.mem_map.mpr ⟨(word, kind), known, rfl⟩))

/-- A token has the one text of its kind, or it is a word, a quoted text or a numeral. -/
theorem forms_of_fits {kind : TokenKind} {lexeme rest : List Char} {literal : Value}
    (fits : Fits (.token kind lexeme literal) rest) :
    ((kind, lexeme) ∈ spellings ∧ literal = .nil) ∨ kind = .identifier ∨
      (kind = .string ∧ ∃ body, lexeme = '"' :: body ++ ['"'] ∧
        literal = .string (String.ofList body)) ∨
      (kind = .number ∧ ∃ whole fraction,
        literal = .number (Decimal.ofNumeral whole fraction)) := by
  cases fits with
  | mark known => exact .inl ⟨mem_spellings_of_mem_marks known, rfl⟩
  | @comparisonEqual character alone _ _ known =>
      refine .inl ⟨?_, rfl⟩
      simp only [spellings, List.mem_cons, List.mem_append]
      exact .inr (.inl (.inr (List.mem_flatMap.mpr ⟨(character, alone, kind), known, by simp⟩)))
  | @comparison character _ joined _ known _ =>
      refine .inl ⟨?_, rfl⟩
      simp only [spellings, List.mem_cons, List.mem_append]
      exact .inr (.inl (.inr (List.mem_flatMap.mpr ⟨(character, kind, joined), known, by simp⟩)))
  | @word first more _ _ _ _ typed _ =>
      rcases typed with known | ⟨isIdentifier, -⟩
      · have isSpelling := mem_spellings_of_mem_keywords known
        rw [String.toList_ofList] at isSpelling
        exact .inl ⟨isSpelling, rfl⟩
      · exact .inr (.inl isIdentifier)
  | slash => exact .inl ⟨by simp [spellings], rfl⟩
  | string => exact .inr (.inr (.inl ⟨rfl, _, rfl, rfl⟩))
  | integer => exact .inr (.inr (.inr ⟨rfl, _, _, rfl⟩))
  | decimal => exact .inr (.inr (.inr ⟨rfl, _, _, rfl⟩))

theorem mem_spellings_of_fits {kind : TokenKind} {lexeme rest : List Char} {literal : Value}
    (fits : Fits (.token kind lexeme literal) rest) (fixed : kind ∈ spellings.map (·.1)) :
    (kind, lexeme) ∈ spellings ∧ literal = .nil := by
  rcases forms_of_fits fits with known | rfl | ⟨rfl, -⟩ | ⟨rfl, -⟩
  · exact known
  all_goals exact absurd fixed (by decide)

namespace Genuine

variable {token : Token} {kind : TokenKind} {rest text spelling : List Char} {tokens : List Token}

theorem toList_lexeme (genuine : token.Genuine) (isKind : token.kind = kind)
    (known : (kind, spelling) ∈ spellings) : token.lexeme.toList = spelling := by
  rcases genuine.fits with ⟨rest, fits⟩
  rw [isKind] at fits
  have fixed : kind ∈ spellings.map (·.1) := List.mem_map.mpr ⟨_, known, rfl⟩
  exact spellings_functional (mem_spellings_of_fits fits fixed).1 known

theorem spells (genuine : token.Genuine) (ends : Ends (text ++ rest))
    (more : Spells rest text tokens) :
    Spells rest (token.lexeme.toList ++ text) (token :: tokens) := by
  rcases genuine.fits with ⟨before, fits⟩
  exact .token (fits_of_ends fits ends) more

theorem spellsAlone (genuine : token.Genuine) (ends : Ends rest) :
    Spells rest token.lexeme.toList [token] := by
  have fitting : Ends ([] ++ rest) := ends
  simpa using genuine.spells fitting .done

/-- A token with a text of its own, spelled before what ends it. -/
theorem spellsFixed (genuine : token.Genuine) (isKind : token.kind = kind)
    (known : (kind, spelling) ∈ spellings) (ends : Ends (text ++ rest))
    (more : Spells rest text tokens) : Spells rest (spelling ++ text) (token :: tokens) := by
  rw [← genuine.toList_lexeme isKind known]
  exact genuine.spells ends more

/-- A token of one character, spelled before anything. -/
theorem spellsMark (genuine : token.Genuine) {character : Char} (isKind : token.kind = kind)
    (known : (character, kind) ∈ marks) (more : Spells rest text tokens) :
    Spells rest (character :: text) (token :: tokens) := by
  have isSpelling := mem_spellings_of_mem_marks known
  have isLexeme := genuine.toList_lexeme isKind isSpelling
  have isNil : token.literal = .nil := by
    rcases genuine.fits with ⟨before, fits⟩
    rw [isKind] at fits
    exact (mem_spellings_of_fits fits (List.mem_map.mpr ⟨_, isSpelling, rfl⟩)).2
  have fits : Fits (.token token.kind token.lexeme.toList token.literal) (text ++ rest) := by
    rw [isLexeme, isNil, isKind]
    exact .mark known
  simpa [isLexeme] using Spells.token fits more

/-- A sign, spelled before anything but an equals sign. -/
theorem spellsSign (genuine : token.Genuine) (isSign : token.kind ∈ [.bang, .minus])
    (stops : Stops (· == '=') (text ++ rest)) (more : Spells rest text tokens) :
    Spells rest (token.lexeme.toList ++ text) (token :: tokens) := by
  rcases genuine.fits with ⟨before, fits⟩
  simp only [List.mem_cons, List.not_mem_nil, or_false] at isSign
  rcases isSign with isBang | isMinus
  · have shape := mem_spellings_of_fits fits (by rw [isBang]; decide)
    have isLexeme := genuine.toList_lexeme isBang (by decide : (.bang, ['!']) ∈ spellings)
    refine .token ?_ more
    rw [isBang, isLexeme, shape.2]
    exact .comparison (by decide : ('!', .bang, .bangEqual) ∈ comparisons) stops
  · have isLexeme := genuine.toList_lexeme isMinus (by decide : (.minus, ['-']) ∈ spellings)
    rw [isLexeme]
    exact genuine.spellsMark isMinus (by decide) more

/-- A quoted text is printed as it was written. -/
theorem source_string (genuine : token.Genuine) (isString : token.kind = .string) :
    token.literal.source.toList = token.lexeme.toList := by
  rcases genuine.fits with ⟨before, fits⟩
  rw [isString] at fits
  rcases forms_of_fits fits with ⟨known, -⟩ | impossible | ⟨-, body, isLexeme, isLiteral⟩ |
    ⟨impossible, -⟩
  · exact absurd (List.mem_map.mpr ⟨_, known, rfl⟩ :
      TokenKind.string ∈ spellings.map (·.1)) (by decide)
  · cases impossible
  · simp [isLexeme, isLiteral, Value.source]
  · cases impossible

/-- A finite number is printed as a numeral that stands for it. -/
theorem exists_numeral (genuine : token.Genuine) (isNumber : token.kind = .number) :
    ∃ printed : Token, printed.kind = .number ∧ printed.literal = token.literal ∧
      printed.lexeme = token.literal.source ∧ printed.Genuine := by
  rcases genuine.fits with ⟨before, fits⟩
  rw [isNumber] at fits
  rcases forms_of_fits fits with ⟨known, -⟩ | impossible | ⟨impossible, -⟩ |
    ⟨-, whole, fraction, isLiteral⟩
  · exact absurd (List.mem_map.mpr ⟨_, known, rfl⟩ :
      TokenKind.number ∈ spellings.map (·.1)) (by decide)
  · cases impossible
  · cases impossible
  · rcases Decimal.write_ofNumeral (genuine.finite _ _ isLiteral) with
      ⟨digits, places, notEmpty, areDigits, written, sameValue⟩
    refine ⟨⟨.number, token.literal.source, token.literal, token.position⟩, rfl, rfl, rfl, ?_,
      genuine.finite⟩
    have written' : token.literal.source.toList = Decimal.numeral digits places := by
      rw [isLiteral]
      exact written
    have isLiteral' : token.literal = .number (Decimal.ofNumeral digits places) := by
      rw [isLiteral, sameValue]
    refine ⟨[], ?_⟩
    simp only [written']
    rw [isLiteral']
    exact fits_numeral notEmpty areDigits

end Genuine

/-- A token that was not read from a text. -/
def fresh (kind : TokenKind) (lexeme : String) : Token := { kind, lexeme }

theorem genuine_mark {character : Char} {kind : TokenKind} (known : (character, kind) ∈ marks) :
    (fresh kind (String.ofList [character])).Genuine := by
  refine ⟨⟨[], ?_⟩, by simp [fresh]⟩
  simpa [fresh] using (.mark known : Fits (.token kind [character] .nil) [])

theorem genuine_keyword {word : String} {kind : TokenKind}
    (known : (word, kind) ∈ TokenKind.keywords) : (fresh kind word).Genuine := by
  have letters : ∀ entry ∈ TokenKind.keywords, entry.1.toList ≠ [] ∧
      entry.1.toList.all Char.isAlpha = true := by decide
  rcases letters _ known with ⟨notEmpty, isAlpha⟩
  rw [List.all_eq_true] at isAlpha
  rcases List.exists_cons_of_ne_nil notEmpty with ⟨first, more, shape⟩
  rw [shape] at isAlpha
  have fits : Fits (.token kind (first :: more) .nil) [] := by
    refine .word (.inl (isAlpha first (by simp))) ?_ (.inl ?_) (stops_nil _)
    · intro part isPart
      have letter := isAlpha part (by simp [isPart])
      exact .inl (by simp [Char.isAlphanum, letter])
    · rw [← shape, String.ofList_toList]
      exact known
  rw [← shape] at fits
  exact ⟨⟨[], fits⟩, by simp [fresh]⟩

end Token

/-! ## The tokens of a scan -/

theorem Segment.mem_of_mem_placed {position start : Position} {segment : Segment}
    {pieces : List Segment} (isPlaced : (position, segment) ∈ placed start pieces) :
    segment ∈ pieces := by
  induction pieces generalizing start with
  | nil => simp [placed] at isPlaced
  | cons first pieces ih =>
      rcases List.mem_cons.mp isPlaced with same | isPlaced
      · rw [(Prod.mk.inj same).2]
        exact List.mem_cons_self
      · exact List.mem_cons_of_mem _ (ih isPlaced)

theorem Scan.fits_of_mem_tokens {interactive : Bool} {text : List Char} {token : Token}
    (isToken : token ∈ (ofText interactive text).tokens) :
    ∃ rest, Fits (.token token.kind token.lexeme.toList token.literal) rest := by
  have scanned : ∀ token ∈ (placed .start (segments text)).filterMap fun (position, segment) =>
      segment.token? position, ∃ rest,
        Fits (.token token.kind token.lexeme.toList token.literal) rest := by
    intro token isToken
    rcases List.mem_filterMap.mp isToken with ⟨⟨position, segment⟩, isPlaced, isToken⟩
    rcases fits_of_mem (segmented_segments text) (mem_of_mem_placed isPlaced) with ⟨rest, fits⟩
    cases segment with
    | token kind lexeme literal =>
        simp only [token?, Option.some.injEq] at isToken
        subst isToken
        exact ⟨rest, by simpa using fits⟩
    | _ => simp [token?] at isToken
  simp only [ofText] at isToken
  split at isToken
  · rcases List.mem_append.mp isToken with isToken | isSupplied
    · exact scanned token isToken
    · rw [List.mem_singleton.mp isSupplied]
      have fits : Fits (.token .semicolon [';'] .nil) [] := .mark (by decide)
      exact ⟨[], by simpa [suppliedSemicolon] using fits⟩
  · exact scanned token isToken

end LoxLang

import LoxLang.Proofs.Holes

/-!
# Errors are reported independently

A program that is put together from pieces is parsed like its pieces, one after the other, although
some of them may be broken. A piece without errors is read up to its end and no further, provided
that nothing goes on with `else`. In a broken piece, what was given up at one of its tokens is given
up there just the same if more tokens follow, and the search for a boundary comes to its last
semicolon and stops behind it.
-/

namespace LoxLang

namespace Grammar

open Rule

variable {limit : Nat} {tokens more : List Token} {ending : Token}

/-! ## Resuming behind a semicolon -/

theorem skipToBoundary_semicolon {previous last : Token}
    (isLast : last ∈ (previous :: tokens).getLast?) (isSemicolon : last.kind = .semicolon)
    (skipsAll : Cursor.skipToBoundary previous tokens = []) (more : List Token) :
    Cursor.skipToBoundary previous (tokens ++ more) = more := by
  induction tokens generalizing previous with
  | nil =>
      have isPrevious : previous = last := Option.some.inj isLast
      rw [← isPrevious] at isSemicolon
      cases more with
      | nil => rfl
      | cons token rest => simp [Cursor.skipToBoundary, isSemicolon]
  | cons token rest ih =>
      rw [List.getLast?_cons_cons] at isLast
      rw [Cursor.skipToBoundary] at skipsAll
      split at skipsAll
      · cases skipsAll
      · next goesOn =>
          rw [List.cons_append, Cursor.skipToBoundary, if_neg goesOn]
          exact ih isLast skipsAll

/-- Where the search for a boundary comes to a semicolon at the end, it stops behind it if more
tokens follow. -/
theorem resumed_semicolon {last : Token} (isLast : last ∈ tokens.getLast?)
    (isSemicolon : last.kind = .semicolon) (skipsAll : resumed tokens = []) (more : List Token) :
    resumed (tokens ++ more) = more := by
  cases tokens with
  | nil => cases isLast
  | cons token rest => exact skipToBoundary_semicolon isLast isSemicolon skipsAll more

/-! ## Outermost declarations -/

/-- A declaration recovers from the faults of a rule that gives no holes itself. -/
theorem exists_recovering : ∀ depth, ∃ rule, declaration depth = recovering rule ∧
    ∀ text ending tokens, Behaves text ending tokens rule fun read new tree =>
      read ≠ [] ∧ Given ending read new tree
  | 0 | 1 | 2 | 3 | 4 => ⟨tooDeep, rfl, fun _ _ _ => behaves_tooDeep _⟩
  | depth + 5 => ⟨_, rfl, fun _ _ _ => behaves_declarationRule (holds_expression _)
      (declares_declaration _) (declares_declaration depth)⟩

/-- An outermost declaration is a tree, or it was given up at a token, whatever comes behind that
token. -/
theorem outermost_cases (limit : Nat) (tokens : List Token) (ending : Token) :
    (∃ rest tree new, tree ≠ .hole ∧ ∀ earlier,
      outermost limit ⟨tokens, ending, earlier⟩ = (tree, ⟨rest, ending, earlier ++ new⟩)) ∨
    ∃ read rest before, ∃ fault : GrammarFault, tokens = read ++ rest ∧
      ∀ more ending' earlier, (rest = [] → more = [] ∧ ending' = ending) →
        outermost limit ⟨tokens ++ more, ending', earlier⟩ =
          (.hole, ⟨resumed (rest ++ more), ending',
            earlier ++ (before ++ [.atToken (rest.headD ending) "Parser" fault.message])⟩) := by
  rcases exists_recovering limit with ⟨rule, isRule, behaves⟩
  rcases behaves tokens ending tokens (List.Subset.refl tokens) with
    ⟨⟨read, rest, new, reply⟩, ⟨consumed, -, abandoned, runs⟩, accounted⟩
  dsimp only at consumed abandoned runs accounted
  rcases reply with (_ | _) | tree
  · rcases abandoned rfl with ⟨before, fault, isLast⟩
    refine .inr ⟨read, rest, before, fault, consumed, fun more ending' earlier unlessEnd => ?_⟩
    simp only [outermost, isRule, recovering, runs more ending' earlier unlessEnd, answer,
      synchronize_eq, isLast]
  · refine .inr ⟨read, rest, new, .tooDeep, consumed, fun more ending' earlier unlessEnd => ?_⟩
    simp only [outermost, isRule, recovering, runs more ending' earlier unlessEnd, answer,
      synchronize_eq, Cursor.report, Cursor.peek, headD_append unlessEnd, List.append_assoc]
  · refine .inl ⟨rest, tree, new, (accounted tree rfl).2.1, fun earlier => ?_⟩
    have isTree := runs [] ending earlier fun _ => ⟨rfl, rfl⟩
    rw [List.append_nil, List.append_nil] at isTree
    simp only [outermost, isRule, recovering, isTree, answer]

/-- A diagnostic at a token is not one at the end of the text. -/
theorem atToken_ne {token : Token} {actor actor' message message' : String}
    (isEnd : ending.kind = .endOfText) (isInside : token.kind ≠ .endOfText) :
    Diagnostic.atToken ending actor message ≠ Diagnostic.atToken token actor' message' := by
  intro same
  have samePlace : "at the end" = "'" ++ token.lexeme ++ "'" := by
    simpa [Diagnostic.atToken, Diagnostic.spanning, isEnd, isInside] using
      congrArg Diagnostic.place same
  have sameHead := congrArg (·.toList.head?) samePlace
  simp at sameHead

/-- A declaration that is given up at one of the tokens, and leaves nothing of them up to a
semicolon at the end, is given up alike if more tokens follow, and leaves those. -/
theorem outermost_append {last token : Token} {message : String} (isLast : last ∈ tokens.getLast?)
    (isSemicolon : last.kind = .semicolon) (isEnd : ending.kind = .endOfText)
    (isInside : token.kind ≠ .endOfText)
    (alone : outermost limit ⟨tokens, ending, []⟩ =
      (.hole, ⟨[], ending, [.atToken token "Parser" message]⟩))
    (more : List Token) (ending' : Token) (earlier : List Diagnostic) :
    outermost limit ⟨tokens ++ more, ending', earlier⟩ =
      (.hole, ⟨more, ending', earlier ++ [.atToken token "Parser" message]⟩) := by
  rcases outermost_cases limit tokens ending with
    ⟨rest, tree, new, noHole, isTree⟩ | ⟨read, rest, before, fault, consumed, givenUp⟩
  · rw [isTree, Prod.mk.injEq] at alone
    exact absurd alone.1 noHole
  · have isAlone := givenUp [] ending [] fun _ => ⟨rfl, rfl⟩
    rw [List.append_nil, alone] at isAlone
    simp only [List.append_nil, List.nil_append, Prod.mk.injEq, Cursor.mk.injEq, true_and]
      at isAlone
    rcases isAlone with ⟨skipsAll, same⟩
    rcases List.append_eq_singleton_iff.mp same.symm with ⟨rfl, isReported⟩ | ⟨-, impossible⟩
    · have someLeft : rest ≠ [] := by
        rintro rfl
        exact atToken_ne isEnd isInside (List.cons.inj isReported).1
      have isLastLeft : last ∈ rest.getLast? := by
        rwa [consumed, List.getLast?_append_of_ne_nil _ someLeft] at isLast
      rw [givenUp more ending' earlier fun isEmpty => absurd isEmpty someLeft,
        resumed_semicolon isLastLeft isSemicolon skipsAll.symm, isReported, List.nil_append]
    · cases impossible

/-! ## One piece in front of others -/

theorem eq_nil_of_parses_nil {new : List Diagnostic} (parses : Parses limit tokens ending [] new) :
    tokens = [] ∧ new = [] := by
  cases tokens with
  | nil => simpa [declarations] using parses [] [] le_rfl
  | cons token rest =>
      have impossible := parses (token :: rest) [] le_rfl
      simp [declarations] at impossible

/-- Declarations without errors are read up to where they end, unless an `else` follows. -/
theorem Parses.append {trees others : List Stmt} {later : List Diagnostic}
    (program : Phrase.Many (DeclarationWithin limit) tokens trees)
    (follows : Follows [.elseWord] more) (parses : Parses limit more ending others later) :
    Parses limit (tokens ++ more) ending (trees ++ others) later := by
  induction program with
  | done => exact parses
  | @more first rest tree trees read program ih =>
      have startsLater : Follows [.elseWord] (rest ++ more) :=
        Follows.many (startsIn_declarationWithin limit) (by decide) follows program
      have isFirst : ∀ earlier, outermost limit ⟨first ++ (rest ++ more), ending, earlier⟩ =
          (tree, ⟨rest ++ more, ending, earlier ++ []⟩) := by
        intro earlier
        rcases complete_declarationWithin limit first tree (rest ++ more) read startsLater ending
          earlier with isRead | ⟨impossible, -⟩
        · simp [outermost, isRead]
        · exact impossible.elim
      have shorter : (rest ++ more).length < (first ++ (rest ++ more)).length := by
        rcases startsIn_declarationWithin limit _ _ read with ⟨token, following, rfl, -⟩
        simp
      rw [List.append_assoc]
      exact .cons isFirst shorter ih

end Grammar

open Grammar

/-- A piece of a program, with an end of its own. -/
structure Piece where
  tokens : List Token
  ending : Token

namespace Piece

variable {limit : Nat} {piece : Piece} {more : List Token} {ending : Token}

/-- What a piece gives alone. -/
def parse (limit : Nat) (piece : Piece) : Parse :=
  .ofTokens limit false piece.tokens piece.ending

/-- Whether a piece is a single error: all of it is given up because of a token that is not its end,
and it ends with a semicolon. -/
structure Broken (limit : Nat) (piece : Piece) : Prop where
  semicolon : ∃ last ∈ piece.tokens.getLast?, last.kind = .semicolon
  parsed : ∃ token message, token.kind ≠ .endOfText ∧
    piece.parse limit = ⟨[.hole], [.atToken token "Parser" message]⟩

/-- Whether a piece can stand among others: it is some tokens and an end, it does not go on with
what stands before it, and there is no error in it or it is broken. -/
structure Independent (limit : Nat) (piece : Piece) : Prop where
  isEnd : piece.ending.kind = .endOfText
  isInside : ∀ token ∈ piece.tokens, token.kind ≠ .endOfText
  starts : ∀ first ∈ piece.tokens.head?, first.kind ≠ .elseWord
  parsed : (piece.parse limit).diagnostics = [] ∨ piece.Broken limit

/-- The outermost declaration of a broken piece. -/
theorem Broken.outermost_eq {token : Token} {message : String}
    (parsed : piece.parse limit = ⟨[.hole], [.atToken token "Parser" message]⟩) :
    outermost limit ⟨piece.tokens, piece.ending, []⟩ =
      (.hole, ⟨[], piece.ending, [.atToken token "Parser" message]⟩) := by
  have someLeft : piece.tokens ≠ [] := by
    intro isEmpty
    simp [parse, isEmpty, Parse.ofTokens_of_parses (parses_nil limit piece.ending)] at parsed
  rcases exists_outermost limit piece.ending (List.Subset.refl piece.tokens) someLeft with
    ⟨read, rest, tree, new, consumed, readsSome, -, -, first⟩
  rcases exists_parses limit piece.ending (List.Subset.refl rest) with ⟨trees, later, -, -, others⟩
  have positive := List.length_pos_iff.mpr readsSome
  have shorter : rest.length < piece.tokens.length := by
    rw [consumed, List.length_append]
    omega
  have isParse := Parse.ofTokens_of_parses (Parses.cons first shorter others) false
  rw [parse, isParse] at parsed
  simp only [Bool.false_eq_true, if_false, Parse.mk.injEq, List.cons.injEq] at parsed
  rcases parsed with ⟨⟨rfl, rfl⟩, isNew⟩
  rcases eq_nil_of_parses_nil others with ⟨rfl, rfl⟩
  rw [first, ← isNew]
  simp

/-- A piece in front of other tokens gives what it gives alone. -/
theorem Independent.parses {others : List Stmt} {later : List Diagnostic}
    (independent : piece.Independent limit) (follows : Follows [.elseWord] more)
    (parses : Parses limit more ending others later) :
    Parses limit (piece.tokens ++ more) ending ((piece.parse limit).statements ++ others)
      ((piece.parse limit).diagnostics ++ later) := by
  rcases independent.parsed with isQuiet | isBroken
  · rw [isQuiet]
    exact .append (Parse.manyWithin_of_quiet isQuiet) follows parses
  · rcases isBroken with ⟨⟨last, isLast, isSemicolon⟩, token, message, isInside, parsed⟩
    have isHole := outermost_append isLast isSemicolon independent.isEnd isInside
      (Broken.outermost_eq parsed) more ending
    have shorter : more.length < (piece.tokens ++ more).length := by
      have someTokens : piece.tokens ≠ [] := List.ne_nil_of_mem (List.mem_of_getLast? isLast)
      simpa [List.length_pos_iff] using someTokens
    rw [parsed]
    exact .cons isHole shorter parses

theorem follows_flatMap {pieces : List Piece}
    (independent : ∀ piece ∈ pieces, piece.Independent limit) :
    Follows [.elseWord] (pieces.flatMap tokens) := by
  induction pieces with
  | nil => simp [Follows]
  | cons piece rest ih =>
      rw [List.flatMap_cons]
      have starts := (independent piece List.mem_cons_self).starts
      cases isEmpty : piece.tokens with
      | nil => exact ih fun other isOther => independent other (List.mem_cons_of_mem _ isOther)
      | cons first others => exact .cons (by simpa [isEmpty] using starts)

/-- Independent pieces are parsed together like each of them alone: their statements and their
diagnostics come one after the other. -/
theorem parse_flatMap (limit : Nat) (pieces : List Piece) (ending : Token)
    (independent : ∀ piece ∈ pieces, piece.Independent limit) :
    Parse.ofTokens limit false (pieces.flatMap tokens) ending =
      ⟨pieces.flatMap fun piece => (piece.parse limit).statements,
        pieces.flatMap fun piece => (piece.parse limit).diagnostics⟩ := by
  have parses : Parses limit (pieces.flatMap tokens) ending
      (pieces.flatMap fun piece => (piece.parse limit).statements)
      (pieces.flatMap fun piece => (piece.parse limit).diagnostics) := by
    induction pieces with
    | nil => exact parses_nil limit ending
    | cons piece rest ih =>
        have others : ∀ piece ∈ rest, piece.Independent limit := fun other isOther =>
          independent other (List.mem_cons_of_mem _ isOther)
        exact (independent piece List.mem_cons_self).parses (follows_flatMap others) (ih others)
  simpa using Parse.ofTokens_of_parses parses false

/-- A token without a text. -/
def sign (kind : TokenKind) : Token :=
  { kind, lexeme := "" }

/-- The pieces `print x;`, `var = x;`, `f(x;` and `{ }`, the second and third of them broken. -/
def mixed : List Piece :=
  [[.printWord, .identifier, .semicolon], [.varWord, .equal, .identifier, .semicolon],
    [.identifier, .leftParen, .identifier, .semicolon], [.leftBrace, .rightBrace]].map fun kinds =>
      ⟨kinds.map sign, sign .endOfText⟩

theorem parse_flatMap_mixed :
    (∀ piece ∈ mixed, piece.Independent Parse.nestingLimit) ∧
      ∀ ending, Parse.ofTokens Parse.nestingLimit false (mixed.flatMap tokens) ending =
        ⟨[.print (.variable (sign .identifier)), .hole, .hole, .block []],
          [.atToken (sign .equal) "Parser" "Expect variable name.",
            .atToken (sign .semicolon) "Parser" "Expect ')' after arguments."]⟩ := by
  have independent : ∀ piece ∈ mixed, piece.Independent Parse.nestingLimit := by
    simp only [mixed, List.map_cons, List.map_nil, List.forall_mem_cons]
    refine ⟨⟨rfl, by decide, by decide, .inl rfl⟩, ⟨rfl, by decide, by decide, .inr ?_⟩,
      ⟨rfl, by decide, by decide, .inr ?_⟩, ⟨rfl, by decide, by decide, .inl rfl⟩, by simp⟩
    · exact ⟨⟨sign .semicolon, rfl, rfl⟩, sign .equal, _, by decide, rfl⟩
    · exact ⟨⟨sign .semicolon, rfl, rfl⟩, sign .semicolon, _, by decide, rfl⟩
  exact ⟨independent, fun ending => parse_flatMap _ mixed ending independent⟩

end Piece

end LoxLang

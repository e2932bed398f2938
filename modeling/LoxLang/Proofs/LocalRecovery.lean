import LoxLang.Proofs.MissingSemicolons
import LoxLang.Proofs.Recovery

/-!
# Recovery from a missing semicolon

A declaration without one of its semicolons stumbles at the next token. The search for a boundary
does not stop at that token but behind it. So a statement that starts there is passed over, and
parsing goes on behind it if it is a keyword and an expression; the declarations around it are read
to their end then. An outermost statement that is passed over is lost. A closing brace that is
passed over is missed by the block that it closes, and the program may fall apart.
-/

namespace LoxLang

namespace Grammar

open Rule

variable {depth : Nat} {left right before rest back : List Token} {semicolon next : Token}

/-! ## Stumbling -/

/-- A row of items around a token of one of them: the items in front of it, the item that it is part
of, and those behind it. -/
structure Around {α : Type} (Item : Phrase α) (front : List Token) (token : Token)
    (back : List Token) where
  first : List Token
  inside : List Token
  behind : List Token
  last : List Token
  earlier : List α
  tree : α
  later : List α
  isFront : front = first ++ inside
  isBack : back = behind ++ last
  before : Phrase.Many Item first earlier
  item : Item (inside ++ token :: behind) tree
  after : Phrase.Many Item last later

theorem exists_around {α : Type} {Item : Phrase α} {front back : List Token} {token : Token}
    {trees : List α} (many : Phrase.Many Item (front ++ token :: back) trees) :
    ∃ around : Around Item front token back,
      trees = around.earlier ++ around.tree :: around.later := by
  generalize shape : front ++ token :: back = tokens at many
  induction many generalizing front with
  | done => simp at shape
  | @more first others tree trees item many ih =>
      rcases cut_append shape with ⟨behind, rfl, rfl⟩ | ⟨before, rfl, isOthers⟩
      · exact ⟨⟨[], front, behind, others, [], tree, trees, rfl, rfl, .done, item, many⟩, rfl⟩
      · rcases ih isOthers.symm with ⟨around, rfl⟩
        refine ⟨{ around with
          first := first ++ around.first
          earlier := tree :: around.earlier
          isFront := by rw [List.append_assoc, ← around.isFront]
          before := .more item around.before }, rfl⟩

/-- `Stumbles depth before right more next back fault` says how a declaration comes to the token
behind a missing semicolon, where `right` was behind the semicolon in the declaration, and `more`
behind the declaration: it is abandoned there, or it encloses a declaration that is, and is read to
its end if the statement that starts there is passed over. -/
inductive Stumbles (depth : Nat) (before right more : List Token) (next : Token)
    (back : List Token) : GrammarFault → Prop
  | abandoned {fault : GrammarFault} (isLast : right = [] ∨ fault = .tooDeep)
      (abandons : Abandons (unguarded depth) before fault (next :: back)) :
      Stumbles depth before right more next back fault
  | enclosing {fault : GrammarFault} (notLast : right ≠ []) (notDeep : fault ≠ .tooDeep)
      (reports : Reports (.atToken next "Parser" fault.message) (unguarded depth) before)
      (recovers : next.kind ∈ plainKeywords → Follows [.elseWord] more →
        Recovers (.atToken next "Parser" fault.message) (unguarded depth) before more) :
      Stumbles depth before right more next back fault

section Recovery

variable {fault : GrammarFault} {diagnostic : Diagnostic} {after : List Token}

theorem declaration_of_tooDeep (abandons : Abandons (unguarded depth) before .tooDeep after) :
    Abandons (declaration (depth + 5)) before .tooDeep after := by
  intro ending earlier
  simp only [declaration, recovering, abandons ending earlier, abandon, tooDeep]

theorem declaration_of_abandons (abandons : Abandons (unguarded depth) before fault (next :: back))
    (notDeep : fault ≠ .tooDeep) :
    Recovers (.atToken next "Parser" fault.message) (declaration (depth + 5)) before
      (resumed (next :: back)) := by
  refine ⟨.hole, fun ending earlier => ?_⟩
  have abandoned := abandons ending earlier
  cases fault with
  | tooDeep => exact absurd rfl notDeep
  | _ =>
      simp only [declaration, recovering, abandoned, abandon, fail, synchronize_eq, Cursor.report,
        Cursor.peek, List.headD_cons]

theorem declaration_of_reports (reports : Reports diagnostic (unguarded depth) before) :
    Reports diagnostic (declaration (depth + 5)) before := by
  intro ending earlier
  rcases reports ending earlier with ⟨new, isFirst⟩
  refine ⟨new, ?_⟩
  cases result : unguarded depth ⟨before, ending, earlier⟩ with
  | ok tree cursor =>
      rw [result] at isFirst
      simpa only [declaration, recovering, result] using isFirst
  | error panic cursor =>
      rw [result] at isFirst
      cases panic <;> simpa [declaration, recovering, result, reported] using isFirst

theorem declaration_of_recovers (recovers : Recovers diagnostic (unguarded depth) before after) :
    Recovers diagnostic (declaration (depth + 5)) before after := by
  rcases recovers with ⟨tree, recovered⟩
  refine ⟨tree, fun ending earlier => ?_⟩
  simp only [declaration, recovering, recovered ending earlier]

end Recovery

/-- A declaration starts before any of its semicolons. -/
theorem exists_start {tree : Stmt} (isSemicolon : semicolon.kind = .semicolon)
    (item : DeclarationWithin depth (left ++ semicolon :: right) tree) (rest : List Token) :
    ∃ first others, left ++ rest = first :: others ∧
      first.kind ∈ keywordKinds ++ operandKinds := by
  rcases startsIn_declarationWithin _ _ _ item with ⟨token, following, shape, isStart⟩
  cases left with
  | nil =>
      rw [← (List.cons.inj shape).1, isSemicolon] at isStart
      exact absurd isStart (by decide)
  | cons first left => exact ⟨first, _, rfl, (List.cons.inj shape).1 ▸ isStart⟩

/-- The statement that is passed over in the search for a boundary is the next one. -/
theorem exists_passed {inner : Nat} {tokens : List Token} {trees : List Stmt}
    (many : Phrase.Many (DeclarationWithin inner) tokens trees) (someTokens : tokens ≠ [])
    (isPlain : next.kind ∈ plainKeywords) (shape : tokens ++ rest = next :: back) :
    ∃ others, Phrase.Many (DeclarationWithin inner) others trees.tail ∧
      resumed (next :: back) = others ++ rest := by
  cases many with
  | done => exact absurd rfl someTokens
  | @more first others tree trees item many =>
      refine ⟨others, many, ?_⟩
      rw [← shape, List.append_assoc]
      refine resumed_plain item ?_ _
      rcases startsIn_declarationWithin _ _ _ item with ⟨token, following, rfl, -⟩
      have isNext : token = next := (List.cons.inj shape).1
      simpa [isNext] using isPlain

theorem exists_depth_of_within : ∀ {depth : Nat} {tokens : List Token} {tree : Stmt},
    DeclarationWithin depth tokens tree → ∃ inner, depth = inner + 5
  | inner + 5, _, _, _ => ⟨inner, rfl⟩

/-- A declaration around another one stumbles where that one does. -/
theorem stumbles_of_encloses {outer : Nat} {more : List Token}
    (encloses : Encloses depth outer left semicolon right)
    (isSemicolon : semicolon.kind = .semicolon) (closed : right ++ more = next :: back)
    (stumble : ∀ {inner left right more tree}, outer = inner + 5 →
      DeclarationWithin (inner + 5) (left ++ semicolon :: right) tree →
      right ++ more = next :: back →
      ∃ fault ∈ semicolonFaults, Stumbles inner (left ++ next :: back) right more next back fault) :
    ∃ fault ∈ semicolonFaults,
      Stumbles depth (left ++ next :: back) right more next back fault := by
  rcases encloses with ⟨hosts, many, isClose⟩
  rename_i head before behind tail close finish trees
  rcases exists_around many with
    ⟨⟨first, inside, behind, last, earlier, tree, later, rfl, rfl, isFirst, item, isLast⟩, -⟩
  have closedInside : behind ++ (last ++ close :: (tail ++ more)) = next :: back := by
    simpa using closed
  rcases exists_depth_of_within item with ⟨inner, rfl⟩
  rcases stumble rfl item closedInside with ⟨fault, isFault, stumbles⟩
  refine ⟨fault, isFault, ?_⟩
  rcases hosts.exists_later isFirst (exists_start isSemicolon item (next :: back)) with
    ⟨goOn, leads, grows, reads⟩
  have notLast : behind ++ last ++ close :: tail ≠ [] := by simp
  rw [List.append_assoc, List.append_assoc]
  cases stumbles with
  | abandoned isEnd abandons =>
      by_cases isDeep : fault = .tooDeep
      · subst isDeep
        exact .abandoned (.inr rfl) (leads.trans (declaration_of_tooDeep abandons).bind)
      · have recovers := declaration_of_abandons abandons isDeep
        refine .enclosing notLast isDeep (leads.reports (recovers.reports.bind grows)) ?_
        intro isPlain follows
        rw [isEnd.resolve_right isDeep, List.nil_append] at closedInside
        have someLast : last ≠ [] := by
          rintro rfl
          rw [← (List.cons.inj closedInside).1, isClose] at isPlain
          exact absurd isPlain (by decide)
        rcases exists_passed isLast someLast isPlain closedInside with ⟨others, passed, isResumed⟩
        rw [isResumed] at recovers
        exact leads.recovers (recovers.bind (reads passed isClose follows))
  | enclosing _ notDeep reports recovers =>
      refine .enclosing notLast notDeep
        (leads.reports ((declaration_of_reports reports).bind grows)) fun isPlain follows => ?_
      have noElse : Follows [.elseWord] (last ++ close :: (tail ++ more)) :=
        Follows.many (startsIn_declarationWithin _) (by decide) (.cons (by simp [isClose])) isLast
      exact leads.recovers ((declaration_of_recovers (recovers isPlain noElse)).bind
        (reads isLast isClose follows))

/-- A declaration that lacks a semicolon stumbles at the next token. -/
theorem exists_stumbles {more : List Token} {tree : Stmt}
    (isSemicolon : semicolon.kind = .semicolon) (isCloser : next.kind ∈ closerKinds)
    (read : DeclarationWithin (depth + 5) (left ++ semicolon :: right) tree)
    (closed : right ++ more = next :: back) :
    ∃ fault ∈ semicolonFaults,
      Stumbles depth (left ++ next :: back) right more next back fault := by
  induction depth using Nat.strong_induction_on generalizing left right more tree with
  | h depth ih =>
      cases site_of_declaration read isSemicolon closed isCloser with
      | last isFault abandons => exact ⟨_, isFault, .abandoned (.inl rfl) abandons⟩
      | inside isOuter encloses =>
          refine stumbles_of_encloses encloses isSemicolon closed ?_
          intro inner left right more tree isInner item
          have shallower : inner < depth := by
            simp only [List.mem_cons, List.not_mem_nil, or_false] at isOuter
            omega
          exact ih inner shallower item

/-! ## Whole programs -/

theorem outermost_of_reports {limit : Nat} {diagnostic : Diagnostic}
    (reports : Reports diagnostic (declaration limit) before) (ending : Token)
    (earlier : List Diagnostic) : ∃ new,
      (outermost limit ⟨before, ending, earlier⟩).2.diagnostics = earlier ++ diagnostic :: new := by
  rcases reports ending earlier with ⟨new, isFirst⟩
  unfold outermost
  split
  · next result =>
      rw [result] at isFirst
      exact ⟨new, isFirst⟩
  · next cursor result =>
      rw [result] at isFirst
      have grown : cursor.diagnostics = earlier ++ diagnostic :: new := isFirst
      rw [synchronize_diagnostics, Cursor.report, grown, List.append_assoc]
      exact ⟨_, rfl⟩

/-- A program whose first declaration reports something first of all. -/
theorem exists_parses_of_reports {limit : Nat} {diagnostic : Diagnostic} (someLeft : before ≠ [])
    (reports : Reports diagnostic (declaration limit) before) (ending : Token) :
    ∃ trees new, Parses limit before ending trees (diagnostic :: new) := by
  rcases exists_outermost limit ending (List.Subset.refl before) someLeft with
    ⟨read, rest, tree, new, -, -, -, -, first⟩
  rcases outermost_of_reports reports ending [] with ⟨others, isFirst⟩
  rw [first] at isFirst
  have isNew : new = diagnostic :: others := isFirst
  subst isNew
  exact ⟨_, _, .outermost_cons someLeft first (parses_ofTokens limit rest ending)⟩

/-- A program whose first declaration recovers, before declarations without errors. -/
theorem exists_parses_of_recovers {limit : Nat} {diagnostic : Diagnostic} {trees : List Stmt}
    (someLeft : before ≠ []) (recovers : Recovers diagnostic (declaration limit) before rest)
    (many : Phrase.Many (DeclarationWithin limit) rest trees) (ending : Token) :
    ∃ tree, Parses limit before ending (tree :: trees) [diagnostic] := by
  rcases recovers with ⟨tree, recovered⟩
  have others := parses_ofTokens limit rest ending
  rw [Parse.ofTokens_of_manyWithin many ending] at others
  have isFirst : ∀ earlier, outermost limit ⟨before, ending, earlier⟩ =
      (tree, ⟨rest, ending, earlier ++ [diagnostic]⟩) := by
    intro earlier
    simp only [outermost, recovered ending earlier]
  exact ⟨tree, .outermost_cons someLeft isFirst others⟩

theorem follows_of_many {limit : Nat} {trees : List Stmt}
    (many : Phrase.Many (DeclarationWithin limit) rest trees) : Follows [.elseWord] rest := by
  have follows : Follows [.elseWord] (rest ++ []) :=
    Follows.many (startsIn_declarationWithin limit) (by decide) (by simp [Follows]) many
  rwa [List.append_nil] at follows

/-- A program whose first declaration stumbles where it lacks a semicolon. -/
theorem exists_parses_of_stumbles {more : List Token} {fault : GrammarFault} {trees : List Stmt}
    (stumbles : Stumbles depth before right more next back fault) (someLeft : before ≠ [])
    (closed : right ++ more = next :: back)
    (many : Phrase.Many (DeclarationWithin (depth + 5)) more trees) (ending : Token) :
    ∃ others new,
      Parses (depth + 5) before ending others (.atToken next "Parser" fault.message :: new) ∧
        (next.kind ∈ plainKeywords → right = [] ∨ fault ≠ .tooDeep →
          new = [] ∧ ∃ changed, others = changed :: if right = [] then trees.tail else trees) ∧
        (right = [] →
          let rest := Parse.ofTokens (depth + 5) false (resumed (next :: back)) ending
          others = .hole :: rest.statements ∧ new = rest.diagnostics) := by
  cases stumbles with
  | abandoned isLast abandons =>
      have parses := parses_ofTokens (depth + 5) before ending
      rw [Parse.ofTokens_of_abandons someLeft abandons ending] at parses
      refine ⟨_, _, parses, fun isPlain isEither => ?_, fun _ => ⟨rfl, rfl⟩⟩
      have isNone : right = [] := by
        rcases isLast with isNone | isDeep
        · exact isNone
        · exact isEither.resolve_right (not_not_intro isDeep)
      subst isNone
      have someMore : more ≠ [] := by
        rintro rfl
        cases closed
      have isMore : more ++ [] = next :: back := by simpa using closed
      rcases exists_passed many someMore isPlain isMore with ⟨others, passed, isResumed⟩
      rw [List.append_nil] at isResumed
      rw [isResumed, Parse.ofTokens_of_manyWithin passed ending]
      exact ⟨rfl, .hole, rfl⟩
  | enclosing notLast notDeep reports recovers =>
      by_cases isPlain : next.kind ∈ plainKeywords
      · have recovered := declaration_of_recovers (recovers isPlain (follows_of_many many))
        rcases exists_parses_of_recovers someLeft recovered many ending with ⟨changed, parses⟩
        refine ⟨_, [], parses, fun _ _ => ⟨rfl, changed, ?_⟩, fun isNone => absurd isNone notLast⟩
        rw [if_neg notLast]
      · rcases exists_parses_of_reports someLeft (declaration_of_reports reports) ending with
          ⟨others, new, parses⟩
        exact ⟨others, new, parses, fun isPlain' => absurd isPlain' isPlain,
          fun isNone => absurd isNone notLast⟩

end Grammar

namespace Parse

open Grammar

/-- What becomes of a program without errors if it loses a semicolon that is followed by a closing
brace or by a keyword that starts a statement. The declarations before that one are kept, and the
token behind the semicolon is reported first. The parser passes over that token. A statement that is
a keyword and an expression is passed over with it, and nothing else is reported; if it was an
outermost one, it is lost. Where the semicolon ended an outermost declaration, that is a hole, and
the program goes on at the next boundary. With a closing brace or another keyword in a block, it may
fall apart. -/
theorem ofTokens_withoutSemicolon {limit : Nat} {front back : List Token}
    {semicolon next ending : Token}
    (quiet : (ofTokens limit false (front ++ semicolon :: next :: back) ending).diagnostics = [])
    (isSemicolon : semicolon.kind = .semicolon)
    (isCloser : next.kind = .rightBrace ∨ Cursor.isBoundary next.kind = true) :
    ∃ around : Around (DeclarationWithin limit) front semicolon (next :: back),
      (ofTokens limit false (front ++ semicolon :: next :: back) ending).statements =
          around.earlier ++ around.tree :: around.later ∧
        ∃ fault ∈ semicolonFaults, ∃ others new,
          ofTokens limit false (front ++ next :: back) ending =
              ⟨around.earlier ++ others, .atToken next "Parser" fault.message :: new⟩ ∧
            (next.kind ∈ plainKeywords → around.behind = [] ∨ fault ≠ .tooDeep →
              new = [] ∧ ∃ changed, others =
                changed :: if around.behind = [] then around.later.tail else around.later) ∧
            (around.behind = [] →
              let rest := ofTokens limit false (Cursor.skipToBoundary next back) ending
              others = .hole :: rest.statements ∧ new = rest.diagnostics) := by
  have closer : next.kind ∈ closerKinds := by
    rcases isCloser with isBrace | isBoundary
    · exact isBrace ▸ List.mem_cons_self
    · exact List.mem_cons_of_mem _ (List.contains_iff_mem.mp isBoundary)
  rcases exists_around (manyWithin_of_quiet quiet) with ⟨around, isProgram⟩
  refine ⟨around, isProgram, ?_⟩
  rcases around with
    ⟨first, inside, behind, last, earlier, tree, later, rfl, isBack, before, item, after⟩
  rcases exists_depth_of_within item with ⟨depth, rfl⟩
  rcases exists_start isSemicolon item (next :: back) with ⟨start, others, isInside, isStart⟩
  rcases exists_stumbles isSemicolon closer item isBack.symm with ⟨fault, isFault, stumbles⟩
  have someLeft : inside ++ next :: back ≠ [] := by simp
  have noElse : Follows [.elseWord] (inside ++ next :: back) := by
    rw [isInside]
    exact .of_mem isStart (by decide) _
  rcases exists_parses_of_stumbles stumbles someLeft isBack.symm after ending with
    ⟨others, new, parses, plain, outermost⟩
  refine ⟨fault, isFault, others, new, ?_, plain, outermost⟩
  rw [List.append_assoc]
  exact ofTokens_of_parses (.append before noElse parses) false

/-- In `nil; { x print x; } print y;` the block is reported at its `print` and otherwise it is read,
and the statements around it are kept. -/
theorem ofTokens_withoutSemicolon_inBlock :
    ∃ tree, ofTokens nestingLimit false
        ([.nilWord, .semicolon, .leftBrace, .identifier, .printWord, .identifier, .semicolon,
          .rightBrace, .printWord, .identifier, .semicolon].map Piece.sign)
        (Piece.sign .endOfText) =
      ⟨[.expression (.literal .nil), tree, .print (.variable (Piece.sign .identifier))],
        [.atToken (Piece.sign .printWord) "Parser" "Expect ';' after expression."]⟩ := by
  let front := [TokenKind.nilWord, .semicolon, .leftBrace, .identifier].map Piece.sign
  let back := [TokenKind.identifier, .semicolon, .rightBrace, .printWord, .identifier,
    .semicolon].map Piece.sign
  let block : Stmt := .block [.expression (.variable (Piece.sign .identifier)),
    .print (.variable (Piece.sign .identifier))]
  let last : Stmt := .print (.variable (Piece.sign .identifier))
  have whole : ofTokens nestingLimit false
      (front ++ Piece.sign .semicolon :: Piece.sign .printWord :: back) (Piece.sign .endOfText) =
        ⟨[.expression (.literal .nil), block, last], []⟩ := rfl
  rcases ofTokens_withoutSemicolon (congrArg Parse.diagnostics whole) rfl (.inr rfl) with
    ⟨⟨_, _, behind, _, earlier, tree, later, _, _, _, _, _⟩, isProgram, fault, isFault, others, new,
      isBroken, plain, -⟩
  have isFirst : Diagnostic.atToken (Piece.sign .printWord) "Parser" fault.message =
      .atToken (Piece.sign .printWord) "Parser" "Expect ';' after expression." :=
    (List.cons.inj (congrArg Parse.diagnostics isBroken)).1.symm
  have notDeep : fault ≠ .tooDeep := by
    rintro rfl
    exact absurd (congrArg Diagnostic.message isFirst) (by decide)
  rcases plain (by decide) (.inr notDeep) with ⟨rfl, changed, rfl⟩
  have isWhole : [.expression (.literal .nil), block, last] = earlier ++ tree :: later :=
    (congrArg Parse.statements whole).symm.trans isProgram
  have isKept : [.expression (.literal .nil), .block [.hole], last] =
      earlier ++ changed :: if behind = [] then later.tail else later :=
    congrArg Parse.statements isBroken
  -- The block is not among the statements that are kept, so it is the one that is changed.
  match earlier with
  | [] =>
      rw [List.nil_append] at isWhole isKept
      rw [← (List.cons.inj isWhole).2] at isKept
      split at isKept <;> simp [block] at isKept
  | [first] =>
      obtain ⟨rfl, rfl, rfl⟩ :
          .expression (.literal .nil) = first ∧ block = tree ∧ [last] = later := by
        simpa using isWhole
      have isLater : [last] = if behind = [] then [last].tail else [last] :=
        (List.cons.inj (List.cons.inj isKept).2).2
      refine ⟨changed, isBroken.trans ?_⟩
      rw [← isLater, isFirst]
      rfl
  | first :: second :: more =>
      have isBlock : block = second := (List.cons.inj (List.cons.inj isWhole).2).1
      have isOther : .block [.hole] = second := (List.cons.inj (List.cons.inj isKept).2).1
      simp [← isBlock, block] at isOther

/-- What is around a missing semicolon is not always kept. Without its first semicolon, the program
`nil; print true; print false;` loses `print true`, and the program `{ nil; } print true;` is
reported twice. -/
theorem ofTokens_withoutSemicolon_lost :
    ofTokens nestingLimit false ([.nilWord, .semicolon, .printWord, .trueWord, .semicolon,
        .printWord, .falseWord, .semicolon].map Piece.sign) (Piece.sign .endOfText) =
      ⟨[.expression (.literal .nil), .print (.literal (.boolean true)),
        .print (.literal (.boolean false))], []⟩ ∧
    ofTokens nestingLimit false ([.nilWord, .printWord, .trueWord, .semicolon, .printWord,
        .falseWord, .semicolon].map Piece.sign) (Piece.sign .endOfText) =
      ⟨[.hole, .print (.literal (.boolean false))],
        [.atToken (Piece.sign .printWord) "Parser" "Expect ';' after expression."]⟩ ∧
    ofTokens nestingLimit false ([.leftBrace, .nilWord, .semicolon, .rightBrace, .printWord,
        .trueWord, .semicolon].map Piece.sign) (Piece.sign .endOfText) =
      ⟨[.block [.expression (.literal .nil)], .print (.literal (.boolean true))], []⟩ ∧
    ofTokens nestingLimit false ([.leftBrace, .nilWord, .rightBrace, .printWord, .trueWord,
        .semicolon].map Piece.sign) (Piece.sign .endOfText) =
      ⟨[.hole], [.atToken (Piece.sign .rightBrace) "Parser" "Expect ';' after expression.",
        .atToken (Piece.sign .endOfText) "Parser" "Expect '\x7d' after block."]⟩ :=
  ⟨rfl, rfl, rfl, rfl⟩

end Parse

end LoxLang

import LoxLang.Proofs.NestingLimits
import LoxLang.Proofs.PrintedStatements
import LoxLang.Proofs.PrinterRoom
import LoxLang.Proofs.Relocation

/-!
# Printing and parsing

A text that is parsed without a diagnostic is printed as a text that is parsed as the same program,
wherever its tokens stand, and that is printed as itself. Two limits are in the way. The printer has
room for only so many calls: long chains of operators and many nested statements are parsed, but not
printed. And the parser may find the printed text too deep, because a loop is printed with a
condition also where it had none.
-/

namespace LoxLang
namespace Parse

open Grammar Token

/-! ## Interactive mode -/

theorem print_of_expression {depth : Nat} {tokens : List Token} {value : Expr}
    (read : DeclarationWithin depth tokens (.expression value))
    (genuine : ∀ token ∈ tokens, token.Genuine) :
    ∃ tokens', DeclarationWithin depth tokens' (.print value) ∧
      ∀ token ∈ tokens', token.Genuine := by
  have isPrint := Token.genuine_keyword (by decide : ("print", .printWord) ∈ TokenKind.keywords)
  match depth, read with
  | depth + 5, read =>
      cases read with
      | var declaration => cases declaration
      | expression statement =>
          cases statement with
          | @rule semicolon tokens _ read isSemicolon =>
              refine ⟨Token.fresh .printWord "print" :: tokens ++ [semicolon],
                .print rfl read isSemicolon, ?_⟩
              simp only [List.forall_mem_append, List.forall_mem_cons] at genuine ⊢
              exact ⟨⟨isPrint, genuine.1⟩, genuine.2⟩

theorem within_echo {depth : Nat} {tokens : List Token} {tree : Stmt}
    (read : DeclarationWithin depth tokens tree) (genuine : ∀ token ∈ tokens, token.Genuine) :
    ∃ tokens', DeclarationWithin depth tokens' tree.echo ∧ ∀ token ∈ tokens', token.Genuine := by
  cases tree with
  | expression value => exact print_of_expression read genuine
  | _ => exact ⟨tokens, read, genuine⟩

/-- A program whose last expression is printed, as in interactive mode, is a program. -/
theorem manyWithin_echoLast {depth : Nat} {tokens : List Token} {trees : List Stmt}
    (read : Phrase.Many (DeclarationWithin depth) tokens trees) :
    (∀ token ∈ tokens, token.Genuine) → ∃ tokens',
      Phrase.Many (DeclarationWithin depth) tokens' (echoLast trees) ∧
        ∀ token ∈ tokens', token.Genuine := by
  induction read with
  | done => exact fun _ => ⟨[], .done, by simp⟩
  | @more first rest tree trees item _ ih =>
      intro genuine
      simp only [List.forall_mem_append] at genuine
      cases trees with
      | nil =>
          rcases within_echo item genuine.1 with ⟨tokens', read, genuine'⟩
          refine ⟨tokens' ++ [], .more read .done, ?_⟩
          simpa using genuine'
      | cons next trees =>
          rcases ih genuine.2 with ⟨tokens', read, genuine'⟩
          refine ⟨first ++ tokens', .more item read, ?_⟩
          simp only [List.forall_mem_append]
          exact ⟨genuine.1, genuine'⟩

theorem nestingAll_echoLast (trees : List Stmt) :
    Stmt.nestingAll (echoLast trees) = Stmt.nestingAll trees := by
  have nesting_echo (tree : Stmt) : tree.echo.nesting = tree.nesting := by
    cases tree <;> simp only [Stmt.echo, Stmt.nesting]
  induction trees with
  | nil => rfl
  | cons tree trees ih =>
      cases trees with
      | nil => simp only [echoLast, Stmt.nestingAll, nesting_echo]
      | cons next trees =>
          have isCons : echoLast (tree :: next :: trees) = tree :: echoLast (next :: trees) := rfl
          rw [isCons, Stmt.nestingAll, ih, ← Stmt.nestingAll]

/-- A text that is parsed without a diagnostic has tokens that stand for its program, once
those that interactive mode leaves out are added. -/
theorem exists_manyWithin {interactive : Bool} {text : List Char}
    (quiet : (ofText interactive text).diagnostics = [])
    (genuine : ∀ token ∈ (Scan.ofText interactive text).tokens, token.Genuine) :
    ∃ tokens, Phrase.Many (DeclarationWithin nestingLimit) tokens
      (ofText interactive text).statements ∧
      ∀ token ∈ tokens, token.Genuine := by
  rcases List.append_eq_nil_iff.mp quiet with ⟨-, quietParse⟩
  have read : Phrase.Many (DeclarationWithin nestingLimit)
    (Scan.ofText interactive text).tokens _ :=
    manyWithin_of_quiet quietParse
  cases interactive with
  | false => exact ⟨_, read, genuine⟩
  | true => exact manyWithin_echoLast read genuine

/-! ## The round trip -/

/-- A text that spells tokens is parsed as they are, up to positions. -/
theorem ofText_move_of_spells {text : List Char} {printed : List Token}
    (spelled : Spells [] text printed) :
    ∃ ending, (ofText false text).move (fun _ => ⟨0, 0⟩) =
      (ofTokens nestingLimit false printed ending).move fun _ => ⟨0, 0⟩ := by
  rcases spelled.scan with ⟨sameTokens, quietScan⟩
  refine ⟨(Scan.ofText false text).ending, ?_⟩
  have sameText : ofText false text = ofScan false (Scan.ofText false text) := by
    rw [ofText, quietScan, List.nil_append]
  rw [sameText, ofScan, ← ofTokens_move, sameTokens, ofTokens_move]

/-- Parsing a text that spells a program gives that program, wherever its tokens stand. -/
theorem ofText_of_spells {text : List Char} {printed : List Token} {trees : List Stmt}
    (spelled : Spells [] text printed)
    (read : Phrase.Many (DeclarationWithin nestingLimit) printed trees) :
    (ofText false text).diagnostics = [] ∧
      (ofText false text).statements.map (·.move fun _ => ⟨0, 0⟩) =
        trees.map (·.move fun _ => ⟨0, 0⟩) := by
  rcases ofText_move_of_spells spelled with ⟨ending, moved⟩
  rw [ofTokens_of_manyWithin read] at moved
  simp only [move, Parse.mk.injEq, List.map_nil, List.map_eq_nil_iff] at moved
  exact ⟨moved.2, moved.1⟩

theorem tooDeep_move_iff (change : Position → Position) (diagnostics : List Diagnostic) :
    TooDeep (diagnostics.map (·.move change)) ↔ TooDeep diagnostics := by
  simp [TooDeep, Diagnostic.move]

/-- A program that is nested too deeply for the parser is spelled, but not parsed again. -/
theorem tooDeep_of_spells {text : List Char} {printed : List Token} {trees : List Stmt}
    (spelled : Spells [] text printed)
    (reads : ∀ limit, Stmt.nestingAll trees ≤ limit →
      Phrase.Many (DeclarationWithin limit) printed trees)
    (apart : SemicolonsApart printed) (deep : nestingLimit < Stmt.nestingAll trees) :
    TooDeep (ofText false text).diagnostics := by
  rcases ofText_move_of_spells spelled with ⟨ending, moved⟩
  have sameDiagnostics := congrArg Parse.diagnostics moved
  simp only [move] at sameDiagnostics
  rw [← tooDeep_move_iff (fun _ => ⟨0, 0⟩), sameDiagnostics, tooDeep_move_iff]
  rcases ofTokens_or_reports (Nat.le_of_lt deep) false printed ending with same | reports
  · -- With the greater limit there is no diagnostic, and the smaller one would have to bound it.
    rw [ofTokens_of_manyWithin (reads _ (Nat.le_refl _))] at same
    have read : Phrase.Many (DeclarationWithin nestingLimit) printed
        (ofTokens nestingLimit false printed ending).statements :=
      manyWithin_of_quiet (congrArg Parse.diagnostics same)
    rw [same] at read
    exact absurd (nestingAll_le_of_manyWithin read apart) (Nat.not_le_of_lt deep)
  · exact reports

/-- The text of a program that is not nested too deeply for the parser is parsed as that program. -/
theorem ofText_program_of_shallow {depth : Nat} {tokens : List Token} {trees : List Stmt}
    (read : Phrase.Many (DeclarationWithin depth) tokens trees)
    (genuine : ∀ token ∈ tokens, token.Genuine) (shallow : Stmt.nestingAll trees ≤ nestingLimit) :
    let again := ofText false (Stmt.program trees).toList
    again.diagnostics = [] ∧
      again.statements.map (·.move fun _ => ⟨0, 0⟩) = trees.map (·.move fun _ => ⟨0, 0⟩) := by
  rcases exists_prints_many (exists_statementPrints depth) read genuine with
    ⟨printed, reads, spells, -⟩
  exact ofText_of_spells (spells 0 []) (reads nestingLimit shallow)

/-- The text of any other program is reported to be nested too deeply. -/
theorem tooDeep_program {depth : Nat} {tokens : List Token} {trees : List Stmt}
    (read : Phrase.Many (DeclarationWithin depth) tokens trees)
    (genuine : ∀ token ∈ tokens, token.Genuine) (deep : nestingLimit < Stmt.nestingAll trees) :
    TooDeep (ofText false (Stmt.program trees).toList).diagnostics := by
  rcases exists_prints_many (exists_statementPrints depth) read genuine with
    ⟨printed, reads, spells, apart⟩
  exact tooDeep_of_spells (spells 0 []) reads apart deep

/-- A program that was read within the limit and is nested more deeply has a loop to which no
condition was given. -/
theorem not_apart_of_deep {interactive : Bool} {text : List Char}
    (quiet : (ofText interactive text).diagnostics = [])
    (deep : nestingLimit < Stmt.nestingAll (ofText interactive text).statements) :
    ¬ SemicolonsApart (Scan.ofText interactive text).tokens := by
  intro apart
  rcases List.append_eq_nil_iff.mp quiet with ⟨-, quietParse⟩
  have read : Phrase.Many (DeclarationWithin nestingLimit)
    (Scan.ofText interactive text).tokens _ :=
    manyWithin_of_quiet quietParse
  have bounded := nestingAll_le_of_manyWithin read apart
  refine absurd (Nat.le_trans ?_ bounded) (Nat.not_le_of_lt deep)
  cases interactive with
  | false => exact Nat.le_refl _
  | true => exact Nat.le_of_eq (nestingAll_echoLast _)

/-- What becomes of a program when it is printed that was parsed without a diagnostic and whose
numbers are finite. There is no text if the printer would have to open more calls than it may. The
text is parsed, again without a diagnostic, as the same program up to the positions of its tokens,
and printed as itself, unless the program is nested too deeply for the parser, which is then
reported. It was not too deep when it was read, so it has a loop to which no condition was given:
the text gives it one. -/
theorem ofText_program (interactive : Bool) (text : List Char)
    (quiet : (ofText interactive text).diagnostics = [])
    (finite : ∀ token ∈ (Scan.ofText interactive text).tokens, ∀ value mark,
      token.literal = .number value mark → value.isFinite = true) :
    let program := (ofText interactive text).statements
    let printed := Stmt.program program
    let again := ofText false printed.toList
    Printer.print program =
        (if 3 + Stmt.callsAll program ≤ Printer.callLimit then some printed else none) ∧
      (Stmt.nestingAll program ≤ nestingLimit →
        again.diagnostics = [] ∧
        again.statements.map (·.move fun _ => ⟨0, 0⟩) = program.map (·.move fun _ => ⟨0, 0⟩) ∧
        Stmt.program again.statements = printed ∧
        Printer.print again.statements = Printer.print program) ∧
      (nestingLimit < Stmt.nestingAll program →
        TooDeep again.diagnostics ∧
        ¬ SemicolonsApart (Scan.ofText interactive text).tokens) := by
  intro program printed again
  have genuine : ∀ token ∈ (Scan.ofText interactive text).tokens, token.Genuine :=
    fun token isToken => ⟨Scan.fits_of_mem_tokens isToken, finite token isToken⟩
  rcases exists_manyWithin quiet genuine with ⟨tokens, read, genuine⟩
  refine ⟨Printer.print_eq program, fun shallow => ?_, fun deep => ?_⟩
  · rcases ofText_program_of_shallow read genuine shallow with ⟨quietAgain, same⟩
    refine ⟨quietAgain, same, ?_, ?_⟩
    · rw [← Stmt.program_move fun _ => ⟨0, 0⟩, show again.statements.map _ = _ from same,
        Stmt.program_move]
    · rw [← Printer.print_move fun _ => ⟨0, 0⟩, show again.statements.map _ = _ from same,
        Printer.print_move]
  · exact ⟨tooDeep_program read genuine deep, not_apart_of_deep quiet deep⟩

/-- A block that is printed as a loop, and an expression that is echoed. -/
def echoedLoop : List Char :=
  "\x7b var i; while i \x7b i = !f(i, \"a\"); \x7d \x7d i".toList

theorem ofText_program_echoedLoop :
    let again := ofText false (Stmt.program (ofText true echoedLoop).statements).toList
    (ofText true echoedLoop).diagnostics = [] ∧ again.diagnostics = [] ∧
      Printer.print again.statements =
        some "for (var i; i;) \x7b\n    i = !f(i, \"a\");\n\x7d\nprint i;" := by
  have quiet : (ofText true echoedLoop).diagnostics = [] := by decide +kernel
  have noNumber : ∀ token ∈ (Scan.ofText true echoedLoop).tokens,
    token.literal.isNumber = false := by
    decide +kernel
  have shallow : Stmt.nestingAll (ofText true echoedLoop).statements ≤ nestingLimit := by cbv
  have calls : Stmt.callsAll (ofText true echoedLoop).statements = 19 := by cbv
  have printed : Stmt.program (ofText true echoedLoop).statements =
      "for (var i; i;) \x7b\n    i = !f(i, \"a\");\n\x7d\nprint i;" := by
    cbv
  rcases ofText_program true echoedLoop quiet (by
    intro token isToken value mark isNumber
    have noNumber := noNumber token isToken
    rw [isNumber] at noNumber
    cases noNumber) with ⟨isPrinted, again, -⟩
  rw [calls, if_pos (by decide), printed] at isPrinted
  rcases again shallow with ⟨quietAgain, -, -, same⟩
  exact ⟨quiet, quietAgain, same.trans isPrinted⟩

/-! ## Programs without room -/

/-- What may be around a block: a loop without clauses, or a branch. -/
inductive Level
  | loop
  | branch

namespace Level

/-- The text in front of the block. -/
def text : Level → List Char
  | loop => ['f', 'o', 'r', '(', ';', ';', ')']
  | branch => ['i', 'f', ' ', 't', 'r', 'u', 'e', ' ']

/-- The tokens in front of the block. -/
def tokens : Level → List Token
  | loop => [.fresh .forWord "for", .fresh .leftParen "(", .fresh .semicolon ";",
      .fresh .semicolon ";", .fresh .rightParen ")"]
  | branch => [.fresh .ifWord "if", .fresh .trueWord "true"]

/-- The statement with a block of given statements. -/
def wrap : Level → List Stmt → Stmt
  | loop, trees => Stmt.desugarFor none none none (.block trees)
  | branch, trees => .ifElse (.literal (.boolean true)) (.block trees) none

/-- The number of calls that the printer opens on the way into the block. -/
def calls : Level → Nat
  | loop => 6
  | branch => 5

/-- The number of rules that the parser needs for what stands in front of the block. -/
def rules : Level → Nat
  | loop => 5
  | branch => 18

theorem genuine : ∀ level : Level, ∀ token ∈ level.tokens, token.Genuine
  | loop => by
      simp only [tokens, List.forall_mem_cons, List.not_mem_nil, false_imp_iff, implies_true,
        and_true]
      exact ⟨genuine_keyword (by decide), genuine_mark (by decide : ('(', _) ∈ _),
        genuine_mark (by decide : (';', _) ∈ _), genuine_mark (by decide : (';', _) ∈ _),
        genuine_mark (by decide : (')', _) ∈ _)⟩
  | branch => by
      simp only [tokens, List.forall_mem_cons, List.not_mem_nil, false_imp_iff, implies_true,
        and_true]
      exact ⟨genuine_keyword (by decide), genuine_keyword (by decide)⟩

theorem spells : ∀ (level : Level) (rest : List Char),
    Spells ('\x7b' :: rest) level.text level.tokens
  | loop, rest => by
      have isFor := genuine_keyword (by decide : ("for", .forWord) ∈ TokenKind.keywords)
      have isLeft := genuine_mark (by decide : ('(', .leftParen) ∈ Segment.marks)
      have isSemicolon := genuine_mark (by decide : (';', .semicolon) ∈ Segment.marks)
      have isRight := genuine_mark (by decide : (')', .rightParen) ∈ Segment.marks)
      dsimp only [text, tokens]
      refine isFor.spellsFixed rfl (by decide : (.forWord, ['f', 'o', 'r']) ∈ Token.spellings)
        (by simp : Ends (['(', ';', ';', ')'] ++ '\x7b' :: rest)) ?_
      refine isLeft.spellsMark rfl (by decide) (isSemicolon.spellsMark rfl (by decide) ?_)
      exact isSemicolon.spellsMark rfl (by decide) (isRight.spellsMark rfl (by decide) .done)
  | branch, rest => by
      have isIf := genuine_keyword (by decide : ("if", .ifWord) ∈ TokenKind.keywords)
      have isTrue := genuine_keyword (by decide : ("true", .trueWord) ∈ TokenKind.keywords)
      have isTrueText : (.trueWord, ['t', 'r', 'u', 'e']) ∈ Token.spellings := by decide
      dsimp only [text, tokens]
      refine isIf.spellsFixed rfl (by decide : (.ifWord, ['i', 'f']) ∈ Token.spellings)
        (by simp : Ends ([' ', 't', 'r', 'u', 'e', ' '] ++ '\x7b' :: rest)) (.space ?_)
      exact isTrue.spellsFixed rfl isTrueText (by simp : Ends ([' '] ++ '\x7b' :: rest))
        (.space .done)

theorem reads {depth : Nat} {body : List Token} {trees : List Stmt} : ∀ level : Level,
    level.rules ≤ depth + 5 → Phrase.Block (DeclarationWithin depth) body trees →
    DeclarationWithin (depth + 5) (level.tokens ++ body) (level.wrap trees)
  | loop, _, block => .forLoop rfl rfl (.absent rfl) .absent rfl .absent rfl block
  | branch, enough, block => by
      have read : ExpressionWithin (depth + 2) [.fresh .trueWord "true"]
          (.literal (.boolean true)) :=
        expressionPrints_true.reads (depth + 2) <| by
          simp only [rules] at enough
          simp only [Expr.nesting]
          omega
      exact .ifThen rfl (.bare read (by simp [Token.fresh])) block

theorem nesting_wrap (trees : List Stmt) : ∀ level : Level,
    (level.wrap trees).nesting = max 18 (Stmt.nestingAll trees + 5)
  | loop => by
      rw [wrap, Stmt.desugarFor, Option.getD_none, Stmt.nesting_for rfl]
      simp only [Stmt.nesting, Stmt.nestedNesting, Option.getD_none, Expr.nesting,
        Expr.nestingOption]
      omega
  | branch => by
      simp only [wrap, Stmt.nesting, Stmt.bodyNesting, Stmt.nestedNesting, Expr.nesting]
      omega

theorem calls_wrap (trees : List Stmt) : ∀ level : Level,
    (level.wrap trees).calls = level.calls + Stmt.callsAll trees
  | loop => by
      rw [wrap, Stmt.desugarFor, Option.getD_none, Stmt.calls_for rfl]
      simp only [calls, Stmt.calls, Stmt.bodyCalls, Printer.clauseCalls, Option.getD_none,
        Expr.calls, Printer.literalCalls, Expr.callsOption]
      omega
  | branch => by
      simp only [wrap, calls, Stmt.calls, Stmt.bodyCalls, Expr.calls, Printer.literalCalls]
      omega

/-- Statements in one another. -/
def trees : List Level → List Stmt
  | [] => []
  | level :: rest => [level.wrap (trees rest)]

/-- The tokens of statements in one another. -/
def allTokens : List Level → List Token
  | [] => []
  | level :: rest =>
      level.tokens ++ (fresh .leftBrace "\x7b" :: allTokens rest ++ [fresh .rightBrace "\x7d"])

/-- The text of statements in one another. -/
def allText : List Level → List Char
  | [] => []
  | level :: rest => level.text ++ '\x7b' :: (allText rest ++ ['\x7d'])

/-- The number of rules that the parser needs for statements in one another. -/
def allRules : List Level → Nat
  | [] => 0
  | level :: rest => max level.rules (allRules rest + 5)

theorem genuine_allTokens : ∀ levels : List Level, ∀ token ∈ allTokens levels, token.Genuine
  | [] => by simp [allTokens]
  | level :: rest => by
      have isLeft := genuine_mark (by decide : ('\x7b', .leftBrace) ∈ Segment.marks)
      have isRight := genuine_mark (by decide : ('\x7d', .rightBrace) ∈ Segment.marks)
      simp only [allTokens, List.forall_mem_append, List.forall_mem_cons]
      exact ⟨level.genuine, ⟨isLeft, genuine_allTokens rest⟩, isRight, by simp⟩

theorem spells_allText : ∀ (levels : List Level) (rest : List Char),
    Spells rest (allText levels) (allTokens levels)
  | [], _ => .done
  | level :: inner, rest => by
      have isLeft := genuine_mark (by decide : ('\x7b', .leftBrace) ∈ Segment.marks)
      have isRight := genuine_mark (by decide : ('\x7d', .rightBrace) ∈ Segment.marks)
      refine (level.spells _).append (isLeft.spellsMark rfl (by decide) ?_)
      exact (spells_allText inner _).append (isRight.spellsMark rfl (by decide) .done)

theorem many_allTokens : ∀ (levels : List Level) {depth : Nat}, allRules levels ≤ depth →
    Phrase.Many (DeclarationWithin depth) (allTokens levels) (trees levels)
  | [], _, _ => .done
  | level :: rest, depth, enough => by
      simp only [allRules] at enough
      rcases Nat.exists_eq_add_of_le' (by omega : 5 ≤ depth) with ⟨less, rfl⟩
      have read : DeclarationWithin (less + 5) (allTokens (level :: rest))
          (level.wrap (trees rest)) :=
        level.reads (by omega) (.rule rfl (many_allTokens rest (by omega)) rfl)
      have alone := Phrase.Many.more read .done
      rwa [List.append_nil] at alone

theorem nestingAll_trees (level : Level) (rest : List Level) :
    Stmt.nestingAll (trees (level :: rest)) = 18 + 5 * rest.length := by
  induction rest generalizing level with
  | nil => simp [trees, Stmt.nestingAll, nesting_wrap]
  | cons next rest ih =>
      rw [trees, Stmt.nestingAll, nesting_wrap, ih, Stmt.nestingAll, List.length_cons]
      omega

theorem callsAll_trees (levels : List Level) :
    Stmt.callsAll (trees levels) = (levels.map (·.calls)).sum := by
  induction levels with
  | nil => simp [trees, Stmt.callsAll]
  | cons level rest ih =>
      rw [trees, Stmt.callsAll, calls_wrap, ih, Stmt.callsAll, List.map_cons, List.sum_cons,
        Nat.max_zero]

/-- Statements in one another are parsed from their text, if the parser has enough rules. -/
theorem ofText_allText {levels : List Level} (enough : allRules levels ≤ nestingLimit) :
    (ofText false (allText levels)).diagnostics = [] ∧
      (ofText false (allText levels)).statements.map (·.move fun _ => ⟨0, 0⟩) =
        (trees levels).map (·.move fun _ => ⟨0, 0⟩) :=
  ofText_of_spells (spells_allText levels []) (many_allTokens levels enough)

/-- What becomes of statements in one another that are read from their text and printed. -/
theorem ofText_allText_printed {levels : List Level} (enough : allRules levels ≤ nestingLimit) :
    let program := (ofText false (allText levels)).statements
    (Printer.print program = none ↔
      Printer.callLimit < 3 + (levels.map (·.calls)).sum) ∧
    (nestingLimit < 13 + 5 * levels.length →
      TooDeep (ofText false (Stmt.program program).toList).diagnostics) := by
  rcases ofText_allText enough with ⟨-, same⟩
  intro program
  constructor
  · rw [← Printer.print_move fun _ => ⟨0, 0⟩, show program.map _ = _ from same,
      Printer.print_move, Printer.print_eq_none_iff, callsAll_trees]
  · intro deep
    rw [← Stmt.program_move fun _ => ⟨0, 0⟩, show program.map _ = _ from same, Stmt.program_move]
    refine tooDeep_program (many_allTokens levels enough) (genuine_allTokens levels) ?_
    cases levels with
    | nil => exact absurd deep (by decide)
    | cons level rest =>
        rw [nestingAll_trees]
        rw [List.length_cons] at deep
        omega

end Level

/-- A chain of operators, which is nested as deeply as it is long. -/
def conjunction : Nat → Expr
  | 0 => .literal (.boolean true)
  | count + 1 =>
      .logical (conjunction count) (fresh .andWord "and") (.literal (.boolean true))

/-- The tokens of a chain of operators. -/
def conjunctionTokens : Nat → List Token
  | 0 => [fresh .trueWord "true"]
  | count + 1 =>
      conjunctionTokens count ++ fresh .andWord "and" :: [fresh .trueWord "true"]

/-- The text of a chain of operators. -/
def conjunctionText : Nat → List Char
  | 0 => ['t', 'r', 'u', 'e']
  | count + 1 => conjunctionText count ++ [' ', 'a', 'n', 'd', ' ', 't', 'r', 'u', 'e']

theorem spells_conjunctionText : ∀ (count : Nat) {rest : List Char}, Ends rest →
    Spells rest (conjunctionText count) (conjunctionTokens count)
  | 0, _, ends => by
      have isTrue := genuine_keyword (by decide : ("true", .trueWord) ∈ TokenKind.keywords)
      exact isTrue.spellsAlone ends
  | count + 1, rest, ends => by
      have isTrue := genuine_keyword (by decide : ("true", .trueWord) ∈ TokenKind.keywords)
      have isAnd := genuine_keyword (by decide : ("and", .andWord) ∈ TokenKind.keywords)
      refine (spells_conjunctionText count (by simp)).append (.space ?_)
      exact isAnd.spellsFixed rfl (by decide : (.andWord, ['a', 'n', 'd']) ∈ Token.spellings)
        (by simp : Ends ([' ', 't', 'r', 'u', 'e'] ++ rest)) (.space (isTrue.spellsAlone ends))

/-- A chain of operators needs no more rules than one of its operands. -/
theorem conjunction_within (count : Nat) :
    ExpressionWithin 15 (conjunctionTokens count) (conjunction count) := by
  have operand : Phrase.Chain [.bangEqual, .equalEqual] .binary
      (Phrase.Chain [.greater, .greaterEqual, .less, .lessEqual] .binary
        (Phrase.Chain [.minus, .plus] .binary (Phrase.Chain [.slash, .star] .binary
          (UnaryWithin 3)))) [fresh .trueWord "true"] (.literal (.boolean true)) :=
    .operand (.operand (.operand (.operand (.call (.primary (.trueWord rfl))))))
  have logical : Phrase.Logical (UnaryWithin 3) (conjunctionTokens count) (conjunction count) := by
    induction count with
    | zero => exact .operand operand
    | succ count ih => exact .joined ih (by decide) operand
  exact .plain (.plain logical)

theorem calls_conjunction (count : Nat) : (conjunction count).calls = 2 * count + 3 := by
  induction count with
  | zero => rfl
  | succ count ih =>
      rw [conjunction, Expr.calls, ih, Expr.calls, Printer.literalCalls]
      · omega
      · nofun

/-- A statement that prints the value of a chain of operators. -/
def conjunctionStatement (count : Nat) : List Char :=
  ['p', 'r', 'i', 'n', 't'] ++ ' ' :: (conjunctionText count ++ [';'])

/-- A chain of operators is parsed however long it is, and printed only if it is not too long. -/
theorem ofText_conjunction (count : Nat) :
    (ofText false (conjunctionStatement count)).diagnostics = [] ∧
      (Printer.print (ofText false (conjunctionStatement count)).statements = none ↔
        Printer.callLimit < 2 * count + 8) := by
  have isPrint := genuine_keyword (by decide : ("print", .printWord) ∈ TokenKind.keywords)
  have isSemicolon := genuine_mark (by decide : (';', .semicolon) ∈ Segment.marks)
  have spelled : Spells [] (conjunctionStatement count)
      (fresh .printWord "print" :: conjunctionTokens count ++ [fresh .semicolon ";"]) :=
    isPrint.spellsFixed rfl
      (by decide : (.printWord, ['p', 'r', 'i', 'n', 't']) ∈ Token.spellings) (by simp)
      (.space ((spells_conjunctionText count (by simp)).append
        (isSemicolon.spellsMark rfl (by decide) .done)))
  have shallow : (conjunction count).nesting ≤ 989 :=
    Nat.le_trans (bounds_expression 15 _ _ (conjunction_within count)) (by decide)
  have read : DeclarationWithin nestingLimit
      (fresh .printWord "print" :: conjunctionTokens count ++ [fresh .semicolon ";"])
      (.print (conjunction count)) :=
    .print rfl (lifts_expression 15 989 _ _ (conjunction_within count) shallow) rfl
  have program := Phrase.Many.more read .done
  rw [List.append_nil] at program
  rcases ofText_of_spells spelled program with ⟨quiet, same⟩
  refine ⟨quiet, ?_⟩
  rw [← Printer.print_move fun _ => ⟨0, 0⟩, same, Printer.print_move, Printer.print_eq_none_iff,
    Stmt.callsAll, Stmt.callsAll, Stmt.calls, calls_conjunction]
  omega

/-- A conjunction of six hundred operands. -/
def longConjunction : List Char :=
  conjunctionStatement 599

/-- As many loops in one another as the parser takes. -/
def deepLoops : List Char :=
  Level.allText (List.replicate 196 .loop)

/-- As many branches around a loop as the parser takes. -/
def deepBranches : List Char :=
  Level.allText (List.replicate 195 .branch ++ [.loop])

/-- Texts that are parsed without a diagnostic and do not come back from what is printed for them.
For a long chain of operators and for deep loops there is no text, and the text for deep branches is
nested too deeply, as that for the loops would be. -/
theorem ofText_program_unprintable :
    ((ofText false longConjunction).diagnostics = [] ∧
      Printer.print (ofText false longConjunction).statements = none) ∧
    ((ofText false deepLoops).diagnostics = [] ∧
      Printer.print (ofText false deepLoops).statements = none ∧
      TooDeep (ofText false
        (Stmt.program (ofText false deepLoops).statements).toList).diagnostics) ∧
    (ofText false deepBranches).diagnostics = [] ∧
      ∃ printed, Printer.print (ofText false deepBranches).statements = some printed ∧
        TooDeep (ofText false printed.toList).diagnostics := by
  refine ⟨?_, ?_, ?_⟩
  · rcases ofText_conjunction 599 with ⟨quiet, printsNone⟩
    exact ⟨quiet, printsNone.mpr (by decide +kernel)⟩
  · have enough : Level.allRules (List.replicate 196 .loop) ≤ nestingLimit := by
      decide +kernel
    rcases Level.ofText_allText_printed enough with ⟨printsNone, tooDeep⟩
    refine ⟨(Level.ofText_allText enough).1, ?_, tooDeep (by decide +kernel)⟩
    exact printsNone.mpr (by decide +kernel)
  · have enough : Level.allRules (List.replicate 195 .branch ++ [.loop]) ≤ nestingLimit := by
      decide +kernel
    rcases Level.ofText_allText_printed enough with ⟨printsNone, tooDeep⟩
    refine ⟨(Level.ofText_allText enough).1, ?_⟩
    have hasRoom := mt printsNone.mp (by decide +kernel)
    rcases Option.ne_none_iff_exists'.mp hasRoom with ⟨printed, isPrinted⟩
    refine ⟨printed, isPrinted, ?_⟩
    rw [← Printer.program_of_print isPrinted]
    exact tooDeep (by decide +kernel)

end Parse
end LoxLang

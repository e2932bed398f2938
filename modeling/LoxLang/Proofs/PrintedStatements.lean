import LoxLang.Proofs.PrintedExpressions
import LoxLang.Proofs.NestingBounds

/-!
# Printed statements

The text of a statement spells tokens that stand for the same statement. They need not be the tokens
that it was parsed from: conditions are put in parentheses, the missing condition of a `for` loop is
spelled out, and a block may become a loop, which is never nested more deeply.
-/

namespace LoxLang
namespace Grammar

open Stmt

/-! ## What trees are printed as -/

/-- Tokens that an expression is printed as, and that are parsed as it. -/
structure ExpressionPrints (tree : Expr) (printed : List Token) : Prop where
  reads : ∀ limit, tree.nesting ≤ limit → ExpressionWithin limit printed tree
  spells : ∀ rest, Ends rest → Spells rest (written tree) printed

/-- Tokens that an expression, if there is one, is printed as behind a blank. -/
structure OptionPrints (tree : Option Expr) (printed : List Token) : Prop where
  reads : ∀ limit, Expr.nestingOption tree ≤ limit →
    Phrase.Optional (ExpressionWithin limit) printed tree
  spells : ∀ rest, Ends rest →
    Spells rest (tree.elim [] fun tree => ' ' :: written tree) printed

/-- Tokens that the initializer of a `for` loop is printed as. -/
structure InitializerPrints (tree : Option Stmt) (printed : List Token) : Prop where
  reads : ∀ limit, (tree.getD .hole).nesting ≤ limit + 3 →
    Phrase.Initializer (ExpressionWithin limit) printed tree
  spells : ∀ level rest, Spells rest ((tree.getD .hole).source level).toList printed
  isInitializer : (tree.getD .hole).isInitializer = true
  apart : SemicolonsApart printed

/-- Tokens that a statement is printed as, at any level of indentation. -/
structure StatementPrints (tree : Stmt) (printed : List Token) : Prop where
  reads : ∀ limit, tree.nesting ≤ limit → DeclarationWithin limit printed tree
  spells : ∀ level rest, Spells rest (tree.source level).toList printed
  apart : SemicolonsApart printed

/-- Tokens that statements are printed as between braces. -/
structure BlockPrints (trees : List Stmt) (printed : List Token) : Prop where
  reads : ∀ limit, nestingAll trees ≤ limit → Phrase.Block (DeclarationWithin limit) printed trees
  spells : ∀ level rest, Spells rest (braces level (lines (level + 1) trees)).toList printed
  apart : SemicolonsApart printed

/-- Whether what is parsed as a declaration within a limit is printed as one. -/
def DeclarationsPrint (depth : Nat) : Prop :=
  ∀ tokens tree, DeclarationWithin depth tokens tree → (∀ token ∈ tokens, token.Genuine) →
    ∃ printed, StatementPrints tree printed

theorem exists_expressionPrints {depth : Nat} {tokens : List Token} {tree : Expr}
    (read : ExpressionWithin depth tokens tree) (genuine : ∀ token ∈ tokens, token.Genuine) :
    ∃ printed, ExpressionPrints tree printed := by
  rcases reprints_expression depth tokens tree read genuine with ⟨printed, reads, spells⟩
  exact ⟨printed, fun limit bounded => lifts_expression depth limit printed tree reads
    bounded, spells⟩

theorem ExpressionPrints.noSemicolons {tree : Expr} {printed : List Token}
    (prints : ExpressionPrints tree printed) : ∀ token ∈ printed, token.kind ≠ .semicolon :=
  noSemicolons_of_madeOf (madeOf_expression tree.nesting) (prints.reads _ (Nat.le_refl _))

theorem OptionPrints.noSemicolons {tree : Option Expr} {printed : List Token}
    (prints : OptionPrints tree printed) : ∀ token ∈ printed, token.kind ≠ .semicolon :=
  noSemicolons_of_madeOf (madeOf_expression (Expr.nestingOption tree)).optional
    (prints.reads _ (Nat.le_refl _))

theorem ExpressionPrints.option {tree : Expr} {printed : List Token}
    (prints : ExpressionPrints tree printed) : OptionPrints (some tree) printed :=
  ⟨fun limit bounded => .present (prints.reads limit bounded),
    fun rest ends => (prints.spells rest ends).space⟩

theorem optionPrints_none : OptionPrints none [] :=
  ⟨fun _ _ => .absent, fun _ _ => .done⟩

theorem exists_optionPrints {depth : Nat} {tokens : List Token} {tree : Option Expr}
    (read : Phrase.Optional (ExpressionWithin depth) tokens tree)
    (genuine : ∀ token ∈ tokens, token.Genuine) : ∃ printed, OptionPrints tree printed := by
  cases read with
  | absent => exact ⟨[], optionPrints_none⟩
  | present item =>
      rcases exists_expressionPrints item genuine with ⟨printed, prints⟩
      exact ⟨printed, prints.option⟩

/-! ## Statements without bodies -/

theorem exists_prints_var {depth : Nat} {tokens : List Token} {tree : Stmt}
    (read : Phrase.VarDeclaration (ExpressionWithin depth) tokens tree)
    (genuine : ∀ token ∈ tokens, token.Genuine) :
    ∃ printed, (∀ limit, tree.nesting ≤ limit + 3 →
        Phrase.VarDeclaration (ExpressionWithin limit) printed tree) ∧
      ∀ level rest, Spells rest (tree.source level).toList printed := by
  cases read with
  | @plain keyword name semicolon isVar isIdentifier isSemicolon =>
      simp only [List.forall_mem_cons] at genuine
      rcases genuine with ⟨genuineVar, genuineName, genuineSemicolon, -⟩
      refine ⟨_, fun _ _ => .plain isVar isIdentifier isSemicolon, ?_⟩
      intro level rest
      have text : ((Stmt.var name none).source level).toList =
          ['v', 'a', 'r'] ++ ' ' :: (name.lexeme.toList ++ [';']) := by
        simp [source]
      rw [text]
      refine genuineVar.spellsFixed isVar (by decide) (by simp) (.space ?_)
      exact genuineName.spells (by simp) (genuineSemicolon.spellsMark isSemicolon (by decide) .done)
  | @initialized keyword name equals semicolon _ value isVar isIdentifier isEqual read
    isSemicolon =>
      simp only [List.forall_mem_append, List.forall_mem_cons] at genuine
      rcases genuine with
        ⟨⟨genuineVar, genuineName, genuineEquals, genuineValue⟩, genuineSemicolon, -⟩
      rcases exists_expressionPrints read genuineValue with ⟨printed, reads, spells⟩
      refine ⟨keyword :: name :: equals :: printed ++ [semicolon], ?_, ?_⟩
      · intro limit bounded
        simp only [nesting, declarationNesting, Expr.nestingOption] at bounded
        exact .initialized isVar isIdentifier isEqual (reads limit (by omega)) isSemicolon
      · intro level rest
        have text : ((Stmt.var name (some value)).source level).toList = ['v', 'a', 'r'] ++
            ' ' :: (name.lexeme.toList ++ ' ' :: (['='] ++ ' ' :: (written value ++ [';']))) := by
          simp [source, written]
        rw [text]
        refine genuineVar.spellsFixed isVar (by decide) (by simp) (.space ?_)
        refine genuineName.spells (by simp) (.space ?_)
        refine genuineEquals.spellsFixed isEqual (by decide) (by simp) (.space ?_)
        exact (spells _ (by simp)).append
          (genuineSemicolon.spellsMark isSemicolon (by decide) .done)

theorem exists_prints_expressionStatement {depth : Nat} {tokens : List Token} {tree : Stmt}
    (read : Phrase.ExpressionStatement (ExpressionWithin depth) tokens tree)
    (genuine : ∀ token ∈ tokens, token.Genuine) :
    ∃ printed, (∀ limit, tree.nesting ≤ limit + 3 →
        Phrase.ExpressionStatement (ExpressionWithin limit) printed tree) ∧
      ∀ level rest, Spells rest (tree.source level).toList printed := by
  rcases read with ⟨read, isSemicolon⟩
  simp only [List.forall_mem_append, List.forall_mem_cons] at genuine
  rcases genuine with ⟨genuineValue, genuineSemicolon, -⟩
  rcases exists_expressionPrints read genuineValue with ⟨printed, reads, spells⟩
  refine ⟨_, fun limit bounded => .rule (reads limit ?_) isSemicolon, ?_⟩
  · simp only [nesting, declarationNesting] at bounded
    omega
  · intro level rest
    rw [source, String.toList_append]
    exact (spells _ (by simp)).append (genuineSemicolon.spellsMark isSemicolon (by decide) .done)

theorem exists_initializerPrints {depth : Nat} {tokens : List Token} {tree : Option Stmt}
    (read : Phrase.Initializer (ExpressionWithin depth) tokens tree)
    (genuine : ∀ token ∈ tokens, token.Genuine) : ∃ printed, InitializerPrints tree printed := by
  cases read with
  | @absent semicolon isSemicolon =>
      refine ⟨[semicolon], fun _ _ => .absent isSemicolon, fun level rest => ?_, rfl,
        .singleton semicolon⟩
      have spelled : Spells rest [';'] [semicolon] :=
        (genuine semicolon (by simp)).spellsMark isSemicolon (by decide) .done
      simpa [source, noInitializer] using spelled
  | @var _ tree declaration =>
      rcases exists_prints_var declaration genuine with ⟨printed, reads, spells⟩
      exact ⟨printed, fun limit bounded => .var (reads limit bounded), spells,
        isInitializer_of_initializer (.var declaration),
        apart_varDeclaration (reads tree.nesting (Nat.le_add_right _ _))⟩
  | @expression _ tree statement =>
      rcases exists_prints_expressionStatement statement genuine with ⟨printed, reads, spells⟩
      exact ⟨printed, fun limit bounded => .expression (reads limit bounded), spells,
        isInitializer_of_initializer (.expression statement),
        apart_expressionStatement (reads tree.nesting (Nat.le_add_right _ _))⟩

/-! ## Bodies -/

theorem ne_hole {depth : Nat} {tokens : List Token} {tree : Stmt}
    (read : DeclarationWithin depth tokens tree) : tree ≠ .hole := by
  rintro rfl
  match depth, read with
  | _ + 5, .var declaration => cases declaration
  | _ + 5, .expression statement => cases statement

/-- Declarations are printed one below the other, without holes. -/
theorem exists_prints_many {depth : Nat} (declarations : DeclarationsPrint depth)
    {tokens : List Token} {trees : List Stmt}
    (read : Phrase.Many (DeclarationWithin depth) tokens trees) :
    (∀ token ∈ tokens, token.Genuine) → ∃ printed,
      (∀ limit, nestingAll trees ≤ limit → Phrase.Many (DeclarationWithin limit) printed trees) ∧
      (∀ level rest, Spells rest ("\n".intercalate (lines level trees)).toList printed) ∧
      SemicolonsApart printed := by
  induction read with
  | done =>
      intro _
      refine ⟨[], fun _ _ => .done, fun _ _ => ?_, List.isChain_nil⟩
      simpa [lines] using .done
  | @more tokens others tree trees item _ ih =>
      intro genuine
      simp only [List.forall_mem_append] at genuine
      rcases declarations _ _ item genuine.1 with ⟨printed, reads, spells, apart⟩
      rcases ih genuine.2 with ⟨printedOthers, readsOthers, spellsOthers, apartOthers⟩
      refine ⟨printed ++ printedOthers, ?_, ?_,
        apart.append apartOthers (head_ne_semicolon (readsOthers _ (Nat.le_refl _)))⟩
      · intro limit bounded
        simp only [nestingAll] at bounded
        exact .more (reads limit (by omega)) (readsOthers limit (by omega))
      · intro level rest
        have first : lines level (tree :: trees) =
            (indent level ++ source level tree) :: lines level trees := by
          rw [lines]
          exact ne_hole item
        have spelled : ∀ rest, Spells rest (indent level ++ source level tree).toList printed := by
          intro rest
          simpa [indent] using (spells level rest).spaces (4 * level.toNat)
        rw [first]
        by_cases isLast : lines level trees = []
        · have nothing := spellsOthers level rest
          rw [isLast] at nothing ⊢
          simpa using (spelled ([] ++ rest)).append nothing
        · rw [String.intercalate_cons_of_ne_nil isLast]
          simpa using (spelled _).append (spellsOthers level rest).newline

theorem exists_blockPrints {depth : Nat} (declarations : DeclarationsPrint depth)
    {tokens : List Token} {trees : List Stmt}
    (read : Phrase.Block (DeclarationWithin depth) tokens trees)
    (genuine : ∀ token ∈ tokens, token.Genuine) : ∃ printed, BlockPrints trees printed := by
  rcases read with ⟨isLeft, many, isRight⟩
  simp only [List.forall_mem_append, List.forall_mem_cons] at genuine
  rcases genuine with ⟨⟨genuineLeft, genuineInner⟩, genuineRight, -⟩
  rcases exists_prints_many declarations many genuineInner with ⟨printed, reads, spells, apart⟩
  refine ⟨_, fun limit bounded => .rule isLeft (reads limit bounded) isRight, ?_,
    (apart.cons (by simp [isLeft])).append (.singleton _) (by simp [isRight])⟩
  intro level rest
  have inner := spells (level + 1)
  generalize lines (level + 1) trees = printedLines at inner ⊢
  cases printedLines with
  | nil =>
      have nothing := inner ('\x7d' :: rest)
      rw [String.intercalate_nil] at nothing
      have text : (braces level []).toList = '\x7b' :: ([] ++ ['\x7d']) := by simp [braces]
      rw [text]
      refine genuineLeft.spellsMark isLeft (by decide) (.append nothing ?_)
      exact genuineRight.spellsMark isRight (by decide) .done
  | cons line others =>
      have text : (braces level (line :: others)).toList =
          '\x7b' :: '\n' :: (("\n".intercalate (line :: others)).toList ++
            '\n' :: (List.replicate (4 * level.toNat) ' ' ++ ['\x7d'])) := by
        simp [braces, indent]
      rw [text]
      refine genuineLeft.spellsMark isLeft (by decide) (.newline ((inner _).append (.newline ?_)))
      exact .spaces _ (genuineRight.spellsMark isRight (by decide) .done)

/-! ## Statements with bodies -/

/-- A statement is parsed where its parts are. -/
theorem StatementPrints.intro {tree : Stmt} {printed : List Token} (noHole : tree ≠ .hole)
    (reads : ∀ limit, tree.nesting ≤ limit + 5 → Phrase.Declaration (ExpressionWithin (limit + 2))
      (DeclarationWithin (limit + 2)) (DeclarationWithin limit) printed tree)
    (spells : ∀ level rest, Spells rest (tree.source level).toList printed)
    (apart : SemicolonsApart printed) : StatementPrints tree printed := by
  refine ⟨fun limit bounded => ?_, spells, apart⟩
  have enough := five_le_nesting noHole
  rcases Nat.exists_eq_add_of_le' (Nat.le_trans enough bounded) with ⟨less, rfl⟩
  exact reads less bounded

theorem exists_prints_tested {depth : Nat} {tokens : List Token} {tree : Expr}
    (read : Phrase.Condition (ExpressionWithin depth) tokens tree)
    (genuine : ∀ token ∈ tokens, token.Genuine) : ∃ printed, ExpressionPrints tree printed := by
  cases read with
  | grouped _ inner _ =>
      simp only [List.forall_mem_append, List.forall_mem_cons] at genuine
      exact exists_expressionPrints inner genuine.1.2
  | bare value _ => exact exists_expressionPrints value genuine

/-- A condition is printed in parentheses, also where it had none. -/
theorem exists_prints_condition {depth : Nat} {tokens : List Token} {tree : Expr}
    (read : Phrase.Condition (ExpressionWithin depth) tokens tree)
    (genuine : ∀ token ∈ tokens, token.Genuine) :
    ∃ printed, (∀ limit, tree.nesting ≤ limit →
        Phrase.Condition (ExpressionWithin limit) printed tree) ∧
      ∀ rest, Spells rest ('(' :: (written tree ++ [')'])) printed := by
  rcases exists_prints_tested read genuine with ⟨printed, prints⟩
  have isLeft := Token.genuine_mark (by decide : ('(', .leftParen) ∈ Segment.marks)
  have isRight := Token.genuine_mark (by decide : (')', .rightParen) ∈ Segment.marks)
  refine ⟨Token.fresh .leftParen "(" :: printed ++ [Token.fresh .rightParen ")"],
    fun limit bounded => .grouped rfl (prints.reads limit bounded) rfl, fun rest => ?_⟩
  exact isLeft.spellsMark rfl (by decide)
    ((prints.spells _ (by simp)).append (isRight.spellsMark rfl (by decide) .done))

theorem branch_block (level : Int) (trees : List Stmt) :
    branch level (.block trees) = braces level (lines (level + 1) trees) := by
  rw [branch]

theorem toList_forHead (initializer : String) (condition : Expr) (increment : Option Expr) :
    (forHead initializer condition.source (increment.map Expr.source)).toList =
      ['f', 'o', 'r'] ++ ' ' :: '(' :: (initializer.toList ++ ' ' :: (written condition ++ ';' ::
        (increment.elim [] (fun tree => ' ' :: written tree) ++ ')' :: ' ' :: []))) := by
  cases increment <;> simp [forHead, written]

/-- A `for` loop is printed with its condition, also where that was missing. -/
theorem exists_prints_for {initializer : Option Stmt} {condition : Expr} {increment : Option Expr}
    {trees : List Stmt}
    {printedInitializer printedCondition printedIncrement printedBody : List Token}
    (started : InitializerPrints initializer printedInitializer)
    (tested : ExpressionPrints condition printedCondition)
    (stepped : OptionPrints increment printedIncrement) (body : BlockPrints trees printedBody) :
    ∃ printed, StatementPrints
      (.block [initializer.getD .hole, .whileLoop condition (.block trees) increment]) printed := by
  have isFor := Token.genuine_keyword (by decide : ("for", .forWord) ∈ TokenKind.keywords)
  have isLeft := Token.genuine_mark (by decide : ('(', .leftParen) ∈ Segment.marks)
  have isSemicolon := Token.genuine_mark (by decide : (';', .semicolon) ∈ Segment.marks)
  have isRight := Token.genuine_mark (by decide : (')', .rightParen) ∈ Segment.marks)
  refine ⟨Token.fresh .forWord "for" :: Token.fresh .leftParen "(" :: printedInitializer ++
    printedCondition ++ Token.fresh .semicolon ";" :: printedIncrement ++
      Token.fresh .rightParen ")" :: printedBody, .intro (by simp) ?_ ?_ ?_⟩
  · intro limit bounded
    rw [nesting_for started.isInitializer, nestedNesting] at bounded
    exact .forLoop rfl rfl (started.reads _ (by omega)) (.present (tested.reads _ (by omega))) rfl
      (stepped.reads _ (by omega)) rfl (body.reads limit (by omega))
  · intro level rest
    rw [source_for level started.isInitializer, branch_block, String.toList_append, toList_forHead]
    simp only [List.append_assoc, List.cons_append, List.nil_append]
    refine isFor.spellsFixed rfl (by decide :
      (.forWord, ['f', 'o', 'r']) ∈ Token.spellings) (by simp)
      (.space ?_)
    refine isLeft.spellsMark rfl (by decide) ((started.spells level _).append (.space ?_))
    refine (tested.spells _ (by simp)).append (isSemicolon.spellsMark rfl (by decide) ?_)
    refine (stepped.spells _ (by simp)).append (isRight.spellsMark rfl (by decide) (.space ?_))
    exact body.spells level rest
  · -- The condition keeps the semicolons apart, and the parenthesis the rest.
    rcases startsIn_expressionWithin _ _ _ (tested.reads _ (Nat.le_refl _)) with
      ⟨first, others, rfl, isFirst⟩
    have isOperand : first.kind ≠ .semicolon := tested.noSemicolons first (by simp)
    have behindCondition : SemicolonsApart
        (printedIncrement ++ Token.fresh .rightParen ")" :: printedBody) :=
      .behind stepped.noSemicolons (body.apart.cons (by decide))
    have noSemicolon : ∀ token ∈ (printedIncrement ++
        Token.fresh .rightParen ")" :: printedBody).head?, token.kind ≠ .semicolon := by
      cases printedIncrement with
      | nil => simp [Token.fresh]
      | cons token rest => simpa using stepped.noSemicolons token (by simp)
    have clauses := SemicolonsApart.behind tested.noSemicolons
      ((SemicolonsApart.singleton (Token.fresh .semicolon ";")).append behindCondition noSemicolon)
    have isLeft : (Token.fresh .leftParen "(").kind ≠ .semicolon := by decide
    have isFor : (Token.fresh .forWord "for").kind ≠ .semicolon := by decide
    have apart := (started.apart.cons isLeft).append clauses (by simpa using isOperand)
    simpa using apart.cons isFor

theorem while_of_within {depth : Nat} {tokens : List Token} {condition : Expr} {body : Stmt}
    {increment : Option Expr}
    (read : DeclarationWithin depth tokens (.whileLoop condition body increment)) :
    ∃ less keyword first second trees, depth = less + 5 ∧ tokens = keyword :: first ++ second ∧
      body = .block trees ∧ increment = none ∧
      Phrase.Condition (ExpressionWithin (less + 2)) first condition ∧
      Phrase.Block (DeclarationWithin less) second trees := by
  match depth, read with
  | less + 5, read =>
      cases read with
      | var declaration => cases declaration
      | expression statement => cases statement
      | whileLoop _ tested block => exact ⟨less, _, _, _, _, rfl, rfl, rfl, rfl, tested, block⟩

theorem initializer_of_within {depth : Nat} {tokens : List Token} {tree : Stmt}
    (read : DeclarationWithin depth tokens tree) (isInitializer : tree.isInitializer = true) :
    ∃ less, Phrase.Initializer (ExpressionWithin less) tokens (some tree) := by
  match depth, read with
  | less + 5, read =>
      cases read with
      | var declaration => exact ⟨less + 2, .var declaration⟩
      | expression statement => exact ⟨less + 2, .expression statement⟩
      | _ => cases isInitializer

/-- A block of an initializer and a `while` loop is printed as a `for` loop. -/
theorem exists_prints_block_for {depth : Nat}
    (declarations : ∀ less < depth, DeclarationsPrint less)
    {tokens : List Token} {trees : List Stmt}
    (read : Phrase.Block (DeclarationWithin depth) tokens trees)
    (genuine : ∀ token ∈ tokens, token.Genuine) (isFor : IsFor trees) :
    ∃ printed, StatementPrints (.block trees) printed := by
  rcases isFor with ⟨initializer, condition, body, increment, rfl, isInitializer⟩
  rcases read with ⟨-, _ | ⟨first, _ | ⟨second, _ | -⟩⟩, -⟩
  simp only [List.forall_mem_append, List.forall_mem_cons] at genuine
  rcases genuine with ⟨⟨-, genuineFirst, genuineSecond, -⟩, -⟩
  rcases initializer_of_within first isInitializer with ⟨_, started⟩
  rcases while_of_within second with ⟨less, keyword, _, _, trees, rfl, rfl, rfl, rfl, tested, block⟩
  simp only [List.forall_mem_append, List.forall_mem_cons] at genuineSecond
  rcases genuineSecond with ⟨⟨-, genuineCondition⟩, genuineBody⟩
  rcases exists_initializerPrints started genuineFirst with ⟨_, prints⟩
  rcases exists_prints_tested tested genuineCondition with ⟨_, printsCondition⟩
  rcases exists_blockPrints (declarations less (by omega)) block genuineBody with ⟨_, printsBody⟩
  exact exists_prints_for prints printsCondition optionPrints_none printsBody

theorem exists_prints_block {depth : Nat}
    (declarations : ∀ less ≤ depth, DeclarationsPrint less)
    {tokens : List Token} {trees : List Stmt}
    (read : Phrase.Block (DeclarationWithin depth) tokens trees)
    (genuine : ∀ token ∈ tokens, token.Genuine) :
    ∃ printed, StatementPrints (.block trees) printed := by
  by_cases isFor : IsFor trees
  · exact exists_prints_block_for (fun less isLess => declarations less (by omega)) read
      genuine isFor
  · rcases exists_blockPrints (declarations depth (Nat.le_refl _)) read genuine with
      ⟨printed, prints⟩
    refine ⟨printed, .intro (by simp) ?_ ?_ prints.apart⟩
    · intro limit bounded
      rw [nesting, if_neg (fun shape => isFor (hasForShape_iff.mp shape)),
        declarationNesting] at bounded
      exact .block (prints.reads (limit + 2) (by omega))
    · intro level rest
      rw [source_block level isFor]
      exact prints.spells level rest

theorem exists_prints_function {depth : Nat} {keyword name left right : Token}
    {parameters body names : List Token} {trees : List Stmt}
    (declarations : DeclarationsPrint depth)
    (isFun : keyword.kind = .funWord) (isIdentifier : name.kind = .identifier)
    (isLeft : left.kind = .leftParen) (items : Phrase.Items Phrase.Parameter parameters names)
    (isRight : right.kind = .rightParen) (block : Phrase.Block (DeclarationWithin depth) body trees)
    (genuine : ∀ token ∈ keyword :: name :: left :: parameters ++ right :: body, token.Genuine) :
    ∃ printed, StatementPrints (.function name names trees) printed := by
  simp only [List.forall_mem_append, List.forall_mem_cons] at genuine
  rcases genuine with
    ⟨⟨genuineFun, genuineName, genuineLeft, genuineItems⟩, genuineRight, genuineBody⟩
  have parameter : Reprints (fun name : Token => name.lexeme.toList) Phrase.Parameter := by
    rintro tokens name ⟨isIdentifier⟩ genuine
    exact ⟨[name], .rule isIdentifier, fun rest ends => (genuine name (by simp)).spellsAlone ends⟩
  rcases parameter.items Token.lexeme _ _ items genuineItems with
    ⟨printedItems, readsItems, spellsItems⟩
  rcases exists_blockPrints declarations block genuineBody with ⟨printedBody, prints⟩
  have noSemicolons : ∀ token ∈ keyword :: name :: left :: printedItems,
      token.kind ≠ .semicolon := by
    simp only [List.forall_mem_cons, isFun, isIdentifier, isLeft]
    exact ⟨by decide, by decide, by decide,
      noSemicolons_of_madeOf (.items .parameter) readsItems⟩
  refine ⟨keyword :: name :: left :: printedItems ++ right :: printedBody, .intro (by simp) ?_ ?_
    (.behind noSemicolons (prints.apart.cons (by simp [isRight])))⟩
  · intro limit bounded
    rw [nesting, declarationNesting] at bounded
    exact .function isFun isIdentifier isLeft readsItems isRight
      (prints.reads (limit + 2) (by omega))
  · intro level rest
    have text : ((Stmt.function name names trees).source level).toList =
        ['f', 'u', 'n'] ++ ' ' :: (name.lexeme.toList ++ '(' ::
          ((", ".intercalate (names.map Token.lexeme)).toList ++ ')' :: ' ' ::
            (braces level (lines (level + 1) trees)).toList)) := by
      simp [source]
    rw [text]
    refine genuineFun.spellsFixed isFun (by decide) (by simp) (.space ?_)
    refine genuineName.spells (by simp) (genuineLeft.spellsMark isLeft (by decide) ?_)
    refine (spellsItems _ (by simp)).append
      (genuineRight.spellsMark isRight (by decide) (.space ?_))
    exact prints.spells level rest

theorem ne_semicolon_of_mem_keywords {kind : TokenKind} {word : String}
    (known : (word, kind) ∈ TokenKind.keywords) : kind ≠ .semicolon := by
  have none : ∀ entry ∈ TokenKind.keywords, entry.2 ≠ .semicolon := by decide
  exact none (word, kind) known

/-- A keyword, a condition in parentheses and a block: all of a `while` loop, and the
beginning of an `if` statement. -/
def testedText (word : String) (condition : Expr) (trees : List Stmt) (level : Int) : List Char :=
  word.toList ++ ' ' :: ('(' :: (written condition ++ [')']) ++
    ' ' :: (braces level (lines (level + 1) trees)).toList)

theorem exists_prints_testedText {depth : Nat} {keyword : Token} {kind : TokenKind} {word : String}
    {tokens body : List Token} {condition : Expr} {trees : List Stmt}
    (declarations : DeclarationsPrint depth)
    (known : (word, kind) ∈ TokenKind.keywords) (isWord : keyword.kind = kind)
    (tested : Phrase.Condition (ExpressionWithin (depth + 2)) tokens condition)
    (block : Phrase.Block (DeclarationWithin depth) body trees)
    (genuine : ∀ token ∈ keyword :: tokens ++ body, token.Genuine) :
    ∃ printed printedBody, (∀ limit, condition.nesting ≤ limit →
        Phrase.Condition (ExpressionWithin limit) printed condition) ∧
      BlockPrints trees printedBody ∧
      (∀ level rest, Spells rest (testedText word condition trees level)
        (keyword :: printed ++ printedBody)) ∧
      SemicolonsApart (keyword :: printed ++ printedBody) := by
  simp only [List.forall_mem_append, List.forall_mem_cons] at genuine
  rcases genuine with ⟨⟨genuineWord, genuineCondition⟩, genuineBody⟩
  rcases exists_prints_condition tested genuineCondition with ⟨printed, reads, spells⟩
  rcases exists_blockPrints declarations block genuineBody with ⟨printedBody, prints⟩
  have noSemicolons := noSemicolons_of_madeOf (madeOf_expression condition.nesting).condition
    (reads _ (Nat.le_refl _))
  refine ⟨printed, printedBody, reads, prints, fun level rest => ?_,
    (SemicolonsApart.behind noSemicolons prints.apart).cons ?_⟩
  · have isSpelling := Token.mem_spellings_of_mem_keywords known
    refine genuineWord.spellsFixed isWord isSpelling (by simp) (.space ?_)
    exact (spells _).append (.space (prints.spells level rest))
  · rw [isWord]
    exact ne_semicolon_of_mem_keywords known

theorem exists_prints_if {depth : Nat} {keyword : Token} {tokens first : List Token}
    {condition : Expr} {trees : List Stmt}
    (declarations : DeclarationsPrint depth)
    (isIf : keyword.kind = .ifWord)
    (tested : Phrase.Condition (ExpressionWithin (depth + 2)) tokens condition)
    (block : Phrase.Block (DeclarationWithin depth) first trees)
    (genuine : ∀ token ∈ keyword :: tokens ++ first, token.Genuine) :
    ∃ printed, StatementPrints (.ifElse condition (.block trees) none) printed := by
  rcases exists_prints_testedText declarations (by decide : ("if", .ifWord) ∈ _) isIf tested
    block genuine
    with ⟨printed, printedBody, reads, prints, spells, apart⟩
  refine ⟨keyword :: printed ++ printedBody, .intro (by simp) ?_ ?_ apart⟩
  · intro limit bounded
    simp only [nesting, bodyNesting, nestedNesting] at bounded
    exact .ifThen isIf (reads _ (by omega)) (prints.reads limit (by omega))
  · intro level rest
    have text : ((Stmt.ifElse condition (.block trees) none).source level).toList =
        testedText "if" condition trees level := by
      simp [source, branch_block, written, testedText]
    rw [text]
    exact spells level rest

theorem exists_prints_ifElse {depth : Nat} {keyword otherwise : Token}
    {tokens first second : List Token} {condition : Expr} {thenTrees elseTrees : List Stmt}
    (declarations : DeclarationsPrint depth)
    (isIf : keyword.kind = .ifWord)
    (tested : Phrase.Condition (ExpressionWithin (depth + 2)) tokens condition)
    (thenBlock : Phrase.Block (DeclarationWithin depth) first thenTrees)
    (isElse : otherwise.kind = .elseWord)
    (elseBlock : Phrase.Block (DeclarationWithin depth) second elseTrees)
    (genuine : ∀ token ∈ keyword :: tokens ++ first ++ otherwise :: second, token.Genuine) :
    ∃ printed,
      StatementPrints (.ifElse condition (.block thenTrees) (some (.block elseTrees))) printed := by
  rw [List.forall_mem_append, List.forall_mem_cons] at genuine
  rcases genuine with ⟨genuineThen, genuineWord, genuineElse⟩
  rcases exists_prints_testedText declarations (by decide : ("if", .ifWord) ∈ _) isIf
    tested thenBlock
    genuineThen with ⟨printed, printedThen, reads, thenPrints, spells, apart⟩
  rcases exists_blockPrints declarations elseBlock genuineElse with ⟨printedElse, elsePrints⟩
  refine ⟨keyword :: printed ++ printedThen ++ otherwise :: printedElse, .intro (by simp) ?_ ?_
    (apart.append (elsePrints.apart.cons (by simp [isElse])) (by simp [isElse]))⟩
  · intro limit bounded
    simp only [nesting, bodyNesting, nestedNesting] at bounded
    exact .ifElse isIf (reads _ (by omega)) (thenPrints.reads limit (by omega)) isElse
      (elsePrints.reads limit (by omega))
  · intro level rest
    have text :
        ((Stmt.ifElse condition (.block thenTrees) (some (.block elseTrees))).source level).toList =
          testedText "if" condition thenTrees level ++ ' ' ::
            (['e', 'l', 's', 'e'] ++ ' ' ::
              (braces level (lines (level + 1) elseTrees)).toList) := by
      simp [source, branch_block, written, testedText]
    rw [text]
    refine (spells level _).append (.space ?_)
    refine genuineWord.spellsFixed isElse (by decide) (by simp) (.space ?_)
    exact elsePrints.spells level rest

theorem exists_prints_while {depth : Nat} {keyword : Token} {tokens body : List Token}
    {condition : Expr} {trees : List Stmt}
    (declarations : DeclarationsPrint depth)
    (isWhile : keyword.kind = .whileWord)
    (tested : Phrase.Condition (ExpressionWithin (depth + 2)) tokens condition)
    (block : Phrase.Block (DeclarationWithin depth) body trees)
    (genuine : ∀ token ∈ keyword :: tokens ++ body, token.Genuine) :
    ∃ printed, StatementPrints (.whileLoop condition (.block trees) none) printed := by
  rcases exists_prints_testedText declarations (by decide : ("while", .whileWord) ∈ _)
    isWhile tested
    block genuine with ⟨printed, printedBody, reads, prints, spells, apart⟩
  refine ⟨keyword :: printed ++ printedBody, .intro (by simp) ?_ ?_ apart⟩
  · intro limit bounded
    rw [nesting_whileLoop, nestedNesting] at bounded
    exact .whileLoop isWhile (reads _ (by omega)) (prints.reads limit (by omega))
  · intro level rest
    have text : ((Stmt.whileLoop condition (.block trees) none).source level).toList =
        testedText "while" condition trees level := by
      simp [source, loopHead, branch_block, written, testedText]
    rw [text]
    exact spells level rest

/-- The tokens of a loop condition that was left out. -/
theorem expressionPrints_true :
    ExpressionPrints (.literal (.boolean true)) [Token.fresh .trueWord "true"] := by
  have isTrue := Token.genuine_keyword (by decide : ("true", .trueWord) ∈ TokenKind.keywords)
  refine ⟨fun limit bounded => ?_, fun rest ends => isTrue.spellsAlone ends⟩
  have read : ExpressionWithin 15 [Token.fresh .trueWord "true"] (.literal (.boolean true)) :=
    .plain (.plain (.operand (.operand (.operand (.operand (.operand
      (.call (.primary (.trueWord rfl)))))))))
  exact lifts_expression 15 limit _ _ read bounded

theorem exists_prints_loopCondition {depth : Nat} {tokens : List Token} {condition : Option Expr}
    (read : Phrase.Optional (ExpressionWithin depth) tokens condition)
    (genuine : ∀ token ∈ tokens, token.Genuine) :
    ∃ printed, ExpressionPrints (condition.getD (.literal (.boolean true))) printed := by
  cases read with
  | absent => exact ⟨_, expressionPrints_true⟩
  | present item => exact exists_expressionPrints item genuine

/-- A keyword, an expression that may be absent, and a semicolon. -/
theorem spells_keyword {keyword semicolon : Token} {kind : TokenKind} {word : String}
    (known : (word, kind) ∈ TokenKind.keywords) (rest : List Char) {value : Option Expr}
    {printed : List Token} (genuineWord : keyword.Genuine) (isWord : keyword.kind = kind)
    (prints : OptionPrints value printed) (genuineSemicolon : semicolon.Genuine)
    (isSemicolon : semicolon.kind = .semicolon) :
    Spells rest (word.toList ++ (value.elim [] (fun tree => ' ' :: written tree) ++ [';']))
      (keyword :: printed ++ [semicolon]) := by
  have isSpelling := Token.mem_spellings_of_mem_keywords known
  refine genuineWord.spellsFixed isWord isSpelling ?_ ((prints.spells _ (by simp)).append ?_)
  · cases value <;> simp
  · exact genuineSemicolon.spellsMark isSemicolon (by decide) .done

/-- The tokens of such a statement have one semicolon. -/
theorem apart_keyword {keyword semicolon : Token} {kind : TokenKind} {word : String}
    {printed : List Token} (known : (word, kind) ∈ TokenKind.keywords)
    (isWord : keyword.kind = kind) (noSemicolons : ∀ token ∈ printed, token.kind ≠ .semicolon) :
    SemicolonsApart (keyword :: printed ++ [semicolon]) :=
  (SemicolonsApart.concat noSemicolons semicolon).cons
    (isWord ▸ ne_semicolon_of_mem_keywords known)

theorem exists_statementPrints (depth : Nat) : DeclarationsPrint depth := by
  induction depth using Nat.strongRecOn with
  | ind depth declarations =>
    intro tokens tree read genuine
    have noHole := ne_hole read
    match depth, read with
    | depth + 5, read =>
      have nested := declarations depth (by omega)
      cases read with
      | var declaration =>
          rcases exists_prints_var declaration genuine with ⟨printed, reads, spells⟩
          exact ⟨printed, .intro noHole (fun limit bounded => .var (reads _ bounded)) spells
            (apart_varDeclaration (reads tree.nesting (Nat.le_add_right _ _)))⟩
      | function isFun isIdentifier isLeft items isRight block =>
          exact exists_prints_function (declarations (depth + 2) (by omega)) isFun
            isIdentifier isLeft
            items isRight block genuine
      | print isPrint value isSemicolon =>
          simp only [List.forall_mem_append, List.forall_mem_cons] at genuine
          rcases genuine with ⟨⟨genuinePrint, genuineValue⟩, genuineSemicolon, -⟩
          rcases exists_expressionPrints value genuineValue with ⟨printed, prints⟩
          have isWord : ("print", .printWord) ∈ TokenKind.keywords := by decide
          refine ⟨_, .intro noHole
            (fun limit bounded => .print isPrint (prints.reads _ ?_) isSemicolon)
            (fun level rest => ?_) (apart_keyword isWord isPrint prints.noSemicolons)⟩
          · simp only [nesting, declarationNesting] at bounded
            omega
          · simpa [source, written] using spells_keyword isWord rest genuinePrint isPrint
              prints.option
              genuineSemicolon isSemicolon
      | block block =>
          exact exists_prints_block (fun less isLess => declarations less (by omega)) block genuine
      | ifThen isIf tested block => exact exists_prints_if nested isIf tested block genuine
      | ifElse isIf tested thenBlock isElse elseBlock =>
          exact exists_prints_ifElse nested isIf tested thenBlock isElse elseBlock genuine
      | whileLoop isWhile tested block =>
          exact exists_prints_while nested isWhile tested block genuine
      | forLoop _ _ started tested _ stepped _ block =>
          simp only [List.forall_mem_append, List.forall_mem_cons] at genuine
          rcases genuine with
            ⟨⟨⟨⟨-, -, genuineFirst⟩, genuineSecond⟩, -, genuineThird⟩, -, genuineBody⟩
          rcases exists_initializerPrints started genuineFirst with ⟨_, printsInitializer⟩
          rcases exists_prints_loopCondition tested genuineSecond with ⟨_, printsCondition⟩
          rcases exists_optionPrints stepped genuineThird with ⟨_, printsIncrement⟩
          rcases exists_blockPrints nested block genuineBody with ⟨_, printsBody⟩
          exact exists_prints_for printsInitializer printsCondition printsIncrement printsBody
      | breakLoop isBreak isSemicolon =>
          simp only [List.forall_mem_cons] at genuine
          have isWord : ("break", .breakWord) ∈ TokenKind.keywords := by decide
          refine ⟨_, .intro noHole (fun _ _ => .breakLoop isBreak isSemicolon)
            (fun level rest => ?_) (apart_keyword isWord isBreak optionPrints_none.noSemicolons)⟩
          simpa [source] using spells_keyword isWord rest genuine.1 isBreak optionPrints_none
            genuine.2.1 isSemicolon
      | continueLoop isContinue isSemicolon =>
          simp only [List.forall_mem_cons] at genuine
          have isWord : ("continue", .continueWord) ∈ TokenKind.keywords := by decide
          refine ⟨_, .intro noHole (fun _ _ => .continueLoop isContinue isSemicolon)
            (fun level rest => ?_)
            (apart_keyword isWord isContinue optionPrints_none.noSemicolons)⟩
          simpa [source] using spells_keyword isWord rest genuine.1 isContinue optionPrints_none
            genuine.2.1 isSemicolon
      | @returnValue _ _ _ value isReturn given isSemicolon =>
          simp only [List.forall_mem_append, List.forall_mem_cons] at genuine
          rcases genuine with ⟨⟨genuineReturn, genuineValue⟩, genuineSemicolon, -⟩
          rcases exists_optionPrints given genuineValue with ⟨printed, prints⟩
          have isWord : ("return", .returnWord) ∈ TokenKind.keywords := by decide
          refine ⟨_, .intro noHole
            (fun limit bounded => .returnValue isReturn (prints.reads _ ?_) isSemicolon)
            (fun level rest => ?_) (apart_keyword isWord isReturn prints.noSemicolons)⟩
          · simp only [nesting, declarationNesting] at bounded
            omega
          · have spelled := spells_keyword isWord rest genuineReturn isReturn prints
              genuineSemicolon
              isSemicolon
            cases value <;> simpa [source, written] using spelled
      | expression statement =>
          rcases exists_prints_expressionStatement statement genuine with ⟨printed, reads, spells⟩
          exact ⟨printed, .intro noHole (fun limit bounded => .expression (reads _ bounded)) spells
            (apart_expressionStatement (reads tree.nesting (Nat.le_add_right _ _)))⟩

end Grammar
end LoxLang

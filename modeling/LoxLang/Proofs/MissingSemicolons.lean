import LoxLang.Proofs.Enclosing
import LoxLang.Proofs.ExpressionTokens

/-!
# Statements without their semicolon

Where a statement is followed by a closing brace or by a keyword that starts a statement, its
semicolon is all that ends it: the rule for the statement is abandoned at the token behind the
semicolon if that is missing. A semicolon that is followed so does not stand in the head of a loop,
and no expression has one. So it ends the declaration that it is in, or it is in a block of that.
-/

namespace LoxLang

namespace Grammar

open Rule

variable {depth : Nat} {left right before rest back : List Token} {semicolon next : Token}

/-- The kinds of the tokens that end a statement which has no semicolon: a closing brace and the
keywords that start a statement. -/
def closerKinds : List TokenKind :=
  [.rightBrace, .classWord, .funWord, .varWord, .forWord, .ifWord, .whileWord, .printWord,
    .returnWord]

/-- What can be wrong with a statement that has no semicolon. -/
def semicolonFaults : List GrammarFault :=
  [.expected "';' after variable declaration", .expected "';' after value",
    .expected "';' after expression", .expected "';' after 'break'",
    .expected "';' after 'continue'", .expected "';' after return value", .expected "expression",
    .tooDeep]

/-! ## Where there is no expression -/

section NoExpression

variable (follows : Follows operandKinds rest)
include follows

theorem abandons_unary (depth : Nat) :
    ∃ fault ∈ [.expected "expression", .tooDeep], Abandons (unary depth) rest fault rest := by
  rcases Nat.lt_or_ge depth 3 with isDeep | enough
  · refine ⟨.tooDeep, by simp, fun _ _ => ?_⟩
    interval_cases depth <;> rfl
  · rcases Nat.exists_eq_add_of_le' enough with ⟨depth, rfl⟩
    have noPrimary : Abandons (primary (expression depth)) rest (.expected "expression") rest :=
      (reads_accept_none follows.right).leads (.refl _ _)
    have noUnary : Abandons (unaryRule (unary (depth + 2)) (call (expression depth))) rest
        (.expected "expression") rest :=
      (reads_accept_none follows.left).leads noPrimary.bind
    exact ⟨_, List.mem_cons_self, noUnary⟩

/-- Where no expression starts, the rule for expressions is abandoned at once. -/
theorem abandons_expression : ∀ depth,
    ∃ fault ∈ [.expected "expression", .tooDeep], Abandons (expression depth) rest fault rest
  | 0 | 1 | 2 | 3 | 4 | 5 | 6 | 7 | 8 | 9 | 10 | 11 => ⟨.tooDeep, by simp, fun _ _ => rfl⟩
  | depth + 12 => by
      rcases abandons_unary follows depth with ⟨fault, isFault, abandons⟩
      have noLogical : Abandons (logical (unary depth)) rest fault rest :=
        (((abandons.bind.bind).bind).bind).bind
      have noTernary : Abandons (ternary (depth + 10)) rest fault rest :=
        Abandons.bind noLogical
      exact ⟨fault, isFault, Abandons.bind noTernary⟩

end NoExpression

/-! ## Statements that lack their semicolon -/

section Lacking

variable {keyword name equals : Token} {tokens : List Token} {tree : Expr}
  (isCloser : next.kind ∈ closerKinds)
include isCloser

theorem abandons_semicolon (phrase : String) (change : Token → Stmt) :
    Abandons (change <$> expect .semicolon phrase) (next :: back) (.expected phrase)
      (next :: back) :=
  (abandons_expect phrase (.of_mem isCloser (by decide) back)).map change

theorem reads_value (value : ExpressionWithin depth tokens tree) :
    Reads False (expression depth) (tokens ++ next :: back) tree (next :: back) :=
  complete_expressionWithin depth _ _ _ value (.of_mem isCloser (by decide) back)

theorem abandons_var (isVar : keyword.kind = .varWord) (isIdentifier : name.kind = .identifier) :
    Abandons (unguarded depth) (keyword :: name :: next :: back)
      (.expected "';' after variable declaration") (next :: back) := by
  refine (reads_accept_some (by simp [isVar])).leads ?_
  simp only [isVar]
  refine (reads_expect _ isIdentifier).leads ?_
  refine (reads_accept_none (.of_mem isCloser (by decide) back)).leads ?_
  exact abandons_semicolon isCloser _ _

theorem abandons_initialized (isVar : keyword.kind = .varWord)
    (isIdentifier : name.kind = .identifier) (isEqual : equals.kind = .equal)
    (value : ExpressionWithin (depth + 2) tokens tree) :
    Abandons (unguarded depth) (keyword :: name :: equals :: tokens ++ next :: back)
      (.expected "';' after variable declaration") (next :: back) := by
  refine (reads_accept_some (by simp [isVar])).leads ?_
  simp only [isVar]
  refine (reads_expect _ isIdentifier).leads ?_
  refine (reads_accept_some (List.mem_singleton.mpr isEqual)).leads ?_
  exact ((reads_value isCloser value).map some).leads (abandons_semicolon isCloser _ _)

theorem abandons_print (isPrint : keyword.kind = .printWord)
    (value : ExpressionWithin (depth + 2) tokens tree) :
    Abandons (unguarded depth) (keyword :: tokens ++ next :: back)
      (.expected "';' after value") (next :: back) := by
  refine (reads_accept_some (by simp [isPrint])).leads ?_
  simp only [isPrint]
  exact (reads_value isCloser value).leads (abandons_semicolon isCloser _ _)

theorem abandons_break (isBreak : keyword.kind = .breakWord) :
    Abandons (unguarded depth) (keyword :: next :: back) (.expected "';' after 'break'")
      (next :: back) := by
  refine (reads_accept_some (by simp [isBreak])).leads ?_
  simp only [isBreak]
  exact abandons_semicolon isCloser "';' after 'break'" _

theorem abandons_continue (isContinue : keyword.kind = .continueWord) :
    Abandons (unguarded depth) (keyword :: next :: back) (.expected "';' after 'continue'")
      (next :: back) := by
  refine (reads_accept_some (by simp [isContinue])).leads ?_
  simp only [isContinue]
  exact abandons_semicolon isCloser "';' after 'continue'" _

theorem abandons_return {value : Option Expr} (isReturn : keyword.kind = .returnWord)
    (given : Phrase.Optional (ExpressionWithin (depth + 2)) tokens value) :
    ∃ fault ∈ [.expected "';' after return value", .expected "expression", .tooDeep],
      Abandons (unguarded depth) (keyword :: tokens ++ next :: back) fault (next :: back) := by
  have behind {fault : GrammarFault} (abandons : Abandons (returnStatement keyword
      (expression (depth + 2))) (tokens ++ next :: back) fault (next :: back)) :
      Abandons (unguarded depth) (keyword :: tokens ++ next :: back) fault (next :: back) := by
    refine (reads_accept_some (by simp [isReturn])).leads ?_
    simp only [isReturn]
    exact abandons
  cases given with
  | absent =>
      rcases abandons_expression (.of_mem isCloser (by decide) back) (depth + 2) with
        ⟨fault, isFault, abandons⟩
      refine ⟨fault, List.mem_cons_of_mem _ isFault, behind (Abandons.bind ?_)⟩
      refine (reads_isNext_false (.of_mem isCloser (by decide) back)).leads ?_
      exact abandons.map some
  | @present _ tree value =>
      have notNext : Follows [.semicolon] (tokens ++ next :: back) :=
        (startsIn_expressionWithin _).follows value (by decide) _
      have reads : Reads False (unlessNext .semicolon (expression (depth + 2)))
          (tokens ++ next :: back) (some tree) (next :: back) :=
        (reads_isNext_false notNext).bind ((reads_value isCloser value).map some)
      exact ⟨_, List.mem_cons_self, behind (reads.leads (abandons_semicolon isCloser _ _))⟩

theorem abandons_statement (value : ExpressionWithin (depth + 2) tokens tree) :
    Abandons (unguarded depth) (tokens ++ next :: back) (.expected "';' after expression")
      (next :: back) := by
  have noKeyword : Follows keywordKinds (tokens ++ next :: back) :=
    (startsIn_expressionWithin _).follows value (by decide) _
  refine (reads_accept_none noKeyword).leads ?_
  exact (reads_value isCloser value).leads (abandons_semicolon isCloser _ _)

end Lacking

/-! ## Where the semicolon stands -/

section Cutting

variable {α : Type} {front back left right : List α} {token : α}

/-- An element of two lists in a row is one of the first list or one of the second. -/
theorem cut_append (shape : left ++ token :: right = front ++ back) :
    (∃ more, front = left ++ token :: more ∧ right = more ++ back) ∨
      ∃ before, left = front ++ before ∧ back = before ++ token :: right := by
  rcases List.append_eq_append_iff.mp shape with
    ⟨others, isFront, isBack⟩ | ⟨before, isLeft, isBack⟩
  · cases others with
    | nil => exact .inr ⟨[], by simpa using isFront.symm, by simpa using isBack.symm⟩
    | cons first more =>
        rcases List.cons.inj isBack with ⟨rfl, rfl⟩
        exact .inl ⟨more, isFront, rfl⟩
  · exact .inr ⟨before, isLeft, isBack⟩

end Cutting

/-- Whether there is no semicolon among some tokens. -/
def NoSemicolon (tokens : List Token) : Prop :=
  ∀ token ∈ tokens, token.kind ≠ .semicolon

@[simp]
theorem noSemicolon_nil : NoSemicolon [] := by
  simp [NoSemicolon]

@[simp]
theorem noSemicolon_cons {token : Token} {tokens : List Token} :
    NoSemicolon (token :: tokens) ↔ token.kind ≠ .semicolon ∧ NoSemicolon tokens := by
  simp [NoSemicolon]

@[simp]
theorem noSemicolon_append {tokens others : List Token} :
    NoSemicolon (tokens ++ others) ↔ NoSemicolon tokens ∧ NoSemicolon others := by
  simp only [NoSemicolon, List.forall_mem_append]

theorem MadeOf.noSemicolon {α : Type} {phrase : Phrase α} (made : MadeOf expressionKinds phrase)
    {tokens : List Token} {tree : α} (read : phrase tokens tree) : NoSemicolon tokens := by
  have other : ∀ kind ∈ expressionKinds, kind ≠ .semicolon := by decide
  exact fun token isToken => other _ (made tokens tree read token isToken)

section Location

variable {front others : List Token} (isSemicolon : semicolon.kind = .semicolon)
include isSemicolon

/-- A semicolon is not among tokens without one. -/
theorem cut_behind (shape : left ++ semicolon :: right = front ++ others)
    (noSemicolon : NoSemicolon front) :
    ∃ before, left = front ++ before ∧ others = before ++ semicolon :: right := by
  rcases cut_append shape with ⟨more, rfl, -⟩ | behind
  · exact absurd isSemicolon (noSemicolon semicolon (by simp))
  · exact behind

theorem cut_last {last : Token} (shape : left ++ semicolon :: right = front ++ [last])
    (noSemicolon : NoSemicolon front) : left = front ∧ right = [] := by
  rcases cut_behind isSemicolon shape noSemicolon with ⟨before, rfl, isLast⟩
  cases before with
  | nil => exact ⟨List.append_nil _, (List.cons.inj isLast).2.symm⟩
  | cons first rest => simp at isLast

end Location

/-- `Encloses depth inner left token right` says that a declaration has a token in its block. -/
inductive Encloses (depth inner : Nat) : List Token → Token → List Token → Prop
  | block {head before behind tail : List Token} {token close : Token}
      {finish : List Stmt → Rule Stmt} {trees : List Stmt}
      (hosts : Hosts depth head inner finish tail)
      (many : Phrase.Many (DeclarationWithin inner) (before ++ token :: behind) trees)
      (isClose : close.kind = .rightBrace) :
      Encloses depth inner (head ++ before) token (behind ++ close :: tail)

/-- A semicolon in a block is one of the declarations in it. -/
theorem encloses_of_block {inner : Nat} {front tokens tail : List Token} {trees : List Stmt}
    {finish : List Stmt → Rule Stmt} (isSemicolon : semicolon.kind = .semicolon)
    (read : Phrase.Block (DeclarationWithin inner) tokens trees)
    (shape : tokens = before ++ semicolon :: right)
    (hosts : ∀ brace : Token, brace.kind = .leftBrace →
      Hosts depth (front ++ [brace]) inner finish tail) :
    Encloses depth inner (front ++ before) semicolon (right ++ tail) := by
  rcases read with ⟨isLeft, many, isRight⟩
  rename_i brace close inside
  cases before with
  | nil =>
      rw [List.nil_append, List.cons_append, List.cons.injEq] at shape
      rw [shape.1, isSemicolon] at isLeft
      cases isLeft
  | cons first before =>
      rw [List.cons_append, List.cons_append, List.cons.injEq] at shape
      rcases shape with ⟨rfl, shape⟩
      rcases cut_append shape.symm with ⟨behind, rfl, rfl⟩ | ⟨others, -, isLast⟩
      · have encloses := Encloses.block (hosts brace isLeft) many isRight
        simpa using encloses
      · cases others with
        | nil =>
            rw [(List.cons.inj isLast).1, isSemicolon] at isRight
            cases isRight
        | cons => simp at isLast

/-! ### The head of a loop -/

section Head

variable {Expression : Phrase Expr} (made : MadeOf expressionKinds Expression)
  (starts : StartsIn operandKinds Expression)

include starts in
/-- Behind a semicolon in the head of a loop stands an expression or what comes behind it. -/
theorem follows_optional {tokens : List Token} {value : Option Expr} {token : Token}
    (given : Phrase.Optional Expression tokens value) (notCloser : token.kind ∉ closerKinds)
    (rest : List Token) : Follows closerKinds (tokens ++ token :: rest) := by
  cases given with
  | absent => exact .cons notCloser
  | present value => exact starts.follows value (by decide) _

include made in
theorem exists_initializer {tokens : List Token} {initializer : Option Stmt}
    (read : Phrase.Initializer Expression tokens initializer) :
    ∃ front last, tokens = front ++ [last] ∧ NoSemicolon front := by
  cases read with
  | @absent semicolon => exact ⟨[], semicolon, rfl, by simp⟩
  | expression statement =>
      rcases statement with ⟨value, -⟩
      exact ⟨_, _, rfl, made.noSemicolon value⟩
  | var declaration =>
      cases declaration with
      | @plain keyword name semicolon isVar isIdentifier =>
          exact ⟨[keyword, name], semicolon, rfl, by simp [isVar, isIdentifier]⟩
      | initialized isVar isIdentifier isEqual value =>
          exact ⟨_, _, rfl, by simp [isVar, isIdentifier, isEqual, made.noSemicolon value]⟩

include made starts in
/-- A semicolon that is not in the head of a loop is in the block. -/
theorem cut_forLoop {keyword paren middle close : Token} {first second third body more : List Token}
    {initializer : Option Stmt} {condition increment : Option Expr}
    (isSemicolon : semicolon.kind = .semicolon) (isFor : keyword.kind = .forWord)
    (isLeft : paren.kind = .leftParen) (started : Phrase.Initializer Expression first initializer)
    (tested : Phrase.Optional Expression second condition) (isMiddle : middle.kind = .semicolon)
    (stepped : Phrase.Optional Expression third increment) (isRight : close.kind = .rightParen)
    (shape : left ++ semicolon :: right =
      keyword :: paren :: first ++ second ++ middle :: third ++ close :: body)
    (closed : ¬ Follows closerKinds (right ++ more)) :
    ∃ before, left = keyword :: paren :: first ++ second ++ middle :: third ++ [close] ++ before ∧
      body = before ++ semicolon :: right := by
  have regrouped : left ++ semicolon :: right =
      (keyword :: paren :: first) ++ (second ++ middle :: (third ++ [close] ++ body)) := by
    simpa using shape
  rcases cut_append regrouped with ⟨others, isFirst, rfl⟩ | ⟨others, rfl, isSecond⟩
  · rcases exists_initializer made started with ⟨front, last, rfl, noSemicolon⟩
    have isHead : left ++ semicolon :: others = (keyword :: paren :: front) ++ [last] :=
      isFirst.symm
    have isNone : others = [] :=
      (cut_last isSemicolon isHead (by simp [isFor, isLeft, noSemicolon])).2
    refine absurd ?_ closed
    rw [isNone, List.nil_append, List.append_assoc]
    exact follows_optional starts tested (by simp [isMiddle, closerKinds]) _
  · rcases cut_behind isSemicolon isSecond.symm (made.optional.noSemicolon tested) with
      ⟨others, rfl, isThird⟩
    cases others with
    | nil =>
        rw [List.nil_append, List.cons.injEq] at isThird
        refine absurd ?_ closed
        rw [← isThird.2]
        simpa using follows_optional starts stepped (by simp [isRight, closerKinds]) (body ++ more)
    | cons first' others =>
        rw [List.cons_append, List.cons.injEq] at isThird
        rcases isThird with ⟨rfl, isThird⟩
        rcases cut_behind isSemicolon isThird.symm
          (by simp [isRight, made.optional.noSemicolon stepped]) with ⟨before, rfl, isBody⟩
        exact ⟨before, by simp, isBody⟩

end Head

/-! ### Declarations -/

/-- `Site depth semicolon next back left right` says where a semicolon of a declaration is: it is
the last token, and without it the declaration is abandoned at `next`, or it is in a block. -/
inductive Site (depth : Nat) (semicolon next : Token) (back : List Token) :
    List Token → List Token → Prop
  | last {left : List Token} {fault : GrammarFault} (isFault : fault ∈ semicolonFaults)
      (abandons : Abandons (unguarded depth) (left ++ next :: back) fault (next :: back)) :
      Site depth semicolon next back left []
  | inside {left right : List Token} {inner : Nat} (isInner : inner ∈ [depth, depth + 2])
      (encloses : Encloses depth inner left semicolon right) :
      Site depth semicolon next back left right

namespace Site

variable {front body : List Token}

theorem of_last {last : Token} {fault : GrammarFault} (isSemicolon : semicolon.kind = .semicolon)
    (shape : left ++ semicolon :: right = front ++ [last]) (noSemicolon : NoSemicolon front)
    (isFault : fault ∈ semicolonFaults)
    (abandons : Abandons (unguarded depth) (front ++ next :: back) fault (next :: back)) :
    Site depth semicolon next back left right := by
  rcases cut_last isSemicolon shape noSemicolon with ⟨rfl, rfl⟩
  exact .last isFault abandons

theorem of_block {inner : Nat} {finish : List Stmt → Rule Stmt} {trees : List Stmt}
    (isSemicolon : semicolon.kind = .semicolon) (shape : left ++ semicolon :: right = front ++ body)
    (noSemicolon : NoSemicolon front) (isInner : inner ∈ [depth, depth + 2])
    (read : Phrase.Block (DeclarationWithin inner) body trees)
    (hosts : ∀ brace : Token, brace.kind = .leftBrace →
      Hosts depth (front ++ [brace]) inner finish []) :
    Site depth semicolon next back left right := by
  rcases cut_behind isSemicolon shape noSemicolon with ⟨before, rfl, isBlock⟩
  have encloses := encloses_of_block isSemicolon read isBlock hosts
  exact .inside isInner (by simpa using encloses)

end Site

/-- A semicolon of a declaration that is followed by a closing brace or by a keyword is its last
token, or it is in a block of the declaration. A declaration that lacks its last one is
abandoned. -/
theorem site_of_declaration {more : List Token} {tree : Stmt}
    (read : DeclarationWithin (depth + 5) (left ++ semicolon :: right) tree)
    (isSemicolon : semicolon.kind = .semicolon) (closed : right ++ more = next :: back)
    (isCloser : next.kind ∈ closerKinds) : Site depth semicolon next back left right := by
  have made := madeOf_expression (depth + 2)
  have starts := startsIn_expressionWithin (depth + 2)
  have notFollowed : ¬ Follows closerKinds (right ++ more) := by
    rw [closed]
    exact fun follows => follows next rfl isCloser
  generalize shape : left ++ semicolon :: right = tokens at read
  cases read with
  | var declaration =>
      cases declaration with
      | @plain keyword name last isVar isIdentifier =>
          have whole : left ++ semicolon :: right = [keyword, name] ++ [last] := shape
          exact .of_last isSemicolon whole (by simp [isVar, isIdentifier])
            (by simp [semicolonFaults]) (abandons_var isCloser isVar isIdentifier)
      | initialized isVar isIdentifier isEqual value =>
          exact .of_last isSemicolon shape
            (by simp [isVar, isIdentifier, isEqual, made.noSemicolon value])
            (by simp [semicolonFaults])
            (abandons_initialized isCloser isVar isIdentifier isEqual value)
  | print isPrint value =>
      exact .of_last isSemicolon shape (by simp [isPrint, made.noSemicolon value])
        (by simp [semicolonFaults]) (abandons_print isCloser isPrint value)
  | @breakLoop keyword last isBreak =>
      have whole : left ++ semicolon :: right = [keyword] ++ [last] := shape
      exact .of_last isSemicolon whole (by simp [isBreak]) (by simp [semicolonFaults])
        (abandons_break isCloser isBreak)
  | @continueLoop keyword last isContinue =>
      have whole : left ++ semicolon :: right = [keyword] ++ [last] := shape
      exact .of_last isSemicolon whole (by simp [isContinue]) (by simp [semicolonFaults])
        (abandons_continue isCloser isContinue)
  | returnValue isReturn given =>
      rcases abandons_return isCloser isReturn given with ⟨fault, isFault, abandons⟩
      have included : [GrammarFault.expected "';' after return value", .expected "expression",
          .tooDeep] ⊆ semicolonFaults := by
        simp [semicolonFaults]
      exact .of_last isSemicolon shape (by simp [isReturn, made.optional.noSemicolon given])
        (included isFault) abandons
  | expression statement =>
      rcases statement with ⟨value, -⟩
      exact .of_last isSemicolon shape (made.noSemicolon value) (by simp [semicolonFaults])
        (abandons_statement isCloser value)
  | block read =>
      exact .of_block isSemicolon (shape.trans (List.nil_append _).symm) noSemicolon_nil (by simp)
        read fun _ => hosts_block
  | function isFun isIdentifier isLeft items isRight read =>
      rename_i keyword name paren close parameters body names trees
      have whole : left ++ semicolon :: right =
          (keyword :: name :: paren :: parameters ++ [close]) ++ body := by
        simpa using shape
      have noSemicolon := MadeOf.parameter.items.noSemicolon items
      exact .of_block isSemicolon whole
        (by simp [isFun, isIdentifier, isLeft, isRight, noSemicolon]) (by simp) read fun _ =>
          hosts_function isFun isIdentifier isLeft items isRight
  | ifThen isIf tested thenBlock =>
      exact .of_block isSemicolon shape (by simp [isIf, made.condition.noSemicolon tested])
        (by simp) thenBlock fun _ => hosts_then isIf tested
  | ifElse isIf tested thenBlock isElse elseBlock =>
      rename_i keyword otherwise condition first second _ _ _
      rcases cut_append shape with ⟨others, isThen, rfl⟩ | ⟨others, rfl, isSecond⟩
      · rcases cut_behind isSemicolon isThen.symm (by
          simp [isIf, made.condition.noSemicolon tested]) with ⟨before, rfl, isBlock⟩
        have encloses := encloses_of_block isSemicolon thenBlock isBlock fun _ isBrace =>
          hosts_thenElse isIf tested isBrace isElse elseBlock
        exact .inside List.mem_cons_self encloses
      · have whole : others ++ semicolon :: right = [otherwise] ++ second := isSecond.symm
        rcases cut_behind isSemicolon whole (by simp [isElse]) with ⟨before, rfl, isBlock⟩
        have encloses := encloses_of_block isSemicolon elseBlock isBlock fun _ isBrace =>
          hosts_else isIf tested thenBlock isElse isBrace
        exact .inside List.mem_cons_self (by simpa using encloses)
  | whileLoop isWhile tested read =>
      exact .of_block isSemicolon shape (by simp [isWhile, made.condition.noSemicolon tested])
        (by simp) read fun _ => hosts_while isWhile tested
  | forLoop isFor isLeft started tested isMiddle stepped isRight read =>
      rcases cut_forLoop made starts isSemicolon isFor isLeft started tested isMiddle stepped
        isRight shape notFollowed with ⟨before, rfl, isBlock⟩
      have encloses := encloses_of_block isSemicolon read isBlock fun _ isBrace =>
        hosts_for isFor isLeft started tested isMiddle stepped isRight isBrace
      exact .inside List.mem_cons_self (by simpa using encloses)

end Grammar

end LoxLang

import LoxLang.Proofs.Readings

/-!
# Accounts of statements

Where a declaration was given up, there is a hole in the tree. `Grammar.Accounted` tells the holes
with a cause from the missing initializers of `for` loops, which look the same in a tree that has
been spelled out: it relates statements to the tokens that were read for them and to the diagnostics
that caused their holes. The rules for statements keep the account `Grammar.Told`, by which the
causes are among the diagnostics that were queued meanwhile, each for one hole, and the tokens in a
tree are among those that were read.
-/

namespace LoxLang

namespace Stmt

/-- Whether a statement has no statements inside. -/
def IsSimple : Stmt → Prop
  | .expression _ | .print _ | .var _ _ | .breakLoop _ | .continueLoop _ | .returnValue _ _ => True
  | _ => False

/-- Whether a statement has no hole inside, apart from the missing initializers of spelled-out `for`
loops. -/
inductive Filled : Stmt → Prop
  | simple {statement : Stmt} (isSimple : statement.IsSimple) : Filled statement
  | block {statements : List Stmt} (all : ∀ statement ∈ statements, Filled statement) :
      Filled (.block statements)
  | ifElse {condition : Expr} {thenBranch : Stmt} {elseBranch : Option Stmt}
      (thenFilled : Filled thenBranch) (elseFilled : ∀ branch ∈ elseBranch, Filled branch) :
      Filled (.ifElse condition thenBranch elseBranch)
  | whileLoop {condition : Expr} {body : Stmt} {increment : Option Expr}
      (bodyFilled : Filled body) : Filled (.whileLoop condition body increment)
  | withoutInitializer {condition increment : Option Expr} {body : Stmt}
      (bodyFilled : Filled body) : Filled (desugarFor none condition increment body)
  | function {name : Token} {parameters : List Token} {body : List Stmt}
      (all : ∀ statement ∈ body, Filled statement) : Filled (.function name parameters body)

theorem allTokens_append (left right : List Stmt) :
    allTokens (left ++ right) = allTokens left ++ allTokens right := by
  induction left with
  | nil => rfl
  | cons statement rest ih => rw [List.cons_append, allTokens, allTokens, ih, List.append_assoc]

theorem desugarFor_tokens (initializer : Option Stmt) (condition increment : Option Expr)
    (body : Stmt) :
    (desugarFor initializer condition increment body).tokens = optionalTokens initializer ++
      (Expr.optionalTokens condition ++ (body.tokens ++ Expr.optionalTokens increment)) := by
  cases initializer <;> cases condition <;>
    simp [desugarFor, tokens, allTokens, optionalTokens, Expr.optionalTokens, Expr.tokens]

end Stmt

namespace Grammar

open Rule

/-! ## Where holes come from -/

/-- `Accounted ending tokens causes trees` says how statements came about: which tokens were read
for them, and which diagnostics are the causes of their holes, in order. For a hole, this is a
diagnostic at one of the tokens that were read for it or skipped, or at the end of the text. The
missing initializer of a `for` loop is not such a hole. -/
inductive Accounted (ending : Token) : List Token → List Diagnostic → List Stmt → Prop
  | none : Accounted ending [] [] []
  | append {tokens others : List Token} {causes later : List Diagnostic} {trees rest : List Stmt}
      (first : Accounted ending tokens causes trees) (second : Accounted ending others later rest) :
      Accounted ending (tokens ++ others) (causes ++ later) (trees ++ rest)
  | hole {tokens : List Token} {token : Token} (isToken : token ∈ tokens ++ [ending])
      (fault : GrammarFault) :
      Accounted ending tokens [.atToken token "Parser" fault.message] [.hole]
  | simple {tokens : List Token} {tree : Stmt} (isSimple : tree.IsSimple) :
      Accounted ending tokens [] [tree]
  | block {left right : Token} {tokens : List Token} {causes : List Diagnostic} {trees : List Stmt}
      (isLeft : left.kind = .leftBrace) (inner : Accounted ending tokens causes trees)
      (isRight : right.kind = .rightBrace) :
      Accounted ending (left :: (tokens ++ [right])) causes [.block trees]
  | function {keyword name left right : Token} {parameters head tokens : List Token}
      {causes : List Diagnostic} {trees : List Stmt} (isFun : keyword.kind = .funWord)
      (isLeft : left.kind = .leftBrace) (inner : Accounted ending tokens causes trees)
      (isRight : right.kind = .rightBrace) :
      Accounted ending (keyword :: (head ++ left :: (tokens ++ [right]))) causes
        [.function name parameters trees]
  | ifThen {keyword left right : Token} {head tokens : List Token} {causes : List Diagnostic}
      {condition : Expr} {trees : List Stmt} (isIf : keyword.kind = .ifWord)
      (isLeft : left.kind = .leftBrace) (inner : Accounted ending tokens causes trees)
      (isRight : right.kind = .rightBrace) :
      Accounted ending (keyword :: (head ++ left :: (tokens ++ [right]))) causes
        [.ifElse condition (.block trees) none]
  | ifElse {keyword left right otherwise left' right' : Token} {head tokens others : List Token}
      {causes later : List Diagnostic} {condition : Expr} {trees rest : List Stmt}
      (isIf : keyword.kind = .ifWord) (isLeft : left.kind = .leftBrace)
      (inner : Accounted ending tokens causes trees) (isRight : right.kind = .rightBrace)
      (isElse : otherwise.kind = .elseWord) (isLeft' : left'.kind = .leftBrace)
      (inner' : Accounted ending others later rest) (isRight' : right'.kind = .rightBrace) :
      Accounted ending
        (keyword :: (head ++
          left :: (tokens ++ right :: otherwise :: left' :: (others ++ [right']))))
        (causes ++ later) [.ifElse condition (.block trees) (some (.block rest))]
  | whileLoop {keyword left right : Token} {head tokens : List Token} {causes : List Diagnostic}
      {condition : Expr} {trees : List Stmt} (isWhile : keyword.kind = .whileWord)
      (isLeft : left.kind = .leftBrace) (inner : Accounted ending tokens causes trees)
      (isRight : right.kind = .rightBrace) :
      Accounted ending (keyword :: (head ++ left :: (tokens ++ [right]))) causes
        [.whileLoop condition (.block trees) none]
  | forLoop {keyword left right : Token} {head tokens : List Token} {causes : List Diagnostic}
      {initializer : Option Stmt} {condition increment : Option Expr} {trees : List Stmt}
      (isFor : keyword.kind = .forWord) (isSimple : ∀ statement ∈ initializer, statement.IsSimple)
      (isLeft : left.kind = .leftBrace) (inner : Accounted ending tokens causes trees)
      (isRight : right.kind = .rightBrace) :
      Accounted ending (keyword :: (head ++ left :: (tokens ++ [right]))) causes
        [Stmt.desugarFor initializer condition increment (.block trees)]

/-- Where there is no cause for a hole, there is none. -/
theorem Accounted.filled {ending : Token} {tokens : List Token} {causes : List Diagnostic}
    {trees : List Stmt} (accounted : Accounted ending tokens causes trees) (noCause : causes = []) :
    ∀ tree ∈ trees, tree.Filled := by
  induction accounted with
  | none => simp
  | append _ _ ihFirst ihSecond =>
      rcases List.append_eq_nil_iff.mp noCause with ⟨noFirst, noSecond⟩
      exact List.forall_mem_append.mpr ⟨ihFirst noFirst, ihSecond noSecond⟩
  | hole => cases noCause
  | simple isSimple => exact List.forall_mem_singleton.mpr (.simple isSimple)
  | block _ _ _ ih => exact List.forall_mem_singleton.mpr (.block (ih noCause))
  | function _ _ _ _ ih => exact List.forall_mem_singleton.mpr (.function (ih noCause))
  | ifThen _ _ _ _ ih => exact List.forall_mem_singleton.mpr (.ifElse (.block (ih noCause)) nofun)
  | ifElse _ _ _ _ _ _ _ _ ih ih' =>
      rcases List.append_eq_nil_iff.mp noCause with ⟨noFirst, noSecond⟩
      refine List.forall_mem_singleton.mpr (.ifElse (.block (ih noFirst)) ?_)
      rintro _ ⟨⟩
      exact .block (ih' noSecond)
  | whileLoop _ _ _ _ ih => exact List.forall_mem_singleton.mpr (.whileLoop (.block (ih noCause)))
  | @forLoop _ _ _ _ _ _ initializer _ _ _ _ isSimple _ _ _ ih =>
      refine List.forall_mem_singleton.mpr ?_
      have loopFilled := Stmt.Filled.block (ih noCause)
      cases initializer with
      | none => exact .withoutInitializer loopFilled
      | some initializer =>
          refine .block fun statement isStatement => ?_
          rcases List.mem_pair.mp isStatement with rfl | rfl
          · exact .simple (isSimple _ rfl)
          · exact .whileLoop loopFilled

/-! ## Accounts of statements -/

/-- The account of some statements: their tokens are among those that were read, and each of their
holes has a cause of its own among the new diagnostics. -/
def Told (ending : Token) : Account (List Stmt) := fun read new trees =>
  Stmt.allTokens trees ⊆ read ∧ ∃ causes, Accounted ending read causes trees ∧ causes.Sublist new

/-- The account of a statement that has no statements inside. -/
def Simply : Account Stmt := fun read _ tree => tree.IsSimple ∧ tree.tokens ⊆ read

/-- The account of a statement that is no hole itself. -/
def Given (ending : Token) : Account Stmt := fun read new tree =>
  tree ≠ .hole ∧ Told ending read new [tree]

/-- The account of a statement by a rule that starts behind its keyword. -/
def Behind (kind : TokenKind) (ending : Token) : Account Stmt := fun read new tree =>
  ∀ keyword, keyword.kind = kind → Given ending (keyword :: read) new tree

/-- The account of statements in braces. -/
def Braced (ending : Token) : Account (List Stmt) := fun read new trees =>
  ∃ left inner right, left.kind = .leftBrace ∧ right.kind = .rightBrace ∧
    read = left :: (inner ++ [right]) ∧ Told ending inner new trees

/-- Whether a rule gives declarations with an account, and reads something unless there is
nothing. -/
def Declares (declaration : Rule Stmt) : Prop :=
  ∀ text ending tokens, Behaves text ending tokens declaration fun read new tree =>
    (tokens ≠ [] → read ≠ []) ∧ Told ending read new [tree]

variable {text tokens read : List Token} {ending : Token} {new : List Diagnostic} {tree : Stmt}

@[simp]
theorem allTokens_singleton (tree : Stmt) : Stmt.allTokens [tree] = tree.tokens := by
  simp [Stmt.allTokens]

theorem told_nil (ending : Token) : Told ending [] [] [] :=
  ⟨by simp [Stmt.allTokens], [], .none, .refl _⟩

theorem Told.append {others : List Token} {later : List Diagnostic} {trees rest : List Stmt}
    (first : Told ending read new trees) (second : Told ending others later rest) :
    Told ending (read ++ others) (new ++ later) (trees ++ rest) := by
  rcases first with ⟨included, causes, accounted, caused⟩
  rcases second with ⟨included', causes', accounted', caused'⟩
  refine ⟨?_, causes ++ causes', .append accounted accounted', caused.append caused'⟩
  rw [Stmt.allTokens_append]
  grind

theorem Simply.given (simply : Simply read new tree) {wider : List Token} (isPart : read ⊆ wider)
    (diagnostics : List Diagnostic) : Given ending wider diagnostics tree := by
  refine ⟨?_, ?_, [], .simple simply.1, List.nil_sublist _⟩
  · rintro rfl
    exact simply.1
  · rw [allTokens_singleton]
    exact List.Subset.trans simply.2 isPart

/-! ## Rules for statements -/

section Simple

variable {expression : Rule Expr} (holds : Holds Expr.tokens expression)
include holds

theorem behaves_unlessNext (kind : TokenKind) :
    Behaves text ending tokens (unlessNext kind expression) fun read _ tree =>
      Expr.optionalTokens tree ⊆ read := by
  refine (behaves_isNext _).bind fun nothing _ _ isKind _ _ => ?_
  cases isKind with
  | true => exact .pure (by simp [Expr.optionalTokens])
  | false => exact (holds _ _ _).map fun read _ tree held => by grind [Expr.optionalTokens, Held]

theorem behaves_varDeclaration :
    Behaves text ending tokens (varDeclaration expression) Simply := by
  refine (behaves_expect _ _).bind fun first _ _ name _ isName => ?_
  rcases isName with ⟨-, rfl, -⟩
  refine (behaves_accept _).bind fun accepted _ _ taken _ _ => ?_
  cases taken with
  | none =>
      refine (behaves_expect _ _).map fun expected _ semicolon _ => ⟨trivial, ?_⟩
      simp [Stmt.tokens, Expr.optionalTokens]
  | some equals =>
      have initializer : ∀ {rest}, Behaves text ending rest (some <$> expression) fun read _ tree =>
          Expr.optionalTokens tree ⊆ read :=
        (holds _ _ _).map fun read _ tree held => by grind [Expr.optionalTokens, Held]
      refine initializer.bind fun right _ _ value _ included => ?_
      refine (behaves_expect _ _).map fun expected _ semicolon _ => ⟨trivial, ?_⟩
      rw [Stmt.tokens]
      grind

theorem behaves_expressionStatement :
    Behaves text ending tokens (expressionStatement expression) fun read new tree =>
      read ≠ [] ∧ Simply read new tree := by
  refine (holds _ _ _).bind fun left _ _ value _ held => ?_
  refine (behaves_expect _ _).map fun expected _ semicolon _ => ⟨by simp [held.1], trivial, ?_⟩
  rw [Stmt.tokens]
  grind [Held]

theorem behaves_printStatement :
    Behaves text ending tokens (printStatement expression) Simply := by
  refine (holds _ _ _).bind fun left _ _ value _ held => ?_
  refine (behaves_expect _ _).map fun expected _ semicolon _ => ⟨trivial, ?_⟩
  rw [Stmt.tokens]
  grind [Held]

theorem behaves_condition :
    Behaves text ending tokens (condition expression) fun read _ tree => tree.tokens ⊆ read := by
  refine (behaves_accept _).bind fun accepted _ _ taken _ _ => ?_
  cases taken with
  | none => exact (holds _ _ _).mono fun read _ tree held => by grind [Held]
  | some left =>
      refine (holds _ _ _).bind fun inner _ _ value _ held => ?_
      exact (behaves_expect _ _).map fun expected _ right _ => by grind [Held]

theorem behaves_forInitializer :
    Behaves text ending tokens (forInitializer expression) fun read _ initializer =>
      (∀ statement ∈ initializer, statement.IsSimple) ∧ Stmt.optionalTokens initializer ⊆ read := by
  refine (behaves_accept _).bind fun accepted _ _ taken _ _ => ?_
  cases taken with
  | none =>
      refine (behaves_expressionStatement holds).map fun read _ tree simply => ?_
      exact ⟨by simpa using simply.2.1, by grind [Stmt.optionalTokens, Simply]⟩
  | some token =>
      dsimp only
      split
      · exact .pure ⟨by simp, by simp [Stmt.optionalTokens]⟩
      · refine (behaves_varDeclaration holds).map fun read _ tree simply => ?_
        exact ⟨by simpa using simply.1, by grind [Stmt.optionalTokens, Simply]⟩

theorem behaves_returnStatement (keyword : Token) :
    Behaves text ending tokens (returnStatement keyword expression) fun read new tree =>
      Simply (keyword :: read) new tree := by
  refine (behaves_unlessNext holds _).bind fun left _ _ value _ included => ?_
  refine (behaves_expect _ _).map fun expected _ semicolon _ => ⟨trivial, ?_⟩
  rw [Stmt.tokens]
  grind

end Simple

theorem behaves_loopExit (tree : Stmt) {keyword : Token} (isSimple : tree.IsSimple)
    (isKeyword : tree.tokens ⊆ [keyword]) (word : String) :
    Behaves text ending tokens (loopExit word tree) fun read new tree =>
      Simply (keyword :: read) new tree := by
  refine (behaves_expect _ _).map fun read _ semicolon _ => ⟨isSimple, fun token isToken => ?_⟩
  simp [List.mem_singleton.mp (isKeyword isToken)]

/-- A turn of `block`: a declaration unless the block ends here. -/
def blockTurn (declaration : Rule Stmt) (_ : Nat) : Rule (Option Stmt) := do
  if (← isNext .rightBrace) || (← isAtEnd) then return none else return some (← declaration)

theorem block_eq (declaration : Rule Stmt) :
    block declaration = gathered (blockTurn declaration) 0 >>= fun statements =>
      (fun _ => statements) <$> expect .rightBrace "'\x7d' after block" := rfl

theorem holds_parameter :
    Holds (fun name : Token => [name]) (expect .identifier "parameter name") := by
  intro text ending tokens
  refine (behaves_expect _ _).mono fun read _ name isName => ?_
  rcases isName with ⟨-, rfl, -⟩
  exact ⟨by simp, by simp⟩

section Blocks

variable {declaration : Rule Stmt} (declares : Declares declaration)
include declares

theorem behaves_blockTurn (index : Nat) :
    Behaves text ending tokens (blockTurn declaration index)
      (Turn fun read new tree => Told ending read new [tree]) := by
  refine (behaves_isNext _).bind fun nothing middle _ isRight isTokens quiet => ?_
  rcases quiet with ⟨rfl, rfl⟩
  refine behaves_isAtEnd.bind fun nothing rest _ isEnd isMiddle quiet => ?_
  rcases quiet with ⟨rfl, rfl, rfl⟩
  have same : middle = rest := isMiddle
  subst same
  split
  · exact .pure ⟨rfl, rfl⟩
  · next goesOn =>
      have someLeft : middle ≠ [] := by
        rintro rfl
        simp at goesOn
      exact (declares _ _ _).map fun read new tree told => ⟨told.1 someLeft, told.2⟩

theorem turning_blockTurn : Turning (blockTurn declaration) :=
  turning_of_behaves (fun _ _ _ => rfl) fun index _ _ _ =>
    (behaves_blockTurn declares index).turn fun _ _ _ _ => trivial

theorem behaves_block :
    Behaves text ending tokens (block declaration) fun read new trees =>
      ∀ left, left.kind = .leftBrace → Braced ending (left :: read) new trees := by
  rw [block_eq]
  have statements : Behaves text ending tokens (gathered (blockTurn declaration) 0) (Told ending) :=
    behaves_gathered (turning_blockTurn declares) _ (told_nil ending) (fun index tokens =>
      (behaves_blockTurn declares index).turn fun read new tree told others later trees rest =>
        told.append rest) 0 tokens
  refine statements.bind fun inner _ new trees _ told => ?_
  refine (behaves_expect _ _).map fun expected later right isRight left isLeft => ?_
  rcases isRight with ⟨rfl, rfl, isRight⟩
  rw [List.append_nil]
  exact ⟨left, inner, right, isLeft, isRight, rfl, told⟩

theorem behaves_bracedBlock (phrase : String) :
    Behaves text ending tokens (bracedBlock phrase declaration) fun read new tree =>
      ∃ trees, tree = .block trees ∧ Braced ending read new trees := by
  refine (behaves_expect _ _).bind fun expected _ _ left _ isLeft => ?_
  rcases isLeft with ⟨rfl, rfl, isLeft⟩
  exact (behaves_block declares).map fun read new trees braced => ⟨trees, rfl, braced left isLeft⟩

theorem behaves_functionDeclaration :
    Behaves text ending tokens (functionDeclaration declaration) (Behind .funWord ending) := by
  refine (behaves_expect _ _).bind fun first _ _ name _ isName => ?_
  rcases isName with ⟨rfl, rfl, -⟩
  refine (behaves_expect _ _).bind fun second _ _ left _ isLeft => ?_
  rcases isLeft with ⟨rfl, -⟩
  refine (behaves_listed holds_parameter _).bind fun inner _ reported parameters _ included => ?_
  refine (behaves_expect _ _).bind fun third _ _ right _ isRight => ?_
  rcases isRight with ⟨rfl, -⟩
  refine (behaves_expect _ _).bind fun fourth _ _ brace _ isBrace => ?_
  rcases isBrace with ⟨rfl, rfl, isBrace⟩
  refine (behaves_block declares).map fun read new trees braced keyword isFun => ?_
  rcases braced brace isBrace with ⟨_, body, closing, isLeft, isRight, shape, told⟩
  rcases List.cons_eq_cons.mp shape with ⟨rfl, rfl⟩
  rcases told with ⟨isBody, causes, accounted, caused⟩
  refine ⟨by simp, ?_, causes, ?_, ?_⟩
  · rw [List.flatMap_singleton'] at included
    intro token isToken
    simp only [allTokens_singleton, Stmt.tokens, List.mem_cons, List.mem_append] at isToken ⊢
    rcases isToken with rfl | isParameter | isInBody
    · simp
    · simp [included isParameter]
    · simp [isBody isInBody]
  · have function : Accounted ending
        (keyword :: (name :: (second ++ (inner ++ third)) ++ brace :: (body ++ [closing]))) causes
        [.function name parameters trees] := .function isFun isLeft accounted isRight
    simpa using function
  · simpa using List.Sublist.trans caused (List.sublist_append_right reported new)

end Blocks

section Compounds

variable {expression : Rule Expr} {nested : Rule Stmt} (holds : Holds Expr.tokens expression)
  (declares : Declares nested)
include holds declares

theorem behaves_ifStatement :
    Behaves text ending tokens (ifStatement expression nested) (Behind .ifWord ending) := by
  refine (behaves_condition holds).bind fun head _ reported condition _ tested => ?_
  refine (behaves_bracedBlock declares _).bind fun first _ new thenBranch _ thenBraced => ?_
  rcases thenBraced with ⟨trees, rfl, left, inner, right, isLeft, isRight, rfl, told⟩
  rcases told with ⟨isThen, causes, accounted, caused⟩
  have isSublist := List.Sublist.trans caused (List.sublist_append_right reported new)
  refine (behaves_accept _).bind fun taken _ _ otherwise _ isElse => ?_
  rcases isElse with ⟨rfl, isElse⟩
  cases otherwise with
  | none =>
      rcases (isElse : taken = [])
      refine .pure fun keyword isIf => ⟨by simp, ?_, causes, ?_, ?_⟩
      · intro token isToken
        simp only [allTokens_singleton, Stmt.tokens, Stmt.optionalTokens, List.mem_append]
          at isToken
        rcases isToken with isTested | isInThen | isInElse
        · simp [tested isTested]
        · simp [isThen isInThen]
        · simp at isInElse
      · simpa using Accounted.ifThen isIf isLeft accounted isRight
      · simpa using isSublist
  | some otherwise =>
      rcases isElse with ⟨rfl, isElse⟩
      have elseBranch : ∀ {rest}, Behaves text ending rest (some <$> bracedBlock "'else'" nested)
          fun read new tree => ∃ trees, tree = some (.block trees) ∧ Braced ending read new trees :=
        (behaves_bracedBlock declares _).map fun read new tree braced => by simpa using braced
      refine elseBranch.bind fun second _ later elseBranch _ elseBraced => .pure ?_
      rcases elseBraced with ⟨others, rfl, left', inner', right', isLeft', isRight', rfl, told'⟩
      rcases told' with ⟨isElseBranch, causes', accounted', caused'⟩
      refine fun keyword isIf => ⟨by simp, ?_, causes ++ causes', ?_, ?_⟩
      · intro token isToken
        simp only [allTokens_singleton, Stmt.tokens, Stmt.optionalTokens, List.mem_append]
          at isToken
        rcases isToken with isTested | isInThen | isInElse
        · simp [tested isTested]
        · simp [isThen isInThen]
        · simp [isElseBranch isInElse]
      · simpa using Accounted.ifElse isIf isLeft accounted isRight (List.mem_singleton.mp isElse)
          isLeft' accounted' isRight'
      · simpa using isSublist.append caused'

theorem behaves_whileStatement :
    Behaves text ending tokens (whileStatement expression nested) (Behind .whileWord ending) := by
  refine (behaves_condition holds).bind fun head _ reported condition _ tested => ?_
  refine (behaves_bracedBlock declares _).map fun read new tree braced keyword isWhile => ?_
  rcases braced with ⟨trees, rfl, left, inner, right, isLeft, isRight, rfl, told⟩
  rcases told with ⟨isBody, causes, accounted, caused⟩
  refine ⟨by simp, ?_, causes, .whileLoop isWhile isLeft accounted isRight, ?_⟩
  · intro token isToken
    simp only [allTokens_singleton, Stmt.tokens, Expr.optionalTokens, List.mem_append] at isToken
    rcases isToken with isTested | isInBody | isInIncrement
    · simp [tested isTested]
    · simp [isBody isInBody]
    · simp at isInIncrement
  · exact List.Sublist.trans caused (List.sublist_append_right reported new)

theorem behaves_forStatement :
    Behaves text ending tokens (forStatement expression nested) (Behind .forWord ending) := by
  refine (behaves_expect _ _).bind fun opening _ _ left _ isLeft => ?_
  rcases isLeft with ⟨rfl, -⟩
  refine (behaves_forInitializer holds).bind fun first _ reported initializer _ started => ?_
  refine (behaves_unlessNext holds _).bind fun second _ reported' condition _ tested => ?_
  refine (behaves_expect _ _).bind fun middle _ _ semicolon _ isSemicolon => ?_
  rcases isSemicolon with ⟨rfl, -⟩
  refine (behaves_unlessNext holds _).bind fun third _ reported'' increment _ stepped => ?_
  refine (behaves_expect _ _).bind fun closing _ _ right _ isRight => ?_
  rcases isRight with ⟨rfl, -⟩
  refine (behaves_bracedBlock declares _).map fun read new tree braced keyword isFor => ?_
  rcases braced with ⟨trees, rfl, brace, inner, brace', isLeft, isRight, rfl, told⟩
  rcases told with ⟨isBody, causes, accounted, caused⟩
  refine ⟨by simp [Stmt.desugarFor], ?_, causes, ?_, ?_⟩
  · intro token isToken
    simp only [allTokens_singleton, Stmt.desugarFor_tokens, Stmt.tokens, List.mem_append] at isToken
    rcases isToken with isStarted | isTested | isInBody | isStepped
    · simp [started.2 isStarted]
    · simp [tested isTested]
    · simp [isBody isInBody]
    · simp [stepped isStepped]
  · have loop : Accounted ending (keyword :: (opening ++ (first ++ (second ++ (middle ++ (third ++
        closing)))) ++ brace :: (inner ++ [brace']))) causes
        [Stmt.desugarFor initializer condition increment (.block trees)] :=
      .forLoop isFor started.1 isLeft accounted isRight
    simpa using loop
  · have isSublist := List.Sublist.trans caused
      (List.sublist_append_right (reported ++ (reported' ++ reported'')) new)
    simpa using isSublist

end Compounds

theorem behaves_declarationRule {expression : Rule Expr} {declaration nested : Rule Stmt}
    (holds : Holds Expr.tokens expression) (declares : Declares declaration)
    (declaresNested : Declares nested) :
    Behaves text ending tokens (declarationRule expression declaration nested) fun read new tree =>
      read ≠ [] ∧ Given ending read new tree := by
  refine (behaves_accept _).bind fun accepted _ _ taken _ isAccepted => ?_
  rcases isAccepted with ⟨rfl, isAccepted⟩
  cases taken with
  | none =>
      rcases (isAccepted : accepted = [])
      exact (behaves_expressionStatement holds).mono fun read new tree simply =>
        ⟨simply.1, simply.2.given (List.Subset.refl _) _⟩
  | some keyword =>
      rcases isAccepted with ⟨rfl, -⟩
      have keep : ∀ {rule rest}, Behaves text ending rest rule (fun read new tree =>
            Given ending (keyword :: read) new tree) →
          Behaves text ending rest rule fun read new tree =>
            [keyword] ++ read ≠ [] ∧ Given ending ([keyword] ++ read) ([] ++ new) tree :=
        fun behaves => behaves.mono fun read new tree given => ⟨by simp, given⟩
      dsimp only
      split <;> refine keep ?_
      · exact (behaves_varDeclaration holds).mono fun read new tree simply =>
          simply.given (List.subset_cons_self _ _) _
      · next isFun =>
          exact (behaves_functionDeclaration declares).mono fun read new tree given =>
            given keyword isFun
      · exact (behaves_printStatement holds).mono fun read new tree simply =>
          simply.given (List.subset_cons_self _ _) _
      · next isLeft =>
          refine (behaves_block declares).map fun read new trees braced => ?_
          rcases braced keyword isLeft with ⟨_, inner, right, _, isRight, shape, told⟩
          rcases told with ⟨included, causes, accounted, caused⟩
          rw [shape]
          refine ⟨by simp, ?_, causes, .block ‹_› accounted isRight, caused⟩
          rw [allTokens_singleton, Stmt.tokens]
          exact fun token isToken => by simp [included isToken]
      · next isIf =>
          exact (behaves_ifStatement holds declaresNested).mono fun read new tree given =>
            given keyword isIf
      · next isWhile =>
          exact (behaves_whileStatement holds declaresNested).mono fun read new tree given =>
            given keyword isWhile
      · next isFor =>
          exact (behaves_forStatement holds declaresNested).mono fun read new tree given =>
            given keyword isFor
      · exact (behaves_loopExit (.breakLoop keyword) trivial (by simp [Stmt.tokens]) _).mono
          fun read new tree simply => simply.given (List.Subset.refl _) _
      · exact (behaves_loopExit (.continueLoop keyword) trivial (by simp [Stmt.tokens]) _).mono
          fun read new tree simply => simply.given (List.Subset.refl _) _
      · exact (behaves_returnStatement holds keyword).mono fun read new tree simply =>
          simply.given (List.Subset.refl _) _

end Grammar

end LoxLang

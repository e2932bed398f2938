import LoxLang.Proofs.Abandonment

/-!
# Declarations that enclose others

Functions, blocks, branches and loops enclose the declarations of a block. What is reported in one
of these is reported first of all by the declaration around it, and the declaration around it is
read to its end if parsing goes on at the start of a later one of them.
-/

namespace LoxLang

namespace Rule

variable {α : Type}

/-- The diagnostics when a rule is done or abandoned. -/
def reported : EStateM.Result Panic Cursor α → List Diagnostic
  | .ok _ cursor | .error _ cursor => cursor.diagnostics

end Rule

namespace Grammar

open Rule

variable {α β : Type} {before middle after tokens rest : List Token} {diagnostic : Diagnostic}
  {depth : Nat}

/-! ## Reports of a rule -/

/-- Whether a rule only adds diagnostics. -/
def Grows (rule : Rule α) : Prop :=
  ∀ cursor, ∃ new, reported (rule cursor) = cursor.diagnostics ++ new

theorem Sound.grows {rule : Rule α} {phrase : Phrase α} (sound : Sound rule phrase) :
    Grows rule := by
  intro cursor
  have kept := sound cursor
  cases result : rule cursor <;> rw [result] at kept <;> rcases kept with ⟨new, grown, -⟩ <;>
    exact ⟨new, grown⟩

theorem Grows.pure (value : α) : Grows (Pure.pure value) :=
  fun _ => ⟨[], (List.append_nil _).symm⟩

theorem Grows.bind {first : Rule α} {next : α → Rule β} (grows : Grows first)
    (continues : ∀ value, Grows (next value)) : Grows (first >>= next) := by
  intro cursor
  rcases grows cursor with ⟨new, grown⟩
  cases result : first cursor with
  | error panic middle =>
      rw [bind_of_error result]
      rw [result] at grown
      exact ⟨new, grown⟩
  | ok value middle =>
      rw [bind_of_ok result]
      rw [result] at grown
      rcases continues value middle with ⟨later, grownLater⟩
      refine ⟨new ++ later, ?_⟩
      rw [grownLater, ← List.append_assoc]
      exact congrArg (· ++ later) grown

theorem Grows.map {rule : Rule α} (change : α → β) (grows : Grows rule) : Grows (change <$> rule) :=
  grows.bind fun value => .pure (change value)

/-- Whether the first diagnostic that a rule adds is a given one. -/
def Reports (diagnostic : Diagnostic) (rule : Rule α) (before : List Token) : Prop :=
  ∀ ending earlier, ∃ new,
    reported (rule ⟨before, ending, earlier⟩) = earlier ++ diagnostic :: new

theorem Reports.bind {first : Rule α} {next : α → Rule β}
    (reports : Reports diagnostic first before) (grows : ∀ value, Grows (next value)) :
    Reports diagnostic (first >>= next) before := by
  intro ending earlier
  rcases reports ending earlier with ⟨new, isFirst⟩
  cases result : first ⟨before, ending, earlier⟩ with
  | error panic middle =>
      rw [bind_of_error result]
      rw [result] at isFirst
      exact ⟨new, isFirst⟩
  | ok value middle =>
      rw [bind_of_ok result]
      rw [result] at isFirst
      rcases grows value middle with ⟨later, grown⟩
      refine ⟨new ++ later, ?_⟩
      rw [grown, show middle.diagnostics = earlier ++ diagnostic :: new from isFirst]
      simp

theorem Leads.reports {rule other : Rule α} (leads : Leads rule before other after)
    (reports : Reports diagnostic other after) : Reports diagnostic rule before := by
  intro ending earlier
  rw [leads ending earlier]
  exact reports ending earlier

/-- Whether a rule reads `before` up to `after` with one diagnostic. -/
def Recovers (diagnostic : Diagnostic) (rule : Rule α) (before after : List Token) : Prop :=
  ∃ tree, ∀ ending earlier,
    rule ⟨before, ending, earlier⟩ = .ok tree ⟨after, ending, earlier ++ [diagnostic]⟩

theorem Recovers.reports {rule : Rule α} (recovers : Recovers diagnostic rule before after) :
    Reports diagnostic rule before := by
  rcases recovers with ⟨tree, recovered⟩
  exact fun ending earlier => ⟨[], by rw [recovered]; rfl⟩

theorem Recovers.bind {first : Rule α} {next : α → Rule β}
    (recovers : Recovers diagnostic first before middle)
    (continues : ∀ value, ∃ tree, Reads False (next value) middle tree after) :
    Recovers diagnostic (first >>= next) before after := by
  rcases recovers with ⟨value, recovered⟩
  rcases continues value with ⟨tree, reads⟩
  refine ⟨tree, fun ending earlier => ?_⟩
  rw [bind_of_ok (recovered ending earlier)]
  exact (reads ending _).resolve_right And.left

theorem Leads.recovers {rule other : Rule α} {final : List Token}
    (leads : Leads rule before other after) (recovers : Recovers diagnostic other after final) :
    Recovers diagnostic rule before final := by
  rcases recovers with ⟨tree, recovered⟩
  exact ⟨tree, fun ending earlier => (leads ending earlier).trans (recovered ending earlier)⟩

theorem Leads.reads {rule other : Rule α} {tree : α} {final : List Token}
    (leads : Leads rule before other after) (reads : Reads False other after tree final) :
    Reads False rule before tree final := by
  intro ending diagnostics
  rw [leads ending diagnostics]
  exact reads ending diagnostics

theorem Leads.map {rule other : Rule α} (change : α → β) (leads : Leads rule before other after) :
    Leads (change <$> rule) before (change <$> other) after :=
  leads.bind _

/-! ## The statements of a block -/

/-- The statements of a block up to its closing brace. -/
def statements (declaration : Rule Stmt) : Rule (List Stmt) :=
  gathered (blockTurn declaration) 0

theorem gathered_blockTurn (declaration : Rule Stmt) (index : Nat) :
    gathered (blockTurn declaration) index = statements declaration := by
  have same : ∀ bound index,
      collect (blockTurn declaration) bound index = collect (blockTurn declaration) bound 0 := by
    intro bound
    induction bound with
    | nil => exact fun _ => rfl
    | cons _ bound ih =>
        intro index
        simp only [collect, ih (index + 1), ih (0 + 1)]
        rfl
  funext cursor
  exact congrFun (same cursor.rest index) cursor

theorem statements_eq (depth : Nat) :
    statements (declaration depth) = blockTurn (declaration depth) 0 >>= fun taken =>
      taken.elim (pure []) fun tree => (tree :: ·) <$> statements (declaration depth) := by
  have turned := gathered_eq (turning_blockTurn (declares_declaration depth)) 0
  simpa only [gathered_blockTurn] using turned

theorem grows_statements {declaration : Rule Stmt} (grows : Grows declaration) :
    Grows (statements declaration) := by
  have grows : ∀ bound index, Grows (collect (blockTurn declaration) bound index) := by
    intro bound
    induction bound with
    | nil => exact fun _ => .pure []
    | cons _ bound ih =>
        intro index
        refine Grows.bind ?_ fun taken => ?_
        · refine (sound_isNext _).grows.bind fun isRight => sound_isAtEnd.grows.bind fun isEnd => ?_
          split
          · exact .pure none
          · exact grows.map some
        · cases taken with
          | none => exact .pure []
          | some tree => exact (ih (index + 1)).map _
  exact fun cursor => grows cursor.rest 0 cursor

/-- A statement of a block and those behind it. -/
theorem leads_statement (starts : ∃ first others, tokens = first :: others ∧
      first.kind ∈ keywordKinds ++ operandKinds) :
    Leads (statements (declaration depth)) tokens (declaration depth >>= fun tree =>
      (tree :: ·) <$> statements (declaration depth)) tokens := by
  rcases starts with ⟨first, others, rfl, isStart⟩
  have noBrace : Follows [.rightBrace] (first :: others) := .of_mem isStart (by decide) _
  have turn : Leads (blockTurn (declaration depth) 0) (first :: others)
      (some <$> declaration depth) (first :: others) := by
    refine (reads_isNext_false noBrace).leads (reads_isAtEnd.leads ?_)
    exact .refl _ _
  have next := turn.bind fun taken => taken.elim (pure []) fun tree =>
    (tree :: ·) <$> statements (declaration depth)
  rw [bind_map_left] at next
  intro ending diagnostics
  rw [congrFun (statements_eq depth)]
  exact next ending diagnostics

/-- Statements of a block that are read, and those behind them. -/
theorem leads_statements {trees : List Stmt}
    (many : Phrase.Many (DeclarationWithin depth) tokens trees)
    (follows : Follows [.elseWord] rest) :
    Leads (statements (declaration depth)) (tokens ++ rest)
      ((trees ++ ·) <$> statements (declaration depth)) rest := by
  induction many with
  | done => simpa using Leads.refl (statements (declaration depth)) rest
  | @more first others tree trees read others' ih =>
      have next : Follows [.elseWord] (others ++ rest) :=
        follows.many (startsIn_declarationWithin depth) (by decide) others'
      rw [List.append_assoc]
      refine (leads_statement ((startsIn_declarationWithin depth).append read _)).trans ?_
      refine (complete_declarationWithin depth _ _ _ read next).leads ?_
      simpa using ih.map (tree :: ·)

/-- The last statements of a block. -/
theorem reads_statements {trees : List Stmt} {right : Token}
    (many : Phrase.Many (DeclarationWithin depth) tokens trees) (isRight : right.kind = .rightBrace)
    (rest : List Token) :
    Reads False (statements (declaration depth)) (tokens ++ right :: rest) trees
      (right :: rest) := by
  have stop : Reads False (blockTurn (declaration depth) 0) (right :: rest) none
      (right :: rest) := by
    refine (reads_isNext_true isRight).bind (reads_isAtEnd.bind ?_)
    exact .pure none _
  have ended : Reads False (statements (declaration depth)) (right :: rest) [] (right :: rest) := by
    rw [statements_eq]
    exact stop.bind (.pure [] _)
  have noElse : Follows [.elseWord] (right :: rest) := .cons (by simp [isRight])
  simpa using (leads_statements many noElse).reads (ended.map (trees ++ ·))

/-! ## Enclosing declarations -/

/-- `Hosts depth head inner finish tail` says what a declaration is that has a block in it: tokens
up to behind the opening brace, the block, and tokens behind its closing brace, where another rule
finishes the declaration. -/
structure Hosts (depth : Nat) (head : List Token) (inner : Nat) (finish : List Stmt → Rule Stmt)
    (tail : List Token) : Prop where
  enters : ∀ rest,
    Leads (unguarded depth) (head ++ rest) (block (declaration inner) >>= finish) rest
  grows : ∀ trees, Grows (finish trees)
  finishes : ∀ trees rest, Follows [.elseWord] rest →
    ∃ tree, Reads False (finish trees) (tail ++ rest) tree rest

/-- A declaration with a block leads to any of the statements in the block, and it is read to its
end if a later one of them is come to. -/
theorem Hosts.exists_later {head tail : List Token} {inner : Nat} {finish : List Stmt → Rule Stmt}
    (hosts : Hosts depth head inner finish tail) {trees : List Stmt}
    (many : Phrase.Many (DeclarationWithin inner) tokens trees)
    (starts : ∃ first others, rest = first :: others ∧ first.kind ∈ keywordKinds ++ operandKinds) :
    ∃ later : Stmt → Rule Stmt,
      Leads (unguarded depth) (head ++ (tokens ++ rest)) (declaration inner >>= later) rest ∧
        (∀ tree, Grows (later tree)) ∧
        ∀ {others : List Token} {otherTrees : List Stmt} {right : Token} {more : List Token},
          Phrase.Many (DeclarationWithin inner) others otherTrees → right.kind = .rightBrace →
          Follows [.elseWord] more → ∀ tree, ∃ result,
            Reads False (later tree) (others ++ right :: (tail ++ more)) result more := by
  have noElse : Follows [.elseWord] rest := by
    rcases starts with ⟨first, others, rfl, isStart⟩
    exact .of_mem isStart (by decide) _
  have grows : Grows (statements (declaration inner)) :=
    grows_statements (sound_declaration inner).grows
  refine ⟨fun tree => (trees ++ ·) <$> ((tree :: ·) <$> statements (declaration inner)) >>=
    fun trees => (fun _ => trees) <$> expect .rightBrace "'\x7d' after block" >>= finish,
    ?_, ?_, ?_⟩
  · have body := (leads_statements many noElse).trans ((leads_statement starts).map (trees ++ ·))
    have whole := (body.bind fun trees =>
      (fun _ => trees) <$> expect .rightBrace "'\x7d' after block").bind finish
    have isBlock : statements (declaration inner) >>= (fun trees =>
        (fun _ => trees) <$> expect .rightBrace "'\x7d' after block") =
      block (declaration inner) := (block_eq _).symm
    rw [isBlock] at whole
    refine (hosts.enters _).trans ?_
    simpa only [map_bind, bind_assoc] using whole
  · exact fun tree => ((grows.map _).map _).bind fun trees =>
      ((sound_expect _ _).grows.map _).bind hosts.grows
  · intro others otherTrees right more read isRight follows tree
    rcases hosts.finishes (trees ++ tree :: otherTrees) more follows with ⟨result, finished⟩
    refine ⟨result, (((reads_statements read isRight _).map _).map _).bind ?_⟩
    exact ((reads_expect _ isRight).map _).bind finished

/-! ## The declarations with blocks -/

section Blocks

variable {keyword left right brace : Token}

theorem leads_bracedBlock {inner : Rule Stmt} {next : Stmt → Rule β} (phrase : String)
    (isLeft : left.kind = .leftBrace) (rest : List Token) :
    Leads (bracedBlock phrase inner >>= next) (left :: rest)
      (block inner >>= fun trees => next (.block trees)) rest := by
  have enters : Leads (bracedBlock phrase inner) (left :: rest)
      (block inner >>= fun trees => pure (.block trees)) rest :=
    (reads_expect _ isLeft).leads (.refl _ _)
  simpa using enters.bind next

theorem reads_nested {trees : List Stmt} (phrase : String)
    (read : Phrase.Block (DeclarationWithin depth) tokens trees) (rest : List Token) :
    Reads False (bracedBlock phrase (declaration depth)) (tokens ++ rest) (.block trees) rest :=
  reads_bracedBlock (complete_declarationWithin depth) (startsIn_declarationWithin depth) phrase
    read

theorem hosts_block (isLeft : left.kind = .leftBrace) :
    Hosts depth [left] (depth + 2) (fun trees => pure (.block trees)) [] where
  enters rest := by
    refine (reads_accept_some (by simp [isLeft])).leads ?_
    simp only [isLeft]
    exact .refl _ _
  grows _ := .pure _
  finishes _ rest _ := ⟨_, .pure _ rest⟩

theorem hosts_function {name : Token} {parameters names : List Token}
    (isFun : keyword.kind = .funWord) (isIdentifier : name.kind = .identifier)
    (isLeft : left.kind = .leftParen) (items : Phrase.Items Phrase.Parameter parameters names)
    (isRight : right.kind = .rightParen) (isBrace : brace.kind = .leftBrace) :
    Hosts depth (keyword :: name :: left :: parameters ++ [right] ++ [brace]) (depth + 2)
      (fun trees => pure (.function name names trees)) [] where
  enters rest := by
    simp only [List.append_assoc, List.cons_append, List.nil_append]
    refine (reads_accept_some (by simp [isFun])).leads ?_
    simp only [isFun]
    refine (reads_expect _ isIdentifier).leads ((reads_expect _ isLeft).leads ?_)
    refine (reads_parameters items isRight).leads ?_
    exact (reads_expect _ isRight).leads ((reads_expect _ isBrace).leads (.refl _ _))
  grows _ := .pure _
  finishes _ rest _ := ⟨_, .pure _ rest⟩

/-- What is behind the first block of a branch. -/
def elseRule (condition : Expr) (nested : Rule Stmt) (thenTrees : List Stmt) : Rule Stmt := do
  let elseBranch ←
    match ← accept? [.elseWord] with
    | some _ => some <$> bracedBlock "'else'" nested
    | none => pure none
  return .ifElse condition (.block thenTrees) elseBranch

theorem grows_elseRule (condition : Expr) (trees : List Stmt) :
    Grows (elseRule condition (declaration depth) trees) := by
  refine (sound_accept _).grows.bind fun taken => ?_
  cases taken with
  | none => exact .pure _
  | some otherwise =>
      exact ((sound_bracedBlock _ (sound_declaration depth)).grows.map some).bind fun _ => .pure _

/-- A branch up to its first block. -/
theorem leads_then {tested : List Token} {condition : Expr} (isIf : keyword.kind = .ifWord)
    (isCondition : Phrase.Condition (ExpressionWithin (depth + 2)) tested condition)
    (isBrace : brace.kind = .leftBrace) (rest : List Token) :
    Leads (unguarded depth) (keyword :: tested ++ brace :: rest)
      (block (declaration depth) >>= elseRule condition (declaration depth)) rest := by
  have noOperator : Follows expressionStops (brace :: rest) := .cons (by simp [isBrace])
  refine (reads_accept_some (by simp [isIf])).leads ?_
  simp only [isIf]
  refine (reads_condition (complete_expressionWithin _) (startsIn_expressionWithin _) isCondition
    noOperator).leads ?_
  exact leads_bracedBlock _ isBrace rest

theorem hosts_then {tested : List Token} {condition : Expr} (isIf : keyword.kind = .ifWord)
    (isCondition : Phrase.Condition (ExpressionWithin (depth + 2)) tested condition)
    (isBrace : brace.kind = .leftBrace) :
    Hosts depth (keyword :: tested ++ [brace]) depth (elseRule condition (declaration depth))
      [] where
  enters rest := by
    simpa using leads_then isIf isCondition isBrace rest
  grows := grows_elseRule condition
  finishes trees rest follows :=
    ⟨_, (reads_accept_none follows).bind (.pure _ rest)⟩

theorem hosts_thenElse {tested second : List Token} {condition : Expr} {otherwise : Token}
    {elseTrees : List Stmt} (isIf : keyword.kind = .ifWord)
    (isCondition : Phrase.Condition (ExpressionWithin (depth + 2)) tested condition)
    (isBrace : brace.kind = .leftBrace) (isElse : otherwise.kind = .elseWord)
    (elseBlock : Phrase.Block (DeclarationWithin depth) second elseTrees) :
    Hosts depth (keyword :: tested ++ [brace]) depth (elseRule condition (declaration depth))
      (otherwise :: second) where
  enters := (hosts_then isIf isCondition isBrace).enters
  grows := grows_elseRule condition
  finishes trees rest _ := by
    refine ⟨.ifElse condition (.block trees) (some (.block elseTrees)), ?_⟩
    refine (reads_accept_some (List.mem_singleton.mpr isElse)).bind ?_
    exact ((reads_nested _ elseBlock rest).map some).bind (.pure _ rest)

theorem hosts_else {tested first : List Token} {condition : Expr} {otherwise : Token}
    {thenTrees : List Stmt} (isIf : keyword.kind = .ifWord)
    (isCondition : Phrase.Condition (ExpressionWithin (depth + 2)) tested condition)
    (thenBlock : Phrase.Block (DeclarationWithin depth) first thenTrees)
    (isElse : otherwise.kind = .elseWord) (isBrace : brace.kind = .leftBrace) :
    Hosts depth (keyword :: tested ++ first ++ [otherwise] ++ [brace]) depth
      (fun trees => pure (.ifElse condition (.block thenTrees) (some (.block trees)))) [] where
  enters rest := by
    have noOperator : Follows expressionStops (first ++ otherwise :: brace :: rest) :=
      (StartsIn.block _).follows thenBlock (by decide) _
    have elseBranch : Leads (some <$> bracedBlock "'else'" (declaration depth) >>= fun tree =>
        pure (Stmt.ifElse condition (.block thenTrees) tree)) (brace :: rest)
        (block (declaration depth) >>= fun trees =>
          pure (.ifElse condition (.block thenTrees) (some (.block trees)))) rest := by
      rw [bind_map_left]
      exact leads_bracedBlock _ isBrace rest
    simp only [List.append_assoc, List.cons_append, List.nil_append]
    refine (reads_accept_some (by simp [isIf])).leads ?_
    simp only [isIf]
    refine (reads_condition (complete_expressionWithin _) (startsIn_expressionWithin _) isCondition
      noOperator).leads ?_
    refine (reads_nested _ thenBlock _).leads ?_
    exact (reads_accept_some (List.mem_singleton.mpr isElse)).leads elseBranch
  grows _ := .pure _
  finishes _ rest _ := ⟨_, .pure _ rest⟩

theorem hosts_while {tested : List Token} {condition : Expr} (isWhile : keyword.kind = .whileWord)
    (isCondition : Phrase.Condition (ExpressionWithin (depth + 2)) tested condition)
    (isBrace : brace.kind = .leftBrace) :
    Hosts depth (keyword :: tested ++ [brace]) depth
      (fun trees => pure (.whileLoop condition (.block trees) none)) [] where
  enters rest := by
    have noOperator : Follows expressionStops (brace :: rest) := .cons (by simp [isBrace])
    simp only [List.append_assoc, List.cons_append, List.nil_append]
    refine (reads_accept_some (by simp [isWhile])).leads ?_
    simp only [isWhile]
    refine (reads_condition (complete_expressionWithin _) (startsIn_expressionWithin _) isCondition
      noOperator).leads ?_
    exact leads_bracedBlock _ isBrace rest
  grows _ := .pure _
  finishes _ rest _ := ⟨_, .pure _ rest⟩

theorem hosts_for {semicolon : Token} {first second third : List Token}
    {initializer : Option Stmt} {condition increment : Option Expr}
    (isFor : keyword.kind = .forWord) (isLeft : left.kind = .leftParen)
    (started : Phrase.Initializer (ExpressionWithin (depth + 2)) first initializer)
    (tested : Phrase.Optional (ExpressionWithin (depth + 2)) second condition)
    (isSemicolon : semicolon.kind = .semicolon)
    (stepped : Phrase.Optional (ExpressionWithin (depth + 2)) third increment)
    (isRight : right.kind = .rightParen) (isBrace : brace.kind = .leftBrace) :
    Hosts depth (keyword :: left :: first ++ second ++ semicolon :: third ++ [right] ++ [brace])
      depth (fun trees => pure (Stmt.desugarFor initializer condition increment (.block trees)))
      [] where
  enters rest := by
    have complete := complete_expressionWithin (depth + 2)
    have starts := startsIn_expressionWithin (depth + 2)
    simp only [List.append_assoc, List.cons_append, List.nil_append]
    refine (reads_accept_some (by simp [isFor])).leads ?_
    simp only [isFor]
    refine (reads_expect _ isLeft).leads ?_
    refine (reads_forInitializer complete starts started).leads ?_
    refine (reads_unlessNext complete starts (by decide) (by decide) tested isSemicolon).leads ?_
    refine (reads_expect _ isSemicolon).leads ?_
    refine (reads_unlessNext complete starts (by decide) (by decide) stepped isRight).leads ?_
    refine (reads_expect _ isRight).leads ?_
    exact leads_bracedBlock _ isBrace rest
  grows _ := .pure _
  finishes _ rest _ := ⟨_, .pure _ rest⟩

end Blocks

end Grammar

end LoxLang

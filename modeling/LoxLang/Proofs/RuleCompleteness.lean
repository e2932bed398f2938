import LoxLang.Proofs.RuleSoundness

/-!
# Completeness of the rules

A rule is complete for a phrase if it reads every such phrase, however the text goes on behind it,
as long as the next token could not continue the phrase. Nothing is reported on the way. Where the
limit of nesting may be in the way, the rule may also be abandoned because of it.

One token of lookahead decides every choice, so that the conditions are about the first token of a
phrase and about the token behind it.
-/

namespace LoxLang
namespace Grammar

open Rule

/-! ## How phrases start -/

/-- Whether every phrase has a first token, of one of the given kinds. -/
def StartsIn {α : Type} (kinds : List TokenKind) (phrase : Phrase α) : Prop :=
  ∀ tokens tree, phrase tokens tree → ∃ first rest, tokens = first :: rest ∧ first.kind ∈ kinds

/-- The kinds of the tokens that start a primary expression. -/
abbrev primaryKinds : List TokenKind :=
  [.falseWord, .trueWord, .nilWord, .number, .string, .identifier, .leftParen]

/-- The kinds of the tokens that start an expression. -/
abbrev operandKinds : List TokenKind := [.bang, .minus] ++ primaryKinds

/-- The kinds of the tokens that start a declaration without being part of an expression. -/
abbrev keywordKinds : List TokenKind :=
  [.varWord, .funWord, .printWord, .leftBrace, .ifWord, .whileWord, .forWord, .breakWord,
    .continueWord, .returnWord]

namespace StartsIn

variable {α : Type}

theorem widen {kinds others : List TokenKind} {phrase : Phrase α} (starts : StartsIn kinds phrase)
    (included : kinds ⊆ others) : StartsIn others phrase := by
  intro tokens tree read
  rcases starts tokens tree read with ⟨first, rest, shape, isKind⟩
  exact ⟨first, rest, shape, included isKind⟩

theorem append {kinds : List TokenKind} {phrase : Phrase α} (starts : StartsIn kinds phrase)
    {tokens : List Token} {tree : α} (read : phrase tokens tree) (others : List Token) :
    ∃ first rest, tokens ++ others = first :: rest ∧ first.kind ∈ kinds := by
  rcases starts tokens tree read with ⟨first, rest, rfl, isKind⟩
  exact ⟨first, rest ++ others, rfl, isKind⟩

theorem primary (Expression : Phrase Expr) : StartsIn primaryKinds (Phrase.Primary Expression) := by
  rintro tokens tree (isKind | isKind | isKind | isKind | isKind | isKind | ⟨isKind, -, -⟩) <;>
    exact ⟨_, _, rfl, by simp [isKind]⟩

theorem call (Expression : Phrase Expr) : StartsIn primaryKinds (Phrase.Call Expression) := by
  intro tokens tree call
  induction call with
  | primary primary => exact StartsIn.primary Expression _ _ primary
  | call _ _ _ _ ih =>
      rcases ih with ⟨first, rest, rfl, isKind⟩
      exact ⟨first, _, rfl, isKind⟩

theorem unary (Operand Expression : Phrase Expr) :
    StartsIn operandKinds (Phrase.Unary Operand (Phrase.Call Expression)) := by
  rintro tokens tree (⟨isOperator, -⟩ | called)
  · exact ⟨_, _, rfl, List.mem_append_left _ isOperator⟩
  · exact (StartsIn.call Expression).widen (List.subset_append_right _ _) tokens tree called

theorem chain {operators kinds : List TokenKind} {join : Expr → Token → Expr → Expr}
    {Operand : Phrase Expr} (starts : StartsIn kinds Operand) :
    StartsIn kinds (Phrase.Chain operators join Operand) := by
  intro tokens tree chain
  induction chain with
  | operand operand => exact starts _ _ operand
  | joined _ _ _ ih =>
      rcases ih with ⟨first, rest, rfl, isKind⟩
      exact ⟨first, _, rfl, isKind⟩

theorem ternary {kinds : List TokenKind} {Logical Branch : Phrase Expr}
    (starts : StartsIn kinds Logical) : StartsIn kinds (Phrase.Ternary Logical Branch) := by
  rintro tokens tree (logical | ⟨logical, -, -, -, -⟩)
  · exact starts _ _ logical
  · simpa using starts.append logical _

theorem assignment {kinds : List TokenKind} {Ternary Value : Phrase Expr}
    (starts : StartsIn kinds Ternary) (names : .identifier ∈ kinds) :
    StartsIn kinds (Phrase.Assignment Ternary Value) := by
  rintro tokens tree (ternary | ⟨isIdentifier, -, -⟩)
  · exact starts _ _ ternary
  · exact ⟨_, _, rfl, isIdentifier ▸ names⟩

theorem expressionStatement {kinds : List TokenKind} {Expression : Phrase Expr}
    (starts : StartsIn kinds Expression) :
    StartsIn kinds (Phrase.ExpressionStatement Expression) := by
  rintro tokens tree ⟨value, -⟩
  exact starts.append value _

theorem varDeclaration (Expression : Phrase Expr) :
    StartsIn [.varWord] (Phrase.VarDeclaration Expression) := by
  rintro tokens tree (⟨isVar, -, -⟩ | ⟨isVar, -, -, -, -⟩) <;>
    exact ⟨_, _, rfl, List.mem_singleton.mpr isVar⟩

theorem block (Declaration : Phrase Stmt) : StartsIn [.leftBrace] (Phrase.Block Declaration) := by
  rintro tokens trees ⟨isLeft, -, -⟩
  exact ⟨_, _, rfl, List.mem_singleton.mpr isLeft⟩

theorem declaration {Expression : Phrase Expr} (starts : StartsIn operandKinds Expression)
    (Inner Nested : Phrase Stmt) :
    StartsIn (keywordKinds ++ operandKinds) (Phrase.Declaration Expression Inner Nested) := by
  intro tokens tree declaration
  cases declaration with
  | var declaration =>
      exact (varDeclaration Expression).widen (by simp) tokens tree declaration
  | block read => exact (block Inner).widen (by simp) tokens _ read
  | expression statement =>
      exact starts.expressionStatement.widen (List.subset_append_right _ _) tokens tree statement
  | function isKind => exact ⟨_, _, rfl, by simp [isKind]⟩
  | print isKind => exact ⟨_, _, rfl, by simp [isKind]⟩
  | ifThen isKind => exact ⟨_, _, rfl, by simp [isKind]⟩
  | ifElse isKind => exact ⟨_, _, rfl, by simp [isKind]⟩
  | whileLoop isKind => exact ⟨_, _, rfl, by simp [isKind]⟩
  | forLoop isKind => exact ⟨_, _, rfl, by simp [isKind]⟩
  | breakLoop isKind => exact ⟨_, _, rfl, by simp [isKind]⟩
  | continueLoop isKind => exact ⟨_, _, rfl, by simp [isKind]⟩
  | returnValue isKind => exact ⟨_, _, rfl, by simp [isKind]⟩

end StartsIn

/-! ## Reading a phrase -/

/-- Whether a rule reads `before` up to `after` and gives a tree, without a report. With `cut` it
may also be abandoned because of the limit of nesting. -/
def Reads {α : Type} (cut : Prop) (rule : Rule α) (before : List Token) (tree : α)
    (after : List Token) : Prop :=
  ∀ ending diagnostics,
    rule ⟨before, ending, diagnostics⟩ = .ok tree ⟨after, ending, diagnostics⟩ ∨
      cut ∧ ∃ next, rule ⟨before, ending, diagnostics⟩ = .error .depth next

/-- Whether the next token, if there is one, has none of the given kinds. -/
def Follows (stops : List TokenKind) (rest : List Token) : Prop :=
  ∀ first ∈ rest.head?, first.kind ∉ stops

/-- Whether a rule reads all phrases of a kind, wherever the next token cannot go on with them. -/
def Complete {α : Type} (cut : Prop) (rule : Rule α) (phrase : Phrase α) (stops : List TokenKind) :
    Prop :=
  ∀ tokens tree rest, phrase tokens tree → Follows stops rest →
    Reads cut rule (tokens ++ rest) tree rest

namespace Follows

variable {stops others : List TokenKind} {rest : List Token}

theorem cons {token : Token} (absent : token.kind ∉ stops) : Follows stops (token :: rest) := by
  intro first isFirst
  rwa [← Option.some.inj isFirst]

theorem of_mem {token : Token} {kinds : List TokenKind} (isKind : token.kind ∈ kinds)
    (apart : ∀ kind ∈ kinds, kind ∉ stops) (rest : List Token) : Follows stops (token :: rest) :=
  .cons (apart _ isKind)

theorem narrow (follows : Follows stops rest) (included : others ⊆ stops) : Follows others rest :=
  fun first isFirst isStop => follows first isFirst (included isStop)

theorem left (follows : Follows (stops ++ others) rest) : Follows stops rest :=
  follows.narrow (List.subset_append_left _ _)

theorem right (follows : Follows (stops ++ others) rest) : Follows others rest :=
  follows.narrow (List.subset_append_right _ _)

end Follows

theorem StartsIn.follows {α : Type} {kinds : List TokenKind} {phrase : Phrase α}
    (starts : StartsIn kinds phrase) {tokens : List Token} {tree : α} (read : phrase tokens tree)
    {stops : List TokenKind} (apart : ∀ kind ∈ kinds, kind ∉ stops) (rest : List Token) :
    Follows stops (tokens ++ rest) := by
  rcases starts tokens tree read with ⟨first, others, rfl, isKind⟩
  exact .of_mem isKind apart _

namespace Reads

variable {α β : Type} {cut : Prop} {before middle after : List Token}

theorem pure (tree : α) (tokens : List Token) : Reads cut (Pure.pure tree) tokens tree tokens :=
  fun _ _ => .inl rfl

theorem bind {first : Rule α} {next : α → Rule β} {value : α} {tree : β}
    (reads : Reads cut first before value middle)
    (continues : Reads cut (next value) middle tree after) :
    Reads cut (first >>= next) before tree after := by
  intro ending diagnostics
  rcases reads ending diagnostics with read | ⟨isCut, cursor, abandoned⟩
  · rw [bind_of_ok read]
    exact continues ending diagnostics
  · exact .inr ⟨isCut, cursor, bind_of_error abandoned⟩

theorem map {rule : Rule α} {tree : α} (change : α → β) (reads : Reads cut rule before tree after) :
    Reads cut (change <$> rule) before (change tree) after :=
  reads.bind (.pure (change tree) after)

end Reads

section Tokens

variable {cut : Prop} {token : Token} {rest : List Token}

theorem reads_accept_some {kinds : List TokenKind} (isKind : token.kind ∈ kinds) :
    Reads cut (accept? kinds) (token :: rest) (some token) rest :=
  fun _ _ => .inl (accept_some rfl isKind)

theorem reads_accept_none {kinds : List TokenKind} (follows : Follows kinds rest) :
    Reads cut (accept? kinds) rest none rest :=
  fun _ _ => .inl (accept_none follows)

theorem reads_expect {kind : TokenKind} (phrase : String) (isKind : token.kind = kind) :
    Reads cut (expect kind phrase) (token :: rest) token rest :=
  fun _ _ => .inl (by simp [expect, isKind])

theorem reads_isNext_true {kind : TokenKind} (isKind : token.kind = kind) :
    Reads cut (isNext kind) (token :: rest) true (token :: rest) :=
  fun _ _ => .inl (by simp [isNext, isKind])

theorem reads_isNext_false {kind : TokenKind} (follows : Follows [kind] rest) :
    Reads cut (isNext kind) rest false rest := by
  intro ending diagnostics
  refine .inl ?_
  cases rest with
  | nil => rfl
  | cons token rest =>
      have otherKind : token.kind ≠ kind := by simpa using follows token rfl
      simp [isNext, otherKind]

theorem reads_isAtEnd : Reads cut isAtEnd rest rest.isEmpty rest :=
  fun _ _ => .inl rfl

theorem reads_bound : Reads cut bound rest rest rest :=
  fun _ _ => .inl rfl

end Tokens

/-! ## Loops

A loop has as many turns as there are tokens, and every turn reads one. -/

section Loops

variable {α : Type} {cut : Prop} {before middle after rest : List Token}

theorem reads_iterate_stop {step : α → Rule (Option α)} {value : α}
    (stopped : Reads cut (step value) rest none rest) (bound : List Token) :
    Reads cut (iterate step bound value) rest value rest := by
  cases bound with
  | nil => exact .pure value rest
  | cons _ bound => exact stopped.bind (.pure value rest)

theorem reads_iterate_turn {step : α → Rule (Option α)} {value next result : α}
    (turned : Reads cut (step value) before (some next) middle)
    (progress : middle.length < before.length)
    (continues : ∀ bound : List Token, middle.length ≤ bound.length →
      Reads cut (iterate step bound next) middle result after)
    {bound : List Token} (enough : before.length ≤ bound.length) :
    Reads cut (iterate step bound value) before result after := by
  cases bound with
  | nil => simp only [List.length_nil] at enough; omega
  | cons _ bound =>
      refine turned.bind (continues bound ?_)
      simp only [List.length_cons] at enough
      omega

theorem reads_collect_stop {item : Nat → Rule (Option α)} {index : Nat}
    (stopped : Reads cut (item index) rest none rest) (bound : List Token) :
    Reads cut (collect item bound index) rest [] rest := by
  cases bound with
  | nil => exact .pure [] rest
  | cons _ bound => exact stopped.bind (.pure [] rest)

theorem reads_collect_turn {item : Nat → Rule (Option α)} {index : Nat} {tree : α} {trees : List α}
    (turned : Reads cut (item index) before (some tree) middle)
    (progress : middle.length < before.length)
    (continues : ∀ bound : List Token, middle.length ≤ bound.length →
      Reads cut (collect item bound (index + 1)) middle trees after)
    {bound : List Token} (enough : before.length ≤ bound.length) :
    Reads cut (collect item bound index) before (tree :: trees) after := by
  cases bound with
  | nil => simp only [List.length_nil] at enough; omega
  | cons _ bound =>
      refine turned.bind ((continues bound ?_).map _)
      simp only [List.length_cons] at enough
      omega

end Loops

/-- What cannot be behind an item is not behind it in a list of items either. -/
theorem Follows.many {α : Type} {Item : Phrase α} {kinds stops : List TokenKind} {rest : List Token}
    (starts : StartsIn kinds Item) (apart : ∀ kind ∈ kinds, kind ∉ stops)
    (follows : Follows stops rest) {tokens : List Token} {trees : List α}
    (many : Phrase.Many Item tokens trees) : Follows stops (tokens ++ rest) := by
  cases many with
  | done => exact follows
  | more read others =>
      rw [List.append_assoc]
      exact starts.follows read apart _

/-- Items that a turn reads one by one, up to a number that the turns count to. -/
theorem reads_collect {α : Type} {cut : Prop} {item : Nat → Rule (Option α)} {Item : Phrase α}
    {kinds stops : List TokenKind} {limit : Nat} {rest : List Token} (starts : StartsIn kinds Item)
    (apart : ∀ kind ∈ kinds, kind ∉ stops)
    (turn : ∀ index tokens tree rest, index < limit → Item tokens tree → Follows stops rest →
      Reads cut (item index) (tokens ++ rest) (some tree) rest)
    (stopped : ∀ index, Reads cut (item index) rest none rest) (follows : Follows stops rest)
    {tokens : List Token} {trees : List α} (many : Phrase.Many Item tokens trees) :
    ∀ index, index + trees.length ≤ limit → ∀ bound : List Token,
      (tokens ++ rest).length ≤ bound.length →
        Reads cut (collect item bound index) (tokens ++ rest) trees rest := by
  induction many with
  | done => exact fun index _ bound _ => reads_collect_stop (stopped index) bound
  | more read others ih =>
      rename_i itemTokens otherTokens tree trees
      intro index atMost bound enough
      simp only [List.length_cons] at atMost
      rw [List.append_assoc] at enough ⊢
      have next : Follows stops (otherTokens ++ rest) := follows.many starts apart others
      refine reads_collect_turn (turn index _ _ _ (by omega) read next) ?_ ?_ enough
      · rcases starts _ _ read with ⟨first, others, rfl, -⟩
        simp only [List.length_append, List.length_cons]
        omega
      · exact ih (index + 1) (by omega)

theorem reads_separated {α : Type} {cut : Prop} {item : Rule α} {Item : Phrase α}
    {stops : List TokenKind} (items : String) (complete : Complete cut item Item stops)
    (noComma : .comma ∉ stops) {tokens others rest : List Token} {tree : α} {trees : List α}
    (read : Item tokens tree) (further : Phrase.Many (Phrase.Further Item) others trees)
    (atMost : (tree :: trees).length ≤ 255) (follows : Follows (.comma :: stops) rest) :
    Reads cut (separated items item) (tokens ++ others ++ rest) (tree :: trees) rest := by
  have starts : StartsIn [.comma] (Phrase.Further Item) := by
    rintro tokens tree ⟨isComma, -⟩
    exact ⟨_, _, rfl, List.mem_singleton.mpr isComma⟩
  have apart : ∀ kind ∈ [TokenKind.comma], kind ∉ stops := by simpa using noComma
  have behind : Follows stops rest := follows.narrow (List.subset_cons_self _ _)
  have next : Follows stops (others ++ rest) := behind.many starts apart further
  rw [List.append_assoc]
  refine (complete tokens tree _ read next).bind (reads_bound.bind (Reads.map _ ?_))
  have counted : 1 + trees.length ≤ 255 := by simpa [Nat.add_comm] using atMost
  refine reads_collect starts apart ?_ ?_ behind further 1 counted _ (Nat.le_refl _)
  · rintro index tokens tree rest few ⟨isComma, read⟩ follows
    refine (reads_accept_some (List.mem_singleton.mpr isComma)).bind ?_
    have notTooMany : ¬ GrammarFault.maxItems ≤ index := Nat.not_le.mpr few
    dsimp only
    rw [if_neg notTooMany]
    exact (complete _ _ _ read follows).map some
  · intro index
    refine (reads_accept_none (follows.narrow (by simp))).bind ?_
    exact .pure none rest

theorem reads_listed {α : Type} {cut : Prop} {item : Rule α} {Item : Phrase α}
    {kinds stops : List TokenKind} (items : String) (complete : Complete cut item Item stops)
    (starts : StartsIn kinds Item) (noComma : .comma ∉ stops) (noStop : .rightParen ∉ stops)
    (apart : .rightParen ∉ kinds) {tokens rest : List Token} {trees : List α} {right : Token}
    (read : Phrase.Items Item tokens trees) (isRight : right.kind = .rightParen) :
    Reads cut (listed items item) (tokens ++ right :: rest) trees (right :: rest) := by
  cases read with
  | absent =>
      refine (reads_isNext_true isRight).bind ?_
      exact .pure [] _
  | present read others atMost =>
      have noParen : ∀ kind ∈ kinds, kind ∉ [TokenKind.rightParen] :=
        fun kind isKind isParen => apart (List.mem_singleton.mp isParen ▸ isKind)
      have ended : Follows (.comma :: stops) (right :: rest) :=
        Follows.cons (by simp [isRight, noStop])
      rw [List.append_assoc]
      refine (reads_isNext_false (starts.follows read noParen _)).bind ?_
      rw [← List.append_assoc]
      exact reads_separated items complete noComma read others atMost ended

/-! ## Expressions -/

theorem reads_chain {cut : Prop} {operators stops : List TokenKind}
    {join : Expr → Token → Expr → Expr} {operand : Rule Expr} {Operand : Phrase Expr}
    {step : Expr → Rule (Option Expr)} (complete : Complete cut operand Operand stops)
    (apart : ∀ kind ∈ operators, kind ∉ stops)
    (turn : ∀ first operator right second rest, operator.kind ∈ operators → Operand right second →
      Follows stops rest →
        Reads cut (step first) (operator :: (right ++ rest))
          (some (join first operator second)) rest)
    {tokens : List Token} {tree : Expr} (chain : Phrase.Chain operators join Operand tokens tree) :
    ∀ rest result after, Follows stops rest →
      (∀ bound : List Token, rest.length ≤ bound.length →
        Reads cut (iterate step bound tree) rest result after) →
      Reads cut (operand >>= fun first => bound >>= fun bound => iterate step bound first)
        (tokens ++ rest) result after := by
  induction chain with
  | operand operand =>
      intro rest result after follows continues
      refine (complete _ _ rest operand follows).bind (reads_bound.bind ?_)
      exact continues rest (Nat.le_refl _)
  | joined _ isOperator operand ih =>
      intro rest result after follows continues
      rw [List.append_assoc, List.cons_append]
      refine ih _ result after (Follows.cons (apart _ isOperator)) fun bound enough => ?_
      refine reads_iterate_turn (turn _ _ _ _ rest isOperator operand follows) ?_ continues enough
      simp only [List.length_cons, List.length_append]
      omega

theorem complete_chain {cut : Prop} {operators stops : List TokenKind}
    {join : Expr → Token → Expr → Expr} {operand : Rule Expr} {Operand : Phrase Expr}
    (complete : Complete cut operand Operand stops) (apart : ∀ kind ∈ operators, kind ∉ stops) :
    Complete cut (chain operators join operand) (Phrase.Chain operators join Operand)
      (operators ++ stops) := by
  intro tokens tree rest read follows
  refine reads_chain complete apart ?_ read rest tree rest follows.right fun bound _ => ?_
  · intro first operator right second rest isOperator operand follows
    refine (reads_accept_some isOperator).bind ?_
    exact (complete right second rest operand follows).map fun second =>
      some (join first operator second)
  · refine reads_iterate_stop ?_ bound
    refine (reads_accept_none follows.left).bind ?_
    exact .pure none rest

/-- The kinds of the tokens that go on with a chain of binary operators. -/
abbrev logicalStops : List TokenKind :=
  [TokenKind.andWord, .orWord] ++ ([TokenKind.bangEqual, .equalEqual] ++
    ([TokenKind.greater, .greaterEqual, .less, .lessEqual] ++ ([TokenKind.minus, .plus] ++
      ([TokenKind.slash, .star] ++ [TokenKind.leftParen]))))

/-- The kinds of the tokens that go on with a conditional expression. -/
abbrev ternaryStops : List TokenKind := .question :: logicalStops

/-- The kinds of the tokens that go on with an expression. -/
abbrev expressionStops : List TokenKind := .equal :: ternaryStops

theorem complete_logical {cut : Prop} {unary : Rule Expr} {Unary : Phrase Expr}
    (complete : Complete cut unary Unary [.leftParen]) :
    Complete cut (logical unary) (Phrase.Logical Unary) logicalStops :=
  complete_chain (complete_chain (complete_chain (complete_chain (complete_chain complete
    (by decide)) (by decide)) (by decide)) (by decide)) (by decide)

theorem complete_ternaryRule {cut : Prop} {logical ternary : Rule Expr}
    {Logical Ternary : Phrase Expr} (completeLogical : Complete cut logical Logical logicalStops)
    (completeTernary : Complete cut ternary Ternary ternaryStops) :
    Complete cut (ternaryRule logical ternary) (Phrase.Ternary Logical Ternary) ternaryStops := by
  rintro tokens tree rest (read | ⟨read, isQuestion, thenPart, isColon, elsePart⟩) follows
  · refine (completeLogical _ _ rest read (follows.narrow (List.subset_cons_self _ _))).bind ?_
    refine (reads_accept_none (follows.narrow (by simp))).bind ?_
    exact .pure tree rest
  · simp only [List.append_assoc, List.cons_append]
    refine (completeLogical _ _ _ read (Follows.cons (by simp [isQuestion]))).bind ?_
    refine (reads_accept_some (List.mem_singleton.mpr isQuestion)).bind ?_
    refine (completeTernary _ _ _ thenPart (Follows.cons (by simp [isColon]))).bind ?_
    refine (reads_expect _ isColon).bind ?_
    exact (completeTernary _ _ rest elsePart follows).map _

theorem complete_assignmentRule {cut : Prop} {ternary assignment : Rule Expr}
    {Ternary Value : Phrase Expr} (completeTernary : Complete cut ternary Ternary ternaryStops)
    (completeValue : Complete cut assignment Value expressionStops)
    (target : ∀ name tokens tree, name.kind = .identifier → Value tokens tree →
      Ternary [name] (.variable name)) :
    Complete cut (assignmentRule ternary assignment) (Phrase.Assignment Ternary Value)
      expressionStops := by
  rintro tokens tree rest (read | ⟨isIdentifier, isEqual, value⟩) follows
  · refine (completeTernary _ _ rest read (follows.narrow (List.subset_cons_self _ _))).bind ?_
    refine (reads_accept_none (follows.narrow (by simp))).bind ?_
    exact .pure tree rest
  · have named := target _ _ _ isIdentifier value
    refine (completeTernary _ _ (_ :: (_ ++ rest)) named (Follows.cons (by simp [isEqual]))).bind ?_
    refine (reads_accept_some (List.mem_singleton.mpr isEqual)).bind ?_
    refine (completeValue _ _ rest value follows).bind ?_
    exact .pure _ rest

theorem complete_unaryRule {cut : Prop} {unary call : Rule Expr} {Unary Call : Phrase Expr}
    {stops : List TokenKind} (completeUnary : Complete cut unary Unary stops)
    (completeCall : Complete cut call Call stops) (starts : StartsIn primaryKinds Call) :
    Complete cut (unaryRule unary call) (Phrase.Unary Unary Call) stops := by
  rintro tokens tree rest (⟨isOperator, operand⟩ | read) follows
  · refine (reads_accept_some isOperator).bind ?_
    exact (completeUnary _ _ rest operand follows).map _
  · refine (reads_accept_none (starts.follows read (by decide) rest)).bind ?_
    exact completeCall _ _ rest read follows

theorem complete_primary {cut : Prop} {expression : Rule Expr} {Expression : Phrase Expr}
    (complete : Complete cut expression Expression expressionStops) :
    Complete cut (primary expression) (Phrase.Primary Expression) [] := by
  intro tokens tree rest read follows
  cases read with
  | group isLeft inner isRight =>
      simp only [List.append_assoc, List.cons_append]
      refine (reads_accept_some (by simp [isLeft])).bind ?_
      simp only [isLeft]
      refine (complete _ _ _ inner (Follows.cons (by simp [isRight]))).bind ?_
      refine (reads_expect _ isRight).bind ?_
      exact .pure _ rest
  | trueWord isKind | falseWord isKind | nilWord isKind | number isKind | string isKind
  | identifier isKind =>
      refine (reads_accept_some (by simp [isKind])).bind ?_
      simp only [isKind]
      exact .pure _ rest

theorem reads_arguments {cut : Prop} {expression : Rule Expr} {Expression : Phrase Expr}
    (complete : Complete cut expression Expression expressionStops)
    (starts : StartsIn operandKinds Expression) (callee : Expr) {tokens rest : List Token}
    {trees : List Expr} {right : Token} (items : Phrase.Items Expression tokens trees)
    (isRight : right.kind = .rightParen) :
    Reads cut (arguments expression callee) (tokens ++ right :: rest)
      (.call callee (some right) trees) rest := by
  refine (reads_listed _ complete starts (by decide) (by decide) (by decide) items isRight).bind ?_
  exact (reads_expect _ isRight).map _

theorem reads_calls {cut : Prop} {expression : Rule Expr} {Expression : Phrase Expr}
    {step : Expr → Rule (Option Expr)}
    (complete : Complete cut (primary expression) (Phrase.Primary Expression) [])
    (turn : ∀ callee left arguments trees right rest, left.kind = .leftParen →
      Phrase.Items Expression arguments trees → right.kind = .rightParen →
        Reads cut (step callee) (left :: (arguments ++ right :: rest))
          (some (.call callee (some right) trees)) rest)
    {tokens : List Token} {tree : Expr} (read : Phrase.Call Expression tokens tree) :
    ∀ rest result after,
      (∀ bound : List Token, rest.length ≤ bound.length →
        Reads cut (iterate step bound tree) rest result after) →
      Reads cut (primary expression >>= fun first => bound >>= fun bound =>
        iterate step bound first)
        (tokens ++ rest) result after := by
  induction read with
  | primary read =>
      intro rest result after continues
      refine (complete _ _ rest read (by simp [Follows])).bind (reads_bound.bind ?_)
      exact continues rest (Nat.le_refl _)
  | call _ isLeft items isRight ih =>
      intro rest result after continues
      simp only [List.append_assoc, List.cons_append, List.nil_append]
      refine ih _ result after fun bound enough => ?_
      refine reads_iterate_turn (turn _ _ _ _ _ rest isLeft items isRight) ?_ continues enough
      simp only [List.length_cons, List.length_append]
      omega

theorem complete_call {cut : Prop} {expression : Rule Expr} {Expression : Phrase Expr}
    (complete : Complete cut expression Expression expressionStops)
    (starts : StartsIn operandKinds Expression) :
    Complete cut (call expression) (Phrase.Call Expression) [.leftParen] := by
  intro tokens tree rest read follows
  refine reads_calls (complete_primary complete) ?_ read rest tree rest fun bound _ => ?_
  · intro callee left arguments trees right rest isLeft items isRight
    refine (reads_accept_some (List.mem_singleton.mpr isLeft)).bind ?_
    exact (reads_arguments complete starts callee items isRight).map some
  · refine reads_iterate_stop ?_ bound
    refine (reads_accept_none follows).bind ?_
    exact .pure none rest

/-! ## Statements -/

section Statements

variable {cut : Prop} {expression : Rule Expr} {Expression : Phrase Expr}
  {declaration : Rule Stmt} {Declaration : Phrase Stmt} {rest : List Token}

theorem reads_unlessNext (complete : Complete cut expression Expression expressionStops)
    (starts : StartsIn operandKinds Expression) {kind : TokenKind} (noOperand : kind ∉ operandKinds)
    (noStop : kind ∉ expressionStops) {tokens : List Token} {value : Option Expr} {token : Token}
    (given : Phrase.Optional Expression tokens value) (isKind : token.kind = kind) :
    Reads cut (unlessNext kind expression) (tokens ++ token :: rest) value (token :: rest) := by
  cases given with
  | absent =>
      refine (reads_isNext_true isKind).bind ?_
      exact .pure none _
  | present read =>
      have apart : ∀ other ∈ operandKinds, other ∉ [kind] :=
        fun other isOperand isKind => noOperand (List.mem_singleton.mp isKind ▸ isOperand)
      refine (reads_isNext_false (starts.follows read apart _)).bind ?_
      exact (complete _ _ _ read (Follows.cons (isKind ▸ noStop))).map some

theorem reads_varDeclaration (complete : Complete cut expression Expression expressionStops)
    {keyword : Token} {tokens : List Token} {tree : Stmt}
    (read : Phrase.VarDeclaration Expression (keyword :: tokens) tree) :
    Reads cut (varDeclaration expression) (tokens ++ rest) tree rest := by
  generalize shape : keyword :: tokens = all at read
  cases read with
  | plain _ isIdentifier isSemicolon =>
      rcases List.cons.inj shape with ⟨rfl, rfl⟩
      refine (reads_expect _ isIdentifier).bind ?_
      refine (reads_accept_none (Follows.cons (by simp [isSemicolon]))).bind ?_
      exact (reads_expect _ isSemicolon).map _
  | initialized _ isIdentifier isEqual value isSemicolon =>
      simp only [List.cons_append, List.cons.injEq] at shape
      rcases shape with ⟨rfl, rfl⟩
      simp only [List.append_assoc, List.cons_append]
      refine (reads_expect _ isIdentifier).bind ?_
      refine (reads_accept_some (List.mem_singleton.mpr isEqual)).bind ?_
      refine ((complete _ _ _ value (Follows.cons (by simp [isSemicolon]))).map some).bind ?_
      exact (reads_expect _ isSemicolon).map _

theorem reads_expressionStatement (complete : Complete cut expression Expression expressionStops)
    {tokens : List Token} {tree : Stmt}
    (read : Phrase.ExpressionStatement Expression tokens tree) :
    Reads cut (expressionStatement expression) (tokens ++ rest) tree rest := by
  rcases read with ⟨value, isSemicolon⟩
  rw [List.append_assoc]
  refine (complete _ _ _ value (Follows.cons (by simp [isSemicolon]))).bind ?_
  exact (reads_expect _ isSemicolon).map _

theorem reads_block (complete : Complete cut declaration Declaration [.elseWord])
    (starts : StartsIn (keywordKinds ++ operandKinds) Declaration) {tokens : List Token}
    {trees : List Stmt} {left : Token}
    (read : Phrase.Block Declaration (left :: tokens) trees) :
    Reads cut (block declaration) (tokens ++ rest) trees rest := by
  generalize shape : left :: tokens = all at read
  rcases read with ⟨-, declarations, isRight⟩
  simp only [List.cons_append, List.cons.injEq] at shape
  rcases shape with ⟨rfl, rfl⟩
  rename_i right inner
  rw [List.append_assoc]
  refine reads_bound.bind (Reads.bind ?_ (reads_expect _ isRight |>.map _))
  have apart : ∀ kind ∈ keywordKinds ++ operandKinds, kind ∉ [TokenKind.elseWord] := by decide
  have ended : Follows [.elseWord] (right :: rest) := Follows.cons (by simp [isRight])
  refine reads_collect starts apart ?_ ?_ ended declarations 0 (Nat.le_of_eq (Nat.zero_add _)) _
    (Nat.le_refl _)
  · intro index tokens tree rest _ read follows
    refine (reads_isNext_false (starts.follows read (by decide) rest)).bind ?_
    refine reads_isAtEnd.bind ?_
    have notEmpty : (tokens ++ rest).isEmpty = false := by
      rcases starts tokens tree read with ⟨first, others, rfl, -⟩
      rfl
    rw [notEmpty]
    exact (complete tokens tree rest read follows).map some
  · intro index
    refine (reads_isNext_true isRight).bind (reads_isAtEnd.bind ?_)
    exact .pure none _

theorem reads_bracedBlock (complete : Complete cut declaration Declaration [.elseWord])
    (starts : StartsIn (keywordKinds ++ operandKinds) Declaration) (phrase : String)
    {tokens : List Token} {trees : List Stmt} (read : Phrase.Block Declaration tokens trees) :
    Reads cut (bracedBlock phrase declaration) (tokens ++ rest) (.block trees) rest := by
  rcases StartsIn.block Declaration tokens trees read with ⟨left, others, rfl, isLeft⟩
  refine (reads_expect _ (List.mem_singleton.mp isLeft)).bind ?_
  exact (reads_block complete starts read).map Stmt.block

theorem reads_group (complete : Complete cut expression Expression expressionStops)
    {left right : Token} {tokens : List Token} {tree : Expr} (isLeft : left.kind = .leftParen)
    (inner : Expression tokens tree) (isRight : right.kind = .rightParen) (rest : List Token) :
    Reads cut (condition expression) (left :: tokens ++ right :: rest) tree rest := by
  refine (reads_accept_some (List.mem_singleton.mpr isLeft)).bind ?_
  refine (complete _ _ _ inner (Follows.cons (by simp [isRight]))).bind ?_
  exact (reads_expect _ isRight).map _

theorem reads_condition (complete : Complete cut expression Expression expressionStops)
    {tokens : List Token} {tree : Expr} (starts : StartsIn operandKinds Expression)
    (read : Phrase.Condition Expression tokens tree) (follows : Follows expressionStops rest) :
    Reads cut (condition expression) (tokens ++ rest) tree rest := by
  cases read with
  | grouped isLeft inner isRight =>
      rw [List.append_assoc]
      exact reads_group complete isLeft inner isRight rest
  | bare value noParen =>
      rcases starts _ _ value with ⟨first, others, rfl, -⟩
      have notGrouped : first.kind ∉ [TokenKind.leftParen] := by simpa using noParen first rfl
      refine (reads_accept_none (Follows.cons notGrouped)).bind ?_
      exact complete _ _ rest value follows

theorem complete_parameter :
    Complete cut (expect .identifier "parameter name") Phrase.Parameter [] := by
  rintro tokens tree rest ⟨isIdentifier⟩ -
  exact reads_expect _ isIdentifier

theorem reads_parameters {parameters names : List Token} {right : Token}
    (items : Phrase.Items Phrase.Parameter parameters names) (isRight : right.kind = .rightParen) :
    Reads cut (listed "parameters" (expect .identifier "parameter name"))
      (parameters ++ right :: rest) names (right :: rest) := by
  have startsName : StartsIn [.identifier] Phrase.Parameter := by
    rintro tokens tree ⟨isIdentifier⟩
    exact ⟨_, _, rfl, List.mem_singleton.mpr isIdentifier⟩
  exact reads_listed _ complete_parameter startsName (by decide) (by decide) (by decide) items
    isRight

theorem reads_functionDeclaration (complete : Complete cut declaration Declaration [.elseWord])
    (starts : StartsIn (keywordKinds ++ operandKinds) Declaration) {name left right : Token}
    {parameters body names : List Token} {trees : List Stmt}
    (isIdentifier : name.kind = .identifier) (isLeft : left.kind = .leftParen)
    (items : Phrase.Items Phrase.Parameter parameters names) (isRight : right.kind = .rightParen)
    (read : Phrase.Block Declaration body trees) :
    Reads cut (functionDeclaration declaration)
      (name :: left :: (parameters ++ right :: (body ++ rest)))
      (.function name names trees) rest := by
  rcases StartsIn.block Declaration body trees read with ⟨brace, others, rfl, isBrace⟩
  refine (reads_expect _ isIdentifier).bind ((reads_expect _ isLeft).bind ?_)
  refine (reads_parameters items isRight).bind ?_
  refine (reads_expect _ isRight).bind ((reads_expect _ (List.mem_singleton.mp isBrace)).bind ?_)
  exact (reads_block complete starts read).map _

theorem reads_forInitializer (complete : Complete cut expression Expression expressionStops)
    (starts : StartsIn operandKinds Expression) {tokens : List Token} {initializer : Option Stmt}
    (read : Phrase.Initializer Expression tokens initializer) :
    Reads cut (forInitializer expression) (tokens ++ rest) initializer rest := by
  cases read with
  | absent isSemicolon =>
      refine (reads_accept_some (by simp [isSemicolon])).bind ?_
      simp only [isSemicolon, beq_self_eq_true, if_true]
      exact .pure none rest
  | var declaration =>
      rcases StartsIn.varDeclaration Expression _ _ declaration with ⟨keyword, others, rfl, isVar⟩
      rw [List.mem_singleton] at isVar
      refine (reads_accept_some (by simp [isVar])).bind ?_
      simp only [isVar]
      exact (reads_varDeclaration complete declaration).map some
  | expression statement =>
      refine (reads_accept_none (starts.expressionStatement.follows statement
        (by decide) rest)).bind ?_
      exact (reads_expressionStatement complete statement).map some

theorem complete_declarationRule {nested : Rule Stmt} {Nested : Phrase Stmt}
    (complete : Complete cut expression Expression expressionStops)
    (starts : StartsIn operandKinds Expression)
    (completeInner : Complete cut declaration Declaration [.elseWord])
    (startsInner : StartsIn (keywordKinds ++ operandKinds) Declaration)
    (completeNested : Complete cut nested Nested [.elseWord])
    (startsNested : StartsIn (keywordKinds ++ operandKinds) Nested) :
    Complete cut (declarationRule expression declaration nested)
      (Phrase.Declaration Expression Declaration Nested) [.elseWord] := by
  have braces : ∀ {tokens : List Token} {trees : List Stmt} (rest : List Token),
      Phrase.Block Nested tokens trees → Follows expressionStops (tokens ++ rest) :=
    fun rest read => (StartsIn.block Nested).follows read (by decide) rest
  intro tokens tree rest read follows
  cases read with
  | var read =>
      rcases StartsIn.varDeclaration Expression _ _ read with ⟨keyword, others, rfl, isVar⟩
      rw [List.mem_singleton] at isVar
      refine (reads_accept_some (by simp [isVar])).bind ?_
      simp only [isVar]
      exact reads_varDeclaration complete read
  | function isFun isIdentifier isLeft items isRight read =>
      simp only [List.append_assoc, List.cons_append]
      refine (reads_accept_some (by simp [isFun])).bind ?_
      simp only [isFun]
      exact reads_functionDeclaration completeInner startsInner isIdentifier isLeft items
        isRight read
  | print isPrint value isSemicolon =>
      simp only [List.append_assoc, List.cons_append]
      refine (reads_accept_some (by simp [isPrint])).bind ?_
      simp only [isPrint]
      refine (complete _ _ _ value (Follows.cons (by simp [isSemicolon]))).bind ?_
      exact (reads_expect _ isSemicolon).map _
  | block read =>
      rcases StartsIn.block Declaration _ _ read with ⟨left, others, rfl, isLeft⟩
      rw [List.mem_singleton] at isLeft
      refine (reads_accept_some (by simp [isLeft])).bind ?_
      simp only [isLeft]
      exact (reads_block completeInner startsInner read).map Stmt.block
  | ifThen isIf tested thenBlock =>
      simp only [List.append_assoc, List.cons_append]
      refine (reads_accept_some (by simp [isIf])).bind ?_
      simp only [isIf]
      refine (reads_condition complete starts tested (braces rest thenBlock)).bind ?_
      refine (reads_bracedBlock completeNested startsNested _ thenBlock).bind ?_
      refine (reads_accept_none follows).bind ?_
      exact .pure _ rest
  | ifElse isIf tested thenBlock isElse elseBlock =>
      simp only [List.append_assoc, List.cons_append]
      refine (reads_accept_some (by simp [isIf])).bind ?_
      simp only [isIf]
      refine (reads_condition complete starts tested (braces _ thenBlock)).bind ?_
      refine (reads_bracedBlock completeNested startsNested _ thenBlock).bind ?_
      refine (reads_accept_some (List.mem_singleton.mpr isElse)).bind ?_
      refine ((reads_bracedBlock completeNested startsNested _ elseBlock).map some).bind ?_
      exact .pure _ rest
  | whileLoop isWhile tested body =>
      simp only [List.append_assoc, List.cons_append]
      refine (reads_accept_some (by simp [isWhile])).bind ?_
      simp only [isWhile]
      refine (reads_condition complete starts tested (braces rest body)).bind ?_
      exact (reads_bracedBlock completeNested startsNested _ body).map _
  | forLoop isFor isLeft started tested isSemicolon stepped isRight body =>
      simp only [List.append_assoc, List.cons_append]
      refine (reads_accept_some (by simp [isFor])).bind ?_
      simp only [isFor]
      refine (reads_expect _ isLeft).bind ?_
      refine (reads_forInitializer complete starts started).bind ?_
      refine (reads_unlessNext complete starts (by decide) (by decide) tested isSemicolon).bind ?_
      refine (reads_expect _ isSemicolon).bind ?_
      refine (reads_unlessNext complete starts (by decide) (by decide) stepped isRight).bind ?_
      refine (reads_expect _ isRight).bind ?_
      exact (reads_bracedBlock completeNested startsNested _ body).map _
  | breakLoop isBreak isSemicolon =>
      refine (reads_accept_some (by simp [isBreak])).bind ?_
      simp only [isBreak]
      exact (reads_expect _ isSemicolon).map _
  | continueLoop isContinue isSemicolon =>
      refine (reads_accept_some (by simp [isContinue])).bind ?_
      simp only [isContinue]
      exact (reads_expect _ isSemicolon).map _
  | returnValue isReturn given isSemicolon =>
      simp only [List.append_assoc, List.cons_append]
      refine (reads_accept_some (by simp [isReturn])).bind ?_
      simp only [isReturn]
      refine (reads_unlessNext complete starts (by decide) (by decide) given isSemicolon).bind ?_
      exact (reads_expect _ isSemicolon).map _
  | expression statement =>
      have noKeyword : Follows keywordKinds (tokens ++ rest) :=
        starts.expressionStatement.follows statement (by decide) rest
      refine (reads_accept_none noKeyword).bind ?_
      exact reads_expressionStatement complete statement

theorem complete_recovering {rule : Rule Stmt} {phrase : Phrase Stmt} {stops : List TokenKind}
    (complete : Complete cut rule phrase stops) : Complete cut (recovering rule) phrase stops := by
  intro tokens tree rest read follows ending diagnostics
  rcases complete tokens tree rest read follows ending diagnostics with
    result | ⟨isCut, next, result⟩
  · exact .inl (by simp [recovering, result])
  · exact .inr ⟨isCut, next, by simp [recovering, result]⟩

end Statements

end Grammar
end LoxLang

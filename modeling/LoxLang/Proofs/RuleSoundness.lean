import LoxLang.Parser.Statements
import LoxLang.Proofs.Phrases

/-!
# Soundness of the rules

A rule is sound for a phrase if it only adds diagnostics, and if what it has read is such a phrase
whenever it gives a tree without adding any. A rule that is abandoned has added a diagnostic unless
it ran into the limit of nesting. Each rule of the grammar is sound for its production when the
rules that it is given are sound for theirs.
-/

namespace LoxLang

namespace Rule

variable {α β : Type} {first : Rule α} {next : α → Rule β} {cursor middle : Cursor}

theorem bind_of_ok {value : α} (result : first cursor = .ok value middle) :
    (first >>= next) cursor = next value middle := by
  simp only [bind, EStateM.bind, result]

theorem bind_of_error {panic : Panic} (result : first cursor = .error panic middle) :
    (first >>= next) cursor = .error panic middle := by
  simp only [bind, EStateM.bind, result]

end Rule

namespace Grammar

open Rule

/-- What a sound rule may leave behind. Either way the diagnostics have only grown. A tree is one of
the phrase if they have not grown at all, and a rule is abandoned without one more diagnostic only
because of the limit of nesting. -/
def Keeps {α : Type} (phrase : Phrase α) (cursor : Cursor) :
    EStateM.Result Panic Cursor α → Prop
  | .ok tree next => ∃ new, next.diagnostics = cursor.diagnostics ++ new ∧
      (new = [] → ∃ tokens, cursor.rest = tokens ++ next.rest ∧ phrase tokens tree)
  | .error panic next => ∃ new, next.diagnostics = cursor.diagnostics ++ new ∧
      (new = [] → panic = .depth)

/-- Whether a rule gives trees of a phrase only, as long as it has nothing to report. -/
def Sound {α : Type} (rule : Rule α) (phrase : Phrase α) : Prop :=
  ∀ cursor, Keeps phrase cursor (rule cursor)

namespace Keeps

variable {α β : Type}

/-- A rule that adds no diagnostic and has read some tokens. -/
theorem quiet {phrase : Phrase α} {cursor next : Cursor} {tree : α} {tokens : List Token}
    (same : next.diagnostics = cursor.diagnostics) (consumed : cursor.rest = tokens ++ next.rest)
    (holds : phrase tokens tree) : Keeps phrase cursor (.ok tree next) :=
  ⟨[], by simp [same], fun _ => ⟨tokens, consumed, holds⟩⟩

theorem mono {narrow wide : Phrase α} {cursor : Cursor} {result : EStateM.Result Panic Cursor α}
    (kept : Keeps narrow cursor result)
    (included : ∀ tokens rest tree, cursor.rest = tokens ++ rest → narrow tokens tree →
      wide tokens tree) :
    Keeps wide cursor result := by
  cases result with
  | error panic next => exact kept
  | ok tree next =>
      rcases kept with ⟨new, grown, read⟩
      refine ⟨new, grown, fun quiet => ?_⟩
      rcases read quiet with ⟨tokens, consumed, phrase⟩
      exact ⟨tokens, consumed, included tokens next.rest tree consumed phrase⟩

/-- What is kept from a cursor in the middle on is kept from the cursor before it on. -/
theorem after {read : Phrase α} {phrase : Phrase β} {cursor middle : Cursor} {value : α}
    {result : EStateM.Result Panic Cursor β} (kept : Keeps read cursor (.ok value middle))
    (continues : ∀ left,
      Keeps (fun right tree => read left value → phrase (left ++ right) tree) middle result) :
    Keeps phrase cursor result := by
  rcases kept with ⟨new, grown, consumes⟩
  cases result with
  | error panic final =>
      rcases continues [] with ⟨new', grown', isDepth⟩
      refine ⟨new ++ new', by rw [grown', grown, List.append_assoc], fun quiet => ?_⟩
      exact isDepth (List.append_eq_nil_iff.mp quiet).2
  | ok tree final =>
      rcases continues [] with ⟨new', grown', -⟩
      refine ⟨new ++ new', by rw [grown', grown, List.append_assoc], fun quiet => ?_⟩
      rcases List.append_eq_nil_iff.mp quiet with ⟨rfl, rfl⟩
      rcases consumes rfl with ⟨left, consumed, readLeft⟩
      rcases continues left with ⟨new, grown', consumes'⟩
      have quiet : new = [] := by simp_all
      rcases consumes' quiet with ⟨right, consumed', readRight⟩
      exact ⟨left ++ right, by rw [consumed, consumed', List.append_assoc], readRight readLeft⟩

end Keeps

namespace Sound

variable {α β : Type}

theorem mono {rule : Rule α} {narrow wide : Phrase α} (sound : Sound rule narrow)
    (included : ∀ tokens tree, narrow tokens tree → wide tokens tree) : Sound rule wide :=
  fun cursor => (sound cursor).mono fun tokens _ tree _ => included tokens tree

theorem pure {phrase : Phrase α} {tree : α} (holds : phrase [] tree) :
    Sound (Pure.pure tree) phrase :=
  fun _ => Keeps.quiet rfl rfl holds

/-- One rule after another. What the first one has read is a hypothesis about what the second one
reads, so that the second one has to be sound whatever the first one gave. -/
theorem bind {first : Rule α} {next : α → Rule β} {read : Phrase α} {phrase : Phrase β}
    (sound : Sound first read)
    (continues : ∀ left value,
      Sound (next value) fun right tree => read left value → phrase (left ++ right) tree) :
    Sound (first >>= next) phrase := by
  intro cursor
  have kept := sound cursor
  cases result : first cursor with
  | error panic middle =>
      rw [bind_of_error result]
      rw [result] at kept
      exact kept
  | ok value middle =>
      rw [bind_of_ok result]
      rw [result] at kept
      exact kept.after fun left => continues left value middle

theorem map {rule : Rule α} {read : Phrase α} {phrase : Phrase β} {change : α → β}
    (sound : Sound rule read)
    (included : ∀ tokens tree, read tokens tree → phrase tokens (change tree)) :
    Sound (change <$> rule) phrase := by
  refine Sound.bind sound fun left value => Sound.pure fun readLeft => ?_
  simpa using included left value readLeft

end Sound

/-! ## Reading single tokens -/

theorem sound_fail {α : Type} (fault : GrammarFault) (phrase : Phrase α) :
    Sound (fail fault) phrase :=
  fun cursor => ⟨[Diagnostic.atToken cursor.peek "Parser" fault.message], rfl, by simp⟩

theorem sound_tooDeep {α : Type} (phrase : Phrase α) : Sound tooDeep phrase :=
  fun _ => ⟨[], by simp, fun _ => rfl⟩

theorem sound_report (token : Token) (fault : GrammarFault) (phrase : Phrase Unit) :
    Sound (report token fault) phrase :=
  fun _ => ⟨[Diagnostic.atToken token "Parser" fault.message], rfl, by simp⟩

theorem sound_reportNext (fault : GrammarFault) (phrase : Phrase Unit) :
    Sound (reportNext fault) phrase :=
  fun cursor => ⟨[Diagnostic.atToken cursor.peek "Parser" fault.message], rfl, by simp⟩

/-- The phrase of a rule that reads nothing. -/
def Phrase.Nothing {α : Type} : Phrase α := fun tokens _ => tokens = []

/-- A rule behind one that reads nothing. -/
theorem Sound.peek {α β : Type} {first : Rule α} {next : α → Rule β} {phrase : Phrase β}
    (sound : Sound first Phrase.Nothing) (continues : ∀ value, Sound (next value) phrase) :
    Sound (first >>= next) phrase := by
  refine Sound.bind sound fun left value => (continues value).mono fun right tree read nothing => ?_
  rw [show left = [] from nothing]
  exact read

theorem sound_isNext (kind : TokenKind) : Sound (isNext kind) Phrase.Nothing := by
  intro cursor
  unfold isNext
  split <;> exact Keeps.quiet rfl rfl rfl

theorem sound_isAtEnd : Sound isAtEnd Phrase.Nothing :=
  fun _ => Keeps.quiet rfl rfl rfl

theorem sound_bound : Sound bound Phrase.Nothing :=
  fun _ => Keeps.quiet rfl rfl rfl

/-- The phrase of `accept?`: a token of one of the kinds, or nothing. -/
def Phrase.Accepted (kinds : List TokenKind) : Phrase (Option Token)
  | tokens, none => tokens = []
  | tokens, some token => tokens = [token] ∧ token.kind ∈ kinds

theorem sound_accept (kinds : List TokenKind) : Sound (accept? kinds) (Phrase.Accepted kinds) := by
  intro cursor
  unfold accept?
  split
  · next token rest shape =>
      split
      · next isKind =>
          exact Keeps.quiet rfl shape ⟨rfl, List.contains_iff_mem.mp isKind⟩
      · exact Keeps.quiet rfl rfl rfl
  · exact Keeps.quiet rfl rfl rfl

theorem accept_none {kinds : List TokenKind} {cursor : Cursor}
    (others : ∀ first ∈ cursor.rest.head?, first.kind ∉ kinds) :
    accept? kinds cursor = .ok none cursor := by
  unfold accept?
  split
  · next token rest shape =>
      have absent : token.kind ∉ kinds := others token (by simp [shape])
      simp [absent]
  · rfl

theorem accept_some {kinds : List TokenKind} {cursor : Cursor} {token : Token} {rest : List Token}
    (shape : cursor.rest = token :: rest) (isKind : token.kind ∈ kinds) :
    accept? kinds cursor = .ok (some token) { cursor with rest } := by
  simp [accept?, shape, isKind]

/-- The phrase of `expect`: one token of a kind. -/
def Phrase.Expected (kind : TokenKind) : Phrase Token :=
  fun tokens token => tokens = [token] ∧ token.kind = kind

theorem sound_expect (kind : TokenKind) (phrase : String) :
    Sound (expect kind phrase) (Phrase.Expected kind) := by
  intro cursor
  unfold expect
  split
  · next token rest shape =>
      split
      · next isKind => exact Keeps.quiet rfl shape ⟨rfl, beq_iff_eq.mp isKind⟩
      · exact sound_fail _ _ cursor
  · exact sound_fail _ _ cursor

/-! ## Loops -/

/-- A loop keeps what every turn of it keeps. -/
theorem sound_iterate {α : Type} {step : α → Rule (Option α)} (phrase : Phrase α)
    (turn : ∀ value, Sound (step value) fun tokens taken =>
      ∀ left, phrase left value → phrase (left ++ tokens) (taken.getD value))
    (bound : List Token) (value : α) :
    Sound (iterate step bound value) fun tokens tree =>
      ∀ left, phrase left value → phrase (left ++ tokens) tree := by
  induction bound generalizing value with
  | nil => exact Sound.pure fun left before => by simpa using before
  | cons _ bound ih =>
      refine Sound.bind (turn value) fun middle taken => ?_
      cases taken with
      | none =>
          refine Sound.pure fun turned left before => ?_
          simpa using turned left before
      | some next =>
          refine (ih next).mono fun right tree read turned left before => ?_
          rw [← List.append_assoc]
          exact read (left ++ middle) (turned left before)

/-- What a turn of `collect` reads: an item that goes in front of what is collected after it, or
nothing. -/
def Phrase.Turn {α : Type} (phrase : Nat → Phrase (List α)) (index : Nat) : Phrase (Option α)
  | tokens, none => tokens = []
  | tokens, some tree => ∀ rest trees, phrase (index + 1) rest trees →
      phrase index (tokens ++ rest) (tree :: trees)

theorem sound_collect {α : Type} {item : Nat → Rule (Option α)} (phrase : Nat → Phrase (List α))
    (ended : ∀ index, phrase index [] [])
    (turn : ∀ index, Sound (item index) (Phrase.Turn phrase index))
    (bound : List Token) (index : Nat) : Sound (collect item bound index) (phrase index) := by
  induction bound generalizing index with
  | nil => exact Sound.pure (ended index)
  | cons _ bound ih =>
      refine Sound.bind (turn index) fun left taken => ?_
      cases taken with
      | none =>
          refine Sound.pure fun nothing => ?_
          rw [show left = [] from nothing]
          exact ended index
      | some tree =>
          exact Sound.map (ih (index + 1)) fun rest trees read turned => turned rest trees read

/-- Items from a number on, as long as there are at most 255 in all. -/
def Phrase.FurtherItems {α : Type} (Item : Phrase α) (index : Nat) : Phrase (List α) :=
  fun tokens trees => index ≤ 255 →
    Phrase.Many (Phrase.Further Item) tokens trees ∧ index + trees.length ≤ 255

/-- Items are counted, and one that is too many is reported. -/
theorem sound_separated {α : Type} {item : Rule α} {Item : Phrase α} (items : String)
    (sound : Sound item Item) : Sound (separated items item) (Phrase.Items Item) := by
  refine Sound.bind sound fun left first => sound_bound.peek fun bound => ?_
  refine Sound.map (sound_collect (Phrase.FurtherItems Item) ?_ ?_ bound 1) ?_
  · exact fun index atMost => ⟨.done, atMost⟩
  · intro index
    refine Sound.bind (sound_accept _) fun comma taken => ?_
    cases taken with
    | none =>
        refine Sound.pure fun isNothing => ?_
        rw [show comma = [] from isNothing]
        rfl
    | some token =>
        dsimp only
        split
        · next tooMany =>
            refine Sound.bind (sound_reportNext _ fun _ _ => False) fun _ _ => ?_
            exact Sound.map sound fun _ _ _ impossible => impossible.elim
        · next few =>
            refine Sound.map sound fun tokens tree read accepted rest trees further atMost => ?_
            rcases accepted with ⟨rfl, isComma⟩
            have bounded : index + 1 ≤ 255 := Nat.not_le.mp few
            rcases further bounded with ⟨others, total⟩
            refine ⟨?_, by simp only [List.length_cons]; omega⟩
            exact .more (.rule (List.mem_singleton.mp isComma) read) others
  · intro rest trees further read
    rcases further (by decide) with ⟨others, total⟩
    exact .present read others (by simp only [List.length_cons]; omega)

theorem sound_listed {α : Type} {item : Rule α} {Item : Phrase α} (items : String)
    (sound : Sound item Item) : Sound (listed items item) (Phrase.Items Item) := by
  refine (sound_isNext _).peek fun isRight => ?_
  cases isRight with
  | true => exact Sound.pure .absent
  | false => exact sound_separated items sound

/-! ## Expressions -/

theorem sound_chain {operators : List TokenKind} {join : Expr → Token → Expr → Expr}
    {operand : Rule Expr} {Operand : Phrase Expr} (sound : Sound operand Operand) :
    Sound (chain operators join operand) (Phrase.Chain operators join Operand) := by
  refine Sound.bind sound fun tokens first => sound_bound.peek fun bound => ?_
  refine (sound_iterate (Phrase.Chain operators join Operand) (fun value => ?_) bound first).mono ?_
  · refine Sound.bind (sound_accept _) fun accepted taken => ?_
    cases taken with
    | none =>
        refine Sound.pure fun isNothing left chain => ?_
        rw [show accepted = [] from isNothing]
        simpa using chain
    | some operator =>
        refine Sound.map sound fun right second read isOperator left chain => ?_
        rcases isOperator with ⟨rfl, isOperator⟩
        exact .joined chain isOperator read
  · intro right tree extended read
    exact extended tokens (.operand read)

theorem sound_logical {unary : Rule Expr} {Unary : Phrase Expr} (sound : Sound unary Unary) :
    Sound (logical unary) (Phrase.Logical Unary) :=
  sound_chain (sound_chain (sound_chain (sound_chain (sound_chain sound))))

theorem sound_ternaryRule {logical ternary : Rule Expr} {Logical Ternary : Phrase Expr}
    (soundLogical : Sound logical Logical) (soundTernary : Sound ternary Ternary) :
    Sound (ternaryRule logical ternary) (Phrase.Ternary Logical Ternary) := by
  refine Sound.bind soundLogical fun tokens condition => ?_
  refine Sound.bind (sound_accept _) fun accepted taken => ?_
  cases taken with
  | none =>
      refine Sound.pure fun isNothing read => ?_
      rw [show accepted = [] from isNothing]
      simpa using Phrase.Ternary.plain read
  | some question =>
      refine Sound.bind soundTernary fun first thenBranch => ?_
      refine Sound.bind (sound_expect _ _) fun expected colon => ?_
      refine Sound.map soundTernary fun second elseBranch elsePart isColon thenPart
        isQuestion read => ?_
      rcases isQuestion with ⟨rfl, isQuestion⟩
      rcases isColon with ⟨rfl, isColon⟩
      have choice :=
        Phrase.Ternary.choice read (List.mem_singleton.mp isQuestion) thenPart isColon elsePart
      simpa using choice

/-- Whether a variable is a phrase only as a single identifier. -/
def NamesVariables (phrase : Phrase Expr) : Prop :=
  ∀ tokens name, phrase tokens (.variable name) → tokens = [name] ∧ name.kind = .identifier

theorem sound_assignmentRule {ternary assignment : Rule Expr} {Ternary Assignment : Phrase Expr}
    (soundTernary : Sound ternary Ternary) (names : NamesVariables Ternary)
    (soundAssignment : Sound assignment Assignment) :
    Sound (assignmentRule ternary assignment) (Phrase.Assignment Ternary Assignment) := by
  refine Sound.bind soundTernary fun tokens target => ?_
  refine Sound.bind (sound_accept _) fun accepted taken => ?_
  cases taken with
  | none =>
      refine Sound.pure fun isNothing read => ?_
      rw [show accepted = [] from isNothing]
      simpa using Phrase.Assignment.plain read
  | some equals =>
      refine Sound.bind soundAssignment fun right value => ?_
      split
      · next name =>
          refine Sound.pure fun valueRead isEqual read => ?_
          rcases names tokens name read with ⟨rfl, isIdentifier⟩
          rcases isEqual with ⟨rfl, isEqual⟩
          rw [List.append_nil]
          exact .assign isIdentifier (List.mem_singleton.mp isEqual) valueRead
      · refine Sound.bind (sound_report _ _ fun _ _ => False) fun _ _ => ?_
        exact Sound.pure fun impossible => impossible.elim

theorem sound_unaryRule {unary call : Rule Expr} {Unary Call : Phrase Expr}
    (soundUnary : Sound unary Unary) (soundCall : Sound call Call) :
    Sound (unaryRule unary call) (Phrase.Unary Unary Call) := by
  refine Sound.bind (sound_accept _) fun accepted taken => ?_
  cases taken with
  | none =>
      refine soundCall.mono fun tokens tree read isNothing => ?_
      rw [show accepted = [] from isNothing]
      exact .call read
  | some operator =>
      refine Sound.map soundUnary fun tokens tree read isOperator => ?_
      rcases isOperator with ⟨rfl, isOperator⟩
      exact .signed isOperator read

theorem sound_primary {expression : Rule Expr} {Expression : Phrase Expr}
    (sound : Sound expression Expression) :
    Sound (primary expression) (Phrase.Primary Expression) := by
  refine Sound.bind (sound_accept _) fun accepted taken => ?_
  cases taken with
  | none => exact sound_fail _ _
  | some token =>
      dsimp only
      split
      · next isFalse =>
          refine Sound.pure fun accepted => ?_
          rw [accepted.1]
          exact .falseWord isFalse
      · next isTrue =>
          refine Sound.pure fun accepted => ?_
          rw [accepted.1]
          exact .trueWord isTrue
      · next isNil =>
          refine Sound.pure fun accepted => ?_
          rw [accepted.1]
          exact .nilWord isNil
      · next isIdentifier =>
          refine Sound.pure fun accepted => ?_
          rw [accepted.1]
          exact .identifier isIdentifier
      · next isLeft =>
          refine Sound.bind sound fun tokens inner => ?_
          refine Sound.map (sound_expect _ _) fun expected right isRight read accepted => ?_
          rw [accepted.1, isRight.1]
          exact .group isLeft read isRight.2
      · next noFalse noTrue noNil noIdentifier noLeft =>
          refine Sound.pure fun accepted => ?_
          rw [accepted.1]
          rcases accepted with ⟨-, isLiteral⟩
          simp only [List.mem_cons, List.not_mem_nil, or_false] at isLiteral
          rcases isLiteral with isFalse | isTrue | isNil | isNumber | isString | isName | isLeft
          · exact absurd isFalse noFalse
          · exact absurd isTrue noTrue
          · exact absurd isNil noNil
          · exact .number isNumber
          · exact .string isString
          · exact absurd isName noIdentifier
          · exact absurd isLeft noLeft

theorem sound_arguments {expression : Rule Expr} {Expression : Phrase Expr}
    (sound : Sound expression Expression) (callee : Expr) :
    Sound (arguments expression callee) fun tokens tree =>
      ∃ items right trees, tokens = items ++ [right] ∧ Phrase.Items Expression items trees ∧
        right.kind = .rightParen ∧ tree = .call callee (some right) trees := by
  refine Sound.bind (sound_listed _ sound) fun tokens trees => ?_
  refine Sound.map (sound_expect _ _) fun expected right isRight read => ?_
  exact ⟨tokens, right, trees, by rw [isRight.1], read, isRight.2, rfl⟩

theorem sound_call {expression : Rule Expr} {Expression : Phrase Expr}
    (sound : Sound expression Expression) : Sound (call expression) (Phrase.Call Expression) := by
  refine Sound.bind (sound_primary sound) fun tokens first => sound_bound.peek fun bound => ?_
  refine (sound_iterate (Phrase.Call Expression) (fun callee => ?_) bound first).mono ?_
  · refine Sound.bind (sound_accept _) fun accepted taken => ?_
    cases taken with
    | none =>
        refine Sound.pure fun isNothing left called => ?_
        rw [show accepted = [] from isNothing]
        simpa using called
    | some paren =>
        refine Sound.map (sound_arguments sound callee) fun right tree read isLeft left called => ?_
        rcases read with ⟨items, close, trees, rfl, itemsRead, isRight, rfl⟩
        rcases isLeft with ⟨rfl, isLeft⟩
        have call := Phrase.Call.call called (List.mem_singleton.mp isLeft) itemsRead isRight
        simpa using call
  · intro right tree extended read
    exact extended tokens (.primary read)

/-! ## Statements -/

/-- The phrase of a rule that starts behind a keyword. -/
def Phrase.Behind {α : Type} (kind : TokenKind) (phrase : Phrase α) : Phrase α :=
  fun tokens tree => ∀ keyword, keyword.kind = kind → phrase (keyword :: tokens) tree

theorem sound_some {α : Type} {rule : Rule α} {phrase : Phrase α} (sound : Sound rule phrase) :
    Sound (some <$> rule) fun tokens given => ∃ tree, given = some tree ∧ phrase tokens tree :=
  Sound.map sound fun _ tree read => ⟨tree, rfl, read⟩

theorem sound_unlessNext {kind : TokenKind} {expression : Rule Expr} {Expression : Phrase Expr}
    (sound : Sound expression Expression) :
    Sound (unlessNext kind expression) (Phrase.Optional Expression) := by
  refine (sound_isNext _).peek fun isKind => ?_
  split
  · exact Sound.pure .absent
  · exact Sound.map sound fun tokens tree read => .present read

theorem sound_varDeclaration {expression : Rule Expr} {Expression : Phrase Expr}
    (sound : Sound expression Expression) :
    Sound (varDeclaration expression)
      (Phrase.Behind .varWord (Phrase.VarDeclaration Expression)) := by
  refine Sound.bind (sound_expect _ _) fun first name => ?_
  refine Sound.bind (sound_accept _) fun accepted taken => ?_
  cases taken with
  | none =>
      refine Sound.map (sound_expect _ _) fun expected semicolon isSemicolon isNothing isName => ?_
      intro keyword isVar
      rw [isName.1, isSemicolon.1, show accepted = [] from isNothing]
      exact .plain isVar isName.2 isSemicolon.2
  | some equals =>
      refine Sound.bind (sound_some sound) fun right value => ?_
      refine Sound.map (sound_expect _ _) fun expected semicolon isSemicolon read isEqual
        isName => ?_
      rcases read with ⟨tree, rfl, read⟩
      intro keyword isVar
      rw [isName.1, isEqual.1, isSemicolon.1]
      exact .initialized isVar isName.2 (List.mem_singleton.mp isEqual.2) read isSemicolon.2

theorem sound_expressionStatement {expression : Rule Expr} {Expression : Phrase Expr}
    (sound : Sound expression Expression) :
    Sound (expressionStatement expression) (Phrase.ExpressionStatement Expression) := by
  refine Sound.bind sound fun tokens value => ?_
  refine Sound.map (sound_expect _ _) fun expected semicolon isSemicolon read => ?_
  rw [isSemicolon.1]
  exact .rule read isSemicolon.2

theorem sound_block {declaration : Rule Stmt} {Declaration : Phrase Stmt}
    (sound : Sound declaration Declaration) :
    Sound (block declaration) (Phrase.Behind .leftBrace (Phrase.Block Declaration)) := by
  refine sound_bound.peek fun bound => ?_
  refine Sound.bind (sound_collect (fun _ => Phrase.Many Declaration) (fun _ => .done) ?_ bound 0)
    fun tokens trees => ?_
  · intro index
    refine (sound_isNext _).peek fun isRight => ?_
    cases isRight with
    | true => exact Sound.pure rfl
    | false =>
        refine sound_isAtEnd.peek fun isEnd => ?_
        cases isEnd with
        | true => exact Sound.pure rfl
        | false => exact Sound.map sound fun tokens tree read rest trees others => .more read others
  · refine Sound.map (sound_expect _ _) fun expected right isRight declarations => ?_
    intro left isLeft
    rw [isRight.1]
    exact .rule isLeft declarations isRight.2

theorem sound_bracedBlock {declaration : Rule Stmt} {Declaration : Phrase Stmt} (phrase : String)
    (sound : Sound declaration Declaration) :
    Sound (bracedBlock phrase declaration) fun tokens tree =>
      ∃ trees, tree = .block trees ∧ Phrase.Block Declaration tokens trees := by
  refine Sound.bind (sound_expect _ _) fun expected left => ?_
  refine Sound.map (sound_block sound) fun tokens trees read isLeft => ?_
  rw [isLeft.1]
  exact ⟨trees, rfl, read left isLeft.2⟩

theorem sound_functionDeclaration {declaration : Rule Stmt} {Declaration : Phrase Stmt}
    (sound : Sound declaration Declaration) (Expression : Phrase Expr) (Nested : Phrase Stmt) :
    Sound (functionDeclaration declaration)
      (Phrase.Behind .funWord (Phrase.Declaration Expression Declaration Nested)) := by
  have parameter : Sound (expect .identifier "parameter name") Phrase.Parameter :=
    (sound_expect _ _).mono fun tokens name ⟨shape, isIdentifier⟩ => shape ▸ .rule isIdentifier
  refine Sound.bind (sound_expect _ _) fun first name => ?_
  refine Sound.bind (sound_expect _ _) fun second left => ?_
  refine Sound.bind (sound_listed _ parameter) fun parameters names => ?_
  refine Sound.bind (sound_expect _ _) fun third right => ?_
  refine Sound.bind (sound_expect _ _) fun fourth brace => ?_
  refine Sound.map (sound_block sound)
    fun body trees read isBrace isRight items isLeft isName keyword isFun => ?_
  rw [isName.1, isLeft.1, isRight.1, isBrace.1]
  have function : Phrase.Declaration Expression Declaration Nested _ _ :=
    .function isFun isName.2 isLeft.2 items isRight.2 (read brace isBrace.2)
  simpa using function

theorem sound_condition {expression : Rule Expr} {Expression : Phrase Expr}
    (sound : Sound expression Expression) :
    Sound (condition expression) (Phrase.Condition Expression) := by
  intro cursor
  by_cases grouped : ∃ first ∈ cursor.rest.head?, first.kind ∈ [TokenKind.leftParen]
  · rcases grouped with ⟨left, isFirst, isLeft⟩
    rcases List.head?_eq_some_iff.mp isFirst with ⟨rest, shape⟩
    unfold condition
    rw [bind_of_ok (accept_some shape isLeft)]
    have kept : Keeps (Phrase.Accepted [.leftParen]) cursor
        (.ok (some left) { cursor with rest }) := Keeps.quiet rfl shape ⟨rfl, isLeft⟩
    refine kept.after fun accepted => ?_
    refine Sound.bind sound (fun tokens tree => ?_) _
    refine Sound.map (sound_expect _ _) fun expected right isRight read isAccepted => ?_
    rw [isAccepted.1, isRight.1]
    exact .grouped (List.mem_singleton.mp isAccepted.2) read isRight.2
  · have bare : ∀ first ∈ cursor.rest.head?, first.kind ∉ [TokenKind.leftParen] :=
      fun first isFirst isLeft => grouped ⟨first, isFirst, isLeft⟩
    have direct : condition expression cursor = expression cursor := by
      unfold condition
      rw [bind_of_ok (accept_none bare)]
    rw [direct]
    refine (sound cursor).mono fun tokens rest tree consumed read => .bare read ?_
    intro first isFirst isLeft
    refine bare first ?_ (List.mem_singleton.mpr isLeft)
    simp [consumed, List.head?_append, Option.mem_def.mp isFirst]

theorem sound_ifStatement {expression : Rule Expr} {declaration : Rule Stmt}
    {Expression : Phrase Expr} {Nested : Phrase Stmt}
    (soundExpression : Sound expression Expression)
    (soundNested : Sound declaration Nested) (Inner : Phrase Stmt) :
    Sound (ifStatement expression declaration)
      (Phrase.Behind .ifWord (Phrase.Declaration Expression Inner Nested)) := by
  refine Sound.bind (sound_condition soundExpression) fun tokens condition => ?_
  refine Sound.bind (sound_bracedBlock _ soundNested) fun first thenBranch => ?_
  refine Sound.bind (sound_accept _) fun accepted taken => ?_
  cases taken with
  | none =>
      refine Sound.pure fun isNothing thenRead tested keyword isIf => ?_
      rcases thenRead with ⟨thenTrees, rfl, thenBlock⟩
      rw [show accepted = [] from isNothing]
      have statement : Phrase.Declaration Expression Inner Nested _ _ :=
        .ifThen isIf tested thenBlock
      simpa using statement
  | some otherwise =>
      refine Sound.bind (sound_some (sound_bracedBlock _ soundNested)) fun second elseBranch => ?_
      refine Sound.pure fun elseRead isElse thenRead tested keyword isIf => ?_
      rcases elseRead with ⟨-, rfl, elseTrees, rfl, elseBlock⟩
      rcases thenRead with ⟨thenTrees, rfl, thenBlock⟩
      rw [isElse.1]
      have statement : Phrase.Declaration Expression Inner Nested _ _ :=
        .ifElse isIf tested thenBlock (List.mem_singleton.mp isElse.2) elseBlock
      simpa using statement

theorem sound_whileStatement {expression : Rule Expr} {declaration : Rule Stmt}
    {Expression : Phrase Expr} {Nested : Phrase Stmt}
    (soundExpression : Sound expression Expression)
    (soundNested : Sound declaration Nested) (Inner : Phrase Stmt) :
    Sound (whileStatement expression declaration)
      (Phrase.Behind .whileWord (Phrase.Declaration Expression Inner Nested)) := by
  refine Sound.bind (sound_condition soundExpression) fun tokens condition => ?_
  refine Sound.map (sound_bracedBlock _ soundNested) fun body tree read tested keyword isWhile => ?_
  rcases read with ⟨trees, rfl, block⟩
  exact .whileLoop isWhile tested block

theorem sound_forInitializer {expression : Rule Expr} {Expression : Phrase Expr}
    (sound : Sound expression Expression) :
    Sound (forInitializer expression) (Phrase.Initializer Expression) := by
  refine Sound.bind (sound_accept _) fun accepted taken => ?_
  cases taken with
  | none =>
      refine (sound_some (sound_expressionStatement sound)).mono fun tokens given read
        isNothing => ?_
      rcases read with ⟨tree, rfl, statement⟩
      rw [show accepted = [] from isNothing]
      exact .expression statement
  | some token =>
      dsimp only
      split
      · next isSemicolon =>
          refine Sound.pure fun isAccepted => ?_
          rw [isAccepted.1]
          exact .absent (beq_iff_eq.mp isSemicolon)
      · next noSemicolon =>
          refine (sound_some (sound_varDeclaration sound)).mono fun tokens given read
            isAccepted => ?_
          rcases read with ⟨tree, rfl, declaration⟩
          have isVar : token.kind = .varWord := by
            have isKind := isAccepted.2
            simp_all
          rw [isAccepted.1]
          exact .var (declaration token isVar)

theorem sound_forStatement {expression : Rule Expr} {declaration : Rule Stmt}
    {Expression : Phrase Expr} {Nested : Phrase Stmt}
    (soundExpression : Sound expression Expression)
    (soundNested : Sound declaration Nested) (Inner : Phrase Stmt) :
    Sound (forStatement expression declaration)
      (Phrase.Behind .forWord (Phrase.Declaration Expression Inner Nested)) := by
  refine Sound.bind (sound_expect _ _) fun opening left => ?_
  refine Sound.bind (sound_forInitializer soundExpression) fun first initializer => ?_
  refine Sound.bind (sound_unlessNext soundExpression) fun second condition => ?_
  refine Sound.bind (sound_expect _ _) fun middle semicolon => ?_
  refine Sound.bind (sound_unlessNext soundExpression) fun third increment => ?_
  refine Sound.bind (sound_expect _ _) fun closing right => ?_
  refine Sound.map (sound_bracedBlock _ soundNested)
    fun body tree read isRight stepped isSemicolon tested started isLeft keyword isFor => ?_
  rcases read with ⟨trees, rfl, block⟩
  rw [isLeft.1, isSemicolon.1, isRight.1]
  have statement : Phrase.Declaration Expression Inner Nested _ _ :=
    .forLoop isFor isLeft.2 started tested isSemicolon.2 stepped isRight.2 block
  simpa using statement

theorem sound_loopExit (word : String) (statement : Stmt) :
    Sound (loopExit word statement) fun tokens tree =>
      ∃ semicolon, tokens = [semicolon] ∧ semicolon.kind = .semicolon ∧ tree = statement :=
  Sound.map (sound_expect _ _) fun _ semicolon isSemicolon =>
    ⟨semicolon, isSemicolon.1, isSemicolon.2, rfl⟩

theorem sound_returnStatement {expression : Rule Expr} {Expression : Phrase Expr}
    (sound : Sound expression Expression) (keyword : Token) (Inner Nested : Phrase Stmt) :
    Sound (returnStatement keyword expression) fun tokens tree =>
      keyword.kind = .returnWord →
        Phrase.Declaration Expression Inner Nested (keyword :: tokens) tree := by
  refine Sound.bind (sound_unlessNext sound) fun tokens value => ?_
  refine Sound.map (sound_expect _ _) fun expected semicolon isSemicolon given isReturn => ?_
  rw [isSemicolon.1]
  exact .returnValue isReturn given isSemicolon.2

theorem sound_declarationRule {expression : Rule Expr} {declaration nested : Rule Stmt}
    {Expression : Phrase Expr} {Inner Nested : Phrase Stmt}
    (soundExpression : Sound expression Expression) (soundInner : Sound declaration Inner)
    (soundNested : Sound nested Nested) :
    Sound (declarationRule expression declaration nested)
      (Phrase.Declaration Expression Inner Nested) := by
  refine Sound.bind (sound_accept _) fun accepted taken => ?_
  cases taken with
  | none =>
      refine (sound_expressionStatement soundExpression).mono fun tokens tree read isNothing => ?_
      rw [show accepted = [] from isNothing]
      exact .expression read
  | some keyword =>
      dsimp only
      split
      · next isVar =>
          refine (sound_varDeclaration soundExpression).mono fun tokens tree read isAccepted => ?_
          rw [isAccepted.1]
          exact .var (read keyword isVar)
      · next isFun =>
          refine (sound_functionDeclaration soundInner Expression Nested).mono
            fun tokens tree read isAccepted => ?_
          rw [isAccepted.1]
          exact read keyword isFun
      · next isPrint =>
          refine Sound.bind soundExpression fun tokens value => ?_
          refine Sound.map (sound_expect _ _)
            fun expected semicolon isSemicolon read isAccepted => ?_
          rw [isAccepted.1, isSemicolon.1]
          exact .print isPrint read isSemicolon.2
      · next isLeft =>
          refine Sound.map (sound_block soundInner) fun tokens trees read isAccepted => ?_
          rw [isAccepted.1]
          exact .block (read keyword isLeft)
      · next isIf =>
          refine (sound_ifStatement soundExpression soundNested Inner).mono
            fun tokens tree read isAccepted => ?_
          rw [isAccepted.1]
          exact read keyword isIf
      · next isWhile =>
          refine (sound_whileStatement soundExpression soundNested Inner).mono
            fun tokens tree read isAccepted => ?_
          rw [isAccepted.1]
          exact read keyword isWhile
      · next isFor =>
          refine (sound_forStatement soundExpression soundNested Inner).mono
            fun tokens tree read isAccepted => ?_
          rw [isAccepted.1]
          exact read keyword isFor
      · next isBreak =>
          refine (sound_loopExit _ _).mono fun tokens tree read isAccepted => ?_
          rcases read with ⟨semicolon, rfl, isSemicolon, rfl⟩
          rw [isAccepted.1]
          exact .breakLoop isBreak isSemicolon
      · next isContinue =>
          refine (sound_loopExit _ _).mono fun tokens tree read isAccepted => ?_
          rcases read with ⟨semicolon, rfl, isSemicolon, rfl⟩
          rw [isAccepted.1]
          exact .continueLoop isContinue isSemicolon
      · next noVar noFun noPrint noLeft noIf noWhile noFor noBreak noContinue =>
          refine (sound_returnStatement soundExpression keyword Inner Nested).mono
            fun tokens tree read isAccepted => ?_
          have isReturn : keyword.kind = .returnWord := by
            have isKind := isAccepted.2
            simp only [List.mem_cons, List.not_mem_nil, or_false] at isKind
            simp_all
          rw [isAccepted.1]
          exact read isReturn

/-- A declaration that is abandoned because of a fault leaves a hole, but it has been reported. -/
theorem sound_recovering {rule : Rule Stmt} {phrase : Phrase Stmt} (sound : Sound rule phrase) :
    Sound (recovering rule) phrase := by
  intro cursor
  have kept := sound cursor
  unfold recovering
  cases result : rule cursor with
  | ok tree next => simpa [result] using kept
  | error panic next =>
      rw [result] at kept
      cases panic with
      | depth => exact kept
      | fault =>
          rcases kept with ⟨new, grown, isDepth⟩
          refine ⟨new, ?_, fun quiet => by simpa using isDepth quiet⟩
          rw [← grown, Cursor.synchronize]
          split <;> rfl

end Grammar
end LoxLang

import LoxLang.Proofs.TreeTokens

/-!
# What rules read

A rule of the grammar moves on in the list of tokens and queues diagnostics, and in the end it gives
a tree or is abandoned. A `Grammar.Reading` is what a rule makes of some tokens: no rule ever comes
outside of the list, what it reports is located at a token of the text, and it is abandoned because
of a fault only right after the next token was reported. A rule looks one token ahead and no
further, so that it does the same wherever more tokens follow, unless it has come to the end of the
list.

The loops of the grammar take their bound from the tokens that are left. Since every turn reads a
token, the bound is never what ends them: they are the loops that go on for as long as there is a
next turn.
-/

namespace LoxLang

theorem Expr.allTokens_eq_flatMap (expressions : List Expr) :
    Expr.allTokens expressions = expressions.flatMap Expr.tokens := by
  induction expressions with
  | nil => rfl
  | cons expression rest ih => rw [Expr.allTokens, ih, List.flatMap_cons]

namespace Rule

variable {α β ι : Type}

/-- The result of a rule that leaves a cursor behind: a tree, or why the rule was abandoned. -/
def answer (cursor : Cursor) : Except Panic α → EStateM.Result Panic Cursor α
  | .ok tree => .ok tree cursor
  | .error panic => .error panic cursor

/-! ## Loops without a bound -/

/-- The loop that takes turns as long as there is a next one. -/
def repeated (step : α → Rule (Option α)) (value : α) : Rule α :=
  fun cursor => iterate step cursor.rest value cursor

/-- The loop that collects items as long as there is a next one. -/
def gathered (item : Nat → Rule (Option α)) (index : Nat) : Rule (List α) :=
  fun cursor => collect item cursor.rest index cursor

/-- Whether the turns of a loop come to an end with the tokens: every turn that is not the last one
reads a token, and where there is none there is no next turn. -/
structure Turning (turn : ι → Rule (Option α)) : Prop where
  atEnd : ∀ value ending diagnostics,
    turn value ⟨[], ending, diagnostics⟩ = .ok none ⟨[], ending, diagnostics⟩
  progress : ∀ {value cursor next cursor'}, turn value cursor = .ok (some next) cursor' →
    cursor'.rest.length < cursor.rest.length

/-- `Bounded turn goOn stop loop` says how a loop with a bound is made of its turns: with what a
turn gives it goes on with a smaller bound, and it stops without a next turn or without a bound. How
it goes on depends on nothing but what it does later from the same cursor. -/
structure Bounded (turn : ι → Rule (Option α)) (goOn : ι → α → (ι → Rule β) → Rule β)
    (stop : ι → Rule β) (loop : List Token → ι → Rule β) : Prop where
  nil : ∀ value, loop [] value = stop value
  cons : ∀ token bound value, loop (token :: bound) value = turn value >>= fun taken =>
    taken.elim (stop value) fun next => goOn value next (loop bound)
  congr : ∀ {value next cursor later later'},
    (∀ value, later value cursor = later' value cursor) →
      goOn value next later cursor = goOn value next later' cursor

section Bounded

variable {turn : ι → Rule (Option α)} {goOn : ι → α → (ι → Rule β) → Rule β} {stop : ι → Rule β}
  {loop : List Token → ι → Rule β} (bounded : Bounded turn goOn stop loop) (turning : Turning turn)
include bounded turning

theorem Bounded.cons_atEnd (token : Token) (bound : List Token) (value : ι) (ending : Token)
    (diagnostics : List Diagnostic) :
    loop (token :: bound) value ⟨[], ending, diagnostics⟩ =
      loop [] value ⟨[], ending, diagnostics⟩ := by
  rw [bounded.cons, bind_of_ok (turning.atEnd _ _ _), bounded.nil]
  rfl

/-- A loop does the same with all bounds that are not smaller than the number of tokens. -/
theorem Bounded.eq_of_enough {value : ι} {cursor : Cursor} {bound bound' : List Token}
    (enough : cursor.rest.length ≤ bound.length) (enough' : cursor.rest.length ≤ bound'.length) :
    loop bound value cursor = loop bound' value cursor := by
  induction bound generalizing value cursor bound' with
  | nil =>
      rcases cursor with ⟨rest, ending, diagnostics⟩
      rcases List.eq_nil_of_length_eq_zero (Nat.le_zero.mp enough)
      cases bound' with
      | nil => rfl
      | cons token bound' => rw [bounded.cons_atEnd turning]
  | cons token bound ih =>
      cases bound' with
      | nil =>
          rcases cursor with ⟨rest, ending, diagnostics⟩
          rcases List.eq_nil_of_length_eq_zero (Nat.le_zero.mp enough')
          rw [bounded.cons_atEnd turning]
      | cons token' bound' =>
          rw [bounded.cons, bounded.cons]
          cases result : turn value cursor with
          | error panic next => rw [bind_of_error result, bind_of_error result]
          | ok taken next =>
              rw [bind_of_ok result, bind_of_ok result]
              cases taken with
              | none => rfl
              | some found =>
                  have shorter := turning.progress result
                  simp only [List.length_cons] at enough enough'
                  exact bounded.congr fun value => ih (by omega) (by omega)

/-- A loop that is bounded by the tokens that are left takes a turn, and goes on if that gives a
next one. -/
theorem Bounded.unbounded (value : ι) :
    (fun cursor => loop cursor.rest value cursor) = turn value >>= fun taken =>
      taken.elim (stop value) fun next =>
        goOn value next fun later cursor => loop cursor.rest later cursor := by
  funext cursor
  have oneMore : cursor.rest.length ≤ (cursor.ending :: cursor.rest).length := by simp
  rw [bounded.eq_of_enough turning (Nat.le_refl _) oneMore, bounded.cons]
  cases result : turn value cursor with
  | error panic next => rw [bind_of_error result, bind_of_error result]
  | ok taken next =>
      rw [bind_of_ok result, bind_of_ok result]
      cases taken with
      | none => rfl
      | some found =>
          have enough := Nat.le_of_lt (turning.progress result)
          exact bounded.congr fun value => bounded.eq_of_enough turning enough le_rfl

end Bounded

theorem bounded_iterate (step : α → Rule (Option α)) :
    Bounded step (fun _ next later => later next) pure (iterate step) where
  nil _ := rfl
  cons _ bound value := by
    rw [iterate]
    congr 1
    funext taken
    cases taken <;> rfl
  congr same := same _

theorem bounded_collect (item : Nat → Rule (Option α)) :
    Bounded item (fun index tree later => (tree :: ·) <$> later (index + 1)) (fun _ => pure [])
      (collect item) where
  nil _ := rfl
  cons _ bound index := by
    rw [collect]
    congr 1
    funext taken
    cases taken <;> rfl
  congr same := by
    simp only [Functor.map, EStateM.map, same]

theorem repeated_eq {step : α → Rule (Option α)} (turning : Turning step) (value : α) :
    repeated step value = step value >>= fun taken => taken.elim (pure value) (repeated step) :=
  (bounded_iterate step).unbounded turning value

theorem gathered_eq {item : Nat → Rule (Option α)} (turning : Turning item) (index : Nat) :
    gathered item index = item index >>= fun taken =>
      taken.elim (pure []) fun tree => (tree :: ·) <$> gathered item (index + 1) :=
  (bounded_collect item).unbounded turning index

end Rule

namespace Grammar

open Rule

/-! ## Readings -/

/-- Whether diagnostics are located at tokens of a text or at its end. -/
def Located (text : List Token) (ending : Token) (diagnostics : List Diagnostic) : Prop :=
  ∀ diagnostic ∈ diagnostics, ∃ token ∈ text ++ [ending], ∃ fault : GrammarFault,
    diagnostic = .atToken token "Parser" fault.message

/-- What a rule makes of some tokens: which of them it reads and which it leaves, what it reports,
and its reply. -/
structure Reading (α : Type) where
  read : List Token
  rest : List Token
  new : List Diagnostic
  reply : Except Panic α

/-- `reading.Of text ending rule tokens` says that a rule makes this of some tokens of a text. It
does the same if more tokens follow, unless it has come to the end of those that there are. -/
structure Reading.Of {α : Type} (text : List Token) (ending : Token) (rule : Rule α)
    (tokens : List Token) (reading : Reading α) : Prop where
  consumed : tokens = reading.read ++ reading.rest
  located : Located text ending reading.new
  abandoned : reading.reply = .error .fault → ∃ earlier, ∃ fault : GrammarFault,
    reading.new = earlier ++ [.atToken (reading.rest.headD ending) "Parser" fault.message]
  runs : ∀ more ending' earlier, (reading.rest = [] → more = [] ∧ ending' = ending) →
    rule ⟨tokens ++ more, ending', earlier⟩ =
      answer ⟨reading.rest ++ more, ending', earlier ++ reading.new⟩ reading.reply

/-- What is known of a tree by what was read and what was reported for it. -/
abbrev Account (α : Type) := List Token → List Diagnostic → α → Prop

/-- `Behaves text ending tokens rule account` says that a rule has a reading of some tokens of a
text, and that an account is true of the tree if it gives one. -/
def Behaves {α : Type} (text : List Token) (ending : Token) (tokens : List Token) (rule : Rule α)
    (account : Account α) : Prop :=
  tokens ⊆ text → ∃ reading : Reading α, reading.Of text ending rule tokens ∧
    ∀ tree, reading.reply = .ok tree → account reading.read reading.new tree

variable {α β : Type} {text tokens : List Token} {ending : Token}

theorem Located.append {left right : List Diagnostic} (leftLocated : Located text ending left)
    (rightLocated : Located text ending right) : Located text ending (left ++ right) :=
  List.forall_mem_append.mpr ⟨leftLocated, rightLocated⟩

theorem located_nil : Located text ending [] := by
  simp [Located]

theorem located_next (included : tokens ⊆ text) (fault : GrammarFault) :
    Located text ending [.atToken (tokens.headD ending) "Parser" fault.message] := by
  intro diagnostic isNext
  refine ⟨tokens.headD ending, ?_, fault, List.mem_singleton.mp isNext⟩
  cases tokens with
  | nil => simp
  | cons token rest => exact List.mem_append_left _ (included List.mem_cons_self)

namespace Behaves

theorem mono {rule : Rule α} {account weaker : Account α}
    (behaves : Behaves text ending tokens rule account)
    (included : ∀ read new tree, account read new tree → weaker read new tree) :
    Behaves text ending tokens rule weaker := by
  intro inText
  rcases behaves inText with ⟨reading, isReading, accounted⟩
  exact ⟨reading, isReading, fun tree isTree => included _ _ tree (accounted tree isTree)⟩

/-- A rule that gives a tree without a report. -/
theorem quiet {rule : Rule α} {account : Account α} {read rest : List Token} {tree : α}
    (consumed : tokens = read ++ rest)
    (runs : ∀ more ending' earlier, (rest = [] → more = [] ∧ ending' = ending) →
      rule ⟨tokens ++ more, ending', earlier⟩ = .ok tree ⟨rest ++ more, ending', earlier⟩)
    (accounted : account read [] tree) : Behaves text ending tokens rule account := by
  refine fun _ => ⟨⟨read, rest, [], .ok tree⟩, ⟨consumed, located_nil, nofun, ?_⟩, ?_⟩
  · intro more ending' earlier unlessEnd
    simpa [answer] using runs more ending' earlier unlessEnd
  · rintro _ ⟨⟩
    exact accounted

theorem pure {account : Account α} {tree : α} (accounted : account [] [] tree) :
    Behaves text ending tokens (Pure.pure tree) account :=
  quiet rfl (fun _ _ _ _ => rfl) accounted

/-- One rule after another. -/
theorem bind {first : Rule α} {next : α → Rule β} {firstAccount : Account α} {account : Account β}
    (behaves : Behaves text ending tokens first firstAccount)
    (continues : ∀ left middle new value, tokens = left ++ middle → firstAccount left new value →
      Behaves text ending middle (next value) fun right new' tree =>
        account (left ++ right) (new ++ new') tree) :
    Behaves text ending tokens (first >>= next) account := by
  intro inText
  rcases behaves inText with ⟨⟨left, middle, new, reply⟩, isFirst, accounted⟩
  have isTokens : tokens = left ++ middle := isFirst.consumed
  cases reply with
  | error panic =>
      refine ⟨⟨left, middle, new, .error panic⟩,
        ⟨isTokens, isFirst.located, fun isFault => ?_, ?_⟩, nofun⟩
      · cases isFault
        exact isFirst.abandoned rfl
      · intro more ending' earlier unlessEnd
        exact bind_of_error (isFirst.runs more ending' earlier unlessEnd)
  | ok value =>
      have inTextToo : middle ⊆ text := by
        rw [isTokens] at inText
        exact (List.append_subset.mp inText).2
      rcases continues left middle new value isTokens (accounted value rfl) inTextToo with
        ⟨⟨right, rest, new', reply⟩, isSecond, accounted'⟩
      have isMiddle : middle = right ++ rest := isSecond.consumed
      refine ⟨⟨left ++ right, rest, new ++ new', reply⟩,
        ⟨?_, isFirst.located.append isSecond.located, fun isFault => ?_, ?_⟩, accounted'⟩
      · rw [isTokens, isMiddle, List.append_assoc]
      · rcases isSecond.abandoned isFault with ⟨earlier, fault, isLast⟩
        dsimp only at isLast ⊢
        exact ⟨new ++ earlier, fault, by rw [isLast, List.append_assoc]⟩
      · intro more ending' earlier unlessEnd
        have unlessMiddle : middle = [] → more = [] ∧ ending' = ending := by
          intro isEnd
          rw [isMiddle] at isEnd
          exact unlessEnd (List.append_eq_nil_iff.mp isEnd).2
        rw [bind_of_ok (isFirst.runs more ending' earlier unlessMiddle)]
        simpa using isSecond.runs more ending' (earlier ++ new) unlessEnd

theorem map {rule : Rule α} {read : Account α} {account : Account β} {change : α → β}
    (behaves : Behaves text ending tokens rule read)
    (included : ∀ left new tree, read left new tree → account left new (change tree)) :
    Behaves text ending tokens (change <$> rule) account := by
  refine bind behaves fun left middle new value _ accounted => pure ?_
  simpa using included left new value accounted

end Behaves

/-! ## Reading single tokens -/

theorem headD_append {rest more : List Token} {ending' : Token}
    (unlessEnd : rest = [] → more = [] ∧ ending' = ending) :
    (rest ++ more).headD ending' = rest.headD ending := by
  cases rest with
  | nil =>
      rcases unlessEnd rfl with ⟨rfl, rfl⟩
      rfl
  | cons token rest => rfl

/-- A rule that is abandoned at once because of the next token. -/
theorem behaves_of_fails {rule : Rule α} (fault : GrammarFault)
    (fails : ∀ more ending' earlier, (tokens = [] → more = [] ∧ ending' = ending) →
      rule ⟨tokens ++ more, ending', earlier⟩ = fail fault ⟨tokens ++ more, ending', earlier⟩)
    (account : Account α) : Behaves text ending tokens rule account := by
  intro inText
  refine ⟨⟨[], tokens, [.atToken (tokens.headD ending) "Parser" fault.message], .error .fault⟩,
    ⟨rfl, located_next inText fault, fun _ => ⟨[], fault, rfl⟩, ?_⟩, nofun⟩
  intro more ending' earlier unlessEnd
  rw [fails more ending' earlier unlessEnd]
  simp only [fail, Cursor.report, Cursor.peek, headD_append unlessEnd, answer]

theorem behaves_fail (fault : GrammarFault) (account : Account α) :
    Behaves text ending tokens (fail fault) account :=
  behaves_of_fails fault (fun _ _ _ _ => rfl) account

theorem behaves_tooDeep (account : Account α) : Behaves text ending tokens tooDeep account := by
  refine fun _ => ⟨⟨[], tokens, [], .error .depth⟩, ⟨rfl, located_nil, nofun, ?_⟩, nofun⟩
  intro more ending' earlier unlessEnd
  simp [tooDeep, answer]

theorem behaves_report {token : Token} (isToken : token ∈ text) (fault : GrammarFault) :
    Behaves text ending tokens (report token fault) fun read _ _ => read = [] := by
  refine fun _ => ⟨⟨[], tokens, [.atToken token "Parser" fault.message], .ok ()⟩,
    ⟨rfl, fun diagnostic isNext => ?_, nofun, fun _ _ _ _ => rfl⟩, fun _ _ => rfl⟩
  exact ⟨token, List.mem_append_left _ isToken, fault, List.mem_singleton.mp isNext⟩

theorem behaves_reportNext (fault : GrammarFault) :
    Behaves text ending tokens (reportNext fault) fun read _ _ => read = [] := by
  intro inText
  refine ⟨⟨[], tokens, [.atToken (tokens.headD ending) "Parser" fault.message], .ok ()⟩,
    ⟨rfl, located_next inText fault, nofun, ?_⟩, fun _ _ => rfl⟩
  intro more ending' earlier unlessEnd
  simp only [reportNext, Cursor.report, Cursor.peek, headD_append unlessEnd, answer]

theorem behaves_isNext (kind : TokenKind) :
    Behaves text ending tokens (isNext kind) fun read new _ => read = [] ∧ new = [] := by
  cases tokens with
  | nil =>
      have runs : ∀ more ending' earlier, (([] : List Token) = [] → more = [] ∧ ending' = ending) →
          isNext kind ⟨[] ++ more, ending', earlier⟩ =
            .ok false ⟨[] ++ more, ending', earlier⟩ := by
        intro more ending' earlier unlessEnd
        rw [(unlessEnd rfl).1]
        rfl
      exact .quiet rfl runs ⟨rfl, rfl⟩
  | cons token rest => exact .quiet rfl (fun _ _ _ _ => rfl) ⟨rfl, rfl⟩

theorem behaves_isAtEnd :
    Behaves text ending tokens isAtEnd fun read new isEnd =>
      read = [] ∧ new = [] ∧ isEnd = tokens.isEmpty := by
  refine .quiet rfl (fun more ending' earlier unlessEnd => ?_) ⟨rfl, rfl, rfl⟩
  cases tokens with
  | nil =>
      rw [(unlessEnd rfl).1]
      rfl
  | cons token rest => rfl

/-- The account of a rule that gives what a phrase allows, and reports nothing. -/
def Quietly (phrase : Phrase α) : Account α :=
  fun read new tree => new = [] ∧ phrase read tree

/-- Where the next token has none of some kinds, more tokens do not change that. -/
theorem follows_append {kinds : List TokenKind} {more : List Token} {ending' : Token}
    (others : ∀ first ∈ tokens.head?, first.kind ∉ kinds)
    (unlessEnd : tokens = [] → more = [] ∧ ending' = ending) :
    ∀ first ∈ (tokens ++ more).head?, first.kind ∉ kinds := by
  cases tokens with
  | nil =>
      rw [(unlessEnd rfl).1]
      exact others
  | cons token rest => exact others

theorem behaves_accept (kinds : List TokenKind) :
    Behaves text ending tokens (accept? kinds) (Quietly (Phrase.Accepted kinds)) := by
  by_cases isNext : ∃ token rest, tokens = token :: rest ∧ token.kind ∈ kinds
  · rcases isNext with ⟨token, rest, rfl, isKind⟩
    have accepted : Phrase.Accepted kinds [token] (some token) := ⟨rfl, isKind⟩
    exact .quiet rfl (fun _ _ _ _ => accept_some rfl isKind) ⟨rfl, accepted⟩
  · have others : ∀ first ∈ tokens.head?, first.kind ∉ kinds := by
      intro first isFirst isKind
      rcases List.head?_eq_some_iff.mp isFirst with ⟨rest, isTokens⟩
      exact isNext ⟨first, rest, isTokens, isKind⟩
    have notAccepted : Phrase.Accepted kinds [] none := rfl
    exact .quiet rfl (fun _ _ _ unlessEnd => accept_none (follows_append others unlessEnd))
      ⟨rfl, notAccepted⟩

theorem expect_of_others {kind : TokenKind} {cursor : Cursor}
    (others : ∀ first ∈ cursor.rest.head?, first.kind ∉ [kind]) (phrase : String) :
    expect kind phrase cursor = fail (.expected phrase) cursor := by
  unfold expect
  split
  · next token rest shape =>
      have otherKind : token.kind ≠ kind := by simpa using others token (by simp [shape])
      simp [otherKind]
  · rfl

theorem behaves_expect (kind : TokenKind) (phrase : String) :
    Behaves text ending tokens (expect kind phrase) (Quietly (Phrase.Expected kind)) := by
  by_cases isNext : ∃ token rest, tokens = token :: rest ∧ token.kind = kind
  · rcases isNext with ⟨token, rest, rfl, isKind⟩
    have expected : Phrase.Expected kind [token] token := ⟨rfl, isKind⟩
    exact .quiet rfl (fun _ _ _ _ => by simp [expect, isKind]) ⟨rfl, expected⟩
  · have others : ∀ first ∈ tokens.head?, first.kind ∉ [kind] := by
      intro first isFirst isKind
      rcases List.head?_eq_some_iff.mp isFirst with ⟨rest, isTokens⟩
      exact isNext ⟨first, rest, isTokens, List.mem_singleton.mp isKind⟩
    exact behaves_of_fails (.expected phrase)
      (fun _ _ _ unlessEnd => expect_of_others (follows_append others unlessEnd) phrase) _

/-! ## Loops -/

/-- The account of a turn of a loop: the last one does nothing, and every other one reads
something. -/
def Turn (account : Account α) : Account (Option α)
  | read, new, none => read = [] ∧ new = []
  | read, new, some tree => read ≠ [] ∧ account read new tree

theorem Behaves.turn {rule : Rule (Option α)} {account weaker : Account α}
    (behaves : Behaves text ending tokens rule (Turn account))
    (included : ∀ read new tree, account read new tree → weaker read new tree) :
    Behaves text ending tokens rule (Turn weaker) := by
  refine behaves.mono fun read new taken turned => ?_
  cases taken with
  | none => exact turned
  | some tree => exact ⟨turned.1, included read new tree turned.2⟩

/-- A loop turns if its turns read something. -/
theorem turning_of_behaves {ι : Type} {turn : ι → Rule (Option α)}
    (atEnd : ∀ value ending diagnostics,
      turn value ⟨[], ending, diagnostics⟩ = .ok none ⟨[], ending, diagnostics⟩)
    (behaves : ∀ value text ending tokens,
      Behaves text ending tokens (turn value) (Turn fun _ _ _ => True)) : Turning turn := by
  refine ⟨atEnd, ?_⟩
  rintro value ⟨rest, ending, diagnostics⟩ next cursor' taken
  rcases behaves value rest ending rest (List.Subset.refl rest) with
    ⟨reading, isReading, accounted⟩
  have runs := isReading.runs [] ending diagnostics fun _ => ⟨rfl, rfl⟩
  rw [List.append_nil, List.append_nil, taken] at runs
  cases isReply : reading.reply with
  | error panic => simp [isReply, answer] at runs
  | ok taken =>
      simp only [isReply, answer, EStateM.Result.ok.injEq] at runs
      rcases runs with ⟨rfl, rfl⟩
      have readSome : reading.read ≠ [] := (accounted _ isReply).1
      have consumed := congrArg List.length isReading.consumed
      have positive := List.length_pos_iff.mpr readSome
      simp only [List.length_append] at consumed ⊢
      omega

/-- A loop keeps the account that every turn of it keeps. -/
theorem behaves_repeated {step : α → Rule (Option α)} (turning : Turning step) (account : Account α)
    (turn : ∀ value tokens, Behaves text ending tokens (step value) (Turn fun read new next =>
      ∀ left earlier, account left earlier value → account (left ++ read) (earlier ++ new) next))
    (value : α) (tokens : List Token) :
    Behaves text ending tokens (repeated step value) fun read new tree =>
      ∀ left earlier, account left earlier value →
        account (left ++ read) (earlier ++ new) tree := by
  induction isLength : tokens.length using Nat.strongRecOn generalizing value tokens with
  | ind length ih =>
      rw [repeated_eq turning]
      refine (turn value tokens).bind fun middle rest new taken isTokens turned => ?_
      cases taken with
      | none =>
          rcases turned with ⟨rfl, rfl⟩
          exact .pure fun left earlier held => by simpa using held
      | some next =>
          have positive := List.length_pos_iff.mpr turned.1
          have shorter : rest.length < length := by
            rw [← isLength, isTokens, List.length_append]
            omega
          refine (ih _ shorter next rest rfl).mono fun read new' tree kept left earlier held => ?_
          simpa using kept _ _ (turned.2 left earlier held)

/-- Items are collected to what every turn allows to put an item in front of. -/
theorem behaves_gathered {item : Nat → Rule (Option α)} (turning : Turning item)
    (account : Account (List α)) (ended : account [] [] [])
    (turn : ∀ index tokens, Behaves text ending tokens (item index) (Turn fun read new tree =>
      ∀ others later trees, account others later trees →
        account (read ++ others) (new ++ later) (tree :: trees)))
    (index : Nat) (tokens : List Token) :
    Behaves text ending tokens (gathered item index) account := by
  induction isLength : tokens.length using Nat.strongRecOn generalizing index tokens with
  | ind length ih =>
      rw [gathered_eq turning]
      refine (turn index tokens).bind fun left rest new taken isTokens turned => ?_
      cases taken with
      | none =>
          rcases turned with ⟨rfl, rfl⟩
          exact .pure ended
      | some tree =>
          have positive := List.length_pos_iff.mpr turned.1
          have shorter : rest.length < length := by
            rw [← isLength, isTokens, List.length_append]
            omega
          exact (ih _ shorter (index + 1) rest rfl).map fun others later trees held =>
            turned.2 others later trees held

/-! ## Expressions -/

/-- The account of a tree with tokens: something was read for it, and its tokens are among that. -/
def Held (tokensOf : α → List Token) : Account α :=
  fun read _ tree => read ≠ [] ∧ tokensOf tree ⊆ read

/-- Whether a rule reads something for every tree that it gives, and takes its tokens from that. -/
def Holds (tokensOf : α → List Token) (rule : Rule α) : Prop :=
  ∀ text ending tokens, Behaves text ending tokens rule (Held tokensOf)

/-- A turn of `separated`: an item behind a comma. -/
def furtherItem (items : String) (item : Rule α) (index : Nat) : Rule (Option α) := do
  match ← accept? [.comma] with
  | none => return none
  | some _ =>
      if GrammarFault.maxItems ≤ index then reportNext (.tooMany items)
      return some (← item)

theorem separated_eq (items : String) (item : Rule α) :
    separated items item = item >>= fun first =>
      gathered (furtherItem items item) 1 >>= fun others => pure (first :: others) := rfl

section Items

variable {tokensOf : α → List Token} {item : Rule α} (holds : Holds tokensOf item)
include holds

theorem behaves_furtherItem (items : String) (index : Nat) :
    Behaves text ending tokens (furtherItem items item index) (Turn (Held tokensOf)) := by
  refine (behaves_accept _).bind fun comma middle new taken _ accepted => ?_
  rcases accepted with ⟨rfl, accepted⟩
  cases taken with
  | none =>
      rcases (accepted : comma = [])
      exact .pure ⟨rfl, rfl⟩
  | some token =>
      rcases accepted with ⟨rfl, -⟩
      have isItem : ∀ {rest earlier}, Behaves text ending rest (some <$> item)
          fun read new taken => Turn (Held tokensOf) (token :: read) (earlier ++ new) taken :=
        (holds _ _ _).map fun read _ tree held => ⟨by simp, by simp, by grind [Held]⟩
      dsimp only
      split
      · refine (behaves_reportNext _).bind fun nothing _ _ _ _ isNothing => ?_
        rcases (isNothing : nothing = [])
        exact isItem
      · exact isItem

theorem turning_furtherItem (items : String) : Turning (furtherItem items item) :=
  turning_of_behaves (fun _ _ _ => rfl) fun index _ _ _ =>
    (behaves_furtherItem holds items index).turn fun _ _ _ _ => trivial

theorem holds_separated (items : String) :
    Holds (List.flatMap tokensOf) (separated items item) := by
  intro text ending tokens
  rw [separated_eq]
  refine (holds _ _ _).bind fun left middle _ first _ held => ?_
  have others : Behaves text ending middle (gathered (furtherItem items item) 1)
      fun read _ trees => trees.flatMap tokensOf ⊆ read :=
    behaves_gathered (turning_furtherItem holds items) _ (by simp) (fun index tokens =>
      (behaves_furtherItem holds items index).turn fun read new tree held => by grind [Held])
      1 middle
  exact others.map fun read new trees included => ⟨by simp [held.1], by grind [Held]⟩

theorem behaves_listed (items : String) :
    Behaves text ending tokens (listed items item) fun read _ trees =>
      trees.flatMap tokensOf ⊆ read := by
  refine (behaves_isNext _).bind fun nothing middle _ isRight _ quiet => ?_
  rcases quiet with ⟨rfl, rfl⟩
  cases isRight with
  | true => exact .pure (by simp)
  | false => exact (holds_separated holds items _ _ _).mono fun _ _ _ held => held.2

end Items

/-- A turn of `chain`: an operator and the operand behind it. -/
def chainTurn (operators : List TokenKind) (join : Expr → Token → Expr → Expr) (operand : Rule Expr)
    (left : Expr) : Rule (Option Expr) := do
  match ← accept? operators with
  | none => return none
  | some operator => return some (join left operator (← operand))

theorem chain_eq (operators : List TokenKind) (join : Expr → Token → Expr → Expr)
    (operand : Rule Expr) :
    chain operators join operand = operand >>= repeated (chainTurn operators join operand) := rfl

section Chains

variable {operators : List TokenKind} {join : Expr → Token → Expr → Expr} {operand : Rule Expr}
  (holds : Holds Expr.tokens operand)
include holds

theorem behaves_chainTurn (left : Expr) :
    Behaves text ending tokens (chainTurn operators join operand left) (Turn fun read _ tree =>
      ∃ operator others right, read = operator :: others ∧ tree = join left operator right ∧
        right.tokens ⊆ others) := by
  refine (behaves_accept _).bind fun accepted middle _ taken _ isAccepted => ?_
  rcases isAccepted with ⟨rfl, isAccepted⟩
  cases taken with
  | none =>
      rcases (isAccepted : accepted = [])
      exact .pure ⟨rfl, rfl⟩
  | some operator =>
      rcases isAccepted with ⟨rfl, -⟩
      exact (holds _ _ _).map fun others _ right held =>
        ⟨by simp, operator, others, right, rfl, rfl, held.2⟩

theorem turning_chainTurn : Turning (chainTurn operators join operand) :=
  turning_of_behaves (fun _ _ _ => rfl) fun left _ _ _ =>
    (behaves_chainTurn holds left).turn fun _ _ _ _ => trivial

theorem holds_chain
    (joined : ∀ left operator right,
      (join left operator right).tokens = left.tokens ++ operator :: right.tokens) :
    Holds Expr.tokens (chain operators join operand) := by
  intro text ending tokens
  rw [chain_eq]
  refine (holds _ _ _).bind fun left middle new first _ held => ?_
  refine (behaves_repeated (turning_chainTurn holds) (Held Expr.tokens) (fun value tokens => ?_)
    first middle).mono fun read new' tree kept => kept left new held
  refine (behaves_chainTurn holds value).turn fun read new tree turned left earlier held => ?_
  rcases turned with ⟨operator, others, right, rfl, rfl, included⟩
  refine ⟨by simp, ?_⟩
  rw [joined]
  grind [Held]

end Chains

theorem holds_binary {operators : List TokenKind} {operand : Rule Expr}
    (holds : Holds Expr.tokens operand) : Holds Expr.tokens (chain operators .binary operand) :=
  holds_chain holds fun _ _ _ => by rw [Expr.tokens]

theorem holds_logical {unary : Rule Expr} (holds : Holds Expr.tokens unary) :
    Holds Expr.tokens (logical unary) := by
  have equality : Holds Expr.tokens (equality unary) :=
    holds_binary (holds_binary (holds_binary (holds_binary holds)))
  exact holds_chain equality fun _ _ _ => by rw [Expr.tokens]

theorem holds_ternaryRule {logical ternary : Rule Expr} (holdsLogical : Holds Expr.tokens logical)
    (holdsTernary : Holds Expr.tokens ternary) :
    Holds Expr.tokens (ternaryRule logical ternary) := by
  intro text ending tokens
  refine (holdsLogical _ _ _).bind fun left _ _ condition _ held => ?_
  refine (behaves_accept _).bind fun accepted _ _ taken _ isAccepted => ?_
  cases taken with
  | none => exact .pure ⟨by simp [held.1], by grind [Held]⟩
  | some question =>
      refine (holdsTernary _ _ _).bind fun first _ _ thenBranch _ heldThen => ?_
      refine (behaves_expect _ _).bind fun expected _ _ colon _ _ => ?_
      refine (holdsTernary _ _ _).map fun second _ elseBranch heldElse => ⟨by simp [held.1], ?_⟩
      rw [Expr.tokens]
      grind [Held]

theorem holds_assignmentRule {ternary assignment : Rule Expr}
    (holdsTernary : Holds Expr.tokens ternary) (holdsAssignment : Holds Expr.tokens assignment) :
    Holds Expr.tokens (assignmentRule ternary assignment) := by
  intro text ending tokens inText
  refine Behaves.bind (holdsTernary _ _ _) (fun left middle _ target isTokens held => ?_) inText
  refine (behaves_accept _).bind fun accepted rest _ taken isMiddle isAccepted => ?_
  cases taken with
  | none => exact .pure ⟨by simp [held.1], by grind [Held]⟩
  | some equals =>
      rcases isAccepted with ⟨-, rfl, -⟩
      -- The equals sign was read before it is reported, so that it is a token of the text.
      have isInText : equals ∈ text := by
        refine inText ?_
        simp [isTokens, isMiddle]
      refine (holdsAssignment _ _ _).bind fun right _ _ value _ heldValue => ?_
      split
      · refine .pure ⟨by simp [held.1], ?_⟩
        rw [Expr.tokens]
        grind [Held, Expr.tokens]
      · refine (behaves_report isInText _).bind fun nothing _ _ _ _ isNothing => ?_
        exact .pure ⟨by simp [held.1], by grind [Held]⟩

theorem holds_unaryRule {unary call : Rule Expr} (holdsUnary : Holds Expr.tokens unary)
    (holdsCall : Holds Expr.tokens call) : Holds Expr.tokens (unaryRule unary call) := by
  intro text ending tokens
  refine (behaves_accept _).bind fun accepted _ _ taken _ isAccepted => ?_
  cases taken with
  | none =>
      rcases isAccepted with ⟨rfl, isNothing⟩
      rcases (isNothing : accepted = [])
      exact holdsCall _ _ _
  | some operator =>
      rcases isAccepted with ⟨-, rfl, -⟩
      refine (holdsUnary _ _ _).map fun read _ tree held => ⟨by simp, ?_⟩
      rw [Expr.tokens]
      grind [Held]

theorem holds_primary {expression : Rule Expr} (holds : Holds Expr.tokens expression) :
    Holds Expr.tokens (primary expression) := by
  intro text ending tokens
  refine (behaves_accept _).bind fun accepted _ _ taken _ isAccepted => ?_
  cases taken with
  | none => exact behaves_fail _ _
  | some token =>
      rcases isAccepted with ⟨-, rfl, -⟩
      dsimp only
      split
      case h_5 =>
        refine (holds _ _ _).bind fun read _ _ inner _ held => ?_
        refine (behaves_expect _ _).map fun expected _ right _ => ⟨by simp, ?_⟩
        rw [Expr.tokens]
        grind [Held]
      all_goals exact .pure ⟨by simp, by simp [Expr.tokens]⟩

/-- A turn of `call`: the arguments of a call. -/
def callTurn (expression : Rule Expr) (callee : Expr) : Rule (Option Expr) := do
  match ← accept? [.leftParen] with
  | none => return none
  | some _ => return some (← arguments expression callee)

theorem call_eq (expression : Rule Expr) :
    call expression = primary expression >>= repeated (callTurn expression) := rfl

section Calls

variable {expression : Rule Expr} (holds : Holds Expr.tokens expression)
include holds

theorem behaves_callTurn (callee : Expr) :
    Behaves text ending tokens (callTurn expression callee) (Turn fun read _ tree =>
      tree.tokens ⊆ callee.tokens ++ read) := by
  refine (behaves_accept _).bind fun accepted _ _ taken _ isAccepted => ?_
  rcases isAccepted with ⟨rfl, isAccepted⟩
  cases taken with
  | none =>
      rcases (isAccepted : accepted = [])
      exact .pure ⟨rfl, rfl⟩
  | some left =>
      rcases isAccepted with ⟨rfl, -⟩
      refine Behaves.map ?_ fun read _ tree included => ⟨by simp, included⟩
      refine (behaves_listed holds _).bind fun read _ _ trees _ included => ?_
      refine (behaves_expect _ _).map fun expected _ right isExpected => ?_
      rcases isExpected with ⟨-, rfl, -⟩
      rw [Expr.tokens, Expr.allTokens_eq_flatMap]
      grind

theorem turning_callTurn : Turning (callTurn expression) :=
  turning_of_behaves (fun _ _ _ => rfl) fun callee _ _ _ =>
    (behaves_callTurn holds callee).turn fun _ _ _ _ => trivial

theorem holds_call : Holds Expr.tokens (call expression) := by
  intro text ending tokens
  rw [call_eq]
  refine (holds_primary holds _ _ _).bind fun left middle new first _ held => ?_
  refine (behaves_repeated (turning_callTurn holds) (Held Expr.tokens) (fun value tokens => ?_)
    first middle).mono fun read new' tree kept => kept left new held
  refine (behaves_callTurn holds value).turn fun read new tree included left earlier held => ?_
  exact ⟨by simp [held.1], by grind [Held]⟩

end Calls

theorem holds_tooDeep (tokensOf : α → List Token) : Holds tokensOf tooDeep :=
  fun _ _ _ => behaves_tooDeep _

mutual

theorem holds_expression : ∀ depth, Holds Expr.tokens (expression depth)
  | 0 => holds_tooDeep _
  | depth + 1 => holds_assignment depth

theorem holds_assignment : ∀ depth, Holds Expr.tokens (assignment depth)
  | 0 => holds_tooDeep _
  | depth + 1 => holds_assignmentRule (holds_ternary depth) (holds_assignment depth)

theorem holds_ternary : ∀ depth, Holds Expr.tokens (ternary depth)
  | 0 | 1 | 2 | 3 | 4 | 5 | 6 | 7 | 8 | 9 => holds_tooDeep _
  | depth + 10 => holds_ternaryRule (holds_logical (holds_unary depth)) (holds_ternary (depth + 9))

theorem holds_unary : ∀ depth, Holds Expr.tokens (unary depth)
  | 0 | 1 | 2 => holds_tooDeep _
  | depth + 3 => holds_unaryRule (holds_unary (depth + 2)) (holds_call (holds_expression depth))

end

end Grammar

end LoxLang

import LoxLang.Proofs.Accounts

/-!
# Every hole has a diagnostic of its own

Parsing goes on after a fault, so that it has to come to an end on any tokens at all: a declaration
that is given up may have read nothing, but then the token that it was given up for is skipped, and
the loops over declarations make progress again. That token is where the cause of the hole is
located, and it belongs to the hole alone.
-/

namespace LoxLang

namespace Grammar

open Rule

variable {α : Type} {text tokens read : List Token} {ending : Token} {new : List Diagnostic}
  {tree : Stmt}

/-! ## Recovery -/

/-- Going on at a boundary skips tokens and nothing else. -/
theorem skipToBoundary_suffix (previous : Token) (tokens : List Token) :
    ∃ skipped, tokens = skipped ++ Cursor.skipToBoundary previous tokens := by
  induction tokens generalizing previous with
  | nil => exact ⟨[], rfl⟩
  | cons token rest ih =>
      rw [Cursor.skipToBoundary]
      split
      · exact ⟨[], rfl⟩
      · rcases ih token with ⟨skipped, isRest⟩
        exact ⟨token :: skipped, congrArg (token :: ·) isRest⟩

/-- A boundary is found alike if more tokens follow. -/
theorem skipToBoundary_append {previous : Token} {tokens : List Token}
    (found : Cursor.skipToBoundary previous tokens ≠ []) (more : List Token) :
    Cursor.skipToBoundary previous (tokens ++ more) =
      Cursor.skipToBoundary previous tokens ++ more := by
  induction tokens generalizing previous with
  | nil => exact absurd rfl found
  | cons token rest ih =>
      rw [List.cons_append, Cursor.skipToBoundary]
      rw [Cursor.skipToBoundary] at found ⊢
      split
      · rfl
      · next goesOn =>
          rw [if_neg goesOn] at found
          exact ih found

/-- The tokens that are left at the next boundary. -/
def resumed : List Token → List Token
  | [] => []
  | token :: rest => Cursor.skipToBoundary token rest

theorem synchronize_eq (cursor : Cursor) :
    cursor.synchronize = { cursor with rest := resumed cursor.rest } := by
  rcases cursor with ⟨_ | ⟨token, rest⟩, ending, diagnostics⟩ <;> rfl

/-- Where a declaration is given up at the next token, tokens are skipped up to a boundary, that
token among them, and there is a hole for what was read and skipped. -/
theorem exists_skipped (ending : Token) (read rest : List Token) :
    ∃ skipped, rest = skipped ++ resumed rest ∧ (read ++ rest ≠ [] → read ++ skipped ≠ []) ∧
      ∀ earlier (fault : GrammarFault), Told ending (read ++ skipped)
        (earlier ++ [.atToken (rest.headD ending) "Parser" fault.message]) [.hole] := by
  have told : ∀ {skipped}, rest.headD ending ∈ skipped ++ [ending] →
      ∀ earlier (fault : GrammarFault), Told ending (read ++ skipped)
        (earlier ++ [.atToken (rest.headD ending) "Parser" fault.message]) [.hole] := by
    intro skipped isReported earlier fault
    have isAccounted : rest.headD ending ∈ read ++ skipped ++ [ending] := by
      rw [List.append_assoc]
      exact List.mem_append_right _ isReported
    exact ⟨by simp [Stmt.tokens], _, .hole isAccounted fault, List.sublist_append_right _ _⟩
  cases rest with
  | nil => exact ⟨[], rfl, id, told (by simp)⟩
  | cons token rest =>
      rcases skipToBoundary_suffix token rest with ⟨skipped, isRest⟩
      exact ⟨token :: skipped, congrArg (token :: ·) isRest, by simp, told (by simp)⟩

theorem resumed_append {rest more : List Token} {ending' : Token}
    (unlessEnd : resumed rest = [] → more = [] ∧ ending' = ending) :
    resumed (rest ++ more) = resumed rest ++ more := by
  cases rest with
  | nil =>
      rw [(unlessEnd rfl).1]
      rfl
  | cons token rest =>
      by_cases isEnd : Cursor.skipToBoundary token rest = []
      · rw [(unlessEnd isEnd).1, List.append_nil, List.append_nil]
      · exact skipToBoundary_append isEnd more

/-- A declaration that is abandoned leaves a hole, whose cause is what it was abandoned for. -/
theorem declares_recovering {rule : Rule Stmt}
    (behaves : ∀ text ending tokens, Behaves text ending tokens rule fun read new tree =>
      read ≠ [] ∧ Given ending read new tree) : Declares (recovering rule) := by
  intro text ending tokens inText
  rcases behaves text ending tokens inText with ⟨⟨read, rest, new, reply⟩, isReading, accounted⟩
  rcases isReading with ⟨consumed, located, abandoned, runs⟩
  dsimp only at consumed located abandoned runs accounted
  rcases reply with (_ | _) | tree
  · rcases exists_skipped ending read rest with ⟨skipped, isRest, readsSome, told⟩
    rcases abandoned rfl with ⟨earlier, fault, isLast⟩
    refine ⟨⟨read ++ skipped, resumed rest, new, .ok .hole⟩, ⟨?_, located, by simp, ?_⟩, ?_⟩
    · rw [consumed, List.append_assoc, ← isRest]
    · intro more ending' before unlessEnd
      have unlessRest : rest = [] → more = [] ∧ ending' = ending := by
        rintro rfl
        exact unlessEnd rfl
      simp only [recovering, runs more ending' before unlessRest, answer, synchronize_eq,
        resumed_append unlessEnd]
    · rintro _ ⟨⟩
      exact ⟨fun someTokens => readsSome (consumed ▸ someTokens), isLast ▸ told earlier fault⟩
  · refine ⟨⟨read, rest, new, .error .depth⟩, ⟨consumed, located, by simp, ?_⟩, by simp⟩
    intro more ending' before unlessEnd
    simp only [recovering, runs more ending' before unlessEnd, answer]
  · refine ⟨⟨read, rest, new, .ok tree⟩, ⟨consumed, located, by simp, ?_⟩, ?_⟩
    · intro more ending' before unlessEnd
      simp only [recovering, runs more ending' before unlessEnd, answer]
    · rintro _ ⟨⟩
      exact ⟨fun _ => (accounted tree rfl).1, (accounted tree rfl).2.2⟩

theorem declares_declaration : ∀ depth, Declares (declaration depth)
  | 0 | 1 | 2 | 3 | 4 => fun _ _ _ => behaves_tooDeep _
  | depth + 5 => declares_recovering fun _ _ _ =>
      behaves_declarationRule (holds_expression _) (declares_declaration _)
        (declares_declaration depth)

/-! ## Whole programs -/

/-- An outermost declaration reads something, and is a hole if it is nested too deeply. -/
theorem exists_outermost (limit : Nat) (ending : Token) (inText : tokens ⊆ text)
    (someLeft : tokens ≠ []) :
    ∃ read rest tree new, tokens = read ++ rest ∧ read ≠ [] ∧ Located text ending new ∧
      Told ending read new [tree] ∧ ∀ earlier, outermost limit ⟨tokens, ending, earlier⟩ =
        (tree, ⟨rest, ending, earlier ++ new⟩) := by
  rcases declares_declaration limit text ending tokens inText with
    ⟨⟨read, rest, new, reply⟩, ⟨consumed, located, -, runs⟩, accounted⟩
  dsimp only at consumed located runs accounted
  have isDeclaration : ∀ earlier, declaration limit ⟨tokens, ending, earlier⟩ =
      answer ⟨rest, ending, earlier ++ new⟩ reply := by
    intro earlier
    simpa using runs [] ending earlier fun _ => ⟨rfl, rfl⟩
  rcases reply with panic | tree
  · rcases exists_skipped ending read rest with ⟨skipped, isRest, readsSome, told⟩
    have inTextToo : rest ⊆ text := by
      rw [consumed] at inText
      exact (List.append_subset.mp inText).2
    refine ⟨read ++ skipped, resumed rest, .hole, _, ?_, readsSome (consumed ▸ someLeft),
      located.append (located_next inTextToo .tooDeep), told new .tooDeep, fun earlier => ?_⟩
    · rw [consumed, List.append_assoc, ← isRest]
    · simp only [outermost, isDeclaration, answer, synchronize_eq, Cursor.report, Cursor.peek,
        List.append_assoc]
  · rcases accounted tree rfl with ⟨readsSome, told⟩
    refine ⟨read, rest, tree, new, consumed, readsSome someLeft, located, told, fun earlier => ?_⟩
    simp only [outermost, isDeclaration, answer]

/-- `Parses limit tokens ending trees new` says that the declarations of a program are read to its
end, with every bound that is not smaller than the number of its tokens. -/
def Parses (limit : Nat) (tokens : List Token) (ending : Token) (trees : List Stmt)
    (new : List Diagnostic) : Prop :=
  ∀ bound earlier, tokens.length ≤ bound.length →
    declarations limit bound ⟨tokens, ending, earlier⟩ = (trees, ⟨[], ending, earlier ++ new⟩)

theorem parses_nil (limit : Nat) (ending : Token) : Parses limit [] ending [] [] := by
  intro bound earlier _
  cases bound <;> simp [declarations]

theorem Parses.cons {limit : Nat} {rest : List Token} {trees : List Stmt} {later : List Diagnostic}
    (first : ∀ earlier, outermost limit ⟨tokens, ending, earlier⟩ =
      (tree, ⟨rest, ending, earlier ++ new⟩))
    (shorter : rest.length < tokens.length) (others : Parses limit rest ending trees later) :
    Parses limit tokens ending (tree :: trees) (new ++ later) := by
  intro bound earlier enough
  cases bound with
  | nil =>
      rw [List.length_nil] at enough
      omega
  | cons _ bound =>
      have someLeft : tokens ≠ [] := List.ne_nil_of_length_pos (by omega)
      have enoughLeft : rest.length ≤ bound.length := by
        rw [List.length_cons] at enough
        omega
      simp [declarations, someLeft, first, others bound _ enoughLeft]

/-- All tokens are read, and there is an account of what they give. -/
theorem exists_parses (limit : Nat) (ending : Token) (inText : tokens ⊆ text) :
    ∃ trees new, Located text ending new ∧ Told ending tokens new trees ∧
      Parses limit tokens ending trees new := by
  induction isLength : tokens.length using Nat.strongRecOn generalizing tokens with
  | ind length ih =>
      by_cases isEmpty : tokens = []
      · subst isEmpty
        exact ⟨[], [], located_nil, told_nil ending, parses_nil limit ending⟩
      · rcases exists_outermost limit ending inText isEmpty with
          ⟨read, rest, tree, new, consumed, readsSome, located, told, first⟩
        have positive := List.length_pos_iff.mpr readsSome
        have shorter : rest.length < tokens.length := by
          rw [consumed, List.length_append]
          omega
        have inTextToo : rest ⊆ text := by
          rw [consumed] at inText
          exact (List.append_subset.mp inText).2
        rcases ih _ (isLength ▸ shorter) inTextToo rfl with ⟨trees, later, located', told', others⟩
        refine ⟨tree :: trees, new ++ later, located.append located', ?_,
          .cons first shorter others⟩
        rw [consumed]
        exact told.append told'

/-! ## Interactive mode -/

theorem echoLast_append (trees : List Stmt) {rest : List Stmt} (someRest : rest ≠ []) :
    Parse.echoLast (trees ++ rest) = trees ++ Parse.echoLast rest := by
  induction trees with
  | nil => rfl
  | cons tree trees ih =>
      rw [List.cons_append, Parse.echoLast, ih]
      · rfl
      · simp [someRest]

/-- Printing the value of a bare expression at the end changes nothing about the holes. -/
theorem Accounted.echoLast {causes : List Diagnostic} {trees : List Stmt}
    (accounted : Accounted ending tokens causes trees) :
    Accounted ending tokens causes (Parse.echoLast trees) := by
  induction accounted with
  | none => exact .none
  | @append _ _ _ _ trees rest first second ihFirst ihSecond =>
      by_cases isEmpty : rest = []
      · subst isEmpty
        simpa using ihFirst.append second
      · rw [echoLast_append trees isEmpty]
        exact .append first ihSecond
  | hole isToken fault => exact .hole isToken fault
  | @simple _ tree isSimple =>
      refine .simple ?_
      cases tree <;> exact isSimple
  | block isLeft inner isRight => exact .block isLeft inner isRight
  | function isFun isLeft inner isRight => exact .function isFun isLeft inner isRight
  | ifThen isIf isLeft inner isRight => exact .ifThen isIf isLeft inner isRight
  | ifElse isIf isLeft inner isRight isElse isLeft' inner' isRight' =>
      exact .ifElse isIf isLeft inner isRight isElse isLeft' inner' isRight'
  | whileLoop isWhile isLeft inner isRight => exact .whileLoop isWhile isLeft inner isRight
  | forLoop isFor isSimple isLeft inner isRight =>
      exact .forLoop isFor isSimple isLeft inner isRight

theorem echo_tokens (tree : Stmt) : tree.echo.tokens = tree.tokens := by
  cases tree <;> simp [Stmt.echo, Stmt.tokens]

theorem allTokens_echoLast (trees : List Stmt) :
    Stmt.allTokens (Parse.echoLast trees) = Stmt.allTokens trees := by
  fun_induction Parse.echoLast trees with
  | case1 => rfl
  | case2 tree => simp [echo_tokens]
  | case3 tree rest _ ih => rw [Stmt.allTokens, Stmt.allTokens, ih]

theorem Told.echoLast {trees : List Stmt} (told : Told ending read new trees) :
    Told ending read new (Parse.echoLast trees) := by
  rcases told with ⟨included, causes, accounted, caused⟩
  exact ⟨allTokens_echoLast trees ▸ included, causes, accounted.echoLast, caused⟩

/-! ## Parsing comes to an end and accounts for its holes -/

/-- Whether a rule only moves on: however it ends, what is left are the last ones of the tokens that
there were, and nothing is done but to read the others and to queue diagnostics. -/
def MovesOn (rule : Rule α) : Prop :=
  ∀ cursor, ∃ read rest new reply, cursor.rest = read ++ rest ∧
    rule cursor = answer ⟨rest, cursor.ending, cursor.diagnostics ++ new⟩ reply

theorem movesOn_of_behaves {rule : Rule α}
    (behaves : ∀ text ending tokens, ∃ account, Behaves text ending tokens rule account) :
    MovesOn rule := by
  rintro ⟨tokens, ending, diagnostics⟩
  rcases behaves tokens ending tokens with ⟨account, behaves⟩
  rcases behaves (List.Subset.refl tokens) with ⟨⟨read, rest, new, reply⟩, isReading, -⟩
  refine ⟨read, rest, new, reply, isReading.consumed, ?_⟩
  simpa using isReading.runs [] ending diagnostics fun _ => ⟨rfl, rfl⟩

/-- Whether all loops of the grammar come to an end with the tokens, for the rules with a given
depth. -/
structure LoopsTurn (depth : Nat) : Prop where
  chains : ∀ operand ∈ [unary depth, factor (unary depth), term (unary depth),
      comparison (unary depth), equality (unary depth)],
    ∀ operators join, Turning (chainTurn operators join operand)
  calls : Turning (callTurn (expression depth))
  arguments : Turning (furtherItem "arguments" (expression depth))
  parameters : Turning (furtherItem "parameters" (expect .identifier "parameter name"))
  blocks : Turning (blockTurn (declaration depth))

theorem loopsTurn (depth : Nat) : LoopsTurn depth where
  chains := by
    intro operand isOperand operators join
    have holds := holds_unary depth
    simp only [List.mem_cons, List.not_mem_nil, or_false] at isOperand
    rcases isOperand with rfl | rfl | rfl | rfl | rfl
    · exact turning_chainTurn holds
    · exact turning_chainTurn (holds_binary holds)
    · exact turning_chainTurn (holds_binary (holds_binary holds))
    · exact turning_chainTurn (holds_binary (holds_binary (holds_binary holds)))
    · exact turning_chainTurn (holds_binary (holds_binary (holds_binary (holds_binary holds))))
  calls := turning_callTurn (holds_expression depth)
  arguments := turning_furtherItem (holds_expression depth) _
  parameters := turning_furtherItem holds_parameter _
  blocks := turning_blockTurn (declares_declaration depth)

end Grammar

namespace Parse

open Grammar

theorem ofTokens_of_parses {limit : Nat} {tokens : List Token} {ending : Token} {trees : List Stmt}
    {new : List Diagnostic} (parses : Parses limit tokens ending trees new) (interactive : Bool) :
    ofTokens limit interactive tokens ending =
      ⟨if interactive then echoLast trees else trees, new⟩ := by
  simp [ofTokens, parses tokens [] le_rfl]

/-- A parse comes with an account of its statements. -/
theorem told_ofTokens (limit : Nat) (interactive : Bool) (tokens : List Token) (ending : Token) :
    let parse := ofTokens limit interactive tokens ending
    Located tokens ending parse.diagnostics ∧
      Told ending tokens parse.diagnostics parse.statements := by
  rcases exists_parses limit ending (List.Subset.refl tokens) with
    ⟨trees, new, located, told, parses⟩
  rw [ofTokens_of_parses parses]
  refine ⟨located, ?_⟩
  cases interactive with
  | false => exact told
  | true => exact told.echoLast

/-- Parsing any tokens, nested however deeply, comes to an end: no rule does anything but to move on
within the tokens, no loop is ended by its bound, and all tokens are read. What is reported is
located at one of the tokens or at the end, and each hole in the result has a diagnostic of its own,
so that there is no hole where nothing is reported. -/
theorem ofTokens_finishes (limit : Nat) (interactive : Bool) (tokens : List Token)
    (ending : Token) :
    let parse := ofTokens limit interactive tokens ending
    (∀ depth, MovesOn (expression depth) ∧ MovesOn (declaration depth) ∧ LoopsTurn depth) ∧
      (∃ trees, ∀ bound, tokens.length ≤ bound.length →
        declarations limit bound ⟨tokens, ending, []⟩ = (trees, ⟨[], ending, parse.diagnostics⟩)) ∧
      Located tokens ending parse.diagnostics ∧
      (∃ causes, Accounted ending tokens causes parse.statements ∧
        causes.Sublist parse.diagnostics) ∧
      (parse.diagnostics = [] → ∀ statement ∈ parse.statements, statement.Filled) := by
  rcases exists_parses limit ending (List.Subset.refl tokens) with ⟨trees, new, -, -, parses⟩
  rcases told_ofTokens limit interactive tokens ending with
    ⟨located, -, causes, accounted, caused⟩
  refine ⟨fun depth => ⟨?_, ?_, loopsTurn depth⟩, ⟨trees, fun bound enough => ?_⟩, located,
    ⟨causes, accounted, caused⟩, fun isQuiet => ?_⟩
  · exact movesOn_of_behaves fun _ _ _ => ⟨_, holds_expression depth _ _ _⟩
  · exact movesOn_of_behaves fun _ _ _ => ⟨_, declares_declaration depth _ _ _⟩
  · simpa [ofTokens_of_parses parses] using parses bound [] enough
  · refine accounted.filled ?_
    rw [isQuiet] at caused
    exact List.sublist_nil.mp caused

end Parse

end LoxLang

import LoxLang.Proofs.Holes

/-!
# Rules that are abandoned

A rule that has read some tokens and is abandoned at the next one takes the rules that it was opened
for with it, up to the declaration that it is part of. Where that is an outermost one, the program
goes on at the next boundary with a hole and one diagnostic for the token, and from there on it is
parsed as if nothing had been before.
-/

namespace LoxLang

namespace Grammar

open Rule

variable {α β : Type} {before middle after : List Token} {fault : GrammarFault}

/-! ## Leading to another rule -/

/-- Whether a rule reads `before` up to `after` without a report, and does there what another rule
does. -/
def Leads (rule : Rule α) (before : List Token) (other : Rule α) (after : List Token) : Prop :=
  ∀ ending diagnostics, rule ⟨before, ending, diagnostics⟩ = other ⟨after, ending, diagnostics⟩

theorem Leads.refl (rule : Rule α) (tokens : List Token) : Leads rule tokens rule tokens :=
  fun _ _ => rfl

theorem Leads.trans {rule other third : Rule α} {final : List Token}
    (first : Leads rule before other after) (second : Leads other after third final) :
    Leads rule before third final :=
  fun ending diagnostics => (first ending diagnostics).trans (second ending diagnostics)

theorem Leads.bind {rule other : Rule α} (leads : Leads rule before other after)
    (next : α → Rule β) : Leads (rule >>= next) before (other >>= next) after := by
  intro ending diagnostics
  simp only [Bind.bind, EStateM.bind, leads ending diagnostics]

theorem Reads.leads {first : Rule α} {next : α → Rule β} {value : α} {other : Rule β}
    (reads : Reads False first before value middle)
    (leads : Leads (next value) middle other after) :
    Leads (first >>= next) before other after := by
  intro ending diagnostics
  rcases reads ending diagnostics with read | ⟨impossible, -⟩
  · rw [bind_of_ok read]
    exact leads ending diagnostics
  · exact impossible.elim

/-! ## Giving up -/

/-- Gives up because of a fault. What is nested too deeply is only reported by the outermost
declaration. -/
def abandon : GrammarFault → Rule α
  | .tooDeep => tooDeep
  | fault => fail fault

/-- Whether a rule reads `before` up to `after` without a report and gives up there. -/
abbrev Abandons (rule : Rule α) (before : List Token) (fault : GrammarFault)
    (after : List Token) : Prop :=
  Leads rule before (abandon fault) after

theorem Abandons.bind {first : Rule α} {next : α → Rule β}
    (abandons : Abandons first before fault after) :
    Abandons (first >>= next) before fault after := by
  refine (Leads.bind abandons next).trans fun ending diagnostics => ?_
  cases fault <;> rfl

theorem Abandons.map {rule : Rule α} (change : α → β)
    (abandons : Abandons rule before fault after) :
    Abandons (change <$> rule) before fault after :=
  Abandons.bind abandons

theorem abandons_expect {kind : TokenKind} {rest : List Token} (phrase : String)
    (follows : Follows [kind] rest) :
    Abandons (expect kind phrase) rest (.expected phrase) rest :=
  fun ending diagnostics =>
    expect_of_others (show ∀ first ∈ (Cursor.mk rest ending diagnostics).rest.head?, _ from follows)
      phrase

/-! ## Outermost declarations -/

/-- The rule for declarations that are followed by recovery; the declarations in them may open so
many rules and two more, or so many in branches and loops. -/
abbrev unguarded (depth : Nat) : Rule Stmt :=
  declarationRule (expression (depth + 2)) (declaration (depth + 2)) (declaration depth)

section Outermost

variable {limit : Nat} {tokens rest : List Token} {ending : Token} {tree : Stmt}
  {trees : List Stmt} {new later : List Diagnostic}

/-- An outermost declaration that is abandoned. -/
theorem outermost_of_abandons {depth : Nat}
    (abandons : Abandons (unguarded depth) before fault after) (ending : Token)
    (earlier : List Diagnostic) :
    outermost (depth + 5) ⟨before, ending, earlier⟩ = (.hole, ⟨resumed after, ending,
      earlier ++ [.atToken (after.headD ending) "Parser" fault.message]⟩) := by
  have abandoned := abandons ending earlier
  cases fault with
  | tooDeep =>
      simp only [outermost, declaration, recovering, abandoned, abandon, tooDeep, synchronize_eq,
        Cursor.report, Cursor.peek]
  | _ =>
      simp only [outermost, declaration, recovering, abandoned, abandon, fail, synchronize_eq,
        Cursor.report, Cursor.peek]

/-- What an outermost declaration leaves is shorter, whatever it was. -/
theorem Parses.outermost_cons (someLeft : tokens ≠ [])
    (first : ∀ earlier, outermost limit ⟨tokens, ending, earlier⟩ =
      (tree, ⟨rest, ending, earlier ++ new⟩))
    (others : Parses limit rest ending trees later) :
    Parses limit tokens ending (tree :: trees) (new ++ later) := by
  refine .cons first ?_ others
  rcases exists_outermost limit ending (List.Subset.refl tokens) someLeft with
    ⟨read, rest', _, _, consumed, readsSome, -, -, isFirst⟩
  have same := (isFirst []).symm.trans (first [])
  simp only [Prod.mk.injEq, Cursor.mk.injEq] at same
  have positive := List.length_pos_iff.mpr readsSome
  rw [consumed, List.length_append, ← same.2.1]
  omega

theorem parses_ofTokens (limit : Nat) (tokens : List Token) (ending : Token) :
    Parses limit tokens ending (Parse.ofTokens limit false tokens ending).statements
      (Parse.ofTokens limit false tokens ending).diagnostics := by
  rcases exists_parses limit ending (List.Subset.refl tokens) with ⟨trees, new, -, -, parses⟩
  rw [Parse.ofTokens_of_parses parses]
  exact parses

end Outermost

end Grammar

/-- A program that starts with a declaration that is abandoned. -/
theorem Parse.ofTokens_of_abandons {depth : Nat} {before after : List Token}
    {fault : GrammarFault} (someLeft : before ≠ [])
    (abandons : Grammar.Abandons (Grammar.unguarded depth) before fault after) (ending : Token) :
    let rest := ofTokens (depth + 5) false (Grammar.resumed after) ending
    ofTokens (depth + 5) false before ending = ⟨.hole :: rest.statements,
      .atToken (after.headD ending) "Parser" fault.message :: rest.diagnostics⟩ := by
  intro rest
  have others := Grammar.parses_ofTokens (depth + 5) (Grammar.resumed after) ending
  exact ofTokens_of_parses (.outermost_cons someLeft
    (fun earlier => Grammar.outermost_of_abandons abandons ending earlier) others) false

end LoxLang

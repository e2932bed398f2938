import LoxLang.Proofs.Spelling

/-!
# Lexemes are scanned as themselves

What a token is does not depend on the text around it. The lexemes of a scan, put in a row with
spaces between them, are scanned as the same tokens again, whatever else was in the text: layout,
comments and everything that no program may have.
-/

namespace LoxLang

open Segment

/-- Lexemes in a row with single spaces between them are spelled. A space ends every token, and so
does the end of the text. -/
theorem Spells.intercalate {tokens : List Token}
    (fits : ∀ token ∈ tokens, ∃ rest,
      Fits (.token token.kind token.lexeme.toList token.literal) rest) :
    Spells [] (" ".intercalate (tokens.map (·.lexeme))).toList tokens := by
  induction tokens with
  | nil => exact .done
  | cons token rest ih =>
      rw [List.forall_mem_cons] at fits
      rcases fits with ⟨⟨before, fits⟩, others⟩
      cases rest with
      | nil =>
          have spelled : Spells [] (token.lexeme.toList ++ []) [token] :=
            .token (fits_at_end fits) .done
          simpa using spelled
      | cons next rest =>
          have spelled := (ih others).space
          simpa [String.intercalate_cons_cons] using
            Spells.token (fits_of_ends fits (ends_cons.mpr (by decide))) spelled

namespace Scan

/-- The lexemes of a scan, joined by single spaces, are scanned without a diagnostic as tokens of
the same kinds, lexemes and literals. -/
theorem ofText_lexemes (interactive : Bool) (text : List Char) :
    let lexemes := (ofText interactive text).allTokens.dropLast.map (·.lexeme)
    let again := ofText false (" ".intercalate lexemes).toList
    again.diagnostics = [] ∧
      again.allTokens.map (fun token => (token.kind, token.lexeme, token.literal)) =
        (ofText interactive text).allTokens.map
          fun token => (token.kind, token.lexeme, token.literal) := by
  intro lexemes again
  have isLexemes : lexemes = (ofText interactive text).tokens.map (·.lexeme) := by
    simp only [lexemes, allTokens, List.dropLast_concat]
  have fits : ∀ token ∈ (ofText interactive text).tokens, ∃ rest,
      Fits (.token token.kind token.lexeme.toList token.literal) rest :=
    fun _ isToken => fits_of_mem_tokens isToken
  have spelled := Spells.intercalate fits
  rw [← isLexemes] at spelled
  rcases spelled.scan with ⟨same, quiet⟩
  have sameSymbols :=
    congrArg (List.map fun token => (token.kind, token.lexeme, token.literal)) same
  simp only [List.map_map, Function.comp_def, Token.move_kind, Token.move_lexeme,
    Token.move_literal] at sameSymbols
  refine ⟨quiet, ?_⟩
  simp only [allTokens, List.map_append, List.map_cons, List.map_nil]
  exact congrArg₂ (· ++ ·) sameSymbols rfl

/-- An unexpected character, a quoted text over two lines and a point behind a number. -/
example : (" ".intercalate ((ofText true "@ \"a\nb\"1.//\n!=".toList).tokens.map (·.lexeme))) =
    "\"a\nb\" 1 . != ;" := by
  decide +kernel

end Scan

end LoxLang

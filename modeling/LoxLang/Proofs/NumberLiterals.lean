import LoxLang.Parse
import LoxLang.Proofs.LargeNumbers
import LoxLang.Proofs.Spelling

/-!
# Printed number literals

The number of a numeral is printed as a text without an exponent. Below the point of overflow this
is a numeral again, and it is scanned as the same number. A number that is too large is printed as a
word, which is scanned as a name.
-/

namespace LoxLang

open Segment

/-! ## Texts of one token -/

namespace Scan

/-- The scan of a text that is one token. -/
def single (kind : TokenKind) (text : List Char) (literal : Value) : Scan where
  tokens := [{ kind, lexeme := String.ofList text, literal, position := .start }]
  ending := { kind := .endOfText, lexeme := "", position := Position.start.after text }
  diagnostics := []

theorem ofText_of_fits {kind : TokenKind} {text : List Char} {literal : Value}
    (fits : Fits (.token kind text literal) []) : ofText false text = single kind text literal := by
  have cut := Spells.segments_append fits
  simp only [Segment.text, List.append_nil] at cut
  simp [ofText, single, cut, segments, placed, token?, diagnostic?, complaint?]

end Scan

namespace Parse

/-- A token with a semicolon behind it is parsed as these two tokens. -/
theorem ofText_of_fits {kind : TokenKind} {text : List Char} {literal : Value}
    (fits : Fits (.token kind text literal) []) :
    ofText false (text ++ [';']) =
      ofTokens nestingLimit false
        [{ kind, lexeme := String.ofList text, literal, position := .start },
          { kind := .semicolon, lexeme := ";", position := Position.start.after text }]
        { kind := .endOfText, lexeme := "", position := Position.start.after (text ++ [';']) } := by
  have ends : Ends [';'] := by simp
  have cut := Spells.segments_append (fits_of_ends fits ends)
  have isMark : Fits (.token .semicolon [';'] .nil) [] := .mark (by decide)
  have cut' := Spells.segments_append isMark
  simp only [Segment.text, List.append_nil] at cut cut'
  simp [ofText, ofScan, Scan.ofText, cut, cut', segments, placed, token?, diagnostic?, complaint?,
    Segment.text]

theorem ofText_of_number {text : List Char} {literal : Value}
    (fits : Fits (.token .number text literal) []) :
    ofText false (text ++ [';']) = ⟨[.expression (.literal literal)], []⟩ := by
  rw [ofText_of_fits fits]
  rfl

theorem ofText_of_word {text : List Char} (fits : Fits (.token .identifier text .nil) []) :
    ofText false (text ++ [';']) =
      ⟨[.expression (.variable ⟨.identifier, String.ofList text, .nil, .start⟩)], []⟩ := by
  rw [ofText_of_fits fits]
  rfl

end Parse

/-! ## Numbers that are too large -/

/-- The word that a number that is too large is printed as. -/
theorem fits_infinity :
    Fits (.token .identifier Decimal.Style.source.infinity.toList .nil) [] := by
  have letters : "nfinity".toList.all Char.isAlphanum = true := by decide
  have noKeyword : TokenKind.ofWord "Infinity" = .identifier := by decide
  rw [List.all_eq_true] at letters
  exact .word (.inl (by decide)) (fun part isPart => .inl (letters part isPart))
    (isKindOf_iff.mpr noKeyword) (stops_nil _)

namespace Decimal

theorem write_infinite :
    Style.source.write (Float.ofBits (UInt64.ofNat (2047 * 2 ^ 52))) = Style.source.infinity := by
  have isContent : Binary.ofFloat (Float.ofBits (UInt64.ofNat (2047 * 2 ^ 52))) =
      .infinite false := by
    rw [Binary.ofFloat, toBits_ofBits (le_refl _)]
    simp [Binary.ofBits, Binary.fractionBits]
  rw [Style.write, isContent]
  rfl

/-- The number of a numeral that is not below the point of overflow is printed as a word. -/
theorem write_of_large {whole fraction : List Char}
    (areDigits : ∀ digit ∈ whole ++ fraction, digit.isDigit)
    (large : overflowPoint ≤ (digitsValue (whole ++ fraction) : ℚ) * 10 ^ (-fraction.length : ℤ)) :
    Style.source.write (ofNumeral whole fraction) = Style.source.infinity := by
  rcases exists_bits_of_numeral whole fraction with ⟨bits, small, isBits⟩
  have notFinite := mt (isFinite_ofDigits_iff areDigits).mp (not_lt.mpr large)
  change ¬(ofNumeral whole fraction).isFinite = true at notFinite
  rw [isBits, isFinite_ofBits_iff small, not_lt] at notFinite
  rw [isBits, le_antisymm small notFinite, write_infinite]

end Decimal

open Decimal

/-! ## Numerals -/

/-- The digits of a numeral before the point, and those behind it if there is a point. -/
structure Numeral where
  whole : List Char
  fraction : List Char
  notEmpty : whole ≠ []
  areDigits : ∀ digit ∈ whole ++ fraction, digit.isDigit

namespace Numeral

/-- The text of a numeral. -/
def text (numeral : Numeral) : List Char := Decimal.numeral numeral.whole numeral.fraction

/-- The decimal that a numeral is written for. -/
def decimal (numeral : Numeral) : ℚ :=
  digitsValue (numeral.whole ++ numeral.fraction) * 10 ^ (-numeral.fraction.length : ℤ)

/-- The number that a numeral stands for. -/
def literal (numeral : Numeral) : Value := .number (ofNumeral numeral.whole numeral.fraction)

theorem fits (numeral : Numeral) : Fits (.token .number numeral.text numeral.literal) [] :=
  fits_numeral numeral.notEmpty numeral.areDigits

/-- A number below the point of overflow is printed as a numeral of it. -/
theorem exists_printed {numeral : Numeral} (small : numeral.decimal < overflowPoint) :
    ∃ printed : Numeral, printed.text = numeral.literal.source.toList ∧
      printed.literal = numeral.literal := by
  have finite : (ofNumeral numeral.whole numeral.fraction).isFinite = true :=
    (isFinite_ofDigits_iff numeral.areDigits).mpr small
  rcases write_ofNumeral finite with ⟨whole, fraction, notEmpty, areDigits, written, sameNumber⟩
  exact ⟨⟨whole, fraction, notEmpty, areDigits⟩, written.symm, by simp only [literal, sameNumber]⟩

/-- A number that is not below the point of overflow is printed as a word. -/
theorem source_of_large {numeral : Numeral} (large : overflowPoint ≤ numeral.decimal) :
    numeral.literal.source = "Infinity" :=
  write_of_large numeral.areDigits large

/-- A numeral is scanned as a number. If its decimal is below the point of overflow, the number is
printed as a text that is scanned, without a diagnostic, as one token of the same number, and parsed
as a literal of it. Otherwise the number is printed as a word, and that is a name. -/
theorem scan_source (numeral : Numeral) :
    let printed := numeral.literal.source.toList
    Scan.ofText false numeral.text = .single .number numeral.text numeral.literal ∧
      (numeral.decimal < overflowPoint →
        Scan.ofText false printed = .single .number printed numeral.literal ∧
          Parse.ofText false (printed ++ [';']) = ⟨[.expression (.literal numeral.literal)], []⟩) ∧
      (overflowPoint ≤ numeral.decimal →
        Scan.ofText false printed = .single .identifier "Infinity".toList .nil ∧
          Parse.ofText false (printed ++ [';']) =
            ⟨[.expression (.variable ⟨.identifier, "Infinity", .nil, .start⟩)], []⟩) := by
  intro printed
  refine ⟨Scan.ofText_of_fits numeral.fits, fun small => ?_, fun large => ?_⟩
  · rcases exists_printed small with ⟨again, isText, isLiteral⟩
    have fits := again.fits
    rw [isText, isLiteral] at fits
    exact ⟨Scan.ofText_of_fits fits, Parse.ofText_of_number fits⟩
  · rw [show printed = "Infinity".toList from congrArg String.toList (source_of_large large)]
    exact ⟨Scan.ofText_of_fits fits_infinity, Parse.ofText_of_word fits_infinity⟩

/-- The numeral `0.10`. -/
def tenth : Numeral where
  whole := ['0']
  fraction := ['1', '0']
  notEmpty := by simp
  areDigits := by simp

/-- The numeral `0.10` is printed without its last zero. -/
theorem scan_source_tenth :
    tenth.decimal < overflowPoint ∧ tenth.literal.source = "0.1" ∧
      Scan.ofText false "0.1".toList = .single .number "0.1".toList tenth.literal ∧
      Parse.ofText false "0.1;".toList = ⟨[.expression (.literal tenth.literal)], []⟩ := by
  have isDecimal : tenth.decimal = 10 * 10 ^ (-2 : ℤ) := rfl
  have small : tenth.decimal < overflowPoint := by
    calc tenth.decimal < 1 := by rw [isDecimal]; norm_num
      _ ≤ 2 ^ (1023 : ℤ) := one_le_zpow₀ (by norm_num) (by norm_num)
      _ < overflowPoint := lt_overflowPoint
  have isPrinted : tenth.literal.source = "0.1" := by decide +kernel
  have scanned := tenth.scan_source.2.1 small
  rw [isPrinted] at scanned
  exact ⟨small, isPrinted, scanned⟩

/-- A one and 309 zeros. -/
def huge : Numeral where
  whole := '1' :: List.replicate 309 '0'
  fraction := []
  notEmpty := List.cons_ne_nil _ _
  areDigits := by
    rw [List.append_nil, List.forall_mem_cons]
    refine ⟨by decide, fun digit isMember => ?_⟩
    rw [List.eq_of_mem_replicate isMember]
    decide

theorem overflowPoint_le_huge : overflowPoint ≤ huge.decimal := by
  have isOne : '1'.toNat - '0'.toNat = 1 := rfl
  rw [decimal, huge, List.append_nil, digitsValue_cons, digitsValue_zeros, isOne,
    List.length_replicate]
  simpa only [one_mul, add_zero, Nat.cast_pow, Nat.cast_ofNat, List.length_nil, Nat.cast_zero,
    neg_zero, zpow_ofNat, pow_zero, mul_one] using overflowPoint_le

/-- A numeral is scanned as a number, but the text that this number is printed as is a name. -/
theorem scan_source_huge :
    Scan.ofText false huge.text = .single .number huge.text huge.literal ∧
      Scan.ofText false huge.literal.source.toList =
        .single .identifier "Infinity".toList .nil := by
  refine ⟨Scan.ofText_of_fits huge.fits, ?_⟩
  rw [source_of_large overflowPoint_le_huge]
  exact Scan.ofText_of_fits fits_infinity

end Numeral
end LoxLang

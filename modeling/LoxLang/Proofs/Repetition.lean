import LoxLang.Proofs.EvaluatorSteps
import LoxLang.Proofs.ExactValues
import LoxLang.Proofs.OperatorRules

/-!
# Repeated texts

A text that is multiplied by a number is repeated, where the number is rounded down and a negative
one gives the empty text. A number that is not finite and a result that would be too long are faults
at the operator. The limit of the length is no limit of the count where the text is empty or the
count is negative: there the host is asked to repeat a text more often, or less often, than it can
count.
-/

namespace LoxLang

open Run Decimal

namespace Text

theorem length_join_replicate (text : String) (count : ℕ) :
    (String.join (List.replicate count text)).length = count * text.length := by
  induction count with
  | zero => simp
  | succ count ih =>
      rw [List.replicate_succ, String.join_cons, String.length_append, ih]
      ring

end Text

namespace Operator

/-! ## The operator -/

section Finite

variable {operator : Token} {text : String} {number : Float} {mark : ℕ} {value : ℚ}
  (isStar : operator.kind = .star) (isValue : exactValue? number = some value)
include isStar isValue

theorem repetition_of_large (large : 2 ^ 27 < text.length * ⌊value⌋) :
    binary operator (.string text) (.number number mark) =
      .error (.atToken operator .hugeRepetition) := by
  refine binary_iff.mp (.huge isStar ?_ large)
  rw [Binary.floor_ofFloat, isValue, Option.map_some]

/-- A text that is not empty and is repeated more often than the host can count is too long. -/
theorem repetition_of_uncountable (small : text.length * ⌊value⌋ ≤ 2 ^ 27)
    (outside : ⌊value⌋ < -2 ^ 63 ∨ text = "" ∧ 2 ^ 63 ≤ ⌊value⌋) :
    binary operator (.string text) (.number number mark) =
      .error (.host .countTooLarge "cannot fit 'int' into an index-sized integer") := by
  refine binary_iff.mp (.uncountable isStar ?_ small (outside.imp_right And.right))
  rw [Binary.floor_ofFloat, isValue, Option.map_some]

theorem repetition_of_small (small : text.length * ⌊value⌋ ≤ 2 ^ 27) (atLeast : -2 ^ 63 ≤ ⌊value⌋)
    (below : text = "" → ⌊value⌋ < 2 ^ 63) :
    binary operator (.string text) (.number number mark) =
      .ok (.string (String.join (List.replicate (max 0 ⌊value⌋).toNat text))) := by
  have isCount : (max 0 ⌊value⌋).toNat = ⌊value⌋.toNat := by omega
  have countable : ⌊value⌋ < 2 ^ 63 := by
    by_cases isEmpty : text = ""
    · exact below isEmpty
    · have positive : 0 < text.length :=
        Nat.pos_of_ne_zero (mt String.length_eq_zero_iff.mp isEmpty)
      nlinarith
  rw [isCount]
  refine binary_iff.mp (.repetition isStar ?_ small atLeast countable)
  rw [Binary.floor_ofFloat, isValue, Option.map_some]

end Finite

/-- What is repeated within the limit is not too long. -/
theorem length_repetition_le {text : String} {count : ℤ} (small : text.length * count ≤ 2 ^ 27) :
    (String.join (List.replicate (max 0 count).toNat text)).length ≤ 2 ^ 27 := by
  rw [Text.length_join_replicate]
  rcases le_total 0 count with nonnegative | negative
  · rcases Int.eq_ofNat_of_zero_le nonnegative with ⟨count, rfl⟩
    rw [max_eq_right nonnegative, Int.toNat_natCast, Nat.mul_comm]
    exact_mod_cast small
  · rw [max_eq_left negative]
    simp

end Operator

/-! ## Evaluation -/

section Evaluation

variable {setting : Setting} {depth : ℕ} {left right : Expr} {operator : Token}
  {machine machine' machine'' : Machine}

/-- Where both operands have values, they are combined on the machine that is left by then. -/
theorem evaluate_binary {first second : Value}
    (evaluatedLeft : evaluate setting (depth + 2) left machine = .ok first machine')
    (evaluatedRight : evaluate setting (depth + 2) right machine' = .ok second machine'') :
    evaluate setting (depth + 4) (.binary left operator right) machine =
      settle (Operator.binary operator first second) machine'' := by
  have evaluated := Task.run_evaluate setting depth 0 machine (.binary left operator right)
  simp only [Task.run, evaluatedLeft, evaluatedRight, Outcome.andThen] at evaluated
  exact evaluated

/-- Multiplying a text by a number is a fault at the operator if the number is not finite, or if the
text repeated by the number, rounded down, has more than `2 ^ 27` characters. Otherwise it is that
text, which is empty for a negative number, unless the host cannot count that far: it cannot for the
empty text and a number from `2 ^ 63` on, and for any text and a number below `- 2 ^ 63`. -/
theorem evaluate_repetition {text : String} {number : Float} {mark : ℕ}
    (isStar : operator.kind = .star)
    (evaluatedLeft : evaluate setting (depth + 2) left machine = .ok (.string text) machine')
    (evaluatedRight : evaluate setting (depth + 2) right machine' =
      .ok (.number number mark) machine'') :
    let outcome := evaluate setting (depth + 4) (.binary left operator right) machine
    (number.isFinite = false →
      outcome = .error (.fault ⟨some operator, .endlessRepetition⟩) machine'') ∧
    (number.isFinite = true → ∃ value, exactValue? number = some value ∧
      (2 ^ 27 < text.length * ⌊value⌋ →
        outcome = .error (.fault ⟨some operator, .hugeRepetition⟩) machine'') ∧
      (text.length * ⌊value⌋ ≤ 2 ^ 27 →
        (-2 ^ 63 ≤ ⌊value⌋ → (text = "" → ⌊value⌋ < 2 ^ 63) → ∃ result : String,
          outcome = .ok (.string result) machine'' ∧
          result = String.join (List.replicate (max 0 ⌊value⌋).toNat text) ∧
          result.length ≤ 2 ^ 27) ∧
        (⌊value⌋ < -2 ^ 63 ∨ text = "" ∧ 2 ^ 63 ≤ ⌊value⌋ →
          outcome = .error (.host .countTooLarge
            "cannot fit 'int' into an index-sized integer") machine''))) := by
  intro outcome
  have isOutcome : outcome =
      settle (Operator.binary operator (.string text) (.number number mark)) machine'' :=
    evaluate_binary evaluatedLeft evaluatedRight
  rw [isOutcome]
  refine ⟨fun notFinite => ?_, fun finite => ?_⟩
  · rw [← isSome_exactValue, Option.isSome_eq_false_iff, Option.isNone_iff_eq_none] at notFinite
    have isEndless : Operator.binary operator (.string text) (.number number mark) =
        .error (.atToken operator .endlessRepetition) := by
      refine Operator.binary_iff.mp (.endless isStar ?_)
      rw [Binary.floor_ofFloat, notFinite, Option.map_none]
    rw [isEndless]
    rfl
  · rw [← isSome_exactValue, Option.isSome_iff_exists] at finite
    rcases finite with ⟨value, isValue⟩
    refine ⟨value, isValue, fun large => ?_, fun small => ⟨fun atLeast below => ?_,
      fun outside => ?_⟩⟩
    · rw [Operator.repetition_of_large isStar isValue large]
      rfl
    · rw [Operator.repetition_of_small isStar isValue small atLeast below]
      exact ⟨_, rfl, rfl, Operator.length_repetition_le small⟩
    · rw [Operator.repetition_of_uncountable isStar isValue small outside]
      rfl

end Evaluation

/-- An asterisk. -/
def asterisk : Token := { kind := .star, lexeme := "*" }

/-- The product of a text and a number, both given as constants. -/
def product (text : String) (number : Float) : Expr :=
  .binary (.literal (.string text)) asterisk (.literal (.number number))

/-- A text times two and a half is that text twice. -/
theorem evaluate_repetition_twice :
    let setting : Setting := ⟨6, 0, fun _ => 0⟩
    asterisk.kind = .star ∧ (2.5 : Float).isFinite = true ∧ exactValue? 2.5 = some (5 / 2) ∧
      evaluate setting 6 (product "ab" 2.5) .initial = .ok (.string "abab") .initial := by
  intro setting
  have finite : (2.5 : Float).isFinite = true := by decide +kernel
  have isExact : exactValue? 2.5 = some (5 / 2) := by decide +kernel
  have evaluated (value : Value) :
      evaluate setting 4 (.literal value) .initial = .ok value .initial := rfl
  have isStar : asterisk.kind = .star := rfl
  rcases (evaluate_repetition isStar (evaluated (.string "ab")) (evaluated (.number 2.5))).2 finite
    with ⟨value, isValue, -, small⟩
  obtain rfl : value = 5 / 2 := Option.some.inj (isValue.symm.trans isExact)
  have isFloor : ⌊(5 / 2 : ℚ)⌋ = 2 := by norm_num
  rw [isFloor] at small
  rcases (small (by decide)).1 (by decide) (by decide) with ⟨result, outcome, rfl, -⟩
  exact ⟨isStar, finite, isExact, outcome⟩

/-- The empty text times `2 ^ 63` is not the empty text, although that would not be too long. -/
theorem evaluate_repetition_uncountable :
    let setting : Setting := ⟨6, 0, fun _ => 0⟩
    exactValue? 9223372036854775808 = some (2 ^ 63) ∧
      "".length * ⌊(2 ^ 63 : ℚ)⌋ ≤ 2 ^ 27 ∧
      evaluate setting 6 (product "" 9223372036854775808) .initial =
        .error (.host .countTooLarge "cannot fit 'int' into an index-sized integer") .initial := by
  intro setting
  have isExact : exactValue? 9223372036854775808 = some (2 ^ 63) := by decide +kernel
  have isFloor : ⌊(2 ^ 63 : ℚ)⌋ = 2 ^ 63 := by norm_num
  refine ⟨isExact, by simp, ?_⟩
  have isStar : asterisk.kind = .star := rfl
  have evaluated (value : Value) :
      evaluate setting 4 (.literal value) .initial = .ok value .initial := rfl
  rw [product, evaluate_binary (evaluated (.string "")) (evaluated (.number 9223372036854775808)),
    Operator.repetition_of_uncountable isStar isExact (by simp) (.inr ⟨rfl, isFloor.ge⟩)]
  rfl

end LoxLang

import Mathlib
import LoxLang.Operators

/-!
# Rules for values and operators

What counts as true, which values are equal and what the operators give, as rules that the functions
of the same purpose are shown to follow. The operations on numbers themselves are taken as given.
-/

namespace LoxLang

namespace Value

/-- All values but `nil` and `false` count as true. -/
def Truthy (value : Value) : Prop :=
  value ≠ .nil ∧ value ≠ .boolean false

theorem isTruthy_iff {value : Value} : value.isTruthy = true ↔ value.Truthy := by
  cases value <;> simp [isTruthy, Truthy]

theorem isTruthy_eq_false_iff {value : Value} : value.isTruthy = false ↔ ¬ value.Truthy := by
  rw [← isTruthy_iff, Bool.not_eq_true]

/-- Only values of one type are equal, and only if they have the same content. -/
inductive Equal : Value → Value → Prop
  | nil : Equal .nil .nil
  | boolean (value : Bool) : Equal (.boolean value) (.boolean value)
  | number {left right : Float} {leftMark rightMark : Nat} (same : (left == right) = true) :
      Equal (.number left leftMark) (.number right rightMark)
  | string (text : String) : Equal (.string text) (.string text)
  | callable {left right : Reference} (same : left.identity = right.identity) :
      Equal (.callable left) (.callable right)

theorem equals_iff {left right : Value} : left.equals right = true ↔ Equal left right := by
  constructor
  · intro equal
    cases left <;> cases right <;> simp only [equals, beq_iff_eq, Bool.false_eq_true] at equal
    · exact .nil
    · rw [equal]
      exact .boolean _
    · exact .number equal
    · rw [equal]
      exact .string _
    · exact .callable equal
  · intro equal
    cases equal <;> simp_all [equals]

end Value

namespace Text

/-- Repeating a text is joining as many copies of it. -/
theorem repeated_eq_join (text : String) (count : Nat) :
    repeated text count = String.join (List.replicate count text) := by
  induction count using Nat.strongRecOn with
  | ind count ih =>
    unfold repeated
    split
    · next isZero => simp [isZero]
    · next notZero =>
        have half := ih (count / 2) (by omega)
        simp only [half]
        split
        · rw [← String.join_append, List.replicate_append_replicate]
          congr 2
          omega
        · have one : String.join (List.replicate 1 text) = text := by simp
          conv => lhs; rhs; rw [← one]
          rw [← String.join_append, ← String.join_append, List.replicate_append_replicate,
            List.replicate_append_replicate]
          congr 2
          omega

end Text

namespace Operator

/-- The operators on numbers that are defined for all of them. -/
def numeric : List (TokenKind × (Float → Float → Value)) :=
  [(.minus, fun left right => .number (left - right)),
   (.greater, fun left right => .boolean (left > right)),
   (.greaterEqual, fun left right => .boolean (left ≥ right)),
   (.less, fun left right => .boolean (left < right)),
   (.lessEqual, fun left right => .boolean (left ≤ right))]

/-- `Unary operator value result` says what a unary operator gives. -/
inductive Unary (operator : Token) : Value → Except Abort Value → Prop
  | falsity {value : Value} (isBang : operator.kind = .bang) (truthy : value.Truthy) :
      Unary operator value (.ok (.boolean false))
  | truth {value : Value} (isBang : operator.kind = .bang) (falsy : ¬ value.Truthy) :
      Unary operator value (.ok (.boolean true))
  | negation {number : Float} {mark : Nat} (isMinus : operator.kind = .minus) :
      Unary operator (.number number mark) (.ok (.number (-number)))
  | notNumber {value : Value} (isMinus : operator.kind = .minus)
      (noNumber : ∀ number mark, value ≠ .number number mark) :
      Unary operator value (.error (.atToken operator .operandNotNumber))
  | unknown {value : Value} (isUnknown : operator.kind ∉ [.bang, .minus]) :
      Unary operator value (.error (.atToken operator (.unknownUnary operator.lexeme)))

/-- `Binary operator left right result` says what a binary operator gives. -/
inductive Binary (operator : Token) : Value → Value → Except Abort Value → Prop
  | concatenation {left : String} {right : Value} (isPlus : operator.kind = .plus) :
      Binary operator (.string left) right (.ok (.string (left ++ right.display)))
  | sum {left right : Float} {leftMark rightMark : Nat} (isPlus : operator.kind = .plus) :
      Binary operator (.number left leftMark) (.number right rightMark)
        (.ok (.number (left + right)))
  | notAddable {left right : Value} (isPlus : operator.kind = .plus)
      (noText : left.isString = false) (noNumbers : (left.isNumber && right.isNumber) = false) :
      Binary operator left right (.error (.atToken operator .notAddable))
  | product {left right : Float} {leftMark rightMark : Nat} (isStar : operator.kind = .star) :
      Binary operator (.number left leftMark) (.number right rightMark)
        (.ok (.number (left * right)))
  | repetition {text : String} {number : Float} {mark : Nat} {count : Int}
      (isStar : operator.kind = .star)
      (isCount : (Decimal.Binary.ofFloat number).floor? = some count)
      (small : text.length * count ≤ maxRepetition) (atLeast : -countLimit ≤ count)
      (below : count < countLimit) :
      Binary operator (.string text) (.number number mark)
        (.ok (.string (String.join (List.replicate count.toNat text))))
  | endless {text : String} {number : Float} {mark : Nat} (isStar : operator.kind = .star)
      (notFinite : (Decimal.Binary.ofFloat number).floor? = none) :
      Binary operator (.string text) (.number number mark)
        (.error (.atToken operator .endlessRepetition))
  | huge {text : String} {number : Float} {mark : Nat} {count : Int}
      (isStar : operator.kind = .star)
      (isCount : (Decimal.Binary.ofFloat number).floor? = some count)
      (large : maxRepetition < text.length * count) :
      Binary operator (.string text) (.number number mark)
        (.error (.atToken operator .hugeRepetition))
  | uncountable {text : String} {number : Float} {mark : Nat} {count : Int}
      (isStar : operator.kind = .star)
      (isCount : (Decimal.Binary.ofFloat number).floor? = some count)
      (small : text.length * count ≤ maxRepetition)
      (outside : count < -countLimit ∨ countLimit ≤ count) :
      Binary operator (.string text) (.number number mark)
        (.error (.host .countTooLarge "cannot fit 'int' into an index-sized integer"))
  | notMultipliable {left right : Value} (isStar : operator.kind = .star)
      (noFactors : ((left.isNumber || left.isString) && right.isNumber) = false) :
      Binary operator left right (.error (.atToken operator .notMultipliable))
  | quotient {left right : Float} {leftMark rightMark : Nat} (isSlash : operator.kind = .slash)
      (notZero : (right == 0.0) = false) :
      Binary operator (.number left leftMark) (.number right rightMark)
        (.ok (.number (left / right)))
  | divisionByZero {left right : Float} {leftMark rightMark : Nat}
      (isSlash : operator.kind = .slash) (isZero : (right == 0.0) = true) :
      Binary operator (.number left leftMark) (.number right rightMark)
        (.error (.atToken operator .divisionByZero))
  | equal {left right : Value} (isEqualEqual : operator.kind = .equalEqual)
      (same : Value.Equal left right) : Binary operator left right (.ok (.boolean true))
  | notEqual {left right : Value} (isEqualEqual : operator.kind = .equalEqual)
      (different : ¬ Value.Equal left right) : Binary operator left right (.ok (.boolean false))
  | unequal {left right : Value} (isBangEqual : operator.kind = .bangEqual)
      (different : ¬ Value.Equal left right) : Binary operator left right (.ok (.boolean true))
  | notUnequal {left right : Value} (isBangEqual : operator.kind = .bangEqual)
      (same : Value.Equal left right) : Binary operator left right (.ok (.boolean false))
  | numeric {left right : Float} {leftMark rightMark : Nat} {compute : Float → Float → Value}
      (known : (operator.kind, compute) ∈ numeric) :
      Binary operator (.number left leftMark) (.number right rightMark) (.ok (compute left right))
  | notNumbers {left right : Value} (known : operator.kind ∈ TokenKind.slash :: numeric.map (·.1))
      (noNumbers : (left.isNumber && right.isNumber) = false) :
      Binary operator left right (.error (.atToken operator .operandsNotNumbers))
  | unknown {left right : Value}
      (isUnknown : operator.kind ∉ [TokenKind.plus, .star, .slash, .equalEqual, .bangEqual] ++
        numeric.map (·.1)) :
      Binary operator left right (.error (.atToken operator (.unknownBinary operator.lexeme)))

theorem unary_iff {operator : Token} {value : Value} {result : Except Abort Value} :
    Unary operator value result ↔ unary operator value = result := by
  constructor
  · intro rule
    cases rule with
    | falsity isBang truthy => simp [unary, isBang, Value.isTruthy_iff.mpr truthy]
    | truth isBang falsy => simp [unary, isBang, Value.isTruthy_eq_false_iff.mpr falsy]
    | negation isMinus => simp [unary, isMinus]
    | notNumber isMinus noNumber =>
        cases value <;> simp_all [unary]
    | unknown isUnknown =>
        simp only [List.mem_cons, List.not_mem_nil, or_false, not_or] at isUnknown
        unfold unary
        split <;> simp_all
  · rintro rfl
    unfold unary
    split
    · next isBang =>
        by_cases truthy : value.Truthy
        · rw [Value.isTruthy_iff.mpr truthy]
          exact .falsity isBang truthy
        · rw [Value.isTruthy_eq_false_iff.mpr truthy]
          exact .truth isBang truthy
    · next isMinus =>
        split
        · exact .negation isMinus
        · next noNumber => exact .notNumber isMinus noNumber
    · next noBang noMinus =>
        refine .unknown ?_
        simp only [List.mem_cons, List.not_mem_nil, or_false, not_or]
        exact ⟨noBang, noMinus⟩

theorem noNumbers_iff {left right : Value} : (left.isNumber && right.isNumber) = false ↔
    ∀ first firstMark second secondMark, left = .number first firstMark →
      right = .number second secondMark → False := by
  cases left <;> cases right <;> simp [Value.isNumber]

theorem onNumbers_of_noNumbers {operator : Token} {left right : Value}
    {compute : Float → Float → Except Abort Value}
    (noNumbers : (left.isNumber && right.isNumber) = false) :
    onNumbers operator compute left right = .error (.atToken operator .operandsNotNumbers) := by
  cases left <;> cases right <;> simp_all [Value.isNumber, onNumbers]

theorem binary_add {operator : Token} (isPlus : operator.kind = .plus) (left right : Value) :
    Binary operator left right (add operator left right) := by
  unfold add
  split
  · exact .concatenation isPlus
  · exact .sum isPlus
  · next noText noNumbers =>
      refine .notAddable isPlus ?_ (noNumbers_iff.mpr noNumbers)
      cases left <;> simp_all [Value.isString]

theorem binary_repeatText {operator : Token} (isStar : operator.kind = .star) (text : String)
    (number : Float) (mark : Nat) :
    Binary operator (.string text) (.number number mark) (repeatText operator text number) := by
  unfold repeatText
  split
  · next notFinite => exact .endless isStar notFinite
  · next count isCount =>
      split
      · next large => exact .huge isStar isCount large
      · next small =>
          rw [Int.not_lt] at small
          split
          · next outside =>
              rw [Bool.or_eq_true, decide_eq_true_eq, decide_eq_true_eq] at outside
              exact .uncountable isStar isCount small outside
          · next inside =>
              rw [Bool.or_eq_true, decide_eq_true_eq, decide_eq_true_eq, not_or, Int.not_lt,
                Int.not_le] at inside
              rw [Text.repeated_eq_join]
              exact .repetition isStar isCount small inside.1 inside.2

theorem binary_multiply {operator : Token} (isStar : operator.kind = .star) (left right : Value) :
    Binary operator left right (multiply operator left right) := by
  unfold multiply
  split
  · exact .product isStar
  · exact binary_repeatText isStar _ _ _
  · next noNumbers noRepetition =>
      refine .notMultipliable isStar ?_
      rw [Bool.and_or_distrib_right, noNumbers_iff.mpr noNumbers, Bool.false_or]
      cases left <;> cases right <;> simp_all [Value.isNumber, Value.isString]

theorem binary_divide {operator : Token} (isSlash : operator.kind = .slash) (left right : Value) :
    Binary operator left right (divide operator left right) := by
  unfold divide onNumbers
  split
  · dsimp only
    split
    · next isZero => exact .divisionByZero isSlash isZero
    · next notZero => exact .quotient isSlash (by simpa using notZero)
  · next noNumbers =>
      exact .notNumbers (by simp [isSlash]) (noNumbers_iff.mpr noNumbers)

theorem binary_numeric {operator : Token} {compute : Float → Float → Value}
    (known : (operator.kind, compute) ∈ numeric) (left right : Value) :
    Binary operator left right
      (onNumbers operator (fun left right => .ok (compute left right)) left right) := by
  unfold onNumbers
  split
  · exact .numeric known
  · next noNumbers =>
      exact .notNumbers (List.mem_cons_of_mem _ (List.mem_map.mpr ⟨_, known, rfl⟩))
        (noNumbers_iff.mpr noNumbers)

/-- Every binary operation follows a rule. -/
theorem binary_binary (operator : Token) (left right : Value) :
    Binary operator left right (binary operator left right) := by
  unfold binary
  split
  · next isPlus => exact binary_add isPlus left right
  · next isStar => exact binary_multiply isStar left right
  · next isSlash => exact binary_divide isSlash left right
  · next isEqualEqual =>
      cases equal : left.equals right with
      | true => exact .equal isEqualEqual (Value.equals_iff.mp equal)
      | false =>
          refine .notEqual isEqualEqual fun same => ?_
          simp [Value.equals_iff.mpr same] at equal
  · next isBangEqual =>
      cases equal : left.equals right with
      | true => exact .notUnequal isBangEqual (Value.equals_iff.mp equal)
      | false =>
          refine .unequal isBangEqual fun same => ?_
          simp [Value.equals_iff.mpr same] at equal
  · next isMinus => exact binary_numeric (by simp [numeric, isMinus]) left right
  · next isGreater =>
      have known : (operator.kind, fun left right : Float => Value.boolean (left > right)) ∈
        numeric := by
        simp [numeric, isGreater]
      exact binary_numeric known left right
  · next isGreaterEqual =>
      have known : (operator.kind, fun left right : Float => Value.boolean (left ≥ right)) ∈
        numeric := by
        simp [numeric, isGreaterEqual]
      exact binary_numeric known left right
  · next isLess =>
      have known : (operator.kind, fun left right : Float => Value.boolean (left < right)) ∈
        numeric := by
        simp [numeric, isLess]
      exact binary_numeric known left right
  · next isLessEqual =>
      have known : (operator.kind, fun left right : Float => Value.boolean (left ≤ right)) ∈
        numeric := by
        simp [numeric, isLessEqual]
      exact binary_numeric known left right
  · next noPlus noStar noSlash noEqualEqual noBangEqual noMinus noGreater noGreaterEqual noLess
      noLessEqual =>
      refine .unknown ?_
      simp only [numeric, List.map_cons, List.map_nil, List.mem_append, List.mem_cons,
        List.not_mem_nil, or_false, not_or]
      exact ⟨⟨noPlus, noStar, noSlash, noEqualEqual, noBangEqual⟩, noMinus, noGreater,
        noGreaterEqual, noLess, noLessEqual⟩

theorem binary_iff {operator : Token} {left right : Value} {result : Except Abort Value} :
    Binary operator left right result ↔ binary operator left right = result := by
  constructor
  · intro rule
    cases rule with
    | concatenation isPlus => simp [binary, isPlus, add]
    | sum isPlus => simp [binary, isPlus, add]
    | notAddable isPlus noText noNumbers =>
        cases left <;> cases right <;> simp_all [binary, add, Value.isString, Value.isNumber]
    | product isStar => simp [binary, isStar, multiply]
    | repetition isStar isCount small atLeast below =>
        simp [binary, isStar, multiply, repeatText, isCount, Int.not_lt.mpr small,
          Int.not_lt.mpr atLeast, Int.not_le.mpr below, Text.repeated_eq_join]
    | endless isStar notFinite => simp [binary, isStar, multiply, repeatText, notFinite]
    | huge isStar isCount large => simp [binary, isStar, multiply, repeatText, isCount, large]
    | uncountable isStar isCount small outside =>
        simp [binary, isStar, multiply, repeatText, isCount, Int.not_lt.mpr small, outside]
    | notMultipliable isStar noFactors =>
        cases left <;> cases right <;> simp_all [binary, multiply, Value.isString, Value.isNumber]
    | quotient isSlash notZero => simp [binary, isSlash, divide, onNumbers, notZero]
    | divisionByZero isSlash isZero => simp [binary, isSlash, divide, onNumbers, isZero]
    | equal isEqualEqual same => simp [binary, isEqualEqual, Value.equals_iff.mpr same]
    | notEqual isEqualEqual different =>
        rw [← Value.equals_iff] at different
        simp [binary, isEqualEqual, different]
    | unequal isBangEqual different =>
        rw [← Value.equals_iff] at different
        simp [binary, isBangEqual, different]
    | notUnequal isBangEqual same => simp [binary, isBangEqual, Value.equals_iff.mpr same]
    | numeric known =>
        simp only [numeric, List.mem_cons, Prod.mk.injEq, List.not_mem_nil, or_false] at known
        rcases known with
          ⟨isKind, rfl⟩ | ⟨isKind, rfl⟩ | ⟨isKind, rfl⟩ | ⟨isKind, rfl⟩ | ⟨isKind, rfl⟩ <;>
          simp [binary, isKind, onNumbers]
    | notNumbers known noNumbers =>
        simp only [numeric, List.map_cons, List.map_nil, List.mem_cons, List.not_mem_nil,
          or_false] at known
        rcases known with isKind | isKind | isKind | isKind | isKind | isKind <;>
          simp [binary, isKind, divide, onNumbers_of_noNumbers noNumbers]
    | unknown isUnknown =>
        simp only [numeric, List.map_cons, List.map_nil, List.mem_append, List.mem_cons,
          List.not_mem_nil, or_false, not_or] at isUnknown
        unfold binary
        split <;> simp_all
  · rintro rfl
    exact binary_binary operator left right

end Operator
end LoxLang

import LoxLang.Decimal.Binary
import LoxLang.Fault

/-!
# Operators

What the unary and binary operators compute. Adding to a text appends the printed form of the
other operand, and multiplying a text repeats it; all other arithmetic is on numbers.

Memory is idealised: there is enough of it for every text. A host without the memory for a repeated
text that is within the limit would report it as too large, like one beyond the limit.
-/

namespace LoxLang

namespace Text

/-- A text repeated a number of times. -/
def repeated (text : String) (count : Nat) : String :=
  if count = 0 then ""
  else
    let half := repeated text (count / 2)
    if count % 2 = 0 then half ++ half else half ++ half ++ text
termination_by count
decreasing_by omega

end Text

namespace Operator

-- Powers are those of the core library, whichever other instances are in scope.
attribute [local instance (high)] instPowNat

/-- The greatest number of characters of a repeated text. -/
def maxRepetition : Int := 2 ^ (27 : Nat)

/-- The counts that the host can repeat a text by are below this one in absolute value. -/
def countLimit : Int := 2 ^ (63 : Nat)

/-- A text repeated by a number, which is rounded down. A negative count gives the empty text. -/
def repeatText (operator : Token) (text : String) (count : Float) : Except Abort Value :=
  match (Decimal.Binary.ofFloat count).floor? with
  | none => .error (.atToken operator .endlessRepetition)
  | some count =>
      if maxRepetition < text.length * count then .error (.atToken operator .hugeRepetition)
      else if count < -countLimit || countLimit ≤ count then
        .error (.host .countTooLarge "cannot fit 'int' into an index-sized integer")
      else .ok (.string (Text.repeated text count.toNat))

/-- Sums, and texts with something appended. -/
def add (operator : Token) : Value → Value → Except Abort Value
  | .string left, right => .ok (.string (left ++ right.display))
  | .number left _, .number right _ => .ok (.number (left + right))
  | _, _ => .error (.atToken operator .notAddable)

/-- Products, and repeated texts. -/
def multiply (operator : Token) : Value → Value → Except Abort Value
  | .number left _, .number right _ => .ok (.number (left * right))
  | .string left, .number right _ => repeatText operator left right
  | _, _ => .error (.atToken operator .notMultipliable)

/-- An operator on numbers only. -/
def onNumbers (operator : Token) (compute : Float → Float → Except Abort Value) :
    Value → Value → Except Abort Value
  | .number left _, .number right _ => compute left right
  | _, _ => .error (.atToken operator .operandsNotNumbers)

/-- Quotients. -/
def divide (operator : Token) : Value → Value → Except Abort Value :=
  onNumbers operator fun left right =>
    if right == 0.0 then .error (.atToken operator .divisionByZero)
    else .ok (.number (left / right))

/-- The value of a binary operation. -/
def binary (operator : Token) (left right : Value) : Except Abort Value :=
  match operator.kind with
  | .plus => add operator left right
  | .star => multiply operator left right
  | .slash => divide operator left right
  | .equalEqual => .ok (.boolean (left.equals right))
  | .bangEqual => .ok (.boolean (!left.equals right))
  | .minus => onNumbers operator (fun left right => .ok (.number (left - right))) left right
  | .greater => onNumbers operator (fun left right => .ok (.boolean (left > right))) left right
  | .greaterEqual => onNumbers operator (fun left right => .ok (.boolean (left ≥ right))) left right
  | .less => onNumbers operator (fun left right => .ok (.boolean (left < right))) left right
  | .lessEqual => onNumbers operator (fun left right => .ok (.boolean (left ≤ right))) left right
  | _ => .error (.atToken operator (.unknownBinary operator.lexeme))

/-- The value of a unary operation. -/
def unary (operator : Token) (right : Value) : Except Abort Value :=
  match operator.kind with
  | .bang => .ok (.boolean (!right.isTruthy))
  | .minus =>
      match right with
      | .number value _ => .ok (.number (-value))
      | _ => .error (.atToken operator .operandNotNumber)
  | _ => .error (.atToken operator (.unknownUnary operator.lexeme))

end Operator

end LoxLang

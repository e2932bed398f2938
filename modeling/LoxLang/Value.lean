import LoxLang.Decimal.Layout
import LoxLang.Text.Quoted

/-!
# Values

A value is `nil`, a boolean, a number, a text or a callable. Callables are kept by the machine, and
a value only refers to one. Values have three written forms: the one that a program prints, the one
that traces show, and the one that stands in a source text.

Values of different types are never equal in the language. The equality of trees is coarser, since
a boolean counts there as a number, and also finer: a result that is not a number is equal to
nothing in the language, while it is the same as itself. Such results are told apart by a mark.
-/

namespace LoxLang

/-- What a callable shows of itself, and the identity that tells it apart from all others. -/
structure Reference where
  identity : Nat
  isNative : Bool
  name : String
  arity : Int

namespace Reference

/-- The form that a program prints. -/
def display (reference : Reference) : String :=
  (if reference.isNative then "<native fn " else "<fn ") ++ reference.name ++ ">"

/-- The form that traces show. -/
def inspect (reference : Reference) : String :=
  (if reference.isNative then "NativeFunction(" else "LoxFunction(") ++
    Text.quoted reference.name ++ ", " ++ toString reference.arity ++ ")"

end Reference

/-- The values that a program computes with. The mark of a number matters only for what is not a
number. -/
inductive Value
  | nil
  | boolean (value : Bool)
  | number (value : Float) (mark : Nat := 0)
  | string (text : String)
  | callable (reference : Reference)

namespace Value

/-- Whether a value is a number. -/
def isNumber : Value → Bool
  | .number _ _ => true
  | _ => false

/-- Whether a value is a text. -/
def isString : Value → Bool
  | .string _ => true
  | _ => false

/-- Whether a value counts as true: all but `nil` and `false` do. -/
def isTruthy : Value → Bool
  | .nil => false
  | .boolean value => value
  | _ => true

/-- Equality of the language. -/
def equals : Value → Value → Bool
  | .nil, .nil => true
  | .boolean left, .boolean right => left == right
  | .number left _, .number right _ => left == right
  | .string left, .string right => left == right
  | .callable left, .callable right => left.identity == right.identity
  | _, _ => false

/-- Whether two numbers are the same: they are equal, or neither is a number and they have the same
mark. -/
def sameNumber (left : Float) (leftMark : Nat) (right : Float) (rightMark : Nat) : Bool :=
  left == right || left.isNaN && right.isNaN && leftMark == rightMark

/-- Whether two values are the same, as in the equality of trees. A boolean counts here as the
number one or zero, and zero is the same with either sign. -/
def sameAs : Value → Value → Bool
  | .nil, .nil => true
  | .boolean left, .boolean right => left == right
  | .number left leftMark, .number right rightMark => sameNumber left leftMark right rightMark
  | .string left, .string right => left == right
  | .boolean left, .number right _ => (if left then 1.0 else 0.0) == right
  | .number left _, .boolean right => left == (if right then 1.0 else 0.0)
  | .callable left, .callable right => left.identity == right.identity
  | _, _ => false

/-- The form that a program prints. -/
def display : Value → String
  | .nil => "nil"
  | .boolean value => if value then "true" else "false"
  | .number value _ => Decimal.Style.display.write value
  | .string text => text
  | .callable reference => reference.display

/-- The form that traces show. -/
def inspect : Value → String
  | .nil => "None"
  | .boolean value => if value then "True" else "False"
  | .number value _ => Decimal.Style.trace.write value
  | .string text => Text.quoted text
  | .callable reference => reference.inspect

/-- The form in a source text. A callable has none of its own and stands there as a text. -/
def source : Value → String
  | .nil => "nil"
  | .boolean value => if value then "true" else "false"
  | .number value _ => Decimal.Style.source.write value
  | .string text => "\"" ++ text ++ "\""
  | .callable reference => "\"" ++ reference.display ++ "\""

end Value

end LoxLang

import LoxLang.Heap
import LoxLang.Tree

/-!
# Callables

What can be called is a function that was declared in a program, together with the frame that it
sees, or a native. A native that gives a value makes a new one with every call.
-/

namespace LoxLang

mutual

/-- What can be called. A function without a closure sees nothing but its own frame. -/
inductive Callable
  | native (name : String) (arity : Int) (action : Action)
  | function (name : Token) (parameters : List Token) (body : List Stmt)
      (closure : Option FrameId)

/-- What a native does when it is called: it reads the clock, makes a value, gives one of its
arguments, counted from the end where the index is negative, or ends the run. -/
inductive Action
  | clock
  | produce (recipe : Recipe)
  | pick (index : Int)
  | abort (reason : Abort)

/-- How a native makes a value: it gives a constant, or it makes a callable. -/
inductive Recipe
  | constant (value : Value)
  | callable (target : Callable)

end

namespace Callable

/-- The number of arguments that a callable takes. -/
def arity : Callable → Int
  | .native _ arity _ => arity
  | .function _ parameters _ _ => parameters.length

/-- What a callable with a given identity shows of itself. -/
def reference (identity : Nat) : Callable → Reference
  | .native name arity _ => { identity, isNative := true, name, arity }
  | .function name parameters _ _ =>
      { identity, isNative := false, name := name.lexeme, arity := parameters.length }

end Callable

end LoxLang

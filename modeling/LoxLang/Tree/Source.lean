import LoxLang.Tree

/-!
# Source texts of trees

The text that stands for a tree. Parentheses stand exactly where the tree has a grouping, bodies of
loops and branches are always in braces, holes are left out, and a block with the shape of a
spelled-out `for` loop is written as a `for` loop. Nested statements are indented by four columns.

Every tree has a text, however deeply it is nested. Which trees the printer has room for is another
matter.
-/

namespace LoxLang

mutual

/-- The source text of an expression. -/
def Expr.source : Expr → String
  | .literal value => value.source
  | .variable name => name.lexeme
  | .assign name value => name.lexeme ++ " = " ++ value.source
  | .unary operator right => operator.lexeme ++ right.source
  | .binary left operator right => left.source ++ " " ++ operator.lexeme ++ " " ++ right.source
  | .logical left operator right => left.source ++ " " ++ operator.lexeme ++ " " ++ right.source
  | .ternary condition thenBranch elseBranch =>
      condition.source ++ " ? " ++ thenBranch.source ++ " : " ++ elseBranch.source
  | .grouping inner => "(" ++ inner.source ++ ")"
  | .call callee _ arguments =>
      callee.source ++ "(" ++ ", ".intercalate (Expr.sources arguments) ++ ")"

/-- The source texts of expressions. -/
def Expr.sources : List Expr → List String
  | [] => []
  | expression :: rest => expression.source :: Expr.sources rest

end

namespace Stmt

/-- The blanks in front of a statement that is nested `depth` times; a negative depth has none. -/
def indent (depth : Int) : String :=
  String.ofList (List.replicate (4 * depth.toNat) ' ')

/-- Lines in braces, where the closing brace belongs to a statement nested `depth` times. -/
def braces (depth : Int) : List String → String
  | [] => "\x7b\x7d"
  | lines => "\x7b\n" ++ "\n".intercalate lines ++ "\n" ++ indent depth ++ "\x7d"

/-- The text of an absent initializer of a `for` loop. -/
def noInitializer : String := ";"

/-- The head of a `for` loop with the texts of its clauses. -/
def forHead (initializer condition : String) (increment : Option String) : String :=
  let increment :=
    match increment with
    | some increment => " " ++ increment
    | none => ""
  "for (" ++ initializer ++ " " ++ condition ++ ";" ++ increment ++ ") "

/-- The head of a `while` loop, which is written as a `for` loop if it has an increment. -/
def loopHead (condition : String) : Option String → String
  | none => "while (" ++ condition ++ ") "
  | some increment => forHead noInitializer condition (some increment)

/-- Whether a statement can be the initializer of a `for` loop. -/
def isInitializer : Stmt → Bool
  | .hole | .var _ _ | .expression _ => true
  | _ => false

mutual

/-- The source text of a statement that is nested `depth` times; its first line is not indented. -/
def source (depth : Int) (statement : Stmt) : String :=
  match statement with
  | .hole => noInitializer
  | .expression value => value.source ++ ";"
  | .print value => "print " ++ value.source ++ ";"
  | .var name none => "var " ++ name.lexeme ++ ";"
  | .var name (some value) => "var " ++ name.lexeme ++ " = " ++ value.source ++ ";"
  | .block [initializer, .whileLoop condition body increment] =>
      if initializer.isInitializer then
        forHead (source depth initializer) condition.source (increment.map Expr.source) ++
          branch depth body
      else
        braces depth (lines (depth + 1) [initializer, .whileLoop condition body increment])
  | .block statements => braces depth (lines (depth + 1) statements)
  | .ifElse condition thenBranch none =>
      "if (" ++ condition.source ++ ") " ++ branch depth thenBranch
  | .ifElse condition thenBranch (some elseBranch) =>
      "if (" ++ condition.source ++ ") " ++ branch depth thenBranch ++ " else " ++
        branch depth elseBranch
  | .whileLoop condition body increment =>
      loopHead condition.source (increment.map Expr.source) ++ branch depth body
  | .forLoop none condition increment body =>
      let condition := condition.getD (.literal (.boolean true))
      forHead noInitializer condition.source (increment.map Expr.source) ++ branch depth body
  | .forLoop (some initializer) condition increment body =>
      let condition := condition.getD (.literal (.boolean true))
      if initializer.isInitializer then
        forHead (source depth initializer) condition.source (increment.map Expr.source) ++
          branch depth body
      else
        braces depth
          [indent (depth + 1) ++ source (depth + 1) initializer,
           indent (depth + 1) ++ loopHead condition.source (increment.map Expr.source) ++
             branch (depth + 1) body]
  | .breakLoop _ => "break;"
  | .continueLoop _ => "continue;"
  | .function name parameters body =>
      "fun " ++ name.lexeme ++ "(" ++ ", ".intercalate (parameters.map (·.lexeme)) ++ ") " ++
        braces depth (lines (depth + 1) body)
  | .returnValue _ none => "return;"
  | .returnValue _ (some value) => "return " ++ value.source ++ ";"
termination_by (sizeOf statement, 0)

/-- The source text of a branch or of the body of a loop, always in braces. -/
def branch (depth : Int) (statement : Stmt) : String :=
  match statement with
  | .block statements => braces depth (lines (depth + 1) statements)
  | .hole => braces depth []
  | statement => braces depth [indent (depth + 1) ++ source (depth + 1) statement]
termination_by (sizeOf statement, 1)

/-- The indented source texts of statements that are nested `depth` times, without holes. -/
def lines (depth : Int) (statements : List Stmt) : List String :=
  match statements with
  | [] => []
  | .hole :: rest => lines depth rest
  | statement :: rest => (indent depth ++ source depth statement) :: lines depth rest
termination_by (sizeOf statements, 0)

end

/-- The source text of a program: one statement after another, without holes. -/
def program (statements : List Stmt) : String :=
  "\n".intercalate (lines 0 statements)

end Stmt

end LoxLang

import LoxLang.Tree

/-!
# Forms of trees

Every expression and every statement has one of finitely many forms, each with a name. A table of
handlers, one per form, is complete when no form is missing from it.
-/

namespace LoxLang

namespace Expr

/-- The name of the form of an expression. -/
def form : Expr → String
  | .literal _ => "Literal"
  | .variable _ => "Variable"
  | .assign _ _ => "Assign"
  | .unary _ _ => "Unary"
  | .binary _ _ _ => "Binary"
  | .logical _ _ _ => "Logical"
  | .ternary _ _ _ => "Ternary"
  | .grouping _ => "Grouping"
  | .call _ _ _ => "Call"

end Expr

namespace Stmt

/-- The name of the form of a statement; a hole has none. -/
def form? : Stmt → Option String
  | .hole => none
  | .expression _ => some "Expression"
  | .print _ => some "Print"
  | .var _ _ => some "Var"
  | .block _ => some "Block"
  | .ifElse _ _ _ => some "If"
  | .whileLoop _ _ _ => some "While"
  | .forLoop _ _ _ _ => some "For"
  | .breakLoop _ => some "Break"
  | .continueLoop _ => some "Continue"
  | .function _ _ _ => some "Function"
  | .returnValue _ _ => some "Return"

end Stmt

/-- A family of trees: its name and the names of its forms. -/
structure Family where
  name : String
  forms : List String

namespace Family

/-- The family of expressions. -/
def expressions : Family where
  name := "Expr"
  forms :=
    ["Literal", "Variable", "Assign", "Unary", "Binary", "Logical", "Ternary", "Grouping", "Call"]

/-- The family of statements. -/
def statements : Family where
  name := "Stmt"
  forms :=
    ["Expression", "Print", "Var", "Block", "If", "While", "For", "Break", "Continue", "Function",
     "Return"]

/-- The forms of a family without a handler, in the order of the family. -/
def missing (family : Family) (handled : List String) : List String :=
  family.forms.filter (!handled.contains ·)

/-- The complaint about a table of handlers that is not complete. -/
def complaint? (family : Family) (handled : List String) : Option String :=
  match family.missing handled with
  | [] => none
  | missing =>
      some ("no handler for " ++ family.name ++ " variant(s): " ++ ", ".intercalate missing)

end Family

/-- Every expression has a form of the family of expressions. -/
theorem Expr.form_mem_forms (expression : Expr) : expression.form ∈ Family.expressions.forms := by
  cases expression <;> simp [Expr.form, Family.expressions]

/-- Every statement that is no hole has a form of the family of statements. -/
theorem Stmt.form_mem_forms {statement : Stmt} {form : String}
    (found : statement.form? = some form) : form ∈ Family.statements.forms := by
  cases statement <;> simp_all [Stmt.form?, Family.statements]

end LoxLang

import LoxLang.Callable
import LoxLang.Completion

/-!
# Parts of programs and the callables they bring

A statement occurs in another one when it stands in it outside the bodies of nested functions, and
possibly also outside the bodies of nested loops: that is as far as a `return`, a `break` and a
`continue` reach. A body belongs to a program when it is the program itself or the body of a
function declared in it, at any depth.

A repertoire holds the callables that a run may come across: along with a function, it holds all
functions declared in its body, and along with a native, what the native makes.
-/

namespace LoxLang

namespace Stmt

/-- `Occurs loops part whole` says that a statement occurs in another one outside the bodies of
nested functions and, unless `loops` is set, outside the bodies of nested loops. -/
inductive Occurs (loops : Bool) (part : Stmt) : Stmt → Prop
  | here : Occurs loops part part
  | block {statements : List Stmt} {statement : Stmt} (isStatement : statement ∈ statements)
      (occurs : Occurs loops part statement) : Occurs loops part (.block statements)
  | thenBranch {condition : Expr} {thenBranch : Stmt} {elseBranch : Option Stmt}
      (occurs : Occurs loops part thenBranch) :
      Occurs loops part (.ifElse condition thenBranch elseBranch)
  | elseBranch {condition : Expr} {thenBranch elseBranch : Stmt}
      (occurs : Occurs loops part elseBranch) :
      Occurs loops part (.ifElse condition thenBranch (some elseBranch))
  | whileBody {condition : Expr} {body : Stmt} {increment : Option Expr} (through : loops = true)
      (occurs : Occurs loops part body) : Occurs loops part (.whileLoop condition body increment)
  | initializer {initializer : Stmt} {condition increment : Option Expr} {body : Stmt}
      (occurs : Occurs loops part initializer) :
      Occurs loops part (.forLoop (some initializer) condition increment body)
  | forBody {initializer : Option Stmt} {condition increment : Option Expr} {body : Stmt}
      (through : loops = true) (occurs : Occurs loops part body) :
      Occurs loops part (.forLoop initializer condition increment body)

/-- What occurs in a spelled-out `for` loop occurs in the loop, unless it is one of the parts that
spelling out adds. -/
theorem Occurs.of_desugarFor {loops : Bool} {part : Stmt} {initializer : Option Stmt}
    {condition increment : Option Expr} {body : Stmt}
    (occurs : Occurs loops part (desugarFor initializer condition increment body))
    (noBlock : ∀ statements, part ≠ .block statements)
    (noLoop : ∀ condition body increment, part ≠ .whileLoop condition body increment)
    (noHole : part ≠ .hole) :
    Occurs loops part (.forLoop initializer condition increment body) := by
  cases occurs with
  | here => exact absurd rfl (noBlock _)
  | block isStatement occurs =>
      simp only [List.mem_cons, List.not_mem_nil, or_false] at isStatement
      rcases isStatement with rfl | rfl
      · cases initializer with
        | none => cases occurs; exact absurd rfl noHole
        | some initializer => exact .initializer occurs
      · cases occurs with
        | here => exact absurd rfl (noLoop _ _ _)
        | whileBody through occurs => exact .forBody through occurs

/-- Whether executing a statement may end with a completion: the keyword that ends it is that of a
`break` or `continue` outside all nested loops and functions, or of a `return` outside all nested
functions. -/
def EndsWith (statement : Stmt) : Completion → Prop
  | .normal => True
  | .breakLoop keyword => Occurs false (.breakLoop keyword) statement
  | .continueLoop keyword => Occurs false (.continueLoop keyword) statement
  | .returned keyword _ => ∃ value, Occurs true (.returnValue keyword value) statement

/-- A completion of a part is one of the whole if the whole lets through what occurs in the part. -/
theorem EndsWith.lift {part whole : Stmt}
    (occurs : ∀ {loops : Bool} {inner : Stmt}, Occurs loops inner part → Occurs loops inner whole)
    {completion : Completion} (ends : part.EndsWith completion) : whole.EndsWith completion := by
  cases completion with
  | normal => trivial
  | breakLoop keyword => exact occurs ends
  | continueLoop keyword => exact occurs ends
  | returned keyword value =>
      rcases ends with ⟨value, ends⟩
      exact ⟨value, occurs ends⟩

theorem EndsWith.of_desugarFor {initializer : Option Stmt} {condition increment : Option Expr}
    {body : Stmt} {completion : Completion}
    (ends : (desugarFor initializer condition increment body).EndsWith completion) :
    (Stmt.forLoop initializer condition increment body).EndsWith completion := by
  cases completion with
  | normal => trivial
  | breakLoop keyword | continueLoop keyword =>
      exact Occurs.of_desugarFor ends (by simp) (by simp) (by simp)
  | returned keyword value =>
      rcases ends with ⟨value, occurs⟩
      exact ⟨value, occurs.of_desugarFor (by simp) (by simp) (by simp)⟩

/-- Whether executing statements in order may end with a completion: it is normal, or it is one of
one of the statements. -/
def EndWith (statements : List Stmt) (completion : Completion) : Prop :=
  completion = .normal ∨ ∃ statement ∈ statements, statement.EndsWith completion

theorem EndWith.block {statements : List Stmt} {completion : Completion}
    (ends : EndWith statements completion) : (Stmt.block statements).EndsWith completion := by
  rcases ends with rfl | ⟨statement, isStatement, ends⟩
  · trivial
  · exact ends.lift (.block isStatement)

/-- `Belongs program body` says that a body is a program or the body of a function declared in it,
at any depth. -/
inductive Belongs (program : List Stmt) : List Stmt → Prop
  | whole : Belongs program program
  | nested {outer body : List Stmt} {statement : Stmt} {name : Token} {parameters : List Token}
      (belongs : Belongs program outer) (isStatement : statement ∈ outer)
      (occurs : Occurs true (.function name parameters body) statement) : Belongs program body

theorem Belongs.trans {program middle body : List Stmt} (first : Belongs program middle)
    (second : Belongs middle body) : Belongs program body := by
  induction second with
  | whole => exact first
  | nested _ isStatement occurs ih => exact .nested ih isStatement occurs

/-- Whether all functions that a statement declares are among some callables. -/
def Covered (Has : Callable → Prop) (statement : Stmt) : Prop :=
  ∀ name parameters body, Occurs true (.function name parameters body) statement →
    Has (.function name parameters body (some Heap.globals))

end Stmt

mutual

/-- Whether a callable is a function of a given kind, or a native that ends a run early for reasons
of a given kind only and makes no other callables. -/
def Callable.Fits (Function : List Stmt → Option FrameId → Prop) (Reason : Abort → Prop) :
    Callable → Prop
  | .native _ _ action => action.Fits Function Reason
  | .function _ _ body closure => Function body closure

/-- Whether a native ends a run early for reasons of a given kind only and makes no callables but
those of a given kind. -/
def Action.Fits (Function : List Stmt → Option FrameId → Prop) (Reason : Abort → Prop) :
    Action → Prop
  | .clock | .pick _ => True
  | .produce recipe => recipe.Fits Function Reason
  | .abort reason => Reason reason

/-- Whether what is made is no callable or one of a given kind. -/
def Recipe.Fits (Function : List Stmt → Option FrameId → Prop) (Reason : Abort → Prop) :
    Recipe → Prop
  | .constant _ => True
  | .callable target => target.Fits Function Reason

end

mutual

theorem Callable.Fits.mono {Function Function' : List Stmt → Option FrameId → Prop}
    {Reason Reason' : Abort → Prop}
    (functions : ∀ body closure, Function body closure → Function' body closure)
    (reasons : ∀ reason, Reason reason → Reason' reason) :
    ∀ target : Callable, target.Fits Function Reason → target.Fits Function' Reason'
  | .native _ _ action, fits => by
      rw [Callable.Fits] at fits ⊢
      exact Action.Fits.mono functions reasons action fits
  | .function _ _ body closure, fits => by
      rw [Callable.Fits] at fits ⊢
      exact functions body closure fits

theorem Action.Fits.mono {Function Function' : List Stmt → Option FrameId → Prop}
    {Reason Reason' : Abort → Prop}
    (functions : ∀ body closure, Function body closure → Function' body closure)
    (reasons : ∀ reason, Reason reason → Reason' reason) :
    ∀ action : Action, action.Fits Function Reason → action.Fits Function' Reason'
  | .clock, _ | .pick _, _ => by simp only [Action.Fits]
  | .produce recipe, fits => by
      rw [Action.Fits] at fits ⊢
      exact Recipe.Fits.mono functions reasons recipe fits
  | .abort reason, fits => by
      rw [Action.Fits] at fits ⊢
      exact reasons reason fits

theorem Recipe.Fits.mono {Function Function' : List Stmt → Option FrameId → Prop}
    {Reason Reason' : Abort → Prop}
    (functions : ∀ body closure, Function body closure → Function' body closure)
    (reasons : ∀ reason, Reason reason → Reason' reason) :
    ∀ recipe : Recipe, recipe.Fits Function Reason → recipe.Fits Function' Reason'
  | .constant _, _ => by simp only [Recipe.Fits]
  | .callable target, fits => by
      rw [Recipe.Fits] at fits ⊢
      exact Callable.Fits.mono functions reasons target fits

end

/-- The callables that a run may come across. -/
structure Repertoire where
  Has : Callable → Prop
  bodies : ∀ name parameters body closure, Has (.function name parameters body closure) →
    ∀ statement ∈ body, statement.Covered Has
  products : ∀ name arity target, Has (.native name arity (.produce (.callable target))) →
    Has target

namespace Repertoire

/-- Whether a repertoire holds all functions that a statement declares. -/
def Covers (repertoire : Repertoire) (statement : Stmt) : Prop :=
  statement.Covered repertoire.Has

/-- All callables. -/
def all : Repertoire where
  Has _ := True
  bodies _ _ _ _ _ _ _ _ _ _ _ := trivial
  products _ _ _ _ := trivial

/-- The functions of a given kind, and the natives that fit to them. Along with a body, all bodies
of functions that are declared in it are of that kind. -/
def fitting (Function : List Stmt → Option FrameId → Prop) (Reason : Abort → Prop)
    (nested : ∀ {body closure statement name parameters inner}, Function body closure →
      statement ∈ body → Stmt.Occurs true (.function name parameters inner) statement →
      Function inner (some Heap.globals)) : Repertoire where
  Has := Callable.Fits Function Reason
  bodies name parameters body closure has statement isStatement := by
    intro name parameters inner occurs
    rw [Callable.Fits] at has ⊢
    exact nested has isStatement occurs
  products name arity target has := by
    rwa [Callable.Fits, Action.Fits, Recipe.Fits] at has

variable {repertoire : Repertoire}

theorem covers_all (statement : Stmt) : all.Covers statement :=
  fun _ _ _ _ => trivial

theorem Covers.lift {part whole : Stmt} (covers : repertoire.Covers whole)
    (occurs : ∀ {inner : Stmt}, Stmt.Occurs true inner part → Stmt.Occurs true inner whole) :
    repertoire.Covers part :=
  fun name parameters body declared => covers name parameters body (occurs declared)

theorem Covers.desugarFor {initializer : Option Stmt} {condition increment : Option Expr}
    {body : Stmt} (covers : repertoire.Covers (.forLoop initializer condition increment body)) :
    repertoire.Covers (Stmt.desugarFor initializer condition increment body) := by
  intro name parameters body declared
  exact covers name parameters body (declared.of_desugarFor (by simp) (by simp) (by simp))

end Repertoire

end LoxLang

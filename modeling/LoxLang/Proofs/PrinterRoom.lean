import LoxLang.Proofs.Positions
import LoxLang.Tree.Printer

/-!
# The room of the printer

How many calls the printer opens for a tree, one inside the other, counted on the tree itself. The
printer gives the text of a tree if there is room for them, and nothing otherwise. No other property
of a tree decides whether it is printed, and the positions of its tokens do not count.
-/

namespace LoxLang

namespace Printing

variable {α β : Type}

/-- A text for which some calls are opened. -/
def given (calls : Nat) (text : α) : Printing α :=
  within calls (pure text)

theorem run_given (calls room : Nat) (text : α) :
    (given calls text).run room = if calls ≤ room then some text else none := rfl

@[simp]
theorem within_given (outer calls : Nat) (text : α) :
    within outer (given calls text) = given (outer + calls) text := by
  funext room
  simp only [given, within]
  by_cases enough : outer ≤ room
  · rw [if_pos enough]
    by_cases enoughInside : calls ≤ room - outer
    · rw [if_pos enoughInside, if_pos (by omega)]
      rfl
    · rw [if_neg enoughInside, if_neg (by omega)]
  · rw [if_neg enough, if_neg (by omega)]

/-- Of two texts that are printed one after the other, the one that takes more calls counts. -/
@[simp]
theorem given_bind_given (calls calls' : Nat) (text : α) (next : α → β) :
    (given calls text >>= fun text => given calls' (next text)) =
      given (max calls calls') (next text) := by
  funext room
  change (given calls text).run room >>= (fun text => (given calls' (next text)).run room) =
    (given (max calls calls') (next text)).run room
  simp only [run_given]
  by_cases enough : calls ≤ room
  · rw [if_pos enough]
    by_cases enough' : calls' ≤ room
    · rw [if_pos (Nat.max_le.mpr ⟨enough, enough'⟩)]
      exact if_pos enough'
    · rw [if_neg fun both => enough' (Nat.max_le.mp both).2]
      exact if_neg enough'
  · rw [if_neg enough, if_neg fun both => enough (Nat.max_le.mp both).1]
    rfl

@[simp]
theorem given_bind_pure (calls : Nat) (text : α) (next : α → β) :
    (given calls text >>= fun text => pure (next text)) = given calls (next text) := by
  have isZero := given_bind_given calls 0 text next
  rwa [Nat.max_zero] at isZero

end Printing

open Printing

/-! ## Expressions -/

mutual

/-- The number of calls that the printer opens for an expression. -/
def Expr.calls : Expr → Nat
  | .literal value => Printer.literalCalls value
  | .variable _ => 2
  | .assign _ value => 2 + value.calls
  | .unary _ right => 2 + right.calls
  | .binary left _ right | .logical left _ right => 2 + max left.calls right.calls
  | .ternary condition thenBranch elseBranch =>
      2 + max condition.calls (max thenBranch.calls elseBranch.calls)
  | .grouping inner => 2 + inner.calls
  | .call callee _ arguments => 2 + max (2 + Expr.callsAll arguments) callee.calls

/-- The largest number of calls that the printer opens for one of some expressions. -/
def Expr.callsAll : List Expr → Nat
  | [] => 0
  | expression :: rest => max expression.calls (Expr.callsAll rest)

end

/-- The number of calls that the printer opens for an expression that may be absent. -/
def Expr.callsOption : Option Expr → Nat
  | none => 0
  | some expression => expression.calls

namespace Printer

mutual

theorem expression_eq : ∀ tree : Expr, expression tree = given tree.calls tree.source
  | .literal value => rfl
  | .variable name => rfl
  | .assign name value => by
      simp only [expression, expression_eq value, given_bind_pure, within_given, Expr.calls,
        Expr.source]
  | .unary operator right => by
      simp only [expression, expression_eq right, given_bind_pure, within_given, Expr.calls,
        Expr.source]
  | .binary left operator right => by
      simp only [expression, expression_eq left, expression_eq right, given_bind_pure,
        given_bind_given, within_given, Expr.calls, Expr.source]
  | .logical left operator right => by
      simp only [expression, expression_eq left, expression_eq right, given_bind_pure,
        given_bind_given, within_given, Expr.calls, Expr.source]
  | .ternary condition thenBranch elseBranch => by
      simp only [expression, expression_eq condition, expression_eq thenBranch,
        expression_eq elseBranch, given_bind_pure, given_bind_given, within_given, Expr.calls,
        Expr.source]
  | .grouping inner => by
      simp only [expression, expression_eq inner, given_bind_pure, within_given, Expr.calls,
        Expr.source]
  | .call callee paren arguments => by
      simp only [expression, expression_eq callee, expressions_eq arguments, given_bind_pure,
        given_bind_given, within_given, Expr.calls, Expr.source]

theorem expressions_eq : ∀ trees : List Expr,
    expressions trees = given (Expr.callsAll trees) (Expr.sources trees)
  | [] => rfl
  | tree :: rest => by
      simp only [expressions, expression_eq tree, expressions_eq rest, given_bind_pure,
        given_bind_given, Expr.callsAll, Expr.sources]

end

theorem optional_eq (tree : Option Expr) :
    optional tree = given (Expr.callsOption tree) (tree.map Expr.source) := by
  cases tree with
  | none => rfl
  | some tree => simp only [optional, expression_eq, given_bind_pure, Expr.callsOption, Option.map]

/-- The number of calls that the printer opens for the clauses of a loop. -/
def clauseCalls (condition : Expr) (increment : Option Expr) : Nat :=
  max condition.calls (Expr.callsOption increment)

theorem forHead_eq (initializer : String) (condition : Expr) (increment : Option Expr) :
    forHead initializer condition increment = given (clauseCalls condition increment)
      (Stmt.forHead initializer condition.source (increment.map Expr.source)) := by
  simp only [forHead, expression_eq, optional_eq, given_bind_pure, given_bind_given, clauseCalls]

theorem loopHead_eq (condition : Expr) (increment : Option Expr) :
    loopHead condition increment = given (clauseCalls condition increment)
      (Stmt.loopHead condition.source (increment.map Expr.source)) := by
  simp only [loopHead, expression_eq, optional_eq, given_bind_pure, given_bind_given, clauseCalls]

end Printer

/-! ## Statements -/

namespace Stmt

open Printer

mutual

/-- The number of calls that the printer opens for a statement. -/
def calls : Stmt → Nat
  | .hole => 0
  | .expression value | .print value => 2 + value.calls
  | .var _ value | .returnValue _ value => 2 + Expr.callsOption value
  | .block [initializer, .whileLoop condition body increment] =>
      let clauses := clauseCalls condition increment
      if initializer.isInitializer then
        3 + max (calls initializer) (max clauses (bodyCalls body))
      else 4 + max (calls initializer) (2 + loopCalls increment + max clauses (bodyCalls body))
  | .block statements => 4 + callsAll statements
  | .ifElse condition thenBranch none => 2 + max condition.calls (bodyCalls thenBranch)
  | .ifElse condition thenBranch (some elseBranch) =>
      2 + max condition.calls (max (bodyCalls thenBranch) (bodyCalls elseBranch))
  | .whileLoop condition body increment =>
      2 + loopCalls increment + max (clauseCalls condition increment) (bodyCalls body)
  | .forLoop none condition increment body =>
      let clauses := clauseCalls (condition.getD (.literal (.boolean true))) increment
      5 + max clauses (bodyCalls body)
  | .forLoop (some initializer) condition increment body =>
      let clauses := clauseCalls (condition.getD (.literal (.boolean true))) increment
      if initializer.isInitializer then
        5 + max (calls initializer) (max clauses (bodyCalls body))
      else 6 + max (calls initializer) (2 + loopCalls increment + max clauses (bodyCalls body))
  | .breakLoop _ | .continueLoop _ => 2
  | .function _ _ body => 4 + callsAll body

/-- The number of calls that the printer opens for a branch or the body of a loop. -/
def bodyCalls : Stmt → Nat
  | .block statements => 3 + callsAll statements
  | statement => 3 + calls statement

/-- The largest number of calls that the printer opens for one of some statements. -/
def callsAll : List Stmt → Nat
  | [] => 0
  | statement :: rest => max (calls statement) (callsAll rest)

end

end Stmt

namespace Printer

open Stmt (IsFor)

theorem statement_for (depth : Int) {initializer : Stmt}
    (isInitializer : initializer.isInitializer = true) (condition : Expr) (body : Stmt)
    (increment : Option Expr) :
    statement depth (.block [initializer, .whileLoop condition body increment]) =
      within 3 do
        let initializer ← statement depth initializer
        return (← forHead initializer condition increment) ++ (← branch depth body) := by
  rw [statement, if_pos isInitializer]

theorem statement_block (depth : Int) {statements : List Stmt} (noFor : ¬ IsFor statements) :
    statement depth (.block statements) =
      within 4 do return Stmt.braces depth (← lines (depth + 1) statements) := by
  by_cases shape : ∃ initializer condition body increment,
      statements = [initializer, .whileLoop condition body increment]
  · rcases shape with ⟨initializer, condition, body, increment, rfl⟩
    rw [statement, if_neg]
    exact fun isInitializer => noFor ⟨initializer, condition, body, increment, rfl, isInitializer⟩
  · rw [statement]
    intro initializer condition body increment isShape
    exact shape ⟨initializer, condition, body, increment, isShape⟩

end Printer

namespace Stmt

theorem calls_for {initializer : Stmt} (isInitializer : initializer.isInitializer = true)
    (condition : Expr) (body : Stmt) (increment : Option Expr) :
    calls (.block [initializer, .whileLoop condition body increment]) =
      3 + max (calls initializer)
        (max (Printer.clauseCalls condition increment) (bodyCalls body)) := by
  rw [calls, if_pos isInitializer]

theorem calls_block {statements : List Stmt} (noFor : ¬ IsFor statements) :
    calls (.block statements) = 4 + callsAll statements := by
  by_cases shape : ∃ initializer condition body increment,
      statements = [initializer, .whileLoop condition body increment]
  · rcases shape with ⟨initializer, condition, body, increment, rfl⟩
    rw [calls, if_neg]
    · simp only [callsAll, calls, Nat.max_zero]
    · exact fun isInitializer =>
        noFor ⟨initializer, condition, body, increment, rfl, isInitializer⟩
  · rw [calls]
    intro initializer condition body increment isShape
    exact shape ⟨initializer, condition, body, increment, isShape⟩

end Stmt

namespace Printer

open Stmt

mutual

/-- A statement is printed as its text, if there is room for the calls that it takes. -/
theorem statement_eq (depth : Int) (tree : Stmt) :
    statement depth tree = given tree.calls (tree.source depth) := by
  cases tree with
  | hole =>
      rw [statement, Stmt.calls, Stmt.source]
      rfl
  | expression value | print value =>
      simp only [statement, expression_eq, given_bind_pure, within_given, Stmt.calls, Stmt.source]
  | var name initializer =>
      cases initializer with
      | none =>
          rw [statement, Stmt.calls, Stmt.source]
          rfl
      | some value =>
          simp only [statement, expression_eq, given_bind_pure, within_given, Stmt.calls,
            Expr.callsOption, Stmt.source]
  | block statements =>
      by_cases isFor : IsFor statements
      · rcases isFor with ⟨initializer, condition, body, increment, rfl, isInitializer⟩
        rw [statement_for depth isInitializer, Stmt.calls_for isInitializer,
          Stmt.source_for depth isInitializer, statement_eq depth initializer,
          branch_eq depth body]
        simp only [forHead_eq, given_bind_pure, given_bind_given, within_given]
      · rw [statement_block depth isFor, Stmt.calls_block isFor, Stmt.source_block depth isFor,
          lines_eq (depth + 1) statements]
        simp only [given_bind_pure, within_given]
  | ifElse condition thenBranch elseBranch =>
      cases elseBranch with
      | none =>
          simp only [statement, expression_eq, branch_eq depth thenBranch, given_bind_pure,
            given_bind_given, within_given, Stmt.calls, Stmt.source]
      | some elseBranch =>
          simp only [statement, expression_eq, branch_eq depth thenBranch,
            branch_eq depth elseBranch, given_bind_pure, given_bind_given, within_given,
            Stmt.calls, Stmt.source]
  | whileLoop condition body increment =>
      simp only [statement, loopHead_eq, branch_eq depth body, given_bind_pure, given_bind_given,
        within_given, Stmt.calls, Stmt.source]
  | forLoop initializer condition increment body =>
      cases initializer with
      | none =>
          simp only [statement, forHead_eq, branch_eq depth body, given_bind_pure,
            given_bind_given, within_given, Stmt.calls, Stmt.source]
      | some initializer =>
          simp only [statement, Stmt.calls, Stmt.source]
          split
          · simp only [statement_eq depth initializer, forHead_eq, branch_eq depth body,
              given_bind_pure, given_bind_given, within_given]
          · simp only [statement_eq (depth + 1) initializer, loopHead_eq,
              branch_eq (depth + 1) body, given_bind_pure, given_bind_given, within_given,
              String.append_assoc]
  | breakLoop keyword | continueLoop keyword =>
      rw [statement, Stmt.calls, Stmt.source]
      rfl
  | function name parameters body =>
      simp only [statement, lines_eq (depth + 1) body, given_bind_pure, within_given, Stmt.calls,
        Stmt.source]
  | returnValue keyword value =>
      cases value with
      | none =>
          rw [statement, Stmt.calls, Stmt.source]
          rfl
      | some value =>
          simp only [statement, expression_eq, given_bind_pure, within_given, Stmt.calls,
            Expr.callsOption, Stmt.source]
termination_by (sizeOf tree, 0)
decreasing_by
  all_goals refine .left _ _ ?_
  all_goals subst_vars
  all_goals simp only [block.sizeOf_spec, ifElse.sizeOf_spec, whileLoop.sizeOf_spec,
    forLoop.sizeOf_spec, function.sizeOf_spec, List.cons.sizeOf_spec, List.nil.sizeOf_spec,
    Option.some.sizeOf_spec]
  all_goals omega

theorem branch_eq (depth : Int) (tree : Stmt) :
    branch depth tree = given tree.bodyCalls (tree.branch depth) := by
  have inside := statement_eq (depth + 1) tree
  cases tree with
  | block statements =>
      simp only [branch, lines_eq (depth + 1) statements, given_bind_pure, within_given,
        Stmt.bodyCalls, Stmt.branch]
  | hole =>
      rw [branch, Stmt.bodyCalls, Stmt.calls, Stmt.branch]
      · rfl
      · nofun
  | _ => simp only [branch, inside, given_bind_pure, within_given, Stmt.bodyCalls, Stmt.branch]
termination_by (sizeOf tree, 1)
decreasing_by
  · exact .right _ Nat.zero_lt_one
  all_goals exact .left _ _ (by simp only [block.sizeOf_spec]; omega)

theorem lines_eq (depth : Int) (trees : List Stmt) :
    lines depth trees = given (Stmt.callsAll trees) (Stmt.lines depth trees) := by
  cases trees with
  | nil =>
      rw [lines, Stmt.callsAll, Stmt.lines]
      rfl
  | cons tree rest =>
      have first := statement_eq depth tree
      have others := lines_eq depth rest
      cases tree with
      | hole =>
          simp only [lines, others, Stmt.callsAll, Stmt.calls, Nat.zero_max, Stmt.lines]
      | _ =>
          simp only [lines, first, others, given_bind_pure, given_bind_given, Stmt.callsAll,
            Stmt.lines]
termination_by (sizeOf trees, 0)
decreasing_by
  all_goals exact .left _ _ (by simp only [List.cons.sizeOf_spec]; omega)

end

/-- A program is printed as its text, if there is room for the calls that it takes. -/
theorem print_eq (program : List Stmt) :
    print program =
      if 3 + Stmt.callsAll program ≤ callLimit then some (Stmt.program program) else none := by
  rw [print, lines_eq, given_bind_pure, within_given, run_given, Stmt.program]

/-- There is no other text for a program than its source text. -/
theorem program_of_print {program : List Stmt} {text : String}
    (printed : print program = some text) : Stmt.program program = text := by
  rw [print_eq] at printed
  split at printed
  · exact Option.some.inj printed
  · cases printed

theorem print_eq_none_iff (program : List Stmt) :
    print program = none ↔ callLimit < 3 + Stmt.callsAll program := by
  simp only [print_eq, ite_eq_right_iff, reduceCtorEq, imp_false, Nat.not_le]

end Printer

theorem Stmt.callsAll_append (first second : List Stmt) :
    callsAll (first ++ second) = max (callsAll first) (callsAll second) := by
  induction first with
  | nil => rw [List.nil_append, callsAll, Nat.zero_max]
  | cons statement rest ih => rw [List.cons_append, callsAll, callsAll, ih, Nat.max_assoc]

/-- There is room for two programs, one after the other, if there is room for each of them. -/
theorem Printer.print_append_ne_none {first second : List Stmt} (shown : print first ≠ none)
    (shown' : print second ≠ none) : print (first ++ second) ≠ none := by
  rw [ne_eq, print_eq_none_iff] at shown shown' ⊢
  rw [Stmt.callsAll_append]
  omega

/-! ## Positions do not count -/

section Positions

variable (change : Position → Position)

mutual

@[simp]
theorem Expr.calls_move : ∀ expression : Expr, (expression.move change).calls = expression.calls
  | .literal _ | .variable _ => by simp only [Expr.move, Expr.calls]
  | .assign _ value => by simp only [Expr.move, Expr.calls, Expr.calls_move value]
  | .unary _ right => by simp only [Expr.move, Expr.calls, Expr.calls_move right]
  | .binary left _ right | .logical left _ right => by
      simp only [Expr.move, Expr.calls, Expr.calls_move left, Expr.calls_move right]
  | .ternary condition thenBranch elseBranch => by
      simp only [Expr.move, Expr.calls, Expr.calls_move condition, Expr.calls_move thenBranch,
        Expr.calls_move elseBranch]
  | .grouping inner => by simp only [Expr.move, Expr.calls, Expr.calls_move inner]
  | .call callee _ arguments => by
      simp only [Expr.move, Expr.calls, Expr.calls_move callee, Expr.callsAll_move arguments]

theorem Expr.callsAll_move : ∀ expressions : List Expr,
    Expr.callsAll (Expr.moveAll change expressions) = Expr.callsAll expressions
  | [] => rfl
  | expression :: rest => by
      rw [Expr.moveAll, Expr.callsAll, Expr.callsAll, Expr.calls_move expression,
        Expr.callsAll_move rest]

end

@[simp]
theorem Expr.callsOption_move (clause : Option Expr) :
    Expr.callsOption (clause.map (·.move change)) = Expr.callsOption clause := by
  cases clause with
  | none => rfl
  | some clause => exact Expr.calls_move change clause

namespace Printer

@[simp]
theorem loopCalls_move (increment : Option Expr) :
    loopCalls (increment.map (·.move change)) = loopCalls increment := by
  cases increment <;> rfl

@[simp]
theorem clauseCalls_move (condition : Expr) (increment : Option Expr) :
    clauseCalls (condition.move change) (increment.map (·.move change)) =
      clauseCalls condition increment := by
  rw [clauseCalls, clauseCalls, Expr.calls_move, Expr.callsOption_move]

end Printer

namespace Stmt

mutual

theorem calls_move (statement : Stmt) : (statement.move change).calls = statement.calls := by
  cases statement with
  | hole | breakLoop | continueLoop => simp only [move, calls]
  | expression | print => simp only [move, calls, Expr.calls_move]
  | var | returnValue => simp only [move, calls, Expr.callsOption_move]
  | block statements =>
      by_cases isFor : IsFor statements
      · rcases isFor with ⟨initializer, condition, body, increment, rfl, isInitializer⟩
        have moved : (initializer.move change).isInitializer = true := by simpa using isInitializer
        simp only [move, moveAll]
        rw [calls_for moved, calls_for isInitializer, Printer.clauseCalls_move,
          calls_move initializer, bodyCalls_move body]
      · rw [move, calls_block isFor, moveAll_eq_map,
          calls_block fun isFor' => isFor (isFor_of_move change isFor'), callsAll_move statements]
  | ifElse condition thenBranch elseBranch =>
      cases elseBranch with
      | none =>
          simp only [move, moveOptional, calls, Expr.calls_move, bodyCalls_move thenBranch]
      | some elseBranch =>
          simp only [move, moveOptional, calls, Expr.calls_move, bodyCalls_move thenBranch,
            bodyCalls_move elseBranch]
  | whileLoop condition body increment =>
      simp only [move, calls, Printer.loopCalls_move, Printer.clauseCalls_move,
        bodyCalls_move body]
  | forLoop initializer condition increment body =>
      have conditionMove : (condition.map (·.move change)).getD (.literal (.boolean true)) =
          (condition.getD (.literal (.boolean true))).move change := by
        cases condition <;> rfl
      cases initializer with
      | none =>
          simp only [move, moveOptional, calls, conditionMove, Printer.clauseCalls_move,
            bodyCalls_move body]
      | some initializer =>
          simp only [move, moveOptional, calls, conditionMove, isInitializer_move,
            calls_move initializer, Printer.loopCalls_move, Printer.clauseCalls_move,
            bodyCalls_move body]
  | function name parameters body =>
      simp only [move, moveAll_eq_map, calls, callsAll_move body]
termination_by (sizeOf statement, 0)
decreasing_by
  all_goals refine .left _ _ ?_
  all_goals subst_vars
  all_goals simp only [block.sizeOf_spec, ifElse.sizeOf_spec, whileLoop.sizeOf_spec,
    forLoop.sizeOf_spec, function.sizeOf_spec, List.cons.sizeOf_spec, List.nil.sizeOf_spec,
    Option.some.sizeOf_spec]
  all_goals omega

theorem bodyCalls_move (statement : Stmt) :
    (statement.move change).bodyCalls = statement.bodyCalls := by
  have inside := calls_move statement
  cases statement with
  | block statements => simp only [move, moveAll_eq_map, bodyCalls, callsAll_move statements]
  | hole => rfl
  | _ =>
      simp only [move] at inside ⊢
      simp only [bodyCalls, inside]
termination_by (sizeOf statement, 1)
decreasing_by
  · exact .right _ Nat.zero_lt_one
  all_goals exact .left _ _ (by simp only [block.sizeOf_spec]; omega)

theorem callsAll_move (statements : List Stmt) :
    callsAll (statements.map (·.move change)) = callsAll statements := by
  cases statements with
  | nil => rfl
  | cons statement rest =>
      rw [List.map_cons, callsAll, callsAll, calls_move statement, callsAll_move rest]
termination_by (sizeOf statements, 0)
decreasing_by
  all_goals exact .left _ _ (by simp only [List.cons.sizeOf_spec]; omega)

end

end Stmt

theorem Printer.print_move (program : List Stmt) :
    print (program.map (·.move change)) = print program := by
  rw [print_eq, print_eq, Stmt.callsAll_move, Stmt.program_move]

end Positions

end LoxLang

import ModuleGraph.Source.Cursor

/-!
# The rules that the grammar is built from

The phrases of the grammar contain each other.  A phrase is therefore written as a function of the
rules for the phrases inside it, and the knot is tied once, in `ModuleGraph.Source.Grammar.Program`,
by a bound on the depth of nesting.  The same bound limits the number of elements of a list; a text
is shorter than its bound, so neither limit is ever met.

## Main definitions

* `Source.Rules`: the rules for the phrases inside a phrase.
* `Source.Rules.exhausted`: the rules beyond the bound, under which nothing is read.
* `Source.Rules.expression`: expressions with commas between them.
-/

namespace ModuleGraph.Source

open Reader

/-- The rules for the phrases inside a phrase. -/
structure Rules where
  /-- A bound on the number of elements of a list. -/
  budget : Nat
  /-- An expression without commas.  The flag tells whether an arrow function may name the type of
  its result. -/
  assignment : Bool → Reader Expr
  /-- An expression whose operators bind tighter than the given strength. -/
  binary : Nat → Reader Expr
  /-- An operand with the operators in front of it. -/
  unary : Reader Expr
  /-- An operand with its members and calls. -/
  operand : Reader Expr
  /-- A statement.  The flag tells whether it stands alone where a list of statements might. -/
  statement : Bool → Reader Stmt
  typ : Reader Unit
  binding : Reader Unit
  /-- A markup element; the flag tells whether it stands inside another one. -/
  element : Bool → Reader Unit

namespace Rules

/-- The rules under which nothing is read. -/
def exhausted : Rules where
  budget := 0
  assignment _ := refuse
  binary _ := refuse
  unary := refuse
  operand := refuse
  statement _ := refuse
  typ := refuse
  binding := refuse
  element _ := refuse

/-- The same rules, worked out only when one of them is used. -/
def delayed (budget : Nat) (rules : Unit → Rules) : Rules where
  budget := budget
  assignment arrowType := delay fun _ => (rules ()).assignment arrowType
  binary strength := delay fun _ => (rules ()).binary strength
  unary := delay fun _ => (rules ()).unary
  operand := delay fun _ => (rules ()).operand
  statement alone := delay fun _ => (rules ()).statement alone
  typ := delay fun _ => (rules ()).typ
  binding := delay fun _ => (rules ()).binding
  element nested := delay fun _ => (rules ()).element nested

/-- An expression without commas, in any place. -/
def plain (r : Rules) : Reader Expr := withIn (r.assignment true)

/-- Expressions with commas between them. -/
def expression (r : Rules) : Reader Expr := do
  match ← within (fun s => { s with inDecorator := false })
      (listOne (r.assignment true) r.budget) with
  | [e] => return e
  | _ => return .other

/-- Expressions with commas between them, where `in` is an operator. -/
def anyExpression (r : Rules) : Reader Expr := withIn r.expression

/-- The initial value behind `=`, if there is one. -/
def initializer (r : Rules) : Reader (Option Expr) := do
  if ← eat .assign then return some (← r.assignment true) else return none

/-- The type behind a colon, if annotations are understood and there is one. -/
def annotation (r : Rules) : Reader Unit := do
  if (← dialect).typed then
    if ← eat .colon then r.typ

end Rules

end ModuleGraph.Source

import ModuleGraph.Source.Tree

/-!
# What may be assigned to

An expression that has been read may turn out to stand in front of an assignment.  Names and members
may then be assigned to, also between parentheses and with annotations, and lists and objects stand
for patterns of such targets.

## Main definitions

* `Source.Expr.isSimpleTarget`: names and members.
* `Source.Expr.isTarget`: also patterns.
-/

namespace ModuleGraph.Source

namespace Expr

/-- The expression inside parentheses and annotations. -/
def core : Expr → Expr
  | .paren e => e.core
  | .typed e => e.core
  | .instantiation e => e.core
  | e => e

/-- Whether an expression is a name or a member. -/
def isPlace : Expr → Bool
  | .name _ | .member => true
  | _ => false

/-- Whether an expression is a list or an object. -/
def isAggregate : Expr → Bool
  | .array _ | .object _ => true
  | _ => false

/-- Whether an expression is a name or a member, perhaps between parentheses or with an
annotation. -/
def isSimpleTarget : Expr → Bool
  | .name _ | .member => true
  | .paren e => !e.isAggregate && e.isSimpleTarget
  | .typed e => e.core.isPlace
  | _ => false

mutual

/-- Whether an expression may be assigned to. -/
def isTarget : Expr → Bool
  | .array elements => areTargets elements
  | .object values => areTargets values
  | e => e.isSimpleTarget

/-- Whether the parts of a list or an object may be assigned to: each part may have a default, and
only the last one may take all that is left. -/
def areTargets : List Expr → Bool
  | [] => true
  | [.spread e] => e.isTarget
  | .spread _ :: _ => false
  | .hole :: es => areTargets es
  | .shorthand :: es => areTargets es
  | .assignment _ :: es => areTargets es
  | e :: es => e.isTarget && areTargets es

end

end Expr

end ModuleGraph.Source

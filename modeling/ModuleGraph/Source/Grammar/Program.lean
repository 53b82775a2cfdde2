import ModuleGraph.Source.Grammar.Statements

/-!
# Programs

Here the rules are tied together, by a bound on the depth of nesting that is larger than any text
needs, and the statements of a whole text are read.

## Main definitions

* `Source.Rules.next`, `Source.Rules.deep`: the rules for phrases of a given depth.
* `Source.parse?`: the syntax tree of a text, if it has one.
-/

namespace ModuleGraph.Source

open Reader

namespace Rules

/-- The rules for phrases whose inner phrases follow the given rules. -/
def next (r : Rules) : Rules where
  budget := r.budget + 1
  assignment := Source.assignment r
  binary := Source.binary r
  unary := Source.unary r
  operand := Source.operand r
  statement := Source.statement r
  typ := Source.typ r
  binding := Source.binding r
  element := Source.markupElement r

/-- The rules for phrases of a given depth. -/
def deep : Nat → Rules
  | 0 => exhausted
  | n + 1 => (delayed n fun _ => deep n).next

end Rules

/-- The string that a statement consists of, if it consists of one. -/
def Stmt.isDirective : Stmt → Bool
  | .expression (.string _) => true
  | _ => false

/-- Read statements up to the end of the text, or to a piece of it that is no token. -/
def statements (r : Rules) : Nat → Reader (List Stmt)
  | 0 => refuse
  | fuel + 1 => do
    if (← token).isLast then return []
    let s ← r.statement false
    return s :: (← statements r fuel)

/-- A bound on the depth of nesting of a text of a given length. -/
def depthBound (length : Nat) : Nat := 8 * length + 64

/-- The syntax tree of a text, if it has one. -/
def parse? (dialect : Dialect) (text : List Char) : Option Program :=
  let start := Cursor.start dialect text
  (statements (Rules.deep (depthBound text.length)) (text.length + 1) start).map fun r =>
    ⟨r.1.dropWhile Stmt.isDirective,
      r.2.token.kind == .finished true && !r.2.lexicallyFlawed⟩

end ModuleGraph.Source

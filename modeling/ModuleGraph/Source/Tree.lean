/-!
# Syntax trees

Only what bears on imports is kept of a program.  A statement is an import or export declaration, an
expression or a list of initial values; every other statement is a leaf.  An expression keeps the
parts through which a call of `require` or an `import` expression is looked for, and what is needed
to tell whether it may be assigned to; every other expression is a leaf.

## Main definitions

* `Source.Literal`: a string with its place in the text.
* `Source.Expr`, `Source.Stmt`: expressions and statements.
* `Source.Program`: the statements of a text.
-/

namespace ModuleGraph.Source

/-- A string with its place in the text. -/
structure Literal where
  value : String
  /-- The number of characters in front of the opening mark. -/
  offset : Nat
  deriving DecidableEq, Repr

/-- An expression. -/
inductive Expr where
  | name (text : List Char)
  | string (literal : Literal)
  | call (callee : Expr) (arguments : List Expr)
  | importCall (source : Expr)
  | await (operand : Expr)
  | array (elements : List Expr)
  /-- The values of the properties of an object. -/
  | object (values : List Expr)
  | conditional (test yes no : Expr)
  /-- An assignment, of which the right side is kept. -/
  | assignment (right : Expr)
  | paren (inner : Expr)
  | member
  | typed (inner : Expr)
  | instantiation (inner : Expr)
  | spread (inner : Expr)
  | hole
  /-- A property that is named like its value. -/
  | shorthand
  | other
  deriving Repr, Inhabited

/-- A statement.  Of a declaration of variables the initial values are kept, and of an import or
export declaration the module that it names. -/
inductive Stmt where
  | importFrom (typeOnly : Bool) (source : Literal)
  /-- An import declaration that gives a name to a required module, or to a member of a
  namespace. -/
  | importEquals (source : Option Literal)
  | exportFrom (source : Literal)
  | expression (e : Expr)
  | declaration (initial : List Expr)
  | exportedDeclaration (initial : List Expr)
  | other
  deriving Repr, Inhabited

/-- The statements of a text. -/
structure Program where
  /-- The statements, in order; the leading directives are left out. -/
  body : List Stmt
  /-- Whether the whole text was read, and no token of it was flawed. -/
  complete : Bool
  deriving Repr, Inhabited

end ModuleGraph.Source

/-!
# Import specifiers

A module names another one by a *request*, the text between the quotes, and by the form of the
declaration or expression that holds it.

## Main definitions

* `Specifier.Form`, `Specifier`: how a module is named, and the name as written.
-/

namespace ModuleGraph

/-- The form in which a module names another one. -/
inductive Specifier.Form where
  | static
  /-- An import declaration for types, which compilers erase and dependency tracking keeps. -/
  | typeOnly
  /-- An import declaration that binds the value of a `require` call. -/
  | importEquals
  /-- An export declaration that forwards the exports of another module. -/
  | reExport
  /-- A `require` call or an `import` expression. -/
  | dynamic
  deriving DecidableEq, Repr

/-- The name of a module as written in another one. -/
structure Specifier where
  request : String
  form : Specifier.Form
  deriving DecidableEq, Repr

end ModuleGraph

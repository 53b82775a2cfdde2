import ModuleGraph.Json.Value
import ModuleGraph.Path.Basic

/-!
# Dependency graphs

A graph lists the modules of a project, each with the modules it depends on.

## Main definitions

* `Graph.Entry`: one module with its dependencies.
* `Graph`: the modules of a project.
* `Graph.edgeCount`: the number of dependencies.
* `Graph.Entry.toValue`, `Graph.toValue`: the data values that stand for them.
-/

namespace ModuleGraph

/-- One module with its dependencies. -/
structure Graph.Entry where
  /-- The path of the module, relative to the root of the project. -/
  key : String
  /-- The paths of the modules it depends on, relative to its own directory, in order. -/
  dependencies : List String
  deriving DecidableEq, Repr

/-- The modules of a project. -/
structure Graph where
  root : Path
  /-- The modules, sorted by their keys. -/
  entries : List Graph.Entry
  deriving DecidableEq, Repr

namespace Graph

/-- The number of dependencies of all modules. -/
def edgeCount (g : Graph) : Nat := (g.entries.flatMap Entry.dependencies).length

/-- The data value of a module. -/
def Entry.toValue (e : Entry) : Json.Value :=
  .object [("module", .string e.key), ("dependencies", .array (e.dependencies.map .string))]

/-- The data value of a list of modules. -/
def listing (entries : List Entry) : Json.Value := .array (entries.map Entry.toValue)

/-- The data value of a graph. -/
def toValue (g : Graph) : Json.Value :=
  .object [("root", .string g.root.text), ("modules", listing g.entries)]

end Graph

end ModuleGraph

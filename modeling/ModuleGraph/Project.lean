import ModuleGraph.Collection.Modules
import ModuleGraph.Dependencies
import ModuleGraph.Graph

/-!
# Projects

A project is a root with the modules below it.  The root is given or is that of the repository
around the current directory.  The graph of a project has one entry for every module; a module that
cannot be analysed is noted and has no dependencies.

## Main definitions

* `Project.Fault`, `Project.Fault.message`: why a project has no graph.
* `Project.root`: the root of a project.
* `Project.entryOf`: the entry of a module.
* `Project.graphOf`: the graph of given modules.
* `Project.graph`: the graph of a project.
-/

namespace ModuleGraph.Project

/-- Why a project has no graph. -/
inductive Fault where
  | unsettled
  | noRepository
  | collection (fault : Collection.Fault)
  | noModules (root : Path)
  deriving DecidableEq, Repr

/-- The words for a fault. -/
def Fault.message : Fault → String
  | .unsettled => "Config not initialized - call initialize() first"
  | .noRepository => "Could not find .git directory in any parent folder"
  | .collection fault => fault.message
  | .noModules root => "No modules found under " ++ root.text

/-- What to make a graph of. -/
structure Options where
  root : Option Path := none
  /-- A text that the path of every module must contain. -/
  filter : Option String := none
  dynamic : Bool := false
  deriving DecidableEq, Repr

/-- The nearest directory at or above a directory that holds a repository. -/
def repositoryAbove (d : Files.Disk) (dir : Path) : Except Fault Path :=
  match repositoryRoot? d dir with
  | some root => .ok root
  | none => .error .noRepository

/-- A root that is given must be settled already. -/
def settled (root : Option Path) : Except Fault Path :=
  match root with
  | some root => .ok root
  | none => .error .unsettled

/-- The root of a project.  A given root is taken without links if it exists, and as it is
otherwise. -/
def root (d : Files.Disk) (given : Option Path) : Except Fault Path :=
  match given with
  | some root => .ok ((d.real root).toOption.getD root)
  | none => repositoryAbove d (Files.Disk.pathOf d.here)

/-- The key of a module: its path from the root. -/
def keyOf (root file : Path) : String := ((file.relative? root).map Path.slashed).getD file.text

/-- The entry of a module, with what is noted on the way. -/
def entryOf (o : Dependencies.Options) (d : Files.Disk) (root file : Path) : Noted Graph.Entry :=
  match Dependencies.of o d file with
  | .ok found => ⟨⟨keyOf root file, found.value⟩, found.warnings⟩
  | .error fault => ⟨⟨keyOf root file, []⟩, [.failedModule file fault.headline]⟩

/-- The order of entries by their keys. -/
def entryLe (a b : Graph.Entry) : Bool := (Path.compareText a.key b.key).isLE

/-- The graph of given modules. -/
def graphOf (o : Dependencies.Options) (d : Files.Disk) (root : Path) (modules : List Path) :
    Noted Graph :=
  let entries := modules.map (entryOf o d root)
  ⟨⟨root, (entries.map Noted.value).mergeSort entryLe⟩, entries.flatMap Noted.warnings⟩

/-- The modules of a project with their root; there is at least one. -/
def modules (o : Options) (d : Files.Disk) : Except Fault (Path × List Path) :=
  match root d o.root with
  | .error fault => .error fault
  | .ok root =>
    match Collection.collect d root o.filter with
    | .error fault => .error (.collection fault)
    | .ok [] => .error (.noModules root)
    | .ok modules => .ok (root, modules)

/-- The graph of a project. -/
def graph (o : Options) (d : Files.Disk) : Except Fault (Noted Graph) :=
  (modules o d).map fun (root, modules) => graphOf { dynamic := o.dynamic } d root modules

/-- What is noted when a project has no graph. -/
def Fault.warnings : Fault → List Warning
  | .noModules root => [.noModules root]
  | _ => []

end ModuleGraph.Project

import ModuleGraph.Collection.Walk

/-!
# The modules of a project

Of everything that a walk lists, the modules are the files, also through links, with one of the
known suffixes that are not part of an installed package.  A filter keeps those modules whose path
below the root contains a text.

## Main definitions

* `Collection.moduleSuffixes`: the known suffixes.
* `Collection.isModule`: whether a walk has come upon a module.
* `Collection.passes`: whether a filter keeps it.
* `Collection.collect`: the modules of a project, sorted by their paths.
-/

namespace ModuleGraph.Collection

/-- The suffixes of modules. -/
def moduleSuffixes : List String := ["ts", "tsx", "mts", "cts", "js", "jsx", "mjs", "cjs"]

/-- The name of the directories that hold installed packages. -/
def packagesName : String := "node_modules"

/-- Whether a path has one of the suffixes of modules. -/
def hasModuleSuffix (p : Path) : Bool := (p.suffix?.map moduleSuffixes.contains).getD false

/-- Whether a walk has come upon a module. -/
def isModule (d : Files.Disk) (f : Found) : Bool :=
  d.isFile f.path && !f.names.contains packagesName && hasModuleSuffix f.path

/-- Whether a text contains another one. -/
def containsChars (part : List Char) : List Char → Bool
  | [] => part.isEmpty
  | c :: cs => part.isPrefixOf (c :: cs) || containsChars part cs

/-- The text of the path from the root. -/
def Found.relativeChars (f : Found) : List Char := Path.joinSlash (f.names.map String.toList)

/-- Whether a filter keeps what a walk has come upon. -/
def passes (filter : Option String) (f : Found) : Bool :=
  match filter with
  | none => true
  | some part => containsChars part.toList f.relativeChars

/-- The modules of a project, sorted by their paths. -/
def collect (d : Files.Disk) (root : Path) (filter : Option String) : Except Fault (List Path) :=
  (walk d root).map fun found =>
    ((found.filter fun f => isModule d f && passes filter f).map Found.path).mergeSort Path.le

end ModuleGraph.Collection

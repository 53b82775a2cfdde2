import ModuleGraph.Alias.Document
import ModuleGraph.Files.Lookup
import ModuleGraph.Path.Ancestors
import ModuleGraph.Warning

/-!
# Finding and loading the configuration of a project

The configuration that governs a directory is the nearest one in the chain of directories above it,
of which only the first 256 are looked at.  Whatever is wrong with a configuration, loading it gives
an answer: a configuration that says nothing.

## Main definitions

* `Alias.locateFrom`, `Alias.locate`: the search for the nearest configuration.
* `Alias.load`, `Alias.loadFor`: the aliases of a configuration, and of the nearest one.
* `repositoryRoot?`: the nearest directory that holds a repository.
-/

namespace ModuleGraph

namespace Alias

/-- The name of a configuration. -/
def configName : String := "tsconfig.json"

/-- The number of directories that are looked at. -/
def maxDirectories : Nat := 256

/-- Look for a configuration in a directory, and then in those above it, as long as directories may
be looked at.  It is noted when the search ends before the chain does. -/
def locateFrom (d : Files.Disk) (start : Path) : Nat → Path → Noted (Option Path)
  | 0, _ => ⟨none, [.gaveUp start]⟩
  | left + 1, dir =>
    if d.isFile (dir.join configName) then ⟨some (dir.join configName), []⟩
    else match dir.parent? with
      | some above => locateFrom d start left above
      | none => ⟨none, []⟩

/-- The nearest configuration at or above a directory. -/
def locate (d : Files.Disk) (dir : Path) : Noted (Option Path) :=
  locateFrom d dir maxDirectories dir

/-- The aliases of a configuration. -/
def load (d : Files.Disk) (file : Path) : Noted Config :=
  match d.readText file with
  | .error fault => ⟨{}, [.unreadable file fault]⟩
  | .ok text =>
    match Document.options? text with
    | none => ⟨{}, [.malformed file]⟩
    | some none => ⟨{}, []⟩
    | some (some options) =>
      ⟨Config.ofOptions (file.parent?.getD ⟨""⟩) options,
        if options.baseUrl.isSome then
          (strangeKeys (options.paths.getD [])).map (Warning.strangeTargets · file)
        else []⟩

/-- The aliases that govern a directory. -/
def loadFor (d : Files.Disk) (dir : Path) : Noted Config :=
  let found := locate d dir
  match found.value with
  | none => ⟨{}, found.warnings⟩
  | some file =>
    let config := load d file
    ⟨config.value, found.warnings ++ config.warnings⟩

end Alias

/-- The nearest directory at or above a directory that holds a repository. -/
def repositoryRoot? (d : Files.Disk) (dir : Path) : Option Path :=
  dir.ancestors.find? fun p => d.occupied (p.join ".git")

end ModuleGraph

import ModuleGraph.Alias.Load
import ModuleGraph.Extraction
import ModuleGraph.Path.Relative
import ModuleGraph.Resolution.Default
import ModuleGraph.Resolution.Mapped

/-!
# The dependencies of a module

The dependencies of a module are the files that its specifiers lead to, in their order and with
repetitions, as paths relative to the directory of the module.  Specifiers that lead nowhere are
left out.  The module is looked at where it really is, and not where a link to it is.

## Main definitions

* `Dependencies.Fault`, `Dependencies.Fault.message`: why a module cannot be analysed.
* `Dependencies.Options`: what counts as an import, and which suffixes are tried.
* `Dependencies.located`: the place and the contents of a module.
* `Dependencies.resolution`: the file that a request in a directory leads to.
* `Dependencies.shown?`: how a dependency is written.
* `Dependencies.of`: the dependencies of a module.
* `Dependencies.specifiersOf`: its specifiers, unresolved.
-/

namespace ModuleGraph.Dependencies

/-- Why a module cannot be analysed. -/
inductive Fault where
  | notAFile (file : Path)
  | unreadable (file : Path) (fault : Files.Fault)
  deriving DecidableEq, Repr

/-- The words for a fault, without what lies behind it. -/
def Fault.headline : Fault → String
  | .notAFile file => "Module path " ++ file.text ++ " is not an existing regular file"
  | .unreadable file _ => "Failed to read " ++ file.text

/-- What lies behind a fault. -/
def Fault.cause? : Fault → Option Files.Fault
  | .notAFile _ => none
  | .unreadable _ fault => some fault

/-- The words for a fault. -/
def Fault.message (f : Fault) : String :=
  match f.cause? with
  | none => f.headline
  | some cause => f.headline ++ ": " ++ cause.message

/-- What counts as an import, and which suffixes are tried. -/
structure Options where
  suffixes : List String := Resolution.defaultSuffixes
  dynamic : Bool := false
  deriving DecidableEq, Repr

/-- The place of a module and its contents, if it is a file. -/
def located (d : Files.Disk) (file : Path) : Except Fault (Files.Place × ByteArray) :=
  match d.follow file with
  | .error _ => .error (.notAFile file)
  | .ok place =>
    match d.entry? place with
    | some (.file contents) => .ok (place, contents)
    | _ => .error (.notAFile file)

/-- The file that a request in a directory leads to. -/
def resolution (o : Options) (d : Files.Disk) (config : Alias.Config) (dir : Path)
    (request : String) : Option Path :=
  Resolution.resolved? (Resolution.Setting.mk d o.suffixes).resolve? config dir request

/-- How a dependency is written: relative to a directory. -/
def shown? (dir : Path) (dependency : Path) : Option String :=
  (dependency.relative? dir).map Path.slashed

/-- The dependencies that specifiers in a directory give. -/
def resolvedAll (o : Options) (d : Files.Disk) (config : Alias.Config) (dir : Path)
    (specifiers : List Specifier) : List String :=
  (specifiers.filterMap fun s => resolution o d config dir s.request).filterMap (shown? dir)

/-- The dependencies of the module at a place, by its text. -/
def ofText (o : Options) (d : Files.Disk) (place : Files.Place) (text : String) :
    Noted (List String) :=
  let dir := Files.Disk.pathOf place.dropLast
  let config := Alias.loadFor d dir
  let dialect := Source.Dialect.ofPath (Files.Disk.pathOf place)
  ⟨resolvedAll o d config.value dir (extract dialect o.dynamic text), config.warnings⟩

/-- The dependencies of a module. -/
def of (o : Options) (d : Files.Disk) (file : Path) : Except Fault (Noted (List String)) :=
  match located d file with
  | .error fault => .error fault
  | .ok (place, contents) =>
    match String.fromUTF8? contents with
    | none => .error (.unreadable (Files.Disk.pathOf place) .notText)
    | some text => .ok (ofText o d place text)

/-- The specifiers of the file at a path. -/
def specifiersOf (dynamic : Bool) (d : Files.Disk) (file : Path) :
    Except Fault (List Specifier) :=
  match d.readText file with
  | .error fault => .error (.unreadable file fault)
  | .ok text => .ok (extract (Source.Dialect.ofPath file) dynamic text)

end ModuleGraph.Dependencies

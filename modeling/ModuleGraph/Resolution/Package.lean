import ModuleGraph.Files.Canonical
import ModuleGraph.Resolution.Request

/-!
# Packages

A package is a directory with a description.  Of the description count the name of the package, its
main module, the modules it exports under names of its own, and the names it imports modules by.
Exports and imports may be patterns; the most specific one wins.  A target may depend on conditions,
of which only the default holds, and may be a list, of which the first that leads somewhere wins.

A search either finds something, finds nothing, or is refused; a refusal ends the resolution.

## Main definitions

* `Resolution.Refusal`, `Resolution.Search`: the outcomes of a search.
* `Resolution.Package`, `Resolution.packageAt`, `Resolution.nearestPackage`: a package, and finding
  one.
* `Resolution.target`: the path of a target.
* `Resolution.exported`, `Resolution.imported`: the path of an export or an import.
-/

namespace ModuleGraph.Resolution

/-- Why a search is refused. -/
inductive Refusal where
  | malformedPackage
  | unreachable
  | mixedExports
  | notExported
  | notImported
  | invalidTarget
  | invalidRequest
  | notFound
  deriving DecidableEq, Repr

/-- The outcomes of a search: something, nothing, or a refusal. -/
abbrev Search (α : Type) := Except Refusal (Option α)

/-- The first of a list of searches that finds something. -/
def firstFound {α β : Type} (search : α → Search β) : List α → Search β
  | [] => .ok none
  | a :: as =>
    match search a with
    | .ok (some b) => .ok (some b)
    | .ok none => firstFound search as
    | .error e => .error e

/-- A search with another one for the case that it finds nothing. -/
def orSearch {α : Type} (first : Search α) (second : Unit → Search α) : Search α :=
  match first with
  | .ok none => second ()
  | r => r

/-! ### Packages -/

/-- A package. -/
structure Package where
  /-- The directory of the package, without links. -/
  directory : Path
  description : Json.Value

/-- The name of the description of a package. -/
def descriptionName : String := "package.json"

/-- The greatest depth of nesting of a description. -/
def maxDepth : Nat := 1024

/-- The description in a text, perhaps behind a byte-order mark. -/
def readDescription? (text : String) : Option Json.Value :=
  let cs := match text.toList with
    | c :: rest => if c.toNat == 0xFEFF then rest else c :: rest
    | [] => []
  (Json.readWithin? .exact cs).filter fun v => v.isReadable && v.depth ≤ maxDepth

/-- The package in a directory.  A description that cannot be read counts as none, one that is not
well formed refuses the search. -/
def packageAt (d : Files.Disk) (dir : Path) : Search Package :=
  match d.readBytes (dir.join descriptionName) with
  | .error _ => .ok none
  | .ok bytes =>
    match d.canonical dir with
    | .error _ => .error .unreachable
    | .ok directory =>
      match (String.fromUTF8? bytes).bind readDescription? with
      | some description => .ok (some ⟨directory, description⟩)
      | none => .error .malformedPackage

/-- The chain of directories above a path, from the nearest directory on. -/
def directoriesAbove (d : Files.Disk) (p : Path) : List Path :=
  match p.ancestors.dropWhile fun q => !(d.found? q).any Files.Entry.isDirectory with
  | [] => p.ancestors.getLast?.toList
  | chain => chain

/-- The nearest package at or above a path. -/
def nearestPackage (d : Files.Disk) (p : Path) : Search Package :=
  firstFound (packageAt d) (directoriesAbove d p)

/-- The name of the directory of installed packages. -/
def installedName : String := "node_modules"

/-- Check the packages that a module belongs to.  Of an installed module these are all up to the
directory of installed packages. -/
def checkPackages (d : Files.Disk) (p : Path) : Except Refusal Unit :=
  if p.components.contains (.name installedName) then
    let inside := p.ancestors.takeWhile fun q => q.fileName? != some installedName
    (inside.filter fun q => (d.found? q).any Files.Entry.isDirectory).foldl
      (fun checked q => checked.bind fun _ => (packageAt d q).map fun _ => ()) (.ok ())
  else (nearestPackage d p).map fun _ => ()

/-! ### Targets -/

/-- Whether a target leaves the package or enters installed packages. -/
def leavesPackage (target : Path) : Bool :=
  let lower (s : String) : List Char := s.toList.map Char.toLower
  match target.components with
  | [] => false
  | first :: rest =>
    (first :: rest).any (fun c => match c with
      | .up => true
      | .name text => lower text == installedName.toList
      | _ => false) || rest.contains .here

/-- The part of a key that a pattern stands for, in each place of a text. -/
def fill (part : List Char) (cs : List Char) : List Char :=
  cs.flatMap fun c => if c == '*' then part else [c]

/-- A target with the part of the key that its pattern stands for. -/
def filled (key : List Char) (part : Option (List Char)) (target : List Char) :
    Except Refusal (List Char) :=
  match part with
  | none => .ok target
  | some part =>
    if key.contains '*' || target.contains '*' then .ok (fill part target)
    else if key.getLast? == some '/' && target.getLast? == some '/' then .ok (target ++ part)
    else .error .invalidTarget

/-- What a target is looked up for. -/
structure Aim where
  directory : Path
  key : List Char
  /-- The part of the key that its pattern stands for. -/
  part : Option (List Char)

/-- The path of a target that is a text.  The text is a request of its own, of which the path
counts. -/
def textTarget (aim : Aim) (text : List Char) : Except Refusal (Option Path) := do
  match Request.read? text with
  | none => .error .invalidTarget
  | some request =>
    if !(['.', '/'].isPrefixOf request.path) then .error .invalidTarget
    else
      let target : Path := ⟨String.ofList (← filled aim.key aim.part request.path)⟩
      if leavesPackage target then .error .invalidTarget
      else .ok (some (aim.directory.extend target))

mutual

/-- The path of a target. -/
def target (aim : Aim) : Json.Value → Search Path
  | .string text => textTarget aim text.toList
  | .object members => conditionalTarget aim members
  | .array [] => .error .notExported
  | .array (v :: vs) => listedTarget aim (v :: vs)
  | _ => .ok none

/-- The path of the first default that has one. -/
def conditionalTarget (aim : Aim) : List (String × Json.Value) → Search Path
  | [] => .ok none
  | m :: ms =>
    if m.1 == "default" then
      match target aim m.2 with
      | .ok none => conditionalTarget aim ms
      | r => r
    else conditionalTarget aim ms

/-- The path of the first target of a list that has one. -/
def listedTarget (aim : Aim) : List Json.Value → Search Path
  | [] => .ok none
  | v :: vs =>
    match target aim v with
    | .ok (some p) => .ok (some p)
    | _ => listedTarget aim vs

end

/-! ### Exports and imports -/

/-- A key that a name matches: the key, its target and the part its pattern stands for. -/
structure Match where
  key : List Char
  value : Json.Value
  /-- The part of the name that the pattern of the key stands for. -/
  part : List Char

/-- Two parts of a list around the first star. -/
def splitStar? (cs : List Char) : Option (List Char × List Char) :=
  match cs.dropWhile (· != '*') with
  | [] => none
  | _ :: trailer => some (cs.takeWhile (· != '*'), trailer)

/-- The number of bytes of a text. -/
def byteLength (cs : List Char) : Nat := (String.ofList cs).utf8ByteSize

/-- How a key with a pattern matches a name. -/
def matchKey? (name key : List Char) : Option (List Char) :=
  if ['.', '/'].isPrefixOf key || ['#'].isPrefixOf key then
    match splitStar? key with
    | some (base, trailer) =>
      if base.isPrefixOf name && !trailer.contains '*' &&
          (trailer.isEmpty || (byteLength key ≤ byteLength name && trailer.isSuffixOf name)) then
        some ((name.take (name.length - trailer.length)).drop base.length)
      else none
    | none =>
      if key.getLast? == some '/' && key.isPrefixOf name then some (name.drop key.length)
      else none
  else none

/-- The length that decides first how specific a key is. -/
def baseLength (key : List Char) : Nat :=
  match splitStar? key with
  | some (base, _) => base.length + 1
  | none => byteLength key

/-- Whether a key is more specific than the best one so far. -/
def moreSpecific (best key : List Char) : Bool :=
  if baseLength best != baseLength key then baseLength best < baseLength key
  else if !best.contains '*' then true
  else if !key.contains '*' then false
  else byteLength best < byteLength key

/-- The most specific key with a pattern that a name matches. -/
def bestMatch? (name : List Char) (members : List (String × Json.Value)) : Option Match :=
  members.foldl (fun best m =>
    let key := m.1.toList
    match matchKey? name key with
    | none => best
    | some part =>
      match best with
      | none => some ⟨key, m.2, part⟩
      | some b => if moreSpecific b.key key then some ⟨key, m.2, part⟩ else best) none

/-- The path of the member that a name matches. -/
def memberTarget (directory : Path) (members : List (String × Json.Value)) (name : List Char) :
    Search Path :=
  if name.getLast? == some '/' then .ok none
  else
    let exact := if name.contains '*' then none else members.lookup (String.ofList name)
    match exact with
    | some v => target ⟨directory, name, none⟩ v
    | none =>
      match bestMatch? name members with
      | some m => target ⟨directory, m.key, some m.part⟩ m.value
      | none => .ok none

/-- Whether a key of the exports names a module, and not a condition. -/
def namesModule (key : String) : Bool :=
  key.toList.head? == some '.' || key.toList.head? == some '#'

/-- The target of the package itself, in its exports. -/
def mainExport? : Json.Value → Option Json.Value
  | .string text => some (.string text)
  | .array items => some (.array items)
  | .object members =>
    match members.lookup "." with
    | some v => some v
    | none =>
      if members.any fun m => ['.', '/'].isPrefixOf m.1.toList || ['#'].isPrefixOf m.1.toList then
        none
      else some (.object members)
  | _ => none

/-- The path that the exports of a package give to a name, which begins with a dot.  The flag tells
whether the request had a query, with which the package itself is not exported. -/
def exported (directory : Path) (exports : Json.Value) (name : List Char) (query : Bool) :
    Except Refusal (Option Path) := do
  let members := match exports with
    | .object members => members
    | _ => []
  if members.any (fun m => namesModule m.1) && members.any (fun m => !namesModule m.1) then
    .error .mixedExports
  else
    let main ← (if name == ['.'] then
        if query then .error .notExported
        else match mainExport? exports with
          | some v => target ⟨directory, ['.'], none⟩ v
          | none => .ok none
      else .ok none : Search Path)
    match main with
    | some p => .ok (some p)
    | none =>
      match ← memberTarget directory members name with
      | some p => .ok (some p)
      | none => .error .notExported

/-- The path that the imports of a package give to a name, which begins with `#`. -/
def imported (package : Package) (name : List Char) : Except Refusal (Option Path) :=
  match package.description.member? "imports" with
  | some (.object members) => do
    if name == ['#'] then .error .invalidRequest
    else match ← memberTarget package.directory members name with
      | some p => .ok (some p)
      | none => .error .notImported
  | _ => .ok none

end ModuleGraph.Resolution

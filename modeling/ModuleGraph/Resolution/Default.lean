import ModuleGraph.Resolution.Package

/-!
# Resolving requests to files

A request that starts at the root or with a dot is looked for as a file, by its exact name and then
with each suffix, and then as a directory: by the main module of its package, and then by its index.
Any other request is looked for among the exports of the package around the directory if it begins
with the name of that package, and among its imports if it begins with `#`.  Installed packages are
never searched.

## Main definitions

* `Resolution.Setting`: where and how files are looked for.
* `Setting.asFile`, `Setting.asDirectory`, `Setting.asEither`: the attempts on a path.
* `Setting.search`: the path that a request leads to.
* `Setting.resolve?`: the file that a request leads to, without links.
-/

namespace ModuleGraph.Resolution

/-- The suffixes that are tried when nothing else is said. -/
def defaultSuffixes : List String := [".ts", ".js"]

/-- Where and how files are looked for. -/
structure Setting where
  disk : Files.Disk
  suffixes : List String

namespace Setting

/-- Whether a path leads to a file. -/
def isFile (s : Setting) (p : Path) : Bool := (s.disk.found? p).any Files.Entry.isFile

/-- Whether a path leads to a directory. -/
def isDirectory (s : Setting) (p : Path) : Bool := (s.disk.found? p).any Files.Entry.isDirectory

/-- The first suffix with which a path leads to a file. -/
def withSuffix (s : Setting) (p : Path) : Option Path :=
  (s.suffixes.map fun suffix => (⟨p.text ++ suffix⟩ : Path)).find? s.isFile

/-- The file of a path: by its exact name, and then with each suffix.  Where the empty suffix is
listed, the exact name has its turn there. -/
def asFile (s : Setting) (p : Path) : Option Path :=
  if !s.suffixes.contains "" && s.isFile p then some p else s.withSuffix p

/-- The index of a directory. -/
def index (s : Setting) (dir : Path) : Option Path := s.withSuffix (dir.extend ⟨"index"⟩)

/-- The main module of a package, as a path relative to it. -/
def mainPath (name : String) : Path :=
  let cs := name.toList
  if ['.', '/'].isPrefixOf cs || ['.', '.', '/'].isPrefixOf cs then ⟨name⟩ else ⟨"./" ++ name⟩

/-- The file of a directory: the main module of its package, and then its index.  A path that goes
on behind its last name has no main module. -/
def asDirectory (s : Setting) (dir : Path) : Except Refusal (Option Path) := do
  let package ← packageAt s.disk dir
  let main := do
    let name ← (← package.filter fun _ => !dir.trails).description.member? "main"
    let path := dir.extend (mainPath (← name.text?))
    (s.asFile path).or (s.index path)
  return main.or (s.index dir)

/-- The file of a path that may be a file or a directory.  The flag tells whether a file is looked
for at all. -/
def asEither (s : Setting) (fileToo : Bool) (p : Path) : Search Path :=
  match if fileToo then s.asFile p else none with
  | some file => .ok (some file)
  | none => if s.isDirectory p then s.asDirectory p else .ok none

/-- The file of a path that the description of a package gives. -/
def asMatch (s : Setting) (p : Path) : Search Path :=
  orSearch (s.asEither true p) fun _ => .error .notFound

/-- The path behind the name of a package in a request. -/
def behindName? (name : List Char) (request : List Char) : Option (List Char) :=
  if name.isPrefixOf request then
    let rest := request.drop name.length
    if rest.isEmpty || rest.head? == some '/' then some rest else none
  else none

/-- The file that the package around a directory exports under a request. -/
def asExport (s : Setting) (dir : Path) (request : List Char) (query : Bool) :
    Except Refusal (Option Path) := do
  match ← nearestPackage s.disk dir with
  | none => .ok none
  | some package =>
    let name := (package.description.member? "name").bind Json.Value.text?
    match name.bind fun name => behindName? name.toList request with
    | none => .ok none
    | some rest =>
      match package.description.member? "exports" with
      | none => .ok none
      | some exports =>
        match ← exported package.directory exports ('.' :: rest) query with
        | some p => s.asMatch p
        | none => .ok none

/-- The file that the package around a directory imports by a request. -/
def asImport (s : Setting) (dir : Path) (request : List Char) : Except Refusal (Option Path) := do
  match ← nearestPackage s.disk dir with
  | none => .ok none
  | some package =>
    match ← imported package request with
    | some p => s.asMatch p
    | none => .ok none

/-- The path that the path of a request leads to.  The flag tells whether the request had a query
beside it. -/
def searchPath (s : Setting) (dir : Path) (path : List Char) (query : Bool) : Search Path :=
  let path := (fileAddress? path).getD path
  let p : Path := ⟨String.ofList path⟩
  let fileToo := path.getLast? != some '/'
  match p.components.head? with
  | some .root => s.asEither fileToo p
  | some .here | some .up => s.asEither (fileToo && path != ['.']) (dir.extend p)
  | _ =>
    if path.head? == some '#' then
      orSearch (s.asImport dir path) fun _ => s.asExport dir path query
    else s.asExport dir path query

/-- The path that a request leads to.  A `#` is first taken as a part of the path. -/
def search (s : Setting) (dir : Path) (request : List Char) : Search Path :=
  match Request.read? request with
  | none => .error .invalidRequest
  | some r =>
    let plain := s.searchPath dir r.path r.query
    match r.fragment, r.query with
    | some fragment, false =>
      match s.searchPath dir (r.path ++ fragment) false with
      | .ok (some p) => .ok (some p)
      | _ => plain
    | _, _ => plain

/-- The file that a path leads to, without links, unless a package it belongs to is malformed. -/
def settle (s : Setting) (p : Path) : Option Path :=
  match s.disk.canonical p, checkPackages s.disk p with
  | .ok file, .ok () => some file
  | _, _ => none

/-- The file that a request in a module of a directory leads to. -/
def resolve? (s : Setting) (dir : Path) (request : String) : Option Path :=
  match s.search dir request.toList with
  | .ok (some p) => s.settle p
  | _ => none

end Setting

end ModuleGraph.Resolution

import ModuleGraph.Ignore.Rule
import ModuleGraph.Ignore.User

/-!
# The rules of a chain of directories

Every directory may contribute rules for what is below it: its own, those of the repository it
belongs to, and those that are private to a repository.  The rules of a repository count only
inside one, and end at its root.  Of the rules of one kind, those of the nearest directory that say
anything decide.  Where they say nothing, the rules of the user decide inside of a repository.

## Main definitions

* `Ignore.Layer`, `Ignore.Layer.of`: the rules that one directory contributes.
* `Ignore.Layer.faults`, `Ignore.Fault.message`: what is wrong with them.
* `Ignore.userRules`: the rules of the user.
* `Ignore.isIgnored`: whether a place is left out.
-/

namespace ModuleGraph.Ignore

/-- What is wrong with the rules of a directory. -/
inductive Fault where
  | line (file : Path) (number : Nat) (fault : LineFault)
  | pointer (file : Path) (fault : Files.Fault)
  deriving DecidableEq, Repr

/-- The words for what is wrong. -/
def Fault.message : Fault → String
  | .line file number fault =>
    file.text ++ ": line " ++ String.ofList (Nat.toDigits 10 number) ++ ": " ++ fault.message
  | .pointer file fault => file.text ++ ": " ++ fault.message

/-- The rules of the file at a path; there are none if there is no file. -/
def rulesAt (d : Files.Disk) (file : Path) : Rules :=
  if d.occupied file then
    match d.readBytes file with
    | .ok contents => Rules.read contents
    | .error fault => { faults := [(1, .unreadable fault)] }
  else {}

/-- The faults of the file at a path that count. -/
def faultsAt (d : Files.Disk) (file : Path) : List Fault :=
  (rulesAt d file).notableFaults.map fun f => .line file f.1 f.2

/-- The name of the entry that holds a repository and its private rules. -/
def repositoryName : String := ".git"

/-- The names of the entries that each make a directory the root of a repository. -/
def rootNames : List String := [repositoryName, ".jj"]

/-- The first line of the file at a path: none if it cannot be opened or is empty, and a fault if it
cannot be read. -/
def firstLine (d : Files.Disk) (file : Path) : Except Fault (Option (List Char)) :=
  match d.readBytes file with
  | .error .isDirectory => .error (.pointer file .isDirectory)
  | .error _ => .ok none
  | .ok contents =>
    match linesOf contents with
    | [] => .ok none
    | line :: _ =>
      match textOf? line with
      | some line => .ok (some line)
      | none => .error (.pointer file .notText)

/-- What is left of a line behind the words that point to a repository. -/
def pointedTo? (line : List Char) : Option Path :=
  let words := "gitdir: ".toList
  if words.isPrefixOf line then some ⟨String.ofList (line.drop words.length)⟩ else none

/-- The directory that a repository shares with its other working trees, by the line that names
it. -/
def sharedDirectory (repository : Path) (line : List Char) : Path :=
  if line.head? == some '.' then repository.join (String.ofList line) else ⟨String.ofList line⟩

/-- The directory that holds the private rules of the repository of a directory.  Where a file
stands in the place of the repository, it points to another directory, which in turn names the
shared one. -/
def privateDirectory? (d : Files.Disk) (dir : Path) : Except Fault (Option Path) := do
  let repository := dir.join repositoryName
  if !d.isFile repository then return some repository
  let some line ← firstLine d repository | return none
  let some target := pointedTo? line | return none
  let some line ← firstLine d (target.join "commondir") | return none
  return some (sharedDirectory target line)

/-- The rules that one directory contributes: its own, those of the repository, and those that are
private to the repository. -/
structure Layer where
  place : Files.Place
  own : List Rule
  shared : List Rule
  hidden : List Rule
  isRepository : Bool

namespace Layer

/-- The file of the own rules of a directory. -/
def ownFile (dir : Path) : Path := dir.join ".ignore"

/-- The file of the rules of the repository in a directory. -/
def sharedFile (dir : Path) : Path := dir.join ".gitignore"

/-- The file of the private rules in the directory that holds them. -/
def hiddenFile (privateDirectory : Path) : Path := privateDirectory.join "info/exclude"

/-- The private rules of the repository of a directory. -/
def hiddenRules (d : Files.Disk) (dir : Path) : List Rule :=
  match privateDirectory? d dir with
  | .ok (some p) => (rulesAt d (hiddenFile p)).rules
  | _ => []

/-- What is wrong with the private rules of the repository of a directory. -/
def hiddenFaults (d : Files.Disk) (dir : Path) : List Fault :=
  match privateDirectory? d dir with
  | .ok (some p) => faultsAt d (hiddenFile p)
  | .ok none => []
  | .error fault => [fault]

/-- The rules that the directory at a place contributes. -/
def of (d : Files.Disk) (place : Files.Place) : Layer :=
  let dir := Files.Disk.pathOf place
  { place
    own := (rulesAt d (ownFile dir)).rules
    shared := (rulesAt d (sharedFile dir)).rules
    hidden := hiddenRules d dir
    isRepository := rootNames.any fun name => d.occupied (dir.join name) }

/-- What is wrong with the rules that the directory at a place contributes. -/
def faults (d : Files.Disk) (place : Files.Place) : List Fault :=
  let dir := Files.Disk.pathOf place
  faultsAt d (ownFile dir) ++ faultsAt d (sharedFile dir) ++ hiddenFaults d dir

/-- The bytes of a place relative to the directory of a layer. -/
def relativeBytes (l : Layer) (place : Files.Place) : List UInt8 :=
  let names := (place.drop l.place.length).map String.toList
  (String.ofList (Path.joinSlash names)).toUTF8.toList

/-- What some rules of a layer say of a place. -/
def says? (rules : Layer → List Rule) (place : Files.Place) (isDirectory : Bool) (l : Layer) :
    Option Verdict :=
  decide? (rules l) (l.relativeBytes place) isDirectory

end Layer

/-- The layers up to and with the nearest root of a repository; none if there is no repository. -/
def withinRepository (layers : List Layer) : List Layer :=
  match layers.dropWhile (!·.isRepository) with
  | [] => []
  | root :: _ => layers.takeWhile (!·.isRepository) ++ [root]

/-- The rules of the user.  What is wrong with them is passed over. -/
def userRules (d : Files.Disk) : List Rule :=
  match userFile? d with
  | some file => (rulesAt d file).rules
  | none => []

/-- What the layers above a place, the nearest first, say of it, and what the user says of it if
they say nothing. -/
def verdict? (layers : List Layer) (user : Option Verdict) (place : Files.Place)
    (isDirectory : Bool) : Option Verdict :=
  let inside := withinRepository layers
  (layers.findSome? (Layer.says? Layer.own place isDirectory)).or
    ((inside.findSome? (Layer.says? Layer.shared place isDirectory)).or
      ((inside.findSome? (Layer.says? Layer.hidden place isDirectory)).or
        (if layers.any Layer.isRepository then user else none)))

/-- The places above a place, the nearest first. -/
def above : Files.Place → List Files.Place
  | [] => []
  | name :: rest => (above rest).map (name :: ·) ++ [[]]

/-- Whether a directory stands at a place; a link to one is none. -/
def isDirectoryAt (d : Files.Disk) (place : Files.Place) : Bool :=
  match d.entry? place with
  | some .directory => true
  | _ => false

/-- The layers of all directories of a tree. -/
def layers (d : Files.Disk) : List Layer :=
  (([] :: d.places).filter (isDirectoryAt d)).map (Layer.of d)

/-- The layers of the directories above a place, the nearest first. -/
def layersAbove (layers : List Layer) (place : Files.Place) : List Layer :=
  (above place).filterMap fun p => layers.find? fun l => l.place == p

/-- Whether a place is left out, given the layers of the tree, the rules of the user, and the path
under which the place has been found. -/
def isIgnored (d : Files.Disk) (layers : List Layer) (user : List Rule) (path : Path)
    (place : Files.Place) : Bool :=
  let isDirectory := isDirectoryAt d place
  verdict? (layersAbove layers place) (decide? user (userBytes d path) isDirectory) place
    isDirectory == some .ignored

end ModuleGraph.Ignore

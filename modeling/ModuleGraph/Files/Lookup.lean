import ModuleGraph.Files.Disk

/-!
# Following paths

A path is followed segment by segment.  A symbolic link is replaced by the path it stands for; at
most forty links are followed.  A path with a `/` at its end must lead to a directory.

## Main definitions

* `Files.Disk.follow`: the place a path leads to.
* `Files.Disk.real`: the path without links, `.` and `..` to the same place.
* `Files.Disk.isFile`, `Files.Disk.isDirectory`, `Files.Disk.occupied`: what a path leads to.
* `Files.Disk.readBytes`, `Files.Disk.readText`: the contents of a file.
* `Files.Disk.makeDirectories`, `Files.Disk.write`, `Files.Disk.link`, `Files.Disk.remove`: changes
  of the tree by paths.
-/

namespace ModuleGraph.Files

/-- The segments of the text of a path.  A `/` at the end asks for a directory, as `.` does. -/
def segmentsOf (text : List Char) : List String :=
  let segments := (Path.splitSlash text).filter fun s => !s.isEmpty
  let segments := if text.getLast? == some '/' then segments ++ [['.']] else segments
  segments.map String.ofList

/-- Whether the text of a path starts at the root. -/
def startsAtRoot (text : List Char) : Bool := text.head? == some '/'

/-- The greatest number of bytes of a name. -/
def maxName : Nat := 255

/-- The number of bytes below which a path has to stay. -/
def maxPath : Nat := 4096

/-- The number of links that are followed. -/
def maxLinks : Nat := 40

namespace Disk

/-- Follow segments from a place, with a way to go on behind a link.  The flag tells whether a link
at the very end is followed too. -/
def steps (d : Disk) (last : Bool) (onLink : Place → List String → Except Fault Place) :
    Place → List String → Except Fault Place
  | place, [] => .ok place
  | place, segment :: rest =>
    match d.entry? place with
    | some .directory =>
      if segment == "." then d.steps last onLink place rest
      else if segment == ".." then d.steps last onLink place.dropLast rest
      else if segment.utf8ByteSize > maxName then .error .nameTooLong
      else match d.entry? (place ++ [segment]) with
        | none => .error .notFound
        | some (.link target) =>
          if rest.isEmpty && !last then .ok (place ++ [segment])
          else
            let start := if startsAtRoot target.toList then [] else place
            onLink start (segmentsOf target.toList ++ rest)
        | some _ => d.steps last onLink (place ++ [segment]) rest
    | _ => .error .notDirectory

/-- Follow segments from a place through at most the given number of links. -/
def walk (d : Disk) (last : Bool) : Nat → Place → List String → Except Fault Place
  | 0 => d.steps last fun _ _ => .error .tooManyLinks
  | links + 1 => d.steps last (d.walk last links)

/-- The place a path leads to; the flag tells whether a link at the very end is followed. -/
def followIf (d : Disk) (last : Bool) (p : Path) : Except Fault Place :=
  let text := p.text.toList
  if text.contains (Char.ofNat 0) then .error .endInside
  else if text.isEmpty then .error .notFound
  else if p.text.utf8ByteSize ≥ maxPath then .error .nameTooLong
  else d.walk last maxLinks (if startsAtRoot text then [] else d.here) (segmentsOf text)

/-- The place a path leads to. -/
def follow (d : Disk) (p : Path) : Except Fault Place := d.followIf true p

/-- The path without links, `.` and `..` to the same place. -/
def real (d : Disk) (p : Path) : Except Fault Path := (d.follow p).map pathOf

/-- The entry a path leads to. -/
def reach? (d : Disk) (p : Path) : Option Entry :=
  match d.follow p with
  | .ok place => d.entry? place
  | .error _ => none

/-- Whether a path leads to a file. -/
def isFile (d : Disk) (p : Path) : Bool := (d.reach? p).any Entry.isFile

/-- Whether a path leads to a directory. -/
def isDirectory (d : Disk) (p : Path) : Bool := (d.reach? p).any Entry.isDirectory

/-- Whether a path leads to anything. -/
def occupied (d : Disk) (p : Path) : Bool := (d.reach? p).isSome

/-- The contents of the file a path leads to. -/
def readBytes (d : Disk) (p : Path) : Except Fault ByteArray := do
  let place ← d.follow p
  match d.entry? place with
  | some (.file contents) => .ok contents
  | some .directory => .error .isDirectory
  | _ => .error .notFound

/-- The text of the file a path leads to. -/
def readText (d : Disk) (p : Path) : Except Fault String := do
  match String.fromUTF8? (← d.readBytes p) with
  | some text => .ok text
  | none => .error .notText

/-! ### Changes by paths -/

/-- Make the directories that segments name from a place on; the new tree, and the place reached. -/
def makeSteps : Disk → Place → List String → Disk × Place
  | d, place, [] => (d, place)
  | d, place, segment :: rest =>
    if segment == "." then d.makeSteps place rest
    else if segment == ".." then d.makeSteps place.dropLast rest
    else match d.entry? (place ++ [segment]) with
      | none => (d.put (place ++ [segment]) .directory).makeSteps (place ++ [segment]) rest
      | some (.link _) =>
        match d.follow (pathOf (place ++ [segment])) with
        | .ok target => d.makeSteps target rest
        | .error _ => d.makeSteps (place ++ [segment]) rest
      | some _ => d.makeSteps (place ++ [segment]) rest

/-- Make a directory and those above it. -/
def makeDirectories (d : Disk) (p : Path) : Disk :=
  let text := p.text.toList
  (d.makeSteps (if startsAtRoot text then [] else d.here) (segmentsOf text)).1

/-- Put an entry where a path leads, with the directories above it. -/
def putAt (d : Disk) (p : Path) (e : Entry) : Disk :=
  let text := p.text.toList
  match (segmentsOf text).reverse with
  | [] => d
  | name :: above =>
    let (d, place) := d.makeSteps (if startsAtRoot text then [] else d.here) above.reverse
    d.put (place ++ [name]) e

/-- Write a file, with the directories above it. -/
def write (d : Disk) (p : Path) (contents : ByteArray) : Disk :=
  match d.follow p with
  | .ok place => d.put place (.file contents)
  | .error _ => d.putAt p (.file contents)

/-- Make a symbolic link, with the directories above it. -/
def link (d : Disk) (p : Path) (target : String) : Disk := d.putAt p (.link target)

/-- Remove what a path leads to, and everything below it; links are not followed. -/
def remove (d : Disk) (p : Path) : Option Disk :=
  match d.followIf false p with
  | .ok place => if (d.entry? place).isSome && !place.isEmpty then some (d.drop place) else none
  | .error _ => none

end Disk

end ModuleGraph.Files

import ModuleGraph.Files.Lookup
import ModuleGraph.Path.Ancestors
import ModuleGraph.Path.Extend

/-!
# Paths without links

The canonical form of a path is found by its text.  The path above is made canonical first, and the
last component is worked into it; if the path names a link, the canonical form of what the link
stands for takes its place.  Nothing asks whether what the texts pass through is there.  So a
relative path stays relative, and behind a link that is left upwards the canonical form may lead
elsewhere than the path does.

## Main definitions

* `Files.Disk.linkAt?`: the link that a path names.
* `Files.Disk.canonical`: the canonical form of a path.
* `Files.Disk.found?`: what a path leads to, however many links there are on the way.
-/

namespace ModuleGraph.Files.Disk

/-- The path that a link stands for, if a path names one. -/
def linkAt? (d : Disk) (p : Path) : Option String :=
  match d.followIf false p with
  | .ok place =>
    match d.entry? place with
    | some (.link target) => some target
    | _ => none
  | .error _ => none

/-- The canonical form of a path, given that of the path above and a way to go on behind a link. -/
def canonicalStep (d : Disk) (onLink : Path → Except Fault Path) (above p : Path) :
    Except Fault Path :=
  let straight := (p.last?.map above.step).getD above
  if (d.linkAt? p).isNone then .ok straight
  else match d.linkAt? straight with
    | none => .error .notFound
    | some target =>
      if startsAtRoot target.toList then onLink (⟨target⟩ : Path).clean
      else onLink ((straight.parent?.getD straight).extend ⟨target⟩)

/-- The canonical form of the last of a chain of paths, of which each lies directly below the one
before and the first directly below a path whose canonical form is given. -/
def canonicalAlong (d : Disk) (onLink : Path → Except Fault Path) :
    Path → List Path → Except Fault Path
  | above, [] => .ok above
  | above, p :: rest => do d.canonicalAlong onLink (← d.canonicalStep onLink above p) rest

/-- The canonical form of a path, through links that lead at most the given number of times to
another. -/
def canonicalWithin (d : Disk) : Nat → Path → Except Fault Path
  | 0, _ => .error .tooManyLinks
  | links + 1, p =>
    match p.ancestors.reverse with
    | [] => .ok p
    | top :: below => d.canonicalAlong (d.canonicalWithin links) top below

/-- The canonical form of a path.  Links that lead to each other more often than there are entries
lead to each other without end. -/
def canonical (d : Disk) (p : Path) : Except Fault Path :=
  d.canonicalWithin (d.entries.length + 1) p

/-- The entry that a path leads to.  Where there are too many links to follow, it is the one that
the canonical form leads to. -/
def found? (d : Disk) (p : Path) : Option Entry :=
  match d.follow p with
  | .ok place => d.entry? place
  | .error .tooManyLinks =>
    match d.canonical p with
    | .ok q => d.reach? q
    | .error _ => none
  | .error _ => none

end ModuleGraph.Files.Disk

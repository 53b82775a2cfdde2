import ModuleGraph.Ignore.Layer

/-!
# Walking a tree

A walk lists everything at or below a root that no rule leaves out.  What is below a place that is
left out is left out with it; the root itself never is.  Links are listed and not followed, except
that the root may be one.  The walk fails if there is no root, or if the rules of the directories
above it are at fault.  A root that is written `-` stands for the standard input, and nothing else
is listed for it.

## Main definitions

* `Collection.Found`: what a walk lists.
* `Collection.Fault`, `Collection.Fault.message`: why a walk fails.
* `Collection.isStandardInput`, `Collection.standardInput`: a root that is no place in the tree.
* `Collection.walk`: the walk.
-/

namespace ModuleGraph.Collection

/-- What a walk lists. -/
structure Found where
  /-- The path, which begins with the root as it was given. -/
  path : Path
  /-- The names that lead to it from the root. -/
  names : List String
  deriving DecidableEq, Repr

/-- Why a walk fails. -/
inductive Fault where
  | unreachable (root : Path) (fault : Files.Fault)
  | rules (faults : List Ignore.Fault)
  deriving DecidableEq, Repr

/-- The words for a fault. -/
def Fault.message : Fault → String
  | .unreachable root fault =>
    root.text ++ ": IO error for operation on " ++ root.text ++ ": " ++ fault.message
  | .rules faults => "\n".intercalate (faults.map Ignore.Fault.message)

/-- Whether one place lies below another. -/
def isBelow (root place : Files.Place) : Bool :=
  root.isPrefixOf place && root.length < place.length

/-- What a walk lists for the names that lead somewhere from the root. -/
def Found.ofNames (root : Path) (names : List String) : Found :=
  ⟨names.foldl Path.join root, names⟩

/-- The places below that of a root that rules leave out by themselves. -/
def ignoredBelow (d : Files.Disk) (root : Path) (place : Files.Place) : List Files.Place :=
  let layers := Ignore.layers d
  let user := Ignore.userRules d
  (d.places.filter (isBelow place)).filter fun below =>
    Ignore.isIgnored d layers user (Found.ofNames root (below.drop place.length)).path below

/-- The places below that of a root that neither are left out themselves nor lie below one that
is. -/
def placesBelow (d : Files.Disk) (root : Path) (place : Files.Place) : List Files.Place :=
  let ignored := ignoredBelow d root place
  (d.places.filter (isBelow place)).filter fun below => !ignored.any fun i => i.isPrefixOf below

/-- What is wrong with the rules of the directories above a place, the outermost first. -/
def faultsAbove (d : Files.Disk) (place : Files.Place) : List Ignore.Fault :=
  (Ignore.above place).reverse.flatMap (Ignore.Layer.faults d)

/-- What a walk lists from the place that its root leads to. -/
def walkFrom (d : Files.Disk) (root : Path) (place : Files.Place) : Except Fault (List Found) :=
  if !Ignore.isDirectoryAt d place then .ok [Found.ofNames root []]
  else if (faultsAbove d place).isEmpty then
    .ok (([] :: (placesBelow d root place).map (·.drop place.length)).map (Found.ofNames root))
  else .error (.rules (faultsAbove d place))

/-- Whether a path stands for the standard input. -/
def isStandardInput (p : Path) : Bool := p.components == [.name "-"]

/-- What a walk lists for the standard input. -/
def standardInput : Found := ⟨⟨"<stdin>"⟩, []⟩

/-- What a walk lists. -/
def walk (d : Files.Disk) (root : Path) : Except Fault (List Found) :=
  if isStandardInput root then .ok [standardInput]
  else match d.follow root with
    | .error fault => .error (.unreachable root fault)
    | .ok place => walkFrom d root place

end ModuleGraph.Collection

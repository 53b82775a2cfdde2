import ModuleGraph.Path.Basic

/-!
# Working one path into another

A relative path is worked into a directory by their texts alone: a name goes down, and `..` takes
back what the text of the directory ends with.

## Main definitions

* `Path.step`, `Path.extend`: a directory with a component, or a relative path, worked into it.
* `Path.last?`: the component a path ends with.
* `Path.trails`: whether the text of a path goes on behind its last name.
-/

namespace ModuleGraph.Path

/-- A directory with a component worked into it.  Above a path without a directory above there is
nothing else. -/
def step (dir : Path) : Component → Path
  | .name text => dir.join text
  | .up => dir.parent?.getD dir
  | .root | .here => dir

/-- A directory with a path worked into it; an absolute path replaces it. -/
def extend (dir sub : Path) : Path :=
  if sub.components.head? == some .root then sub else sub.components.foldl step dir

/-- The component a path ends with. -/
def last? (p : Path) : Option Component := (splitLast? p.text.toList).map Prod.snd

/-- Whether the text of a path goes on behind its last name, with `/` or `/.`. -/
def trails (p : Path) : Bool :=
  let cs := p.text.toList
  Nat.blt 1 cs.length && (cs.getLast? == some '/' || ['/', '.'].isSuffixOf cs)

end ModuleGraph.Path

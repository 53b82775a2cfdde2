import ModuleGraph.Path.Basic

/-!
# The chain of directories above a path

## Main definitions

* `Path.ancestors`: a path, the path above it, and so on.
-/

namespace ModuleGraph.Path

/-- The first `n` members of the chain of a path and the paths above it. -/
def ancestorsUpTo : Nat → Path → List Path
  | 0, _ => []
  | n + 1, p => p :: (p.parent?.map (ancestorsUpTo n)).getD []

/-- A path, the path above it, and so on.  Each is shorter than the one before, so the length of the
text bounds the chain. -/
def ancestors (p : Path) : List Path := ancestorsUpTo (p.text.length + 1) p

end ModuleGraph.Path

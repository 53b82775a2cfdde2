import ModuleGraph.Path.Basic

/-!
# Relative paths

The path that leads from one place to another: as many `..` as the base has components beyond the
common beginning, followed by the rest of the target.  `Path.apply` goes the other way: it follows
relative components from a base.

## Main definitions

* `Path.relativeComponents?`, `Path.relative?`: from a base to a target.
* `Path.apply`: follow relative components from a base.
* `Path.slashed`: the text of a relative path with `/` between its components on every host.
-/

namespace ModuleGraph.Path

/-- Two lists without their longest common beginning. -/
def dropCommon : List Component → List Component → List Component × List Component
  | a :: as, b :: bs => if a = b then dropCommon as bs else (a :: as, b :: bs)
  | as, bs => (as, bs)

/-- A component of the target that still counts below the common beginning. -/
def Component.isStep : Component → Bool
  | .up | .name _ => true
  | .root | .here => false

/-- The components that lead from a base to a target, unless the two begin differently. -/
def relativeComponents? (target base : List Component) : Option (List Component) :=
  if target.head? = base.head? then
    let (targetRest, baseRest) := dropCommon target base
    some (baseRest.map (fun _ => Component.up) ++ targetRest.filter Component.isStep)
  else none

/-- The path that leads from a base to a target, unless the two begin differently; a path to
itself is written `.`. -/
def relative? (target base : Path) : Option Path :=
  (relativeComponents? target.components base.components).map fun
    | [] => ⟨"."⟩
    | cs => ofComponents cs

/-- Follow relative components from a base: `..` takes back one component and a name adds one. -/
def apply (base : List Component) (steps : List Component) : List Component :=
  steps.foldl (fun place step => match step with
    | .up => place.dropLast
    | .name text => place ++ [.name text]
    | .root | .here => place) base

/-- The character that stands for a separator of another host, written as `/`. -/
def slash (c : Char) : Char := if c == '\\' then '/' else c

/-- The components of a path with `/` between them and no leading one; a backslash inside a name
is written as `/` too. -/
def slashed (p : Path) : String :=
  let parts := (p.components.filter (· ≠ .root)).map Component.chars
  String.ofList ((joinSlash parts).map slash)

end ModuleGraph.Path

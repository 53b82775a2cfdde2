import ModuleGraph.Path.Basic

/-!
# Dialects of program text

What a text may contain depends on the name of its file: whether it carries type annotations,
whether it may hold markup elements, and whether it is a module or a script.

## Main definitions

* `Source.Dialect`: a dialect.
* `Source.Dialect.ofPath`: the dialect of a file, by the suffix of its name.
-/

namespace ModuleGraph.Source

/-- What a program text may contain: type annotations, markup elements, and what only a module
may. -/
structure Dialect where
  typed : Bool
  markup : Bool
  isModule : Bool
  deriving DecidableEq, Repr

namespace Dialect

/-- A module with type annotations and without markup. -/
def typedModule : Dialect := ⟨true, false, true⟩

/-- The suffixes of files without type annotations. -/
def untypedSuffixes : List String := ["js", "jsx", "mjs", "cjs"]

/-- The dialect of a file.  Whatever is not known to lack type annotations is taken to have them;
markup is understood in files without annotations and in those with the suffix for both. -/
def ofPath (p : Path) : Dialect :=
  let suffix := p.suffix?
  let untyped := (suffix.map untypedSuffixes.contains).getD false
  ⟨!untyped, untyped || suffix == some "tsx", suffix != some "cjs"⟩

end Dialect

end ModuleGraph.Source

import ModuleGraph.Path.Basic

/-!
# Aliases

An alias lets the modules of a project name others by a stem instead of a path: what follows the
stem is looked for below a target directory.

## Main definitions

* `Alias`: a stem with its target.
* `Alias.Config`: the aliases of a project and the directory they refer to.
* `Alias.stripWildcard`: a pattern without the wildcard at its end.
* `Alias.candidate?`: what an alias makes of a request.
-/

namespace ModuleGraph

/-- A stem with its target. -/
structure Alias where
  /-- How a request has to begin. -/
  stem : String
  /-- Where the rest of the request is looked for. -/
  target : Path
  deriving DecidableEq, Repr

/-- The aliases of a project and the directory they refer to. -/
structure Alias.Config where
  baseDir : Option Path := none
  aliases : List Alias := []
  deriving DecidableEq, Repr

namespace Alias

/-- Whether a configuration says nothing. -/
def Config.isEmpty (c : Config) : Bool := c.baseDir.isNone && c.aliases.isEmpty

/-- The characters of a pattern without the wildcard at its end. -/
def stripWildcardChars (cs : List Char) : List Char :=
  if ['/', '*'].isSuffixOf cs then cs.take (cs.length - 2) else cs

/-- A pattern without the wildcard at its end. -/
def stripWildcard (pattern : String) : String :=
  String.ofList (stripWildcardChars pattern.toList)

/-- What is left of a list behind a given beginning. -/
def behind? : List Char → List Char → Option (List Char)
  | [], cs => some cs
  | s :: ss, c :: cs => if s == c then behind? ss cs else none
  | _ :: _, [] => none

/-- A text without one leading `/`. -/
def dropSlash : List Char → List Char
  | '/' :: cs => cs
  | cs => cs

/-- What an alias makes of a request that begins with its stem: a request relative to its target. -/
def candidate? (a : Alias) (request : String) : Option String :=
  (behind? a.stem.toList request.toList).map fun rest =>
    String.ofList ('.' :: '/' :: dropSlash rest)

end Alias

end ModuleGraph

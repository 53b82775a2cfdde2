import ModuleGraph.Alias.Basic

/-!
# Resolving requests through aliases

Every alias whose stem begins a request is tried, in the order of the configuration, and the first
one that leads to a file wins.  What no alias resolves is resolved from the directory of the module.
The functions take the resolution of a request from a directory as an argument.

## Main definitions

* `Resolution.mapped?`: the file that the aliases give.
* `Resolution.resolved?`: the file that the aliases give, or else the directory.
-/

namespace ModuleGraph.Resolution

/-- The file that one alias gives to a request. -/
def throughAlias? (plain : Path → String → Option Path) (request : String) (a : Alias) :
    Option Path :=
  (a.candidate? request).bind (plain a.target)

/-- The file that the first alias which leads to one gives to a request. -/
def mapped? (plain : Path → String → Option Path) (config : Alias.Config) (request : String) :
    Option Path :=
  config.aliases.findSome? (throughAlias? plain request)

/-- The file that a request in a module of a directory leads to: through the aliases, or else from
the directory. -/
def resolved? (plain : Path → String → Option Path) (config : Alias.Config) (dir : Path)
    (request : String) : Option Path :=
  (mapped? plain config request).or (plain dir request)

end ModuleGraph.Resolution

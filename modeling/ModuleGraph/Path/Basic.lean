import ModuleGraph.Text.Blank

/-!
# Paths and their components

A path is the text that names a place in a tree of files, with `/` between its segments.  The text
is kept as it was given, because reports show it; what the text means is its list of components.
Empty segments and `.` segments mean nothing, except that a leading `.` is a component of its own,
and a leading `/` is the root.

## Main definitions

* `Path`, `Path.Component`, `Path.components`: the text, and what it means.
* `Path.ofComponents`: the text of a list of components.
* `Path.join`, `Path.parent?`, `Path.fileName?`, `Path.suffix?`: the usual operations on the text.
* `Path.clean`: the lexical normal form, in which `..` has been worked off.
* `Path.le`: the order by components.
-/

namespace ModuleGraph

/-- The text that names a place in a tree of files. -/
structure Path where
  text : String
  deriving DecidableEq, Repr, Inhabited

namespace Path

/-- What one segment of a path means. -/
inductive Component where
  /-- The root directory, written as a leading `/`. -/
  | root
  /-- The current directory, written as a leading `.`. -/
  | here
  | up
  | name (text : String)
  deriving DecidableEq, Repr, Inhabited

/-- The segments of a text between its `/` signs.  There is always at least one. -/
def splitSlash : List Char → List (List Char)
  | [] => [[]]
  | c :: rest =>
    if c == '/' then [] :: splitSlash rest
    else match splitSlash rest with
      | [] => [[c]]
      | segment :: more => (c :: segment) :: more

/-- Segments with a `/` between neighbours. -/
def joinSlash : List (List Char) → List Char
  | [] => []
  | [segment] => segment
  | segment :: more => segment ++ '/' :: joinSlash more

/-- Whether a segment means nothing: it is empty, or a `.` that does not lead the path. -/
def isVoid (segment : List Char) : Bool := segment.isEmpty || segment == ['.']

/-- The component of a segment in the body of a path, if it has a meaning. -/
def Component.ofSegment? (segment : List Char) : Option Component :=
  if isVoid segment then none
  else if segment == ['.', '.'] then some .up
  else some (.name (String.ofList segment))

/-- The leading component of a text, with the characters that remain for the body. -/
def splitLead : List Char → Option Component × List Char
  | '/' :: rest => (some .root, rest)
  | ['.'] => (some .here, [])
  | '.' :: '/' :: rest => (some .here, '/' :: rest)
  | cs => (none, cs)

/-- The components of the characters of a path. -/
def componentsOf (cs : List Char) : List Component :=
  let (lead, body) := splitLead cs
  lead.toList ++ (splitSlash body).filterMap Component.ofSegment?

/-- What a path means. -/
def components (p : Path) : List Component := componentsOf p.text.toList

/-- The text of one component. -/
def Component.chars : Component → List Char
  | .root => ['/']
  | .here => ['.']
  | .up => ['.', '.']
  | .name text => text.toList

/-- The characters of a path that is extended by another one: an absolute extension replaces it. -/
def joinChars (left right : List Char) : List Char :=
  if right.head? == some '/' then right
  else if left.isEmpty || left.getLast? == some '/' then left ++ right
  else left ++ '/' :: right

/-- A path extended by a text: an absolute text replaces it. -/
def join (p : Path) (text : String) : Path :=
  ⟨String.ofList (joinChars p.text.toList text.toList)⟩

/-- The path made of a list of components, one after the other. -/
def ofComponents (cs : List Component) : Path :=
  ⟨String.ofList (cs.foldl (fun acc c => joinChars acc c.chars) [])⟩

/-- Whether the path starts at the root. -/
def isAbsolute (p : Path) : Bool := p.text.toList.head? == some '/'

/-- The characters of the path above, together with the component that was left out. -/
def splitLast? (cs : List Char) : Option (List Char × Component) :=
  let (lead, body) := splitLead cs
  let leadChars := (lead.map Component.chars).getD []
  match (splitSlash body).reverse.dropWhile isVoid with
  | [] => if lead == some .here then some ([], .here) else none
  | segment :: before =>
    some (leadChars ++ joinSlash (before.dropWhile isVoid).reverse,
      (Component.ofSegment? segment).getD .here)

/-- The path above, if there is one: the last component is dropped, and what means nothing before
it. -/
def parent? (p : Path) : Option Path :=
  (splitLast? p.text.toList).map fun r => ⟨String.ofList r.1⟩

/-- The name of the entry the path ends with. -/
def fileName? (p : Path) : Option String :=
  match splitLast? p.text.toList with
  | some (_, .name text) => some text
  | _ => none

/-- What follows the last dot of a name, unless that dot leads the name. -/
def suffixOf? (name : List Char) : Option (List Char) :=
  let tail := name.reverse.takeWhile (· != '.')
  if tail.length + 1 < name.length then some tail.reverse else none

/-- What follows the last dot of the name the path ends with, unless that dot leads the name. -/
def suffix? (p : Path) : Option String :=
  p.fileName?.bind fun name => (suffixOf? name.toList).map String.ofList

/-- One step of the lexical normal form: `.` does nothing, and `..` takes back a name, is absorbed
by the root, and stays otherwise.  The components so far are kept in reverse. -/
def cleanStep (done : List Component) : Component → List Component
  | .here => done
  | .up => match done with
    | .root :: _ => done
    | .name _ :: before => before
    | _ => .up :: done
  | c => c :: done

/-- The components of the lexical normal form. -/
def cleanComponents (cs : List Component) : List Component := (cs.foldl cleanStep []).reverse

/-- The lexical normal form of a path; a path that leads nowhere is written `.`. -/
def clean (p : Path) : Path :=
  match cleanComponents p.components with
  | [] => ⟨"."⟩
  | cs => ofComponents cs

/-- The rank of a kind of component: root, current directory, directory above, name. -/
def Component.rank : Component → Nat
  | .root => 0
  | .here => 1
  | .up => 2
  | .name _ => 3

/-- The order of characters by code point, extended to texts. -/
def compareChars : List Char → List Char → Ordering
  | [], [] => .eq
  | [], _ => .lt
  | _, [] => .gt
  | a :: as, b :: bs => (compare a.toNat b.toNat).then (compareChars as bs)

/-- The order of texts by code point, which is also the order of their encoded bytes. -/
def compareText (a b : String) : Ordering := compareChars a.toList b.toList

/-- The order of components: by rank, and names by code point. -/
def Component.compare : Component → Component → Ordering
  | .name a, .name b => compareText a b
  | a, b => Ord.compare a.rank b.rank

/-- The lexicographic order of component lists. -/
def compareComponents : List Component → List Component → Ordering
  | [], [] => .eq
  | [], _ => .lt
  | _, [] => .gt
  | a :: as, b :: bs => (a.compare b).then (compareComponents as bs)

/-- The order of paths by their components. -/
def le (p q : Path) : Bool := (compareComponents p.components q.components).isLE

end Path

end ModuleGraph

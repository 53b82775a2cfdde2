import ModuleGraph.Path.Basic

/-!
# Trees of files

A disk is a finite tree of directories, files and symbolic links as a process sees it: with the
directory that relative paths start from, and with the directories that the user keeps settings in.
Every entry is listed under the names that lead to it from the root, and the root itself is always a
directory.  Names and the paths that links stand for are Unicode text.  Entries carry no
permissions, so whatever is there can be listed and read.

## Main definitions

* `Files.Fault`: why an entry cannot be reached or read, with `Files.Fault.message`.
* `Files.Entry`, `Files.Disk`: an entry, and the tree.
* `Files.Disk.entry?`, `Files.Disk.places`: the view of the tree.
* `Files.Disk.put`, `Files.Disk.drop`: the changes of the tree.
-/

namespace ModuleGraph.Files

/-- Why an entry cannot be reached or read. -/
inductive Fault where
  | notFound
  | notDirectory
  | isDirectory
  | tooManyLinks
  | nameTooLong
  /-- A path holds the character that ends it. -/
  | endInside
  | notText
  deriving DecidableEq, Repr

/-- The words for a fault. -/
def Fault.message : Fault → String
  | .notFound => "No such file or directory (os error 2)"
  | .notDirectory => "Not a directory (os error 20)"
  | .isDirectory => "Is a directory (os error 21)"
  | .tooManyLinks => "Too many levels of symbolic links (os error 40)"
  | .nameTooLong => "File name too long (os error 36)"
  | .endInside => "file name contained an unexpected NUL byte"
  | .notText => "stream did not contain valid UTF-8"

/-- An entry of a tree: a directory, a file with its contents, or a symbolic link with the path it
stands for. -/
inductive Entry where
  | directory
  | file (contents : ByteArray)
  | link (target : String)

/-- Whether an entry is a directory. -/
def Entry.isDirectory : Entry → Bool
  | .directory => true
  | _ => false

/-- Whether an entry is a file. -/
def Entry.isFile : Entry → Bool
  | .file _ => true
  | _ => false

/-- A place in a tree: the names that lead to it from the root. -/
abbrev Place := List String

/-- Whether a text can name an entry: it is not empty, holds no `/`, and is not one of the two names
that stand for the directory itself and the one above. -/
def isName (name : String) : Bool :=
  name != "" && name != "." && name != ".." && !name.toList.contains '/'

/-- Whether a place lies below the root and is led to by names. -/
def isProper (place : Place) : Bool := !place.isEmpty && place.all isName

/-- A tree of files as a process sees it.  Every place below the root is listed once, and is led to
by names.  Names are Unicode text, and entries carry no permissions. -/
structure Disk where
  entries : List (Place × Entry)
  /-- The directory that relative paths start from. -/
  here : Place
  home : Option Path := none
  /-- The directory of the configurations of the user, where it is not the usual one. -/
  configHome : Option Path := none
  distinct : (entries.map Prod.fst).Nodup
  proper : ∀ e ∈ entries, isProper e.1 = true

namespace Disk

/-- The tree that holds nothing but its root. -/
def empty : Disk where
  entries := []
  here := []
  distinct := List.nodup_nil
  proper _ h := absurd h List.not_mem_nil

/-- The entry at a place. -/
def entry? (d : Disk) (place : Place) : Option Entry :=
  if place.isEmpty then some .directory else d.entries.lookup place

/-- The places below the root that hold an entry. -/
def places (d : Disk) : List Place := d.entries.map Prod.fst

/-- A tree with those entries alone whose places fit. -/
def restrict (d : Disk) (fits : Place → Bool) : Disk where
  entries := d.entries.filter fun e => fits e.1
  here := d.here
  home := d.home
  configHome := d.configHome
  distinct := d.distinct.sublist (List.filter_sublist.map _)
  proper e h := d.proper e (List.mem_filter.mp h).1

/-- Every place of a tree with those entries alone whose places fit, fits. -/
theorem mem_places_restrict {d : Disk} {fits : Place → Bool} {place : Place}
    (h : place ∈ (d.restrict fits).places) : fits place = true := by
  obtain ⟨e, he, rfl⟩ := List.mem_map.mp h
  exact (List.mem_filter.mp he).2

/-- A tree with a further entry at a place that was free. -/
def add (d : Disk) (place : Place) (e : Entry) (free : place ∉ d.places)
    (proper : isProper place = true) : Disk where
  entries := d.entries ++ [(place, e)]
  here := d.here
  home := d.home
  configHome := d.configHome
  distinct := by
    rw [List.map_append, List.nodup_append]
    refine ⟨d.distinct, by simp, fun a ha b hb => ?_⟩
    obtain rfl : b = place := by simpa using hb
    exact fun h => free (h ▸ ha)
  proper f hf := by
    rcases List.mem_append.mp hf with h | h
    · exact d.proper f h
    · obtain rfl : f = (place, e) := by simpa using h
      exact proper

/-- A tree with an entry at a place, in the stead of what was there.  A place that no names lead to
can hold nothing. -/
def put (d : Disk) (place : Place) (e : Entry) : Disk :=
  if h : isProper place = true then
    (d.restrict (· != place)).add place e
      (fun hm => by simpa using mem_places_restrict hm) h
  else d

/-- A tree without a place and everything below it. -/
def drop (d : Disk) (place : Place) : Disk := d.restrict fun p => !place.isPrefixOf p

/-- A tree whose relative paths start from another directory. -/
def startingFrom (d : Disk) (here : Place) : Disk := { d with here }

/-- A tree as it is seen by a user with other directories for settings. -/
def seenFrom (d : Disk) (home configHome : Option Path) : Disk := { d with home, configHome }

/-- The path of a place. -/
def pathOf (place : Place) : Path :=
  Path.ofComponents (.root :: place.map .name)

end Disk

end ModuleGraph.Files

import ModuleGraph.Proofs.Path.Normal
import ModuleGraph.Proofs.Resolution.Absolute

/-!
# Requests lead to files that exist

Every search ends with a question to the disk: a path is found only if a file is found at it.  The
answer of a resolution is the canonical form of such a path, and in a tree where no link leads to a
directory that form leads to the same file.

## Main definitions

* `Files.Disk.NamesFile`: a plain path whose names lead to a file.

## Main results

* `Resolution.Setting.findsFile_search`: a search finds paths to files only.
* `Resolution.Setting.namesFile_of_resolve?`: a request that is resolved leads to a file.
-/

namespace ModuleGraph

namespace Files.Disk

/-- A plain path whose names lead to a file. -/
structure NamesFile (d : Disk) (p : Path) : Prop where
  isPlain : p.IsPlain
  /-- Its names lead to a file, perhaps through a link. -/
  reaches : ∃ r contents, d.Reaches true [] p.trail r ∧ d.entry? r = some (.file contents)

variable {d : Disk} {p q : Path}

theorem exists_of_any_isFile {e : Option Entry} (h : e.any Entry.isFile = true) :
    ∃ contents, e = some (.file contents) := by
  rcases e with _ | _ | contents | _
  · cases h
  · cases h
  · exact ⟨contents, rfl⟩
  · cases h

/-- The names of a path that names a file are those of an entry. -/
theorem NamesFile.exists_entry? (hd : d.LinksMissDirectories) (h : d.NamesFile p) :
    ∃ e, d.entry? p.trail = some e := by
  obtain ⟨hplain, r, contents, hreach, hfile⟩ := h
  have hnames : ∀ name ∈ p.trail, isName name = true := hplain.isName_of_mem_trail
  rcases hreach.direct_or_link hd with
    hreach | ⟨front, name, target, m, hsplit, hfront, -, -, he, -⟩
  · rw [hreach.eq_append hnames, List.nil_append] at hfile
    exact ⟨_, hfile⟩
  · rw [hsplit] at hnames ⊢
    have hm := hfront.eq_append fun n hn => hnames n (List.mem_append_left _ hn)
    rw [hm, List.nil_append] at he
    exact ⟨_, he⟩

/-- Where no link leads to a directory, the canonical form of a path that leads to a file names a
file. -/
theorem namesFile_of_canonical (hd : d.LinksMissDirectories) (hp : p.isAbsolute = true)
    (h : (d.found? p).any Entry.isFile = true) (hq : d.canonical p = .ok q) : d.NamesFile q := by
  have hplain := isPlain_of_canonical hp hq
  refine ⟨hplain, ?_⟩
  obtain ⟨contents, hfile⟩ := exists_of_any_isFile h
  unfold found? at hfile
  split at hfile
  · next r hr =>
    obtain ⟨place, hnames, rfl, hreach⟩ := exists_place_of_canonical hd hp hr hfile hq
    exact ⟨r, contents, by rwa [trail_pathOf hnames], hfile⟩
  · -- There are too many links to follow, but the canonical form can be followed.
    rw [hq] at hfile
    dsimp only at hfile
    unfold reach? at hfile
    split at hfile
    · next r hr => exact ⟨r, contents, reaches_trail_of_follow hd hplain.isAbsolute hr, hfile⟩
    · cases hfile
  · cases hfile

end Files.Disk

namespace Resolution.Setting

variable {s : Setting} {p dir : Path}

/-- A search that finds paths to files only. -/
def FindsFile (s : Setting) (r : Except Refusal (Option Path)) : Prop :=
  ∀ p, r = .ok (some p) → s.isFile p = true

theorem isFile_of_withSuffix {file : Path} (h : s.withSuffix p = some file) :
    s.isFile file = true :=
  List.find?_some h

theorem isFile_of_asFile {file : Path} (h : s.asFile p = some file) : s.isFile file = true := by
  unfold asFile at h
  split_ifs at h with hexact
  · obtain rfl := Option.some.inj h
    exact (Bool.and_eq_true_iff.mp hexact).2
  · exact isFile_of_withSuffix h

theorem findsFile_asDirectory : s.FindsFile (s.asDirectory dir) := by
  unfold asDirectory
  refine finds_bind fun package _ file h => ?_
  rcases Option.or_eq_some_iff.mp (Except.ok.inj h) with hmain | ⟨-, hindex⟩
  · obtain ⟨pkg, -, hmain⟩ := Option.bind_eq_some_iff.mp hmain
    obtain ⟨name, -, hmain⟩ := Option.bind_eq_some_iff.mp hmain
    obtain ⟨text, -, hmain⟩ := Option.bind_eq_some_iff.mp hmain
    rcases Option.or_eq_some_iff.mp hmain with hfile | ⟨-, hindex⟩
    · exact isFile_of_asFile hfile
    · exact isFile_of_withSuffix hindex
  · exact isFile_of_withSuffix hindex

theorem findsFile_asEither (fileToo : Bool) : s.FindsFile (s.asEither fileToo p) := by
  unfold asEither
  split
  · next file hfile =>
    split_ifs at hfile
    exact finds_some (isFile_of_asFile hfile)
  · split_ifs
    · exact findsFile_asDirectory
    · exact finds_none

/-- A search from an absolute directory finds paths to files only. -/
theorem findsFile_search (hdir : dir.isAbsolute = true) (request : List Char) :
    s.FindsFile (s.search dir request) :=
  finds_search (fun _ _ => findsFile_asEither) hdir request

/-- The canonical form of a path that a search has found. -/
theorem exists_of_resolve? {request : String} {file : Path} (hdir : dir.isAbsolute = true)
    (h : s.resolve? dir request = some file) :
    ∃ p, p.isAbsolute = true ∧ s.isFile p = true ∧ s.disk.canonical p = .ok file := by
  obtain ⟨p, hfound, hcanonical⟩ := exists_search_of_resolve? h
  exact ⟨p, findsAbsolute_search hdir _ p hfound, findsFile_search hdir _ p hfound, hcanonical⟩

/-- A request that is resolved leads to a file. -/
theorem namesFile_of_resolve? (hd : s.disk.LinksMissDirectories) {request : String} {file : Path}
    (hdir : dir.isAbsolute = true) (h : s.resolve? dir request = some file) :
    s.disk.NamesFile file := by
  obtain ⟨p, hp, hfile, hcanonical⟩ := exists_of_resolve? hdir h
  exact Files.Disk.namesFile_of_canonical hd hp hfile hcanonical

end Resolution.Setting

end ModuleGraph

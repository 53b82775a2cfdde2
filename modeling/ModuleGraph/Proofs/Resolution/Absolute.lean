import ModuleGraph.Proofs.Files.Reaching
import ModuleGraph.Proofs.Path.Chain
import ModuleGraph.Resolution.Default

/-!
# Where a resolution ends

The canonical form of an absolute path is plain: it is found component by component from the root,
and what a link stands for is made canonical in its turn.  A search from an absolute directory
meets absolute paths only, whether a request is followed as a path, through the description of a
package or with a suffix.  So a request that is resolved from an absolute directory leads to a plain
path.  Nothing is asserted about what lies at the end of that path.

## Main definitions

* `Resolution.Finds`: the searches that find nothing but paths with a property.
* `Resolution.FindsAbsolute`: the searches that find absolute paths only.

## Main results

* `Files.Disk.isPlain_of_canonical`: canonical forms of absolute paths are plain.
* `Resolution.Setting.finds_search`: what a search finds is the file of an absolute path.
* `Resolution.Setting.findsAbsolute_search`: searches from absolute directories find absolute paths.
* `Resolution.Setting.isPlain_of_resolve?`: resolutions from absolute directories are plain.
-/

namespace ModuleGraph

/-! ### Canonical forms -/

namespace Files.Disk

variable {d : Disk} {onLink : Path → Except Fault Path}

private theorem isPlain_of_canonicalStep
    (hlink : ∀ p q, p.isAbsolute = true → onLink p = .ok q → q.IsPlain) {above p q : Path}
    (habove : above.IsPlain) (hp : p.isAbsolute = true)
    (h : d.canonicalStep onLink above p = .ok q) : q.IsPlain := by
  have hstraight : ((p.last?.map above.step).getD above).IsPlain := by
    cases hlast : p.last? with
    | none => exact habove
    | some c => exact habove.step (Path.last?_isProper hp hlast)
  rw [canonicalStep] at h
  split_ifs at h with hnone
  · obtain rfl := Except.ok.inj h
    exact hstraight
  · split at h
    · cases h
    · next target _ =>
      split_ifs at h with hroot
      · have habs : (⟨target⟩ : Path).isAbsolute = true := hroot
        exact hlink _ q (Path.isPlain_clean habs).isAbsolute h
      · exact hlink _ q (Path.isAbsolute_extend
          (Path.isAbsolute_parent?_getD hstraight.isAbsolute) _) h

private theorem isPlain_of_canonicalAlong
    (hlink : ∀ p q, p.isAbsolute = true → onLink p = .ok q → q.IsPlain) {below : List Path}
    (hbelow : ∀ p ∈ below, p.isAbsolute = true) {above q : Path} (habove : above.IsPlain)
    (h : d.canonicalAlong onLink above below = .ok q) : q.IsPlain := by
  induction below generalizing above with
  | nil =>
    obtain rfl := Except.ok.inj h
    exact habove
  | cons p below ih =>
    obtain ⟨next, hstep, hrest⟩ := exists_ok_of_bind_eq_ok h
    have hnext : next.IsPlain :=
      isPlain_of_canonicalStep hlink habove (hbelow p List.mem_cons_self) hstep
    exact ih (fun r hr => hbelow r (List.mem_cons_of_mem p hr)) hnext hrest

private theorem isPlain_of_canonicalWithin {links : Nat} {p q : Path} (hp : p.isAbsolute = true)
    (h : d.canonicalWithin links p = .ok q) : q.IsPlain := by
  induction links generalizing p q with
  | zero => cases h
  | succ links ih =>
    rw [canonicalWithin] at h
    have hchain : ∀ r ∈ p.ancestors.reverse, r.isAbsolute = true := fun r hr =>
      Path.isAbsolute_of_mem_ancestors hp (List.mem_reverse.mp hr)
    cases hreverse : p.ancestors.reverse with
    | nil =>
      rw [List.reverse_eq_nil_iff] at hreverse
      exact absurd hreverse (Path.isChain_ancestors hp).ne_nil
    | cons top below =>
      rw [hreverse] at h hchain
      have htop : top.IsPlain := by
        obtain ⟨last, hlast, hroot⟩ := (Path.isChain_ancestors hp).getLast?_eq hp
        rw [List.getLast?_eq_head?_reverse, hreverse, List.head?_cons] at hlast
        exact ⟨[], Option.some.inj hlast ▸ hroot⟩
      exact isPlain_of_canonicalAlong (fun r s hr hs => ih hr hs)
        (fun r hr => hchain r (List.mem_cons_of_mem top hr)) htop h

/-- The canonical form of an absolute path is plain. -/
theorem isPlain_of_canonical {p q : Path} (hp : p.isAbsolute = true) (h : d.canonical p = .ok q) :
    q.IsPlain :=
  isPlain_of_canonicalWithin hp h

end Files.Disk

/-! ### Packages and their targets -/

namespace Resolution

variable {d : Files.Disk}

/-- A search that finds nothing but paths with a property. -/
def Finds (P : Path → Prop) (r : Except Refusal (Option Path)) : Prop :=
  ∀ p, r = .ok (some p) → P p

section Finds

variable {P : Path → Prop}

theorem finds_none : Finds P (.ok none) := by
  intro p h
  cases h

theorem finds_error (e : Refusal) : Finds P (.error e) := by
  intro p h
  cases h

theorem finds_some {p : Path} (hp : P p) : Finds P (.ok (some p)) := by
  intro q h
  obtain rfl := Option.some.inj (Except.ok.inj h)
  exact hp

theorem finds_bind {α : Type} {first : Except Refusal α}
    {next : α → Except Refusal (Option Path)}
    (h : ∀ a, first = .ok a → Finds P (next a)) : Finds P (first >>= next) := by
  intro p hp
  obtain ⟨a, ha, hnext⟩ := exists_ok_of_bind_eq_ok hp
  exact h a ha p hnext

theorem finds_orSearch {first : Search Path} {second : Unit → Search Path}
    (hfirst : Finds P first) (hsecond : Finds P (second ())) :
    Finds P (orSearch first second) := by
  unfold orSearch
  split
  · exact hsecond
  · exact hfirst

/-- What is found last counts, or a refusal. -/
private theorem finds_orRefuse {first : Except Refusal (Option Path)} (hfirst : Finds P first)
    (e : Refusal) : Finds P (do
      match ← first with
      | some p => .ok (some p)
      | none => .error e) := by
  refine finds_bind fun found hfound => ?_
  cases found with
  | none => exact finds_error e
  | some p => exact finds_some (hfirst p hfound)

end Finds

/-- A search that finds absolute paths only. -/
def FindsAbsolute (r : Except Refusal (Option Path)) : Prop :=
  ∀ p, r = .ok (some p) → p.isAbsolute = true

theorem directory_isAbsolute_of_packageAt {dir : Path} (hdir : dir.isAbsolute = true)
    {package : Package} (h : packageAt d dir = .ok (some package)) :
    package.directory.isAbsolute = true := by
  unfold packageAt at h
  split at h
  · cases h
  · split at h
    · cases h
    · next directory hcanonical =>
      split at h
      · obtain rfl := Option.some.inj (Except.ok.inj h)
        exact (Files.Disk.isPlain_of_canonical hdir hcanonical).isAbsolute
      · cases h

theorem exists_of_firstFound {α β : Type} {search : α → Search β} {candidates : List α} {b : β}
    (h : firstFound search candidates = .ok (some b)) :
    ∃ a ∈ candidates, search a = .ok (some b) := by
  induction candidates with
  | nil => cases h
  | cons a candidates ih =>
    rw [firstFound] at h
    split at h
    · next found hfound => exact ⟨a, List.mem_cons_self, by rw [hfound, ← h]⟩
    · obtain ⟨c, hc, hfound⟩ := ih h
      exact ⟨c, List.mem_cons_of_mem a hc, hfound⟩
    · cases h

theorem directory_isAbsolute_of_nearestPackage {p : Path} (hp : p.isAbsolute = true)
    {package : Package} (h : nearestPackage d p = .ok (some package)) :
    package.directory.isAbsolute = true := by
  obtain ⟨dir, hdir, hfound⟩ := exists_of_firstFound h
  have hmem : dir ∈ p.ancestors := by
    unfold directoriesAbove at hdir
    split at hdir
    · exact List.mem_of_getLast? (by simpa using hdir)
    · exact (List.dropWhile_sublist _).subset hdir
  exact directory_isAbsolute_of_packageAt (Path.isAbsolute_of_mem_ancestors hp hmem) hfound

theorem findsAbsolute_textTarget {aim : Aim} (haim : aim.directory.isAbsolute = true)
    (text : List Char) : FindsAbsolute (textTarget aim text) := by
  unfold textTarget
  split
  · exact finds_error _
  · split_ifs
    · exact finds_error _
    · refine finds_bind fun path _ => ?_
      dsimp only
      split_ifs
      · exact finds_error _
      · exact finds_some (Path.isAbsolute_extend haim _)

mutual

/-- The targets of an absolute package are absolute. -/
theorem findsAbsolute_target {aim : Aim} (haim : aim.directory.isAbsolute = true) :
    (v : Json.Value) → FindsAbsolute (target aim v)
  | .string text => by
    rw [target]
    exact findsAbsolute_textTarget haim text.toList
  | .object members => by
    rw [target]
    exact findsAbsolute_conditionalTarget haim members
  | .array [] => by
    rw [target]
    exact finds_error _
  | .array (v :: vs) => by
    rw [target]
    exact findsAbsolute_listedTarget haim (v :: vs)
  | .null | .bool _ | .number _ | .unreadable => by
    rw [target] <;> first | exact finds_none | simp

theorem findsAbsolute_conditionalTarget {aim : Aim} (haim : aim.directory.isAbsolute = true) :
    (members : List (String × Json.Value)) → FindsAbsolute (conditionalTarget aim members)
  | [] => by
    rw [conditionalTarget]
    exact finds_none
  | m :: ms => by
    rw [conditionalTarget]
    split_ifs
    · split
      · exact findsAbsolute_conditionalTarget haim ms
      · exact findsAbsolute_target haim m.2
    · exact findsAbsolute_conditionalTarget haim ms

theorem findsAbsolute_listedTarget {aim : Aim} (haim : aim.directory.isAbsolute = true) :
    (values : List Json.Value) → FindsAbsolute (listedTarget aim values)
  | [] => by
    rw [listedTarget]
    exact finds_none
  | v :: vs => by
    rw [listedTarget]
    split
    · next hfound =>
      intro q h
      exact findsAbsolute_target haim v q (hfound.trans h)
    · exact findsAbsolute_listedTarget haim vs

end

theorem findsAbsolute_memberTarget {directory : Path} (hdir : directory.isAbsolute = true)
    (members : List (String × Json.Value)) (name : List Char) :
    FindsAbsolute (memberTarget directory members name) := by
  unfold memberTarget
  split
  · exact finds_none
  · dsimp only
    split
    · apply findsAbsolute_target
      exact hdir
    · split
      · apply findsAbsolute_target
        exact hdir
      · exact finds_none

theorem findsAbsolute_exported {directory : Path} (hdir : directory.isAbsolute = true)
    (exports : Json.Value) (name : List Char) (query : Bool) :
    FindsAbsolute (exported directory exports name query) := by
  unfold exported
  dsimp only
  -- What is no object has no members, and is handled like an object with none.
  split
  all_goals
    split
    · exact finds_error _
    · refine finds_bind fun main hfound => ?_
      cases main with
      | some p =>
        refine finds_some ?_
        split_ifs at hfound
        · split at hfound
          · refine findsAbsolute_target ?_ _ p hfound
            exact hdir
          · cases hfound
        · cases hfound
      | none => exact finds_orRefuse (findsAbsolute_memberTarget hdir _ name) _

theorem findsAbsolute_imported {package : Package} (hdir : package.directory.isAbsolute = true)
    (name : List Char) : FindsAbsolute (imported package name) := by
  unfold imported
  split
  · split_ifs
    · exact finds_error _
    · exact finds_orRefuse (findsAbsolute_memberTarget hdir _ name) _
  · exact finds_none

/-! ### Searches -/

namespace Setting

variable {s : Setting} {p dir : Path}

theorem isAbsolute_of_withSuffix {file : Path} (hp : p.isAbsolute = true)
    (h : s.withSuffix p = some file) : file.isAbsolute = true := by
  obtain ⟨suffix, -, rfl⟩ := List.mem_map.mp (List.mem_of_find?_eq_some h)
  exact Path.isAbsolute_append hp suffix

theorem isAbsolute_of_asFile {file : Path} (hp : p.isAbsolute = true)
    (h : s.asFile p = some file) : file.isAbsolute = true := by
  unfold asFile at h
  split_ifs at h
  · obtain rfl := Option.some.inj h
    exact hp
  · exact isAbsolute_of_withSuffix hp h

theorem isAbsolute_of_index {file : Path} (hp : p.isAbsolute = true)
    (h : s.index p = some file) : file.isAbsolute = true :=
  isAbsolute_of_withSuffix (Path.isAbsolute_extend hp _) h

theorem findsAbsolute_asDirectory (hdir : dir.isAbsolute = true) :
    FindsAbsolute (s.asDirectory dir) := by
  unfold asDirectory
  refine finds_bind fun package _ => ?_
  intro file h
  rcases Option.or_eq_some_iff.mp (Except.ok.inj h) with hmain | ⟨-, hindex⟩
  · obtain ⟨pkg, -, hmain⟩ := Option.bind_eq_some_iff.mp hmain
    obtain ⟨name, -, hmain⟩ := Option.bind_eq_some_iff.mp hmain
    obtain ⟨text, -, hmain⟩ := Option.bind_eq_some_iff.mp hmain
    have hpath := Path.isAbsolute_extend hdir (mainPath text)
    rcases Option.or_eq_some_iff.mp hmain with hfile | ⟨-, hindex⟩
    · exact isAbsolute_of_asFile hpath hfile
    · exact isAbsolute_of_index hpath hindex
  · exact isAbsolute_of_index hdir hindex

theorem findsAbsolute_asEither (hp : p.isAbsolute = true) (fileToo : Bool) :
    FindsAbsolute (s.asEither fileToo p) := by
  unfold asEither
  split
  · next file hfile =>
    split_ifs at hfile
    · exact finds_some (isAbsolute_of_asFile hp hfile)
  · split_ifs
    · exact findsAbsolute_asDirectory hp
    · exact finds_none

section Searches

/-! Whatever is found by a search is the file of a path that may be a file or a directory, and this
path is absolute if the search starts in an absolute directory. -/

variable {P : Path → Prop}
  (heither : ∀ p : Path, p.isAbsolute = true → ∀ fileToo, Finds P (s.asEither fileToo p))

include heither

theorem finds_asMatch (hp : p.isAbsolute = true) : Finds P (s.asMatch p) :=
  finds_orSearch (heither p hp true) (finds_error _)

theorem finds_asExport (hdir : dir.isAbsolute = true) (request : List Char) (query : Bool) :
    Finds P (s.asExport dir request query) := by
  unfold asExport
  refine finds_bind fun nearest hnearest => ?_
  cases nearest with
  | none => exact finds_none
  | some package =>
    have hpackage := directory_isAbsolute_of_nearestPackage hdir hnearest
    dsimp only
    split
    · exact finds_none
    · split
      · exact finds_none
      · refine finds_bind fun found hfound => ?_
        cases found with
        | none => exact finds_none
        | some p => exact finds_asMatch heither (findsAbsolute_exported hpackage _ _ _ p hfound)

theorem finds_asImport (hdir : dir.isAbsolute = true) (request : List Char) :
    Finds P (s.asImport dir request) := by
  unfold asImport
  refine finds_bind fun nearest hnearest => ?_
  cases nearest with
  | none => exact finds_none
  | some package =>
    have hpackage := directory_isAbsolute_of_nearestPackage hdir hnearest
    refine finds_bind fun found hfound => ?_
    cases found with
    | none => exact finds_none
    | some p => exact finds_asMatch heither (findsAbsolute_imported hpackage _ p hfound)

theorem finds_searchPath (hdir : dir.isAbsolute = true) (path : List Char) (query : Bool) :
    Finds P (s.searchPath dir path query) := by
  unfold searchPath
  dsimp only
  split
  · next hroot => exact heither _ (Path.isAbsolute_of_head?_components hroot) _
  · exact heither _ (Path.isAbsolute_extend hdir _) _
  · exact heither _ (Path.isAbsolute_extend hdir _) _
  · split_ifs
    · exact finds_orSearch (finds_asImport heither hdir _) (finds_asExport heither hdir _ _)
    · exact finds_asExport heither hdir _ _

/-- What is found at absolute paths is all that a search from an absolute directory finds. -/
theorem finds_search (hdir : dir.isAbsolute = true) (request : List Char) :
    Finds P (s.search dir request) := by
  unfold search
  split
  · exact finds_error _
  · dsimp only
    split
    · split
      · next hfound =>
        intro q h
        exact finds_searchPath heither hdir _ _ q (hfound.trans h)
      · exact finds_searchPath heither hdir _ _
    · exact finds_searchPath heither hdir _ _

end Searches

/-- A search from an absolute directory finds absolute paths only. -/
theorem findsAbsolute_search (hdir : dir.isAbsolute = true) (request : List Char) :
    FindsAbsolute (s.search dir request) :=
  finds_search (fun _ hp => findsAbsolute_asEither hp) hdir request

/-- What a request is resolved to is the canonical form of what a search has found. -/
theorem exists_search_of_resolve? {request : String} {file : Path}
    (h : s.resolve? dir request = some file) :
    ∃ p, s.search dir request.toList = .ok (some p) ∧ s.disk.canonical p = .ok file := by
  unfold resolve? at h
  split at h
  · next p hfound =>
    unfold settle at h
    split at h
    · next hcanonical _ =>
      obtain rfl := Option.some.inj h
      exact ⟨p, hfound, hcanonical⟩
    · cases h
  · cases h

/-- A request that is resolved from an absolute directory leads to a plain path. -/
theorem isPlain_of_resolve? {request : String} {file : Path} (hdir : dir.isAbsolute = true)
    (h : s.resolve? dir request = some file) : file.IsPlain := by
  obtain ⟨p, hfound, hcanonical⟩ := exists_search_of_resolve? h
  exact Files.Disk.isPlain_of_canonical (findsAbsolute_search hdir _ p hfound) hcanonical

end Setting

end Resolution

end ModuleGraph

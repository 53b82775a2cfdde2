import ModuleGraph.Proofs.Files.Canonical

/-!
# Trees

The entries of a disk are listed by their places, one by one.  They form a *tree* if each of them
lies in a directory and relative paths start from a directory.  In a tree a path leads to an entry
that is no link, and the path of such an entry leads back to it.

## Main definitions

* `Files.Disk.IsTree`: every entry lies in a directory.

## Main results

* `Files.Disk.IsTree.of_follow`: what a path leads to.
* `Files.Disk.IsTree.follow_pathOf`: what the path of an entry leads to.
* `Files.Disk.IsTree.linkAt?_pathOf`: the path of a link names the link.
-/

namespace ModuleGraph.Files.Disk

/-- Every entry of a tree lies in a directory, and relative paths start from one. -/
structure IsTree (d : Disk) : Prop where
  parents : ∀ place ∈ d.places, d.entry? place.dropLast = some .directory
  start : d.entry? d.here = some .directory

variable {d : Disk} {links : Bool} {place r : Place} {segments : List String} {e : Entry}

theorem any_isDirectory_iff {e : Option Entry} :
    e.any Entry.isDirectory = true ↔ e = some .directory := by
  rcases e with _ | _ | _ | _ <;> simp [Entry.isDirectory]

instance (d : Disk) : Decidable d.IsTree :=
  decidable_of_iff ((∀ place ∈ d.places, (d.entry? place.dropLast).any Entry.isDirectory = true) ∧
      (d.entry? d.here).any Entry.isDirectory = true)
    ⟨fun h => ⟨fun place hplace => any_isDirectory_iff.mp (h.1 place hplace),
      any_isDirectory_iff.mp h.2⟩,
    fun h => ⟨fun place hplace => any_isDirectory_iff.mpr (h.parents place hplace),
      any_isDirectory_iff.mpr h.start⟩⟩

theorem mem_places_of_entry?_eq (hne : place ≠ []) (h : d.entry? place = some e) :
    place ∈ d.places :=
  List.mem_map_of_mem (mem_entries_of_entry?_eq hne h)

/-- What is listed under a place is the entry at the place. -/
theorem entry?_of_mem_entries (h : (place, e) ∈ d.entries) : d.entry? place = some e := by
  have hne : place.isEmpty = false := by
    simpa using (Bool.and_eq_true_iff.mp (d.proper _ h)).1
  obtain ⟨front, back, hentries⟩ := List.append_of_mem h
  rw [ entry?, hne, if_neg (by simp)]
  refine List.lookup_eq_some_iff.mpr ⟨front, back, hentries, fun p hp => ?_⟩
  have hdistinct := d.distinct
  rw [hentries, List.map_append, List.map_cons] at hdistinct
  have hneq := (List.nodup_append.mp hdistinct).2.2 p.1 (List.mem_map_of_mem hp) place
    List.mem_cons_self
  simpa using fun heq => hneq heq.symm

theorem entry?_isSome_of_mem_places (h : place ∈ d.places) : ∃ e, d.entry? place = some e := by
  obtain ⟨⟨p, e⟩, hmem, rfl⟩ := List.mem_map.mp h
  exact ⟨e, entry?_of_mem_entries hmem⟩

theorem entry?_eq_some_iff (hne : place ≠ []) : d.entry? place = some e ↔ (place, e) ∈ d.entries :=
  ⟨mem_entries_of_entry?_eq hne, entry?_of_mem_entries⟩

/-- A place that holds a file is led to by names. -/
theorem isProper_of_entry?_file {contents : ByteArray}
    (h : d.entry? place = some (.file contents)) : isProper place = true := by
  have hne : place ≠ [] := by
    rintro rfl
    cases h
  exact d.proper _ (mem_entries_of_entry?_eq hne h)

theorem IsTree.parent (hd : d.IsTree) (h : d.entry? place = some e) :
    d.entry? place.dropLast = some .directory := by
  by_cases hne : place = []
  · simp [hne]
  · exact hd.parents place (mem_places_of_entry?_eq hne h)

/-- What lies above an entry is a directory. -/
theorem IsTree.above (hd : d.IsTree) {front back : Place} (hne : back ≠ [])
    (h : d.entry? (front ++ back) = some e) : d.entry? front = some .directory := by
  induction back using List.reverseRecOn generalizing e with
  | nil => exact absurd rfl hne
  | append_singleton back name ih =>
    have habove : d.entry? (front ++ back) = some .directory := by
      have hparent := hd.parent h
      rwa [← List.append_assoc, List.dropLast_concat] at hparent
    by_cases hback : back = []
    · rwa [hback, List.append_nil] at habove
    · exact ih hback habove

/-- What is reached from an entry that is no link is an entry that is no link. -/
theorem IsTree.of_reaches (hd : d.IsTree) (h : d.Reaches links place segments r)
    (he : d.entry? place = some e) (hlink : e.isLink = false) :
    ∃ e', d.entry? r = some e' ∧ e'.isLink = false := by
  induction h generalizing e with
  | done place => exact ⟨e, he, hlink⟩
  | here _ _ ih => exact ih he hlink
  | up _ _ ih => exact ih (hd.parent he) rfl
  | down _ _ he' hlink' _ ih => exact ih he' hlink'
  | @link place r name target rest _ hdir _ _ _ ih =>
    by_cases hroot : startsAtRoot target.toList = true
    · exact ih (by rw [linkStart, if_pos hroot]; rfl) rfl
    · exact ih (by rw [linkStart, if_neg hroot]; exact hdir) rfl

/-- What a path leads to is an entry that is no link. -/
theorem IsTree.of_follow (hd : d.IsTree) {p : Path} (h : d.follow p = .ok r) :
    ∃ e, d.entry? r = some e ∧ e.isLink = false := by
  unfold follow followIf at h
  dsimp only at h
  split_ifs at h with _ _ _ hroot
  · exact hd.of_reaches (reaches_of_walk h) entry?_nil rfl
  · exact hd.of_reaches (reaches_of_walk h) hd.start rfl

/-- Behind a beginning of the names of an entry that is no link, the rest of them is followed
without links. -/
theorem IsTree.eq_of_reaches_append (hd : d.IsTree) (hlink : e.isLink = false) {front rest : Place}
    (he : d.entry? (front ++ rest) = some e) (h : d.Reaches true front rest r) :
    r = front ++ rest ∧ d.Reaches false front rest (front ++ rest) := by
  have hnames := isName_of_entry?_eq he
  induction rest generalizing front with
  | nil =>
    rw [List.append_nil]
    cases h with
    | done => exact ⟨rfl, .done _⟩
  | cons name rest ih =>
    have hname : isName name = true := hnames name (by simp)
    rw [List.append_cons] at he hnames ⊢
    cases h with
    | here => simp [isName] at hname
    | up => simp [isName] at hname
    | down hdir hdown he' hlink' h =>
      obtain ⟨hr, hreach⟩ := ih he h hnames
      exact ⟨hr, .down hdir hdown he' hlink' hreach⟩
    | link _ _ _ he' _ =>
      by_cases hnil : rest = []
      · subst hnil
        rw [List.append_nil] at he
        obtain rfl := Option.some.inj (he.symm.trans he')
        cases hlink
      · cases (hd.above hnil he).symm.trans he'

/-- The names of an entry that is no link lead to it and nowhere else, and without links. -/
theorem IsTree.eq_of_reaches (hd : d.IsTree) (he : d.entry? place = some e)
    (hlink : e.isLink = false) (h : d.Reaches true [] place r) : r = place ∧ d.IsSettled place := by
  obtain ⟨hr, hreach⟩ := hd.eq_of_reaches_append hlink (List.nil_append place ▸ he) h
  exact ⟨hr, isName_of_entry?_eq he, hreach⟩

theorem reaches_of_follow_pathOf (h : ∀ name ∈ place, isName name = true)
    (hfollow : d.follow (pathOf place) = .ok r) : d.Reaches true [] place r := by
  have hreach := reaches_of_walk (walk_of_followIf (isAbsolute_pathOf place) hfollow)
  by_cases hne : place = []
  · subst hne
    rw [show segmentsOf (pathOf []).text.toList = ["."] by decide] at hreach
    generalize hdot : "." = segment at hreach
    cases hreach with
    | here _ hdone => exact hdone
    | up => exact absurd hdot (by decide)
    | down _ hname | link _ _ hname => exact absurd hdot.symm hname.notHere
  · rwa [segmentsOf_pathOf hne h] at hreach

/-- The path of an entry that is no link leads to it, if it leads anywhere. -/
theorem IsTree.follow_pathOf (hd : d.IsTree) (he : d.entry? place = some e)
    (hlink : e.isLink = false) (h : d.follow (pathOf place) = .ok r) :
    r = place ∧ d.IsSettled place :=
  hd.eq_of_reaches he hlink (reaches_of_follow_pathOf (isName_of_entry?_eq he) h)

/-- The path of a link names the link, if it leads anywhere. -/
theorem IsTree.linkAt?_pathOf (hd : d.IsTree) {target : String}
    (he : d.entry? place = some (.link target)) (h : d.follow (pathOf place) = .ok r) :
    d.linkAt? (pathOf place) = some target := by
  have hnames := isName_of_entry?_eq he
  rcases List.eq_nil_or_concat place with rfl | ⟨above, name, rfl⟩
  · cases he
  · rw [List.concat_eq_append] at he h hnames ⊢
    obtain ⟨m, hm, hlast⟩ := (reaches_of_follow_pathOf hnames h).split
    have hdir := hd.above (by simp) he
    obtain ⟨rfl, hsettled⟩ := hd.eq_of_reaches hdir rfl hm
    have hname : isName name = true := hnames name (by simp)
    have hdown : GoesDown name := by
      cases hlast with
      | here => simp [isName] at hname
      | up => simp [isName] at hname
      | down _ hdown | link _ _ hdown => exact hdown
    have hfollow : d.followIf false (pathOf (m ++ [name])) = .ok (m ++ [name]) := by
      unfold follow followIf at h
      unfold followIf
      dsimp only at h ⊢
      have hroot : startsAtRoot (pathOf (m ++ [name])).text.toList = true :=
        isAbsolute_pathOf _
      split_ifs at h ⊢
      rw [segmentsOf_pathOf (by simp) hnames]
      exact walk_of_reaches_link hsettled.reaches hdir hdown he maxLinks
    rw [linkAt?, hfollow]
    simp only [he]

/-- The path of an entry that names no link leads to the entry, if it leads anywhere. -/
theorem IsTree.eq_of_linkAt?_eq_none (hd : d.IsTree) (he : d.entry? place = some e)
    (h : d.follow (pathOf place) = .ok r) (hnone : d.linkAt? (pathOf place) = none) :
    r = place := by
  cases e with
  | link target =>
    rw [hd.linkAt?_pathOf he h] at hnone
    cases hnone
  | directory | file => exact (hd.follow_pathOf he rfl h).1

end ModuleGraph.Files.Disk

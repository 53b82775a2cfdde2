import ModuleGraph.Files.Lookup
import ModuleGraph.Proofs.Path.Absolute

/-!
# What paths lead to

Following a path is a partial function with a bound on the number of links.  Here it is a relation
without the bound: from a place, segments *reach* another place, either through any number of links
or through none.  What is reached without links can be read off the segments alone.  A place is
*settled* if its own names lead to it without links; every place that a path reaches without links
is settled.

A link that stands for a directory lets a path and its text part: behind it, `..` does not take back
the name of the link.  In a tree where no link leads to a directory, links are met only at the very
end of what can be followed.

## Main definitions

* `Files.Disk.Reaches`: what segments lead to from a place.
* `Files.Disk.IsSettled`: the places that their own names lead to without links.
* `Files.Disk.LinksMissDirectories`: no link leads to a directory.

## Main results

* `Files.Disk.reaches_of_walk`: what a bounded walk finds is reached.
* `Files.Disk.IsSettled.of_reaches`: what is reached without links is settled.
* `Files.Disk.Reaches.direct_or_link`: where links miss directories, only the last segment can be a
  link.
* `Files.Disk.exists_file_of_readText`: a text that is read is that of a file.
-/

namespace ModuleGraph

/-- A step that comes first in a successful computation was successful. -/
theorem exists_ok_of_bind_eq_ok {ε α β : Type} {first : Except ε α} {next : α → Except ε β} {b : β}
    (h : first >>= next = .ok b) : ∃ a, first = .ok a ∧ next a = .ok b := by
  cases first with
  | error e => cases h
  | ok a => exact ⟨a, rfl, h⟩

end ModuleGraph

namespace ModuleGraph.Files

/-- Whether an entry is a link. -/
def Entry.isLink : Entry → Bool
  | .link _ => true
  | _ => false

/-- Where the path that a link in a directory stands for starts. -/
def linkStart (target : String) (dir : Place) : Place :=
  if startsAtRoot target.toList then [] else dir

/-- A segment that leads to an entry of a directory. -/
structure GoesDown (segment : String) : Prop where
  notHere : segment ≠ "."
  notUp : segment ≠ ".."
  short : segment.utf8ByteSize ≤ maxName

namespace Disk

/-- Segments lead from a place to another one.  The flag tells whether links are followed. -/
inductive Reaches (d : Disk) (links : Bool) : Place → List String → Place → Prop
  | done (place : Place) : Reaches d links place [] place
  | here {place r : Place} {rest : List String} (hdir : d.entry? place = some .directory)
      (h : Reaches d links place rest r) : Reaches d links place ("." :: rest) r
  /-- Above a directory there is another one, or itself. -/
  | up {place r : Place} {rest : List String} (hdir : d.entry? place = some .directory)
      (h : Reaches d links place.dropLast rest r) : Reaches d links place (".." :: rest) r
  | down {place r : Place} {name : String} {rest : List String} {e : Entry}
      (hdir : d.entry? place = some .directory) (hname : GoesDown name)
      (he : d.entry? (place ++ [name]) = some e) (hlink : e.isLink = false)
      (h : Reaches d links (place ++ [name]) rest r) : Reaches d links place (name :: rest) r
  /-- A directory has a link, and its target is followed first. -/
  | link {place r : Place} {name target : String} {rest : List String} (hlinks : links = true)
      (hdir : d.entry? place = some .directory) (hname : GoesDown name)
      (he : d.entry? (place ++ [name]) = some (.link target))
      (h : Reaches d links (linkStart target place) (segmentsOf target.toList ++ rest) r) :
      Reaches d links place (name :: rest) r

variable {d : Disk} {links : Bool} {place r : Place} {segments rest : List String} {name : String}

/-! ### Places that hold an entry -/

@[simp] theorem entry?_nil : d.entry? [] = some .directory := rfl

theorem mem_entries_of_entry?_eq {e : Entry} (hne : place ≠ []) (h : d.entry? place = some e) :
    (place, e) ∈ d.entries := by
  rw [ entry?, if_neg (by simpa using hne)] at h
  obtain ⟨front, back, hentries, -⟩ := List.lookup_eq_some_iff.mp h
  simp [hentries]

/-- A place that holds an entry is led to by names. -/
theorem isName_of_entry?_eq {e : Entry} (h : d.entry? place = some e) :
    ∀ name ∈ place, isName name = true := by
  by_cases hne : place = []
  · simp [hne]
  · have hproper := d.proper _ (mem_entries_of_entry?_eq hne h)
    exact List.all_eq_true.mp (Bool.and_eq_true_iff.mp hproper).2

theorem isProper_of_forall_isName (h : ∀ name ∈ place, isName name = true) :
    ∀ c ∈ place.map Path.Component.name, c.IsProper := by
  intro c hc
  obtain ⟨name, hname, rfl⟩ := List.mem_map.mp hc
  exact Path.isName_iff.mp (h name hname)

/-! ### Steps of a walk -/

variable {last : Bool} {onLink : Place → List String → Except Fault Place}

theorem steps_here (hdir : d.entry? place = some .directory) :
    d.steps last onLink place ("." :: rest) = d.steps last onLink place rest := by
  simp [steps, hdir]

theorem steps_up (hdir : d.entry? place = some .directory) :
    d.steps last onLink place (".." :: rest) = d.steps last onLink place.dropLast rest := by
  simp [steps, hdir]

theorem steps_down {e : Entry} (hdir : d.entry? place = some .directory) (hname : GoesDown name)
    (he : d.entry? (place ++ [name]) = some e) (hlink : e.isLink = false) :
    d.steps last onLink place (name :: rest) = d.steps last onLink (place ++ [name]) rest := by
  have hshort := Nat.not_lt.mpr hname.short
  cases e with
  | link target => cases hlink
  | directory | file => simp [steps, hdir, hname.notHere, hname.notUp, hshort, he]

/-- A walk that does not follow the last link stops at it. -/
theorem steps_last_link {target : String} (hdir : d.entry? place = some .directory)
    (hname : GoesDown name) (he : d.entry? (place ++ [name]) = some (.link target)) :
    d.steps false onLink place [name] = .ok (place ++ [name]) := by
  simp [steps, hdir, hname.notHere, hname.notUp, Nat.not_lt.mpr hname.short, he]

/-- What a successful walk does at a segment. -/
theorem steps_cons_eq_ok (h : d.steps last onLink place (name :: rest) = .ok r) :
    d.entry? place = some .directory ∧
      ((name = "." ∧ d.steps last onLink place rest = .ok r) ∨
        (name = ".." ∧ d.steps last onLink place.dropLast rest = .ok r) ∨
        (GoesDown name ∧
          ((∃ e, d.entry? (place ++ [name]) = some e ∧ e.isLink = false ∧
              d.steps last onLink (place ++ [name]) rest = .ok r) ∨
            (∃ target, d.entry? (place ++ [name]) = some (.link target) ∧
              ((rest = [] ∧ last = false ∧ r = place ++ [name]) ∨
                onLink (linkStart target place) (segmentsOf target.toList ++ rest) =
                  .ok r))))) := by
  rw [steps] at h
  split at h
  · next hdir =>
    refine ⟨hdir, ?_⟩
    by_cases hhere : name = "."
    · exact .inl ⟨hhere, by simpa [hhere] using h⟩
    by_cases hup : name = ".."
    · exact .inr (.inl ⟨hup, by simpa [hup] using h⟩)
    by_cases hlong : name.utf8ByteSize > maxName
    · simp [hhere, hup, hlong] at h
    have hname : GoesDown name := ⟨hhere, hup, Nat.not_lt.mp hlong⟩
    refine .inr (.inr ⟨hname, ?_⟩)
    simp only [hhere, hup, hlong, beq_iff_eq, if_false] at h
    split at h
    · cases h
    · next target htarget =>
      refine .inr ⟨target, htarget, ?_⟩
      split at h
      · next hend =>
        obtain ⟨hrest, hlast⟩ := Bool.and_eq_true_iff.mp hend
        exact .inl ⟨by simpa using hrest, by simpa using hlast, (Except.ok.inj h).symm⟩
      · exact .inr h
    · next e hnotLink he =>
      refine .inl ⟨e, he, ?_, h⟩
      cases e with
      | link target => exact absurd rfl (hnotLink target)
      | directory | file => rfl
  · cases h

/-- What one round of a walk finds is reached, if what is found behind a link is. -/
private theorem reaches_of_steps
    (hlink : ∀ {p : Place} {ss : List String} {q : Place},
      onLink p ss = .ok q → d.Reaches true p ss q)
    (h : d.steps true onLink place segments = .ok r) : d.Reaches true place segments r := by
  induction segments generalizing place with
  | nil =>
    obtain rfl := Except.ok.inj h
    exact .done place
  | cons name rest ih =>
    obtain ⟨hdir, hcases⟩ := steps_cons_eq_ok h
    rcases hcases with ⟨rfl, hrest⟩ | ⟨rfl, hrest⟩ | ⟨hname, hentry⟩
    · exact .here hdir (ih hrest)
    · exact .up hdir (ih hrest)
    · rcases hentry with ⟨e, he, hnotLink, hrest⟩ | ⟨target, he, ⟨-, hlast, -⟩ | hrest⟩
      · exact .down hdir hname he hnotLink (ih hrest)
      · cases hlast
      · exact .link rfl hdir hname he (hlink hrest)

/-- What a bounded walk finds is reached. -/
theorem reaches_of_walk {bound : Nat} (h : d.walk true bound place segments = .ok r) :
    d.Reaches true place segments r := by
  induction bound generalizing place segments r with
  | zero => exact reaches_of_steps (fun hlink => by cases hlink) h
  | succ bound ih => exact reaches_of_steps (fun hlink => ih hlink) h

/-! ### Reaching in parts -/

theorem Reaches.mono (h : d.Reaches false place segments r) : d.Reaches links place segments r := by
  induction h with
  | done place => exact .done place
  | here hdir _ ih => exact .here hdir ih
  | up hdir _ ih => exact .up hdir ih
  | down hdir hname he hlink _ ih => exact .down hdir hname he hlink ih
  | link hlinks => cases hlinks

theorem Reaches.trans {m : Place} {back : List String} (h : d.Reaches links place segments m)
    (hback : d.Reaches links m back r) : d.Reaches links place (segments ++ back) r := by
  induction h with
  | done place => exact hback
  | here hdir _ ih => exact .here hdir (ih hback)
  | up hdir _ ih => exact .up hdir (ih hback)
  | down hdir hname he hlink _ ih => exact .down hdir hname he hlink (ih hback)
  | link hlinks hdir hname he _ ih =>
    have hrest := ih hback
    rw [List.append_assoc] at hrest
    exact .link hlinks hdir hname he hrest

/-- What is reached along two pieces is reached through a place between them. -/
theorem Reaches.split {front back : List String} (h : d.Reaches links place (front ++ back) r) :
    ∃ m, d.Reaches links place front m ∧ d.Reaches links m back r := by
  generalize hall : front ++ back = segments at h
  induction h generalizing front with
  | done place =>
    obtain ⟨rfl, rfl⟩ := List.append_eq_nil_iff.mp hall
    exact ⟨place, .done place, .done place⟩
  | @here place r rest hdir h ih =>
    rcases List.append_eq_cons_iff.mp hall with ⟨rfl, rfl⟩ | ⟨front, rfl, rfl⟩
    · exact ⟨place, .done place, .here hdir h⟩
    · obtain ⟨m, hfront, hback⟩ := ih rfl
      exact ⟨m, .here hdir hfront, hback⟩
  | @up place r rest hdir h ih =>
    rcases List.append_eq_cons_iff.mp hall with ⟨rfl, rfl⟩ | ⟨front, rfl, rfl⟩
    · exact ⟨place, .done place, .up hdir h⟩
    · obtain ⟨m, hfront, hback⟩ := ih rfl
      exact ⟨m, .up hdir hfront, hback⟩
  | @down place r name rest e hdir hname he hlink h ih =>
    rcases List.append_eq_cons_iff.mp hall with ⟨rfl, rfl⟩ | ⟨front, rfl, rfl⟩
    · exact ⟨place, .done place, .down hdir hname he hlink h⟩
    · obtain ⟨m, hfront, hback⟩ := ih rfl
      exact ⟨m, .down hdir hname he hlink hfront, hback⟩
  | @link place r name target rest hlinks hdir hname he h ih =>
    rcases List.append_eq_cons_iff.mp hall with ⟨rfl, rfl⟩ | ⟨front, rfl, rfl⟩
    · exact ⟨place, .done place, .link hlinks hdir hname he h⟩
    · obtain ⟨m, hfront, hback⟩ := ih (List.append_assoc _ _ _)
      exact ⟨m, .link hlinks hdir hname he hfront, hback⟩

/-- Only from a directory a segment is followed. -/
theorem Reaches.isDirectory (h : d.Reaches links place segments r) (hne : segments ≠ []) :
    d.entry? place = some .directory := by
  cases h with
  | done => exact absurd rfl hne
  | here hdir | up hdir | down hdir | link _ hdir => exact hdir

/-- Segments lead to one place at most. -/
theorem Reaches.unique {r' : Place} (h : d.Reaches links place segments r)
    (h' : d.Reaches links place segments r') : r = r' := by
  induction h with
  | done place =>
    cases h' with
    | done => rfl
  | here _ _ ih =>
    generalize hdot : "." = segment at h'
    cases h' with
    | here _ h' => exact ih h'
    | up => exact absurd hdot (by decide)
    | down _ hname | link _ _ hname => exact absurd hdot.symm hname.notHere
  | up _ _ ih =>
    generalize hdots : ".." = segment at h'
    cases h' with
    | here => exact absurd hdots (by decide)
    | up _ h' => exact ih h'
    | down _ hname | link _ _ hname => exact absurd hdots.symm hname.notUp
  | down _ hname he hlink _ ih =>
    cases h' with
    | here => exact absurd rfl hname.notHere
    | up => exact absurd rfl hname.notUp
    | down _ _ _ _ h' => exact ih h'
    | link _ _ _ he' =>
      obtain rfl := Option.some.inj (he.symm.trans he')
      cases hlink
  | link _ _ hname he _ ih =>
    cases h' with
    | here => exact absurd rfl hname.notHere
    | up => exact absurd rfl hname.notUp
    | down _ _ he' hlink _ =>
      obtain rfl := Option.some.inj (he'.symm.trans he)
      cases hlink
    | link _ _ _ he' h' =>
      obtain rfl := Entry.link.inj (Option.some.inj (he.symm.trans he'))
      exact ih h'

/-! ### Reaching without links -/

private theorem Reaches.eq_of_steps {m : Place}
    (h : d.Reaches false place (segments.filter (· ≠ ".")) r)
    (hsteps : d.steps last onLink place segments = .ok m) : m = r := by
  induction segments generalizing place with
  | nil =>
    obtain rfl := Except.ok.inj hsteps
    cases h with
    | done => rfl
  | cons name rest ih =>
    obtain ⟨-, hcases⟩ := steps_cons_eq_ok hsteps
    by_cases hhere : name = "."
    · subst hhere
      rw [List.filter_cons_of_neg (by simp)] at h
      rcases hcases with ⟨-, hrest⟩ | ⟨hup, -⟩ | ⟨hname, -⟩
      · exact ih h hrest
      · exact absurd hup (by decide)
      · exact absurd rfl hname.notHere
    · rw [List.filter_cons_of_pos (by simpa using hhere)] at h
      cases h with
      | here => exact absurd rfl hhere
      | up _ h =>
        rcases hcases with ⟨hname, -⟩ | ⟨-, hrest⟩ | ⟨hname, -⟩
        · exact absurd hname hhere
        · exact ih h hrest
        · exact absurd rfl hname.notUp
      | down _ hname he hlink h =>
        rcases hcases with ⟨hname', -⟩ | ⟨hname', -⟩ | ⟨-, ⟨e, -, -, hrest⟩ | ⟨target, he', -⟩⟩
        · exact absurd hname' hhere
        · exact absurd hname' hname.notUp
        · exact ih h hrest
        · obtain rfl := Option.some.inj (he.symm.trans he')
          cases hlink
      | link hlinks => cases hlinks

/-- What is reached without links is what every successful walk finds, also if segments that stand
for the directory itself are left out. -/
theorem Reaches.eq_of_walk {bound : Nat} {m : Place}
    (h : d.Reaches false place (segments.filter (· ≠ ".")) r)
    (hwalk : d.walk last bound place segments = .ok m) : m = r := by
  cases bound with
  | zero => exact h.eq_of_steps hwalk
  | succ bound => exact h.eq_of_steps hwalk

private theorem steps_of_reaches (h : d.Reaches false place segments r) :
    d.steps last onLink place segments = .ok r := by
  induction h with
  | done place => rfl
  | here hdir _ ih => exact (steps_here hdir).trans ih
  | up hdir _ ih => exact (steps_up hdir).trans ih
  | down hdir hname he hlink _ ih => exact (steps_down hdir hname he hlink).trans ih
  | link hlinks => cases hlinks

/-- What is reached without links is found by every walk. -/
theorem walk_of_reaches (h : d.Reaches false place segments r) (bound : Nat) :
    d.walk last bound place segments = .ok r := by
  cases bound with
  | zero => exact steps_of_reaches h
  | succ bound => exact steps_of_reaches h

private theorem steps_of_reaches_link {m : Place} {target : String}
    (h : d.Reaches false place segments m) (hdir : d.entry? m = some .directory)
    (hname : GoesDown name) (he : d.entry? (m ++ [name]) = some (.link target)) :
    d.steps false onLink place (segments ++ [name]) = .ok (m ++ [name]) := by
  induction h with
  | done place => exact steps_last_link hdir hname he
  | here hdir' _ ih => exact (steps_here hdir').trans (ih hdir he)
  | up hdir' _ ih => exact (steps_up hdir').trans (ih hdir he)
  | down hdir' hname' he' hlink _ ih =>
    exact (steps_down hdir' hname' he' hlink).trans (ih hdir he)
  | link hlinks => cases hlinks

/-- A walk that does not follow the last link stops at it, wherever it starts. -/
theorem walk_of_reaches_link {m : Place} {target : String} (h : d.Reaches false place segments m)
    (hdir : d.entry? m = some .directory) (hname : GoesDown name)
    (he : d.entry? (m ++ [name]) = some (.link target)) (bound : Nat) :
    d.walk false bound place (segments ++ [name]) = .ok (m ++ [name]) := by
  cases bound with
  | zero => exact steps_of_reaches_link h hdir hname he
  | succ bound => exact steps_of_reaches_link h hdir hname he

/-- Segments that stand for the directory itself can be left out. -/
theorem Reaches.filter (h : d.Reaches false place segments r) :
    d.Reaches false place (segments.filter (· ≠ ".")) r := by
  induction h with
  | done place => exact .done place
  | here _ _ ih => simpa using ih
  | up hdir _ ih => exact .up hdir ih
  | down hdir hname he hlink _ ih =>
    rw [List.filter_cons_of_pos (by simpa using hname.notHere)]
    exact .down hdir hname he hlink ih
  | link hlinks => cases hlinks

/-! ### Settled places -/

/-- A place that its own names lead to without links. -/
structure IsSettled (d : Disk) (place : Place) : Prop where
  names : ∀ name ∈ place, isName name = true
  reaches : d.Reaches false [] place place

theorem isSettled_nil : d.IsSettled [] := ⟨by simp, .done []⟩

theorem IsSettled.concat {e : Entry} (h : d.IsSettled place)
    (hdir : d.entry? place = some .directory) (hname : GoesDown name)
    (he : d.entry? (place ++ [name]) = some e) (hlink : e.isLink = false) :
    d.IsSettled (place ++ [name]) :=
  ⟨isName_of_entry?_eq he, h.reaches.trans (.down hdir hname he hlink (.done _))⟩

/-- The place above a settled one is settled. -/
theorem IsSettled.dropLast (h : d.IsSettled place) : d.IsSettled place.dropLast := by
  rcases List.eq_nil_or_concat place with rfl | ⟨above, name, rfl⟩
  · exact h
  · rw [List.concat_eq_append] at h ⊢
    rw [List.dropLast_concat]
    have hname : isName name = true := h.names name (by simp)
    refine ⟨fun n hn => h.names n (List.mem_append_left _ hn), ?_⟩
    obtain ⟨m, hm, hlast⟩ := h.reaches.split
    generalize hr : above ++ [name] = r at hlast
    cases hlast with
    | here => simp [isName] at hname
    | up => simp [isName] at hname
    | down _ _ _ _ hdone =>
      cases hdone with
      | done =>
        obtain rfl : above = m := (List.append_inj' hr rfl).1
        exact hm
    | link hlinks => cases hlinks

/-- What is reached without links from a settled place is settled. -/
theorem IsSettled.of_reaches (h : d.Reaches false place segments r) (hplace : d.IsSettled place) :
    d.IsSettled r := by
  induction h with
  | done place => exact hplace
  | here _ _ ih => exact ih hplace
  | up _ _ ih => exact ih hplace.dropLast
  | down hdir hname he hlink _ ih => exact ih (hplace.concat hdir hname he hlink)
  | link hlinks => cases hlinks

/-! ### Links -/

/-- No link leads to a directory. -/
def LinksMissDirectories (d : Disk) : Prop :=
  ∀ ⦃place : Place⦄ ⦃name target : String⦄ ⦃r : Place⦄,
    d.entry? (place ++ [name]) = some (.link target) → d.Reaches true place [name] r →
    d.entry? r ≠ some .directory

/-- Where no link leads to a directory, segments are followed without links, except that the last
one may be a link. -/
theorem Reaches.direct_or_link (hd : d.LinksMissDirectories)
    (h : d.Reaches true place segments r) :
    d.Reaches false place segments r ∨
      ∃ front name target m, segments = front ++ [name] ∧ d.Reaches false place front m ∧
        d.entry? m = some .directory ∧ GoesDown name ∧
        d.entry? (m ++ [name]) = some (.link target) ∧
        d.Reaches true (linkStart target m) (segmentsOf target.toList) r := by
  induction h with
  | done place => exact .inl (.done place)
  | @here place r rest hdir _ ih =>
    rcases ih with h | ⟨front, name, target, m, rfl, hfront, hrest⟩
    · exact .inl (.here hdir h)
    · exact .inr ⟨"." :: front, name, target, m, rfl, .here hdir hfront, hrest⟩
  | @up place r rest hdir _ ih =>
    rcases ih with h | ⟨front, name, target, m, rfl, hfront, hrest⟩
    · exact .inl (.up hdir h)
    · exact .inr ⟨".." :: front, name, target, m, rfl, .up hdir hfront, hrest⟩
  | @down place r name rest e hdir hname he hlink _ ih =>
    rcases ih with h | ⟨front, name', target, m, rfl, hfront, hrest⟩
    · exact .inl (.down hdir hname he hlink h)
    · exact .inr ⟨name :: front, name', target, m, rfl, .down hdir hname he hlink hfront, hrest⟩
  | @link place r name target rest hlinks hdir hname he h ih =>
    -- Behind the link nothing can be left, for its target would have to be a directory.
    obtain ⟨m, htarget, hrest⟩ := h.split
    by_cases hnil : rest = []
    · subst hnil
      cases hrest with
      | done => exact .inr ⟨[], name, target, place, rfl, .done place, hdir, hname, he, htarget⟩
    · have hlinked : d.Reaches true place [name] m :=
        .link rfl hdir hname he (by rwa [List.append_nil])
      exact absurd (hrest.isDirectory hnil) (hd he hlinked)

/-! ### What is read -/

variable {p : Path} {contents : ByteArray} {text : String}

theorem readBytes_eq_ok (h : d.follow p = .ok place) (he : d.entry? place = some (.file contents)) :
    d.readBytes p = .ok contents := by
  simp only [readBytes, h, bind, Except.bind, he]

theorem readText_eq_ok (h : d.follow p = .ok place)
    (he : d.entry? place = some (.file contents)) (htext : String.fromUTF8? contents = some text) :
    d.readText p = .ok text := by
  simp only [readText, readBytes_eq_ok h he, bind, Except.bind, htext]

/-- What is read at a path is the contents of the file at the place it leads to. -/
theorem exists_file_of_readBytes (h : d.readBytes p = .ok contents) :
    ∃ place, d.follow p = .ok place ∧ d.entry? place = some (.file contents) := by
  obtain ⟨place, hplace, hentry⟩ := exists_ok_of_bind_eq_ok h
  refine ⟨place, hplace, ?_⟩
  split at hentry
  · next found hfound =>
    obtain rfl := Except.ok.inj hentry
    exact hfound
  · cases hentry
  · cases hentry

/-- A text that is read at a path is the contents of the file at the place it leads to. -/
theorem exists_file_of_readText (h : d.readText p = .ok text) :
    ∃ place contents, d.follow p = .ok place ∧ d.entry? place = some (.file contents) ∧
      String.fromUTF8? contents = some text := by
  obtain ⟨bytes, hbytes, htext⟩ := exists_ok_of_bind_eq_ok h
  obtain ⟨place, hplace, hentry⟩ := exists_file_of_readBytes hbytes
  refine ⟨place, bytes, hplace, hentry, ?_⟩
  split at htext
  · next found hfound =>
    obtain rfl := Except.ok.inj htext
    exact hfound
  · cases htext

end Disk

end ModuleGraph.Files

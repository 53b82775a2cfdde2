import ModuleGraph.Proofs.Files.Linkless

/-!
# Trees with the same outline

Two trees have the same outline if they agree in everything but the contents of their files.  Then
every path leads to the same place in both, has the same canonical form, and leads to an entry of
the same kind.  What is read at a path may differ, unless the files of its last name agree.

## Main definitions

* `Files.Disk.SameOutline`: two trees agree in everything but the contents of files.
* `Files.Disk.SameNamed`: the files of a name agree in two trees.

## Main results

* `Files.Disk.SameOutline.follow_eq`, `Files.Disk.SameOutline.canonical_eq`: paths lead to the same
  places and have the same canonical forms.
* `Files.Disk.SameOutline.perm_places`: the same places are listed.
* `Files.Disk.SameOutline.readBytes_join_eq`: what is read in a directory under a name whose files
  agree.
* `Files.Disk.sameOutline_put`, `Files.Disk.readBytes_put`: what writing over a file leaves as it
  was.
-/

namespace ModuleGraph.Files

/-- An entry without the contents of files. -/
def Entry.outline : Entry → Entry
  | .file _ => .file .empty
  | e => e

@[simp] theorem Entry.isFile_outline (e : Entry) : e.outline.isFile = e.isFile := by
  cases e <;> rfl

@[simp] theorem Entry.isDirectory_outline (e : Entry) : e.outline.isDirectory = e.isDirectory := by
  cases e <;> rfl

namespace Disk

/-- Two trees agree in everything but the contents of files: they are seen from the same
directories, and the same kind of entry stands at every place. -/
structure SameOutline (d₁ d₂ : Disk) : Prop where
  here : d₁.here = d₂.here
  home : d₁.home = d₂.home
  configHome : d₁.configHome = d₂.configHome
  entry : ∀ place, ( d₁.entry? place).map Entry.outline = ( d₂.entry? place).map Entry.outline

/-- The entries of a name agree in two trees. -/
def SameNamed (name : String) (d₁ d₂ : Disk) : Prop :=
  ∀ place, d₁.entry? (place ++ [name]) = d₂.entry? (place ++ [name])

variable {d₁ d₂ : Disk}

theorem lookup_map_outline (entries : List (Place × Entry)) (place : Place) :
    (entries.map (Prod.map id Entry.outline)).lookup place =
      (entries.lookup place).map Entry.outline := by
  induction entries with
  | nil => rfl
  | cons e entries ih =>
    rw [List.map_cons, Prod.map, List.lookup_cons, List.lookup_cons, ih, id]
    cases place == e.1 <;> rfl

/-- Trees that list the same places with the same kinds of entries have the same outline. -/
theorem sameOutline_of_map_entries (hhere : d₁.here = d₂.here) (hhome : d₁.home = d₂.home)
    (hconfigHome : d₁.configHome = d₂.configHome)
    (h : d₁.entries.map (Prod.map id Entry.outline) = d₂.entries.map (Prod.map id Entry.outline)) :
    d₁.SameOutline d₂ := by
  refine ⟨hhere, hhome, hconfigHome, fun place => ?_⟩
  unfold entry?
  split
  · rfl
  · rw [← lookup_map_outline, ← lookup_map_outline, h]

/-- The entries of a name agree where there are none. -/
theorem sameNamed_of_forall_places {name : String}
    (h₁ : ∀ place ∈ d₁.places, place.getLast? ≠ some name)
    (h₂ : ∀ place ∈ d₂.places, place.getLast? ≠ some name) : SameNamed name d₁ d₂ := by
  have hnone {d : Disk} (h : ∀ place ∈ d.places, place.getLast? ≠ some name) (place : Place) :
      d.entry? (place ++ [name]) = none := by
    cases he : d.entry? (place ++ [name]) with
    | none => rfl
    | some e =>
      have hmem := mem_places_of_entry?_eq (by simp) he
      exact absurd List.getLast?_concat (h _ hmem)
  intro place
  rw [hnone h₁, hnone h₂]

/-- What stands at a place in two trees with the same outline. -/
theorem SameOutline.cases (h : d₁.SameOutline d₂) (place : Place) :
    d₁.entry? place = none ∧ d₂.entry? place = none ∨
      d₁.entry? place = some .directory ∧ d₂.entry? place = some .directory ∨
      (∃ c₁ c₂, d₁.entry? place = some (.file c₁) ∧ d₂.entry? place = some (.file c₂)) ∨
      ∃ target, d₁.entry? place = some (.link target) ∧ d₂.entry? place = some (.link target) := by
  have hplace := h.entry place
  rcases h₁ : d₁.entry? place with _ | _ | c₁ | target₁ <;>
    rcases h₂ : d₂.entry? place with _ | _ | c₂ | target₂ <;>
      simp_all [Entry.outline]

/-! ### Following paths -/

theorem SameOutline.steps_eq (h : d₁.SameOutline d₂) {last : Bool}
    (onLink : Place → List String → Except Fault Place) (place : Place) (segments : List String) :
    d₁.steps last onLink place segments = d₂.steps last onLink place segments := by
  induction segments generalizing place with
  | nil => rfl
  | cons name rest ih =>
    rw [steps, steps]
    rcases h.cases place with ⟨h₁, h₂⟩ | ⟨h₁, h₂⟩ | ⟨c₁, c₂, h₁, h₂⟩ | ⟨target, h₁, h₂⟩ <;>
      simp only [h₁, h₂]
    rcases h.cases (place ++ [name]) with
        ⟨h₁, h₂⟩ | ⟨h₁, h₂⟩ | ⟨c₁, c₂, h₁, h₂⟩ | ⟨target, h₁, h₂⟩ <;>
      simp only [h₁, h₂, ih]

theorem SameOutline.walk_eq (h : d₁.SameOutline d₂) (last : Bool) (bound : Nat) :
    d₁.walk last bound = d₂.walk last bound := by
  induction bound with
  | zero => exact funext₂ (h.steps_eq _)
  | succ bound ih =>
    rw [walk, walk, ih]
    exact funext₂ (h.steps_eq _)

theorem SameOutline.followIf_eq (h : d₁.SameOutline d₂) (last : Bool) :
    d₁.followIf last = d₂.followIf last := by
  funext p
  rw [followIf, followIf, h.walk_eq, h.here]

/-- Every path leads to the same place. -/
theorem SameOutline.follow_eq (h : d₁.SameOutline d₂) : d₁.follow = d₂.follow :=
  h.followIf_eq true

theorem SameOutline.real_eq (h : d₁.SameOutline d₂) : d₁.real = d₂.real := by
  funext p
  rw [real, real, h.follow_eq]

theorem SameOutline.reach?_outline (h : d₁.SameOutline d₂) (p : Path) :
    (d₁.reach? p).map Entry.outline = (d₂.reach? p).map Entry.outline := by
  rw [reach?, reach?, h.follow_eq]
  split
  · exact h.entry _
  · rfl

/-! ### Canonical forms -/

theorem SameOutline.linkAt?_eq (h : d₁.SameOutline d₂) : d₁.linkAt? = d₂.linkAt? := by
  funext p
  rw [linkAt?, linkAt?, h.followIf_eq]
  split
  · next place _ =>
    rcases h.cases place with ⟨h₁, h₂⟩ | ⟨h₁, h₂⟩ | ⟨c₁, c₂, h₁, h₂⟩ | ⟨target, h₁, h₂⟩ <;>
      simp only [h₁, h₂]
  · rfl

theorem SameOutline.canonicalAlong_eq (h : d₁.SameOutline d₂)
    (onLink : Path → Except Fault Path) (above : Path) (below : List Path) :
    d₁.canonicalAlong onLink above below = d₂.canonicalAlong onLink above below := by
  have hstep : d₁.canonicalStep onLink = d₂.canonicalStep onLink := by
    funext above p
    rw [canonicalStep, canonicalStep, h.linkAt?_eq]
  induction below generalizing above with
  | nil => rfl
  | cons p below ih => simp only [canonicalAlong, hstep, ih]

theorem SameOutline.canonicalWithin_eq (h : d₁.SameOutline d₂) (bound : Nat) :
    d₁.canonicalWithin bound = d₂.canonicalWithin bound := by
  induction bound with
  | zero => rfl
  | succ bound ih =>
    funext p
    rw [canonicalWithin, canonicalWithin, ih]
    split
    · rfl
    · exact h.canonicalAlong_eq _ _ _

theorem mem_places_iff {d : Disk} {place : Place} :
    place ∈ d.places ↔ place ≠ [] ∧ (d.entry? place).isSome = true := by
  constructor
  · intro hmem
    obtain ⟨e, he⟩ := entry?_isSome_of_mem_places hmem
    refine ⟨?_, by rw [he]; rfl⟩
    rintro rfl
    obtain ⟨e, hmem, hplace⟩ := List.mem_map.mp hmem
    have hproper := d.proper e hmem
    rw [hplace] at hproper
    cases hproper
  · rintro ⟨hne, hsome⟩
    obtain ⟨e, he⟩ := Option.isSome_iff_exists.mp hsome
    exact mem_places_of_entry?_eq hne he

/-- The same places are listed. -/
theorem SameOutline.perm_places (h : d₁.SameOutline d₂) : d₁.places.Perm d₂.places := by
  refine (List.perm_ext_iff_of_nodup d₁.distinct d₂.distinct).mpr fun place => ?_
  change place ∈ d₁.places ↔ place ∈ d₂.places
  have hsome := congrArg Option.isSome (h.entry place)
  rw [Option.isSome_map, Option.isSome_map] at hsome
  rw [mem_places_iff, mem_places_iff, hsome]

/-- Every path has the same canonical form. -/
theorem SameOutline.canonical_eq (h : d₁.SameOutline d₂) : d₁.canonical = d₂.canonical := by
  have hlength : d₁.entries.length = d₂.entries.length := by
    simpa [places] using h.perm_places.length_eq
  funext p
  rw [canonical, canonical, hlength, h.canonicalWithin_eq]

theorem SameOutline.found?_outline (h : d₁.SameOutline d₂) (p : Path) :
    (d₁.found? p).map Entry.outline = (d₂.found? p).map Entry.outline := by
  rw [found?, found?, h.follow_eq, h.canonical_eq]
  split
  · exact h.entry _
  · split
    · exact h.reach?_outline _
    · rfl
  · rfl

/-! ### Kinds of entries -/

theorem any_eq_of_map_outline {e₁ e₂ : Option Entry} {f : Entry → Bool}
    (hf : ∀ e : Entry, f e.outline = f e) (h : e₁.map Entry.outline = e₂.map Entry.outline) :
    e₁.any f = e₂.any f := by
  have hany := congrArg (Option.any f) h
  simpa [Option.any_map, Function.comp_def, hf] using hany

theorem SameOutline.isFile_eq (h : d₁.SameOutline d₂) : d₁.isFile = d₂.isFile := by
  funext p
  exact any_eq_of_map_outline Entry.isFile_outline (h.reach?_outline p)

theorem SameOutline.occupied_eq (h : d₁.SameOutline d₂) : d₁.occupied = d₂.occupied := by
  funext p
  have hsome := congrArg Option.isSome (h.reach?_outline p)
  rwa [Option.isSome_map, Option.isSome_map] at hsome

/-! ### Contents of files -/

/-- A segment that is joined to a text stands behind a `/`, or alone. -/
theorem joinChars_cases (cs : List Char) {segment : List Char} (h : Path.IsSegment segment) :
    (∃ front, Path.joinChars cs segment = front ++ '/' :: segment) ∨
      Path.joinChars cs segment = segment := by
  have hhead : (segment.head? == some '/') = false := by
    cases hsegment : segment with
    | nil => rfl
    | cons c more =>
      have hne : c ≠ '/' := fun hc => h.2.2.2 (by rw [hsegment, hc]; exact List.mem_cons_self)
      simpa using hne
  rw [Path.joinChars, hhead]
  rcases List.eq_nil_or_concat cs with rfl | ⟨front, c, rfl⟩
  · exact .inr rfl
  · rw [List.concat_eq_append]
    by_cases hc : c = '/'
    · exact .inl ⟨front, by simp [hc]⟩
    · exact .inl ⟨front ++ [c], by simp [hc]⟩

/-- The path of a name in a directory ends with the name. -/
theorem exists_segmentsOf_join (dir : Path) {name : String} (hname : isName name = true) :
    ∃ front, segmentsOf (dir.join name).text.toList = front ++ [name] := by
  have hsegment := Path.isName_iff.mp hname
  have hlast : name.toList.getLast? ≠ some '/' := fun hlast =>
    hsegment.2.2.2 (List.mem_of_getLast? hlast)
  have hsplit := Path.splitSlash_eq_singleton hsegment.2.2.2
  rw [Path.join, String.toList_ofList]
  obtain ⟨front, hfront⟩ | hfront := joinChars_cases dir.text.toList hsegment
  · refine ⟨((Path.splitSlash front).filter fun s => !s.isEmpty).map String.ofList, ?_⟩
    rw [hfront, segmentsOf, Path.splitSlash_append_slash, hsplit, if_neg]
    · simp [hsegment.1]
    · rw [List.getLast?_append_of_ne_nil _ (by simp), List.getLast?_cons_of_ne_nil hsegment.1]
      simpa using hlast
  · refine ⟨[], ?_⟩
    rw [hfront, segmentsOf, hsplit, if_neg (by simpa using hlast)]
    simp [hsegment.1]

/-- In a tree without links, what the path of a name in a directory leads to has this name. -/
theorem HasNoLinks.exists_of_follow_join {d : Disk} (hd : d.HasNoLinks) {dir : Path}
    {name : String} (hname : isName name = true) {r : Place}
    (h : d.follow (dir.join name) = .ok r) : ∃ above, r = above ++ [name] := by
  obtain ⟨front, hfront⟩ := exists_segmentsOf_join dir hname
  unfold follow followIf at h
  dsimp only at h
  split_ifs at h
  all_goals
    rw [hfront] at h
    obtain ⟨above, -, hlast⟩ := (hd.direct (reaches_of_walk h)).split
    refine ⟨above, hlast.eq_append fun n hn => ?_⟩
    rw [List.mem_singleton.mp hn]
    exact hname

/-- What is read in a directory under a name whose files agree. -/
theorem SameOutline.readBytes_join_eq (h : d₁.SameOutline d₂) (hd : d₁.HasNoLinks) {name : String}
    (hname : isName name = true) (hsame : SameNamed name d₁ d₂) (dir : Path) :
    d₁.readBytes (dir.join name) = d₂.readBytes (dir.join name) := by
  rw [readBytes, readBytes, ← h.follow_eq]
  cases hfollow : d₁.follow (dir.join name) with
  | error fault => rfl
  | ok r =>
    obtain ⟨above, rfl⟩ := hd.exists_of_follow_join hname hfollow
    simp only [bind, Except.bind, hsame above]

/-! ### Writing over a file -/

section Put

variable {d : Disk} {place other : Place}

theorem entry?_put_self (h : isProper place = true) (e : Entry) :
    entry? (d.put place e) place = some e := by
  rw [put, dif_pos h]
  exact entry?_of_mem_entries (List.mem_append_right _ List.mem_cons_self)

theorem entry?_put_of_ne (h : other ≠ place) (e : Entry) :
    entry? (d.put place e) other = d.entry? other := by
  unfold put
  split_ifs
  · by_cases hne : other = []
    · rw [hne]
      rfl
    · ext f
      rw [entry?_eq_some_iff hne, entry?_eq_some_iff hne]
      simp [add, restrict, h]
  · rfl

/-- A tree in which a file is written over has the same outline. -/
theorem sameOutline_put {old : ByteArray} (h : d.entry? place = some (.file old))
    (new : ByteArray) : d.SameOutline (d.put place (.file new)) := by
  have hproper := isProper_of_entry?_file h
  refine ⟨?_, ?_, ?_, fun other => ?_⟩
  · rw [put, dif_pos hproper]
    rfl
  · rw [put, dif_pos hproper]
    rfl
  · rw [put, dif_pos hproper]
    rfl
  · by_cases hother : other = place
    · rw [hother, h, entry?_put_self hproper]
      rfl
    · rw [entry?_put_of_ne hother]

/-- What a path that leads elsewhere leads to is not written over. -/
theorem readBytes_put {old : ByteArray} (h : d.entry? place = some (.file old))
    (new : ByteArray) {p : Path} (hp : d.follow p ≠ .ok place) :
    (d.put place (.file new)).readBytes p = d.readBytes p := by
  rw [readBytes, readBytes, ← (sameOutline_put h new).follow_eq]
  cases hfollow : d.follow p with
  | error fault => rfl
  | ok other =>
    have hother : other ≠ place := fun heq => hp (heq ▸ hfollow)
    simp only [bind, Except.bind, entry?_put_of_ne hother]

end Put

end Disk

end ModuleGraph.Files

import ModuleGraph.Proofs.Files.Canonical

/-!
# Normal paths

The text of an absolute path in lexical normal form is a `/` with names behind it, each with a `/`
in front of the next: no `.`, no `..` and no empty segment.  Such a *normal* path is plain, but a
plain path need not be normal, since empty segments and `.` segments do not show in its components.
There is one normal path for every list of names, so a normal path is known by its components, and
the normal form of every absolute path is normal.

## Main definitions

* `Path.IsNormal`: the texts in lexical normal form.
* `Path.placeFrom`: the place that a text leads to from another one.

## Main results

* `Path.isNormal_iff`: normal paths are the paths of places.
* `Path.IsNormal.eq_of_components`: a normal path is known by its components.
* `Path.isNormal_clean`: the lexical normal form of an absolute path is normal.
* `Path.isNormal_iff_clean_eq`: normal paths are their own lexical normal forms.
* `Path.clean_join`: the lexical normal form of a path with a text joined to it.
-/

namespace ModuleGraph.Path

open Files.Disk (pathOf)

variable {p q : Path}

/-! ### Plain paths and their trails -/

/-- The components of a plain path are the root and the names of its trail. -/
theorem IsPlain.components_eq (h : p.IsPlain) : p.components = .root :: p.trail.map .name := by
  obtain ⟨names, hnames⟩ := h
  have hsegments : (names.map Component.name).map Component.segment = names := by
    rw [List.map_map]
    exact List.map_id'' (fun name => Component.segment_name name) names
  rw [trail, hnames, List.tail_cons, hsegments]

theorem IsPlain.isName_of_mem_trail (h : p.IsPlain) :
    ∀ name ∈ p.trail, Files.isName name = true := by
  intro name hname
  have hproper : (Component.name name).IsProper :=
    h.isProper (by rw [h.components_eq]; exact List.mem_map_of_mem hname)
  exact isName_iff.mpr hproper

/-! ### Normal paths -/

/-- An absolute path in lexical normal form. -/
def IsNormal (p : Path) : Prop :=
  ∃ names : List String, (∀ name ∈ names, Files.isName name = true) ∧
    p.text = "/" ++ "/".intercalate names

theorem text_pathOf {place : Files.Place} (h : ∀ name ∈ place, Files.isName name = true) :
    (pathOf place).text = "/" ++ "/".intercalate place := by
  rw [← String.toList_inj, Files.Disk.toList_pathOf h, joinSlash_eq_intercalate,
    String.toList_append, String.toList_intercalate]
  rfl

/-- The normal paths are those of places. -/
theorem isNormal_iff : p.IsNormal ↔
    ∃ place : Files.Place, (∀ name ∈ place, Files.isName name = true) ∧ p = pathOf place := by
  refine exists_congr fun place => and_congr_right fun hplace => ?_
  rw [← text_pathOf hplace, Path.mk.injEq]

theorem isNormal_pathOf {place : Files.Place} (h : ∀ name ∈ place, Files.isName name = true) :
    (pathOf place).IsNormal :=
  isNormal_iff.mpr ⟨place, h, rfl⟩

/-- A normal path is plain. -/
theorem IsNormal.isPlain (h : p.IsNormal) : p.IsPlain := by
  obtain ⟨place, hplace, rfl⟩ := isNormal_iff.mp h
  exact ⟨place, Files.Disk.components_pathOf hplace⟩

/-- A normal path is known by its components. -/
theorem IsNormal.eq_of_components (hp : p.IsNormal) (hq : q.IsNormal)
    (h : p.components = q.components) : p = q := by
  obtain ⟨place, hplace, rfl⟩ := isNormal_iff.mp hp
  obtain ⟨place', hplace', rfl⟩ := isNormal_iff.mp hq
  rw [← Files.Disk.trail_pathOf hplace, trail, h, ← trail, Files.Disk.trail_pathOf hplace']

/-- The lexical normal form of an absolute path is normal. -/
theorem isNormal_clean (hp : p.isAbsolute = true) : p.clean.IsNormal := by
  have hproper : ∀ c ∈ p.components.tail, c.IsProper := by
    rw [components_tail hp]
    exact fun c => isProper_of_mem_body
  rw [Files.Disk.clean_eq_pathOf hp]
  exact isNormal_pathOf (Files.Disk.forall_isName_foldl_goTo hproper (by simp))

/-- The normal paths are the absolute paths that are their own lexical normal forms. -/
theorem isNormal_iff_clean_eq (hp : p.isAbsolute = true) : p.IsNormal ↔ p.clean = p := by
  refine ⟨fun h => ?_, fun h => h ▸ isNormal_clean hp⟩
  obtain ⟨place, hplace, rfl⟩ := isNormal_iff.mp h
  rw [Files.Disk.clean_eq_pathOf hp, Files.Disk.components_pathOf hplace, List.tail_cons,
    Files.Disk.foldl_goTo_name, List.nil_append]

/-! ### Where a text leads -/

/-- The place that a text leads to from another one by its segments alone: a name goes down, `..`
goes up unless nothing is above, and a `/` in front starts again from the root. -/
def placeFrom (place : Files.Place) (text : String) : Files.Place :=
  (body text.toList).foldl Files.goTo (if Files.startsAtRoot text.toList then [] else place)

theorem isName_of_mem_placeFrom {place : Files.Place} (h : ∀ name ∈ place, Files.isName name = true)
    (text : String) : ∀ name ∈ placeFrom place text, Files.isName name = true := by
  refine Files.Disk.forall_isName_foldl_goTo (fun c => isProper_of_mem_body) ?_
  split_ifs
  · simp
  · exact h

/-- The lexical normal form of a path with a text joined to it is that of the place the text leads
to from where the path leads. -/
theorem clean_join (hp : p.isAbsolute = true) (text : String) :
    (p.join text).clean = pathOf (placeFrom (placeFrom [] p.text) text) := by
  rw [Files.Disk.clean_eq_pathOf (isAbsolute_join hp text), placeFrom]
  by_cases hroot : text.toList.head? = some '/'
  · have hjoin : p.join text = ⟨text⟩ := by simp [join, joinChars, hroot]
    have htext : Files.startsAtRoot text.toList = true := by simp [Files.startsAtRoot, hroot]
    rw [hjoin, components_tail htext, if_pos htext]
  · have htext : ¬ Files.startsAtRoot text.toList = true := by
      simpa [Files.startsAtRoot] using hroot
    obtain ⟨cs, hcs⟩ : ∃ cs, p.components = .root :: cs := by
      obtain ⟨cs, rfl⟩ := isAbsolute_iff.mp hp
      exact ⟨_, components_slash cs⟩
    have htail := components_tail hp
    rw [hcs, List.tail_cons] at htail
    rw [components_join_relative (text_ne_of_isAbsolute hp) hroot, hcs, List.cons_append,
      List.tail_cons, htail, List.foldl_append, if_neg htext, placeFrom, ite_self]

/-- The text of a place leads to the place. -/
theorem placeFrom_text_pathOf {place : Files.Place} (h : ∀ name ∈ place, Files.isName name = true) :
    placeFrom [] (pathOf place).text = place := by
  have htail := components_tail (Files.Disk.isAbsolute_pathOf place)
  rw [Files.Disk.components_pathOf h, List.tail_cons] at htail
  rw [placeFrom, ← htail, ite_self, Files.Disk.foldl_goTo_name, List.nil_append]

end ModuleGraph.Path

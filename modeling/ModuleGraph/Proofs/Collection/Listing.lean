import Mathlib.Data.List.Nodup
import ModuleGraph.Collection.Modules
import ModuleGraph.Proofs.Files.Tree

/-!
# What a walk lists

A walk from the path of a place lists the paths of places: that of its root, and those of what is
below it and not left out.  No place is listed twice.

## Main definitions

* `Collection.listed`: the names that lead from the root of a walk to what it lists.

## Main results

* `Collection.walkFrom_eq`: a walk lists what the listed names lead to.
* `Collection.nodup_listed`: no names are listed twice.
* `Collection.collect_pathOf`, `Collection.mem_collect_iff`: which paths are modules.
-/

namespace ModuleGraph

namespace Files.Disk

variable {d : Disk} {place : Place}

/-- Names behind the path of a place. -/
theorem foldl_join_pathOf (place : Place) (names : List String) :
    names.foldl Path.join (pathOf place) = pathOf (place ++ names) := by
  induction names generalizing place with
  | nil => rw [List.foldl_nil, List.append_nil]
  | cons name names ih => rw [List.foldl_cons, join_pathOf, ih, List.append_assoc]; rfl

/-- Places whose paths mean the same are the same. -/
theorem eq_of_components_pathOf {place' : Place} (h : ∀ name ∈ place, isName name = true)
    (h' : ∀ name ∈ place', isName name = true)
    (heq : (pathOf place).components = (pathOf place').components) : place = place' := by
  rw [← trail_pathOf h, Path.trail, heq, ← Path.trail, trail_pathOf h']

/-- The paths at or above that of a place are those of the places at or above it. -/
theorem exists_of_mem_ancestors_pathOf (h : ∀ name ∈ place, isName name = true) {p : Path}
    (hp : p ∈ (pathOf place).ancestors) : ∃ front, front <+: place ∧ p = pathOf front := by
  induction place using List.reverseRecOn with
  | nil =>
    rw [show (pathOf []).ancestors = [pathOf []] by decide] at hp
    exact ⟨[], List.prefix_rfl, List.mem_singleton.mp hp⟩
  | append_singleton place name ih =>
    rw [Path.ancestors_of_parent? (isAbsolute_pathOf _) (parent?_pathOf_concat h)] at hp
    rcases List.mem_cons.mp hp with rfl | hp
    · exact ⟨_, List.prefix_rfl, rfl⟩
    · obtain ⟨front, hfront, rfl⟩ := ih (fun n hn => h n (List.mem_append_left _ hn)) hp
      exact ⟨front, hfront.trans (List.prefix_append _ _), rfl⟩

end Files.Disk

namespace Collection

open Files.Disk (pathOf)

variable {d : Files.Disk} {p : Path} {root place : Files.Place} {names : List String}

/-- An absolute path does not stand for the standard input. -/
theorem isStandardInput_eq_false {p : Path} (hp : p.isAbsolute = true) :
    isStandardInput p = false := by
  obtain ⟨cs, rfl⟩ := Path.isAbsolute_iff.mp hp
  rw [isStandardInput, Path.components_slash]
  rfl

/-- Nothing that stands for the standard input is a module. -/
theorem isModule_standardInput (d : Files.Disk) : isModule d standardInput = false := by
  have hsuffix : hasModuleSuffix standardInput.path = false := by decide
  rw [isModule, hsuffix, Bool.and_false]

/-- From the standard input no modules are collected. -/
theorem collect_of_isStandardInput {p : Path} (h : isStandardInput p = true)
    (d : Files.Disk) (filter : Option String) : collect d p filter = .ok [] := by
  simp [collect, walk, h, Except.map, isModule_standardInput]

theorem isBelow_iff : isBelow root place = true ↔ ∃ names, names ≠ [] ∧ place = root ++ names := by
  rw [isBelow, Bool.and_eq_true_iff, List.isPrefixOf_iff_prefix, decide_eq_true_eq]
  constructor
  · rintro ⟨⟨names, rfl⟩, hlength⟩
    refine ⟨names, ?_, rfl⟩
    rintro rfl
    simp at hlength
  · rintro ⟨names, hne, rfl⟩
    have hpos := List.length_pos_of_ne_nil hne
    exact ⟨List.prefix_append _ _, by simpa using hpos⟩

/-- The names that lead from the root of a walk to what it lists.  The root is given by its path and
by the place that it leads to. -/
def listed (d : Files.Disk) (p : Path) (root : Files.Place) : List (List String) :=
  if Ignore.isDirectoryAt d root then [] :: (placesBelow d p root).map (·.drop root.length)
  else [[]]

theorem mem_places_of_mem_placesBelow (h : place ∈ placesBelow d p root) :
    place ∈ d.places ∧ isBelow root place = true :=
  List.mem_filter.mp (List.mem_filter.mp h).1

theorem mem_listed_iff : names ∈ listed d p root ↔
    names = [] ∨ Ignore.isDirectoryAt d root = true ∧ names ≠ [] ∧
      root ++ names ∈ placesBelow d p root := by
  unfold listed
  split_ifs with hdir
  · rw [List.mem_cons, List.mem_map]
    refine or_congr_right ⟨?_, ?_⟩
    · rintro ⟨place, hplace, rfl⟩
      obtain ⟨names, hne, rfl⟩ := isBelow_iff.mp (mem_places_of_mem_placesBelow hplace).2
      rw [List.drop_left]
      exact ⟨hdir, hne, hplace⟩
    · rintro ⟨-, -, hplace⟩
      exact ⟨_, hplace, List.drop_left⟩
  · simp [hdir]

/-- What leads from the root to what is listed leads to an entry of the tree. -/
theorem mem_places_of_mem_listed (h : names ∈ listed d p root) (hne : names ≠ []) :
    root ++ names ∈ d.places := by
  rcases mem_listed_iff.mp h with hnil | ⟨-, -, hplace⟩
  · exact absurd hnil hne
  · exact (mem_places_of_mem_placesBelow hplace).1

/-- No names are listed twice. -/
theorem nodup_listed (d : Files.Disk) (p : Path) (root : Files.Place) :
    (listed d p root).Nodup := by
  unfold listed
  split_ifs
  · have hplaces : (placesBelow d p root).Nodup :=
      (d.distinct.sublist List.filter_sublist).sublist List.filter_sublist
    have hbelow {place : Files.Place} (hplace : place ∈ placesBelow d p root) :
        ∃ names, names ≠ [] ∧ place = root ++ names :=
      isBelow_iff.mp (mem_places_of_mem_placesBelow hplace).2
    refine List.nodup_cons.mpr ⟨?_, hplaces.map_on ?_⟩
    · intro hmem
      obtain ⟨place, hplace, hnil⟩ := List.mem_map.mp hmem
      obtain ⟨names, hne, rfl⟩ := hbelow hplace
      exact hne (by rwa [List.drop_left] at hnil)
    · intro a ha b hb heq
      obtain ⟨as, -, rfl⟩ := hbelow ha
      obtain ⟨bs, -, rfl⟩ := hbelow hb
      rw [List.drop_left, List.drop_left] at heq
      rw [heq]
  · exact List.nodup_singleton _

/-- A walk lists what the listed names lead to, unless rules above its root are at fault. -/
theorem walkFrom_eq (d : Files.Disk) (p : Path) (root : Files.Place) :
    walkFrom d p root =
      if Ignore.isDirectoryAt d root && !(faultsAbove d root).isEmpty then
        .error (.rules (faultsAbove d root))
      else .ok ((listed d p root).map (Found.ofNames p)) := by
  rw [walkFrom, listed]
  cases Ignore.isDirectoryAt d root with
  | false => rfl
  | true => cases (faultsAbove d root).isEmpty <;> rfl

/-- What is listed under names behind the path of a place. -/
theorem ofNames_pathOf (root : Files.Place) (names : List String) :
    Found.ofNames (pathOf root) names = ⟨pathOf (root ++ names), names⟩ := by
  rw [Found.ofNames, Files.Disk.foldl_join_pathOf]

/-- Whether the walk from a place has come upon a module that a filter keeps, by the names that lead
to it. -/
def keeps (d : Files.Disk) (filter : Option String) (root : Files.Place) (names : List String) :
    Bool :=
  isModule d ⟨pathOf (root ++ names), names⟩ && passes filter ⟨pathOf (root ++ names), names⟩

/-- The modules below a place are the paths of what is listed and kept, in order, unless rules above
the place are at fault. -/
theorem collect_pathOf (filter : Option String) (hroot : d.follow (pathOf root) = .ok root) :
    collect d (pathOf root) filter =
      if Ignore.isDirectoryAt d root && !(faultsAbove d root).isEmpty then
        .error (.rules (faultsAbove d root))
      else .ok ((((listed d (pathOf root) root).filter (keeps d filter root)).map
        fun names => pathOf (root ++ names)).mergeSort Path.le) := by
  have hkeeps : (fun f => isModule d f && passes filter f) ∘ Found.ofNames (pathOf root) =
      keeps d filter root := by
    funext names
    rw [Function.comp_apply, ofNames_pathOf, keeps]
  have hpath : Found.path ∘ Found.ofNames (pathOf root) = fun names => pathOf (root ++ names) := by
    funext names
    rw [Function.comp_apply, ofNames_pathOf]
  have hwalk : walk d (pathOf root) = walkFrom d (pathOf root) root := by
    rw [walk, isStandardInput_eq_false (Files.Disk.isAbsolute_pathOf root), if_neg (by simp), hroot]
  rw [collect, hwalk, walkFrom_eq]
  split_ifs
  · rfl
  · rw [Except.map, List.filter_map, List.map_map, hkeeps, hpath]

theorem eq_mergeSort_of_collect {filter : Option String} {modules : List Path}
    (hroot : d.follow (pathOf root) = .ok root)
    (h : collect d (pathOf root) filter = .ok modules) :
    modules = (((listed d (pathOf root) root).filter (keeps d filter root)).map
      fun names => pathOf (root ++ names)).mergeSort Path.le := by
  rw [collect_pathOf filter hroot] at h
  split_ifs at h
  exact (Except.ok.inj h).symm

/-- Which paths are modules. -/
theorem mem_collect_iff {filter : Option String} {modules : List Path}
    (hroot : d.follow (pathOf root) = .ok root)
    (h : collect d (pathOf root) filter = .ok modules) {m : Path} :
    m ∈ modules ↔ ∃ names ∈ listed d (pathOf root) root,
      keeps d filter root names = true ∧ m = pathOf (root ++ names) := by
  rw [eq_mergeSort_of_collect hroot h, List.mem_mergeSort, List.mem_map]
  simp only [List.mem_filter, and_assoc, eq_comm]

/-- What leads from the root to what is listed leads to an entry. -/
theorem exists_entry_of_mem_listed (hd : d.IsTree)
    (hfollow : d.follow (pathOf root) = .ok root) (h : names ∈ listed d p root) :
    ∃ e, d.entry? (root ++ names) = some e := by
  by_cases hnil : names = []
  · obtain ⟨e, he, -⟩ := hd.of_follow hfollow
    exact ⟨e, by rwa [hnil, List.append_nil]⟩
  · exact Files.Disk.entry?_isSome_of_mem_places (mem_places_of_mem_listed h hnil)

end Collection

end ModuleGraph

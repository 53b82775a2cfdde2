import ModuleGraph.Proofs.Collection.Listing
import ModuleGraph.Proofs.Ignore.Outline
import ModuleGraph.Proofs.Path.Order

/-!
# What a walk reads

Of the contents of files, a walk reads the rules of directories at, above and below its root.  So in
two trees with the same outline in which the files of these rules agree, the same modules are
collected or the walk fails for the same reason, in whatever order the trees list their entries.

## Main results

* `Collection.perm_listed`: the same names are listed.
* `Collection.collect_eq`: the same modules are collected.
-/

namespace ModuleGraph.Collection

open Files.Disk (pathOf)
open Ignore (SameRules)

variable {d₁ d₂ : Files.Disk} {p : Path} {root : Files.Place}

/-- The same places below the root are left out. -/
theorem perm_ignoredBelow (h : d₁.SameOutline d₂)
    (hrules : ∀ dir, d₁.entry? dir = some .directory → dir <+: root ∨ root <+: dir →
      SameRules d₁ d₂ (pathOf dir)) : (ignoredBelow d₁ p root).Perm (ignoredBelow d₂ p root) := by
  have hignored : ∀ place ∈ d₁.places.filter (isBelow root),
      Ignore.isIgnored d₁ (Ignore.layers d₁) (Ignore.userRules d₁)
          (Found.ofNames p (place.drop root.length)).path place =
        Ignore.isIgnored d₂ (Ignore.layers d₂) (Ignore.userRules d₂)
          (Found.ofNames p (place.drop root.length)).path place := by
    intro place hplace
    obtain ⟨names, -, rfl⟩ := isBelow_iff.mp (List.mem_filter.mp hplace).2
    exact Ignore.isIgnored_eq h (fun dir hprefix hdir => hrules dir hdir
      (List.prefix_or_prefix_of_prefix hprefix (List.prefix_append root names))) _
  unfold ignoredBelow
  dsimp only
  rw [List.filter_congr hignored]
  exact (h.perm_places.filter _).filter _

/-- The same names are listed. -/
theorem perm_listed (h : d₁.SameOutline d₂)
    (hrules : ∀ dir, d₁.entry? dir = some .directory → dir <+: root ∨ root <+: dir →
      SameRules d₁ d₂ (pathOf dir)) : (listed d₁ p root).Perm (listed d₂ p root) := by
  have hplaces : (placesBelow d₁ p root).Perm (placesBelow d₂ p root) := by
    have hany (place : Files.Place) :
        (ignoredBelow d₁ p root).any (·.isPrefixOf place) =
          (ignoredBelow d₂ p root).any (·.isPrefixOf place) := by
      rw [Bool.eq_iff_iff, List.any_eq_true, List.any_eq_true]
      simp only [(perm_ignoredBelow h hrules).mem_iff]
    unfold placesBelow
    simp only [hany]
    exact (h.perm_places.filter _).filter _
  unfold listed
  rw [Ignore.isDirectoryAt_eq h]
  split_ifs
  · exact (hplaces.map _).cons _
  · exact .refl _

/-- The same is wrong with the rules of the directories above the root. -/
theorem faultsAbove_eq (h : d₁.SameOutline d₂) (hd : d₁.IsTree) {e : Files.Entry}
    (hroot : d₁.entry? root = some e)
    (hrules : ∀ dir, d₁.entry? dir = some .directory → dir <+: root ∨ root <+: dir →
      SameRules d₁ d₂ (pathOf dir)) : faultsAbove d₁ root = faultsAbove d₂ root := by
  refine List.flatMap_congr fun dir hdir => ?_
  obtain ⟨back, hne, rfl⟩ := Ignore.exists_append_of_mem_above (List.mem_reverse.mp hdir)
  exact (hrules dir (hd.above hne hroot) (.inl (List.prefix_append dir back))).faults_eq h

/-- The same modules are collected, or the same rules are at fault. -/
theorem collect_eq (h : d₁.SameOutline d₂) (hd : d₁.IsTree)
    (hfollow : d₁.follow (pathOf root) = .ok root)
    (hrules : ∀ dir, d₁.entry? dir = some .directory → dir <+: root ∨ root <+: dir →
      SameRules d₁ d₂ (pathOf dir)) (filter : Option String) :
    collect d₁ (pathOf root) filter = collect d₂ (pathOf root) filter := by
  obtain ⟨e, he, -⟩ := hd.of_follow hfollow
  have hkeeps : keeps d₁ filter root = keeps d₂ filter root := by
    funext names
    rw [keeps, keeps, isModule, isModule, h.isFile_eq]
  have hperm := ((perm_listed (p := pathOf root) h hrules).filter (keeps d₂ filter root)).map
    fun names => pathOf (root ++ names)
  have hsort := Path.mergeSort_eq_of_perm hperm fun p hp q hq heq => ?_
  · rw [collect_pathOf filter hfollow, collect_pathOf filter (h.follow_eq ▸ hfollow),
      Ignore.isDirectoryAt_eq h, faultsAbove_eq h hd he hrules, hkeeps, hsort]
  · obtain ⟨as, has, rfl⟩ := List.mem_map.mp hp
    obtain ⟨bs, hbs, rfl⟩ := List.mem_map.mp hq
    obtain ⟨e, he⟩ := exists_entry_of_mem_listed hd hfollow (List.mem_filter.mp has).1
    obtain ⟨e', he'⟩ := exists_entry_of_mem_listed hd hfollow (List.mem_filter.mp hbs).1
    rw [Files.Disk.eq_of_components_pathOf (Files.Disk.isName_of_entry?_eq he)
      (Files.Disk.isName_of_entry?_eq he') heq]

end ModuleGraph.Collection

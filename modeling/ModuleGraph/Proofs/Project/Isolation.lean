import ModuleGraph.Proofs.Collection.Outline
import ModuleGraph.Proofs.Project.Modules
import ModuleGraph.Proofs.Resolution.Outline

/-!
# Modules do not interfere

The entry of a module depends on the contents of the module itself, on the rules of the walk, on the
configurations of aliases and on the descriptions of packages, but not on the contents of other
modules.  So in two trees that differ in the contents of modules only, a project has no graph for
the same reason, or its two graphs list the same modules, and only those whose own contents differ
can have other dependencies.  In particular a module that cannot be read spoils no entry but its
own.

## Main results

* `Project.modules_eq`: a project has the same modules in both trees.
* `Project.graph_agrees`: the graphs of a project in both trees.
-/

namespace ModuleGraph.Project

open Files.Disk (pathOf)
open Ignore (SameRules)

variable {o : Options} {d₁ d₂ : Files.Disk}

theorem root_eq (h : d₁.SameOutline d₂) : Project.root d₁ = Project.root d₂ := by
  funext given
  unfold Project.root repositoryAbove repositoryRoot?
  rw [h.real_eq, h.here, h.occupied_eq]

/-- Two trees agree in the files that are read for the rules of the directories at, above and below
the root of a project. -/
def SameRulesAround (o : Options) (d₁ d₂ : Files.Disk) : Prop :=
  ∀ root place, Project.root d₁ o.root = .ok root → d₁.follow root = .ok place →
    ∀ dir, d₁.entry? dir = some .directory → dir <+: place ∨ place <+: dir →
      SameRules d₁ d₂ (pathOf dir)

/-- The same modules are collected from the root of a project. -/
theorem collect_root_eq (h : d₁.SameOutline d₂) (hd : d₁.IsTree) {root : Path}
    (hroot : Project.root d₁ o.root = .ok root) (hrules : SameRulesAround o d₁ d₂) :
    Collection.collect d₁ root o.filter = Collection.collect d₂ root o.filter := by
  cases hfollow : d₁.follow root with
  | error fault =>
    cases hinput : Collection.isStandardInput root with
    | true => rw [Collection.collect_of_isStandardInput hinput,
        Collection.collect_of_isStandardInput hinput]
    | false =>
      unfold Collection.collect Collection.walk
      rw [hinput, if_neg (by simp), if_neg (by simp), ← h.follow_eq, hfollow]
      rfl
  | ok place =>
    obtain ⟨front, e, rfl, he, hlink⟩ := exists_entry_of_root hd hroot hfollow
    obtain ⟨rfl, -⟩ := hd.follow_pathOf he hlink hfollow
    exact Collection.collect_eq h hd hfollow (hrules _ _ hroot hfollow) o.filter

/-- A project has the same modules in both trees, or none for the same reason. -/
theorem modules_eq (h : d₁.SameOutline d₂) (hd : d₁.IsTree) (hrules : SameRulesAround o d₁ d₂) :
    Project.modules o d₁ = Project.modules o d₂ := by
  unfold Project.modules
  rw [← root_eq h]
  cases hroot : Project.root d₁ o.root with
  | error fault => rfl
  | ok root => simp only [collect_root_eq h hd hroot hrules]

/-- The entries of a graph are made of the modules in the order of their keys. -/
theorem exists_entries_eq_map (root : Path) (modules : List Path) :
    ∃ sorted : List Path, sorted.Perm modules ∧ ∀ (options : Dependencies.Options) (d : Files.Disk),
      (graphOf options d root modules).value.entries =
        sorted.map fun m => (entryOf options d root m).value := by
  refine ⟨modules.mergeSort fun a b => (Path.compareText (keyOf root a) (keyOf root b)).isLE,
    List.mergeSort_perm _ _, fun options d => ?_⟩
  simp only [graphOf, List.map_map]
  rw [List.map_mergeSort (s := entryLe)]
  · rfl
  · intro a _ b _
    simp only [entryLe, key_entryOf]

theorem entryOf_eq {options : Dependencies.Options} (h : Resolution.SamePackages d₁ d₂)
    (hconfig : Files.Disk.SameNamed Alias.configName d₁ d₂) {root m : Path}
    (hsame : d₁.readBytes m = d₂.readBytes m) :
    entryOf options d₁ root m = entryOf options d₂ root m := by
  unfold entryOf
  rw [Dependencies.of_eq h hconfig hsame]

/-- **Modules do not interfere.**  Let two trees without links have the same outline, and let them
agree in the configurations of aliases, in the descriptions of packages and in the files that are
read for the rules around the root of a project.  Then the project has no graph for the same reason
in both, or its graphs have the same root and the same keys in the same order, and those entries
agree whose modules have the same contents in both. -/
theorem graph_agrees (hd : d₁.IsTree) (hlinks : d₁.HasNoLinks) (h : d₁.SameOutline d₂)
    (hconfig : Files.Disk.SameNamed "tsconfig.json" d₁ d₂)
    (hpackages : Files.Disk.SameNamed "package.json" d₁ d₂) (hrules : SameRulesAround o d₁ d₂) :
    (∃ fault, graph o d₁ = .error fault ∧ graph o d₂ = .error fault) ∨
      ∃ g₁ g₂, ∃ modules : List Path, graph o d₁ = .ok g₁ ∧ graph o d₂ = .ok g₂ ∧
        g₁.value.root = g₂.value.root ∧
        g₁.value.entries.map Graph.Entry.key = g₂.value.entries.map Graph.Entry.key ∧
        g₁.value.entries = modules.map (fun m =>
          (entryOf { dynamic := o.dynamic } d₁ g₁.value.root m).value) ∧
        g₂.value.entries = modules.map (fun m =>
          (entryOf { dynamic := o.dynamic } d₂ g₂.value.root m).value) ∧
        ∀ m ∈ modules, d₁.readBytes m = d₂.readBytes m →
          (entryOf { dynamic := o.dynamic } d₁ g₁.value.root m).value =
            (entryOf { dynamic := o.dynamic } d₂ g₂.value.root m).value := by
  cases hmodules : Project.modules o d₁ with
  | error fault => exact .inl ⟨fault, graph_eq_error hmodules,
      graph_eq_error (modules_eq h hd hrules ▸ hmodules)⟩
  | ok found =>
    obtain ⟨root, modules⟩ := found
    obtain ⟨sorted, -, hentries⟩ := exists_entries_eq_map root modules
    refine .inr ⟨_, _, sorted, graph_of_modules hmodules,
      graph_of_modules (modules_eq h hd hrules ▸ hmodules), ?_⟩
    rw [root_graphOf, root_graphOf, hentries _ d₁, hentries _ d₂, List.map_map, List.map_map]
    refine ⟨rfl, List.map_congr_left fun m _ => ?_, rfl, rfl, fun m _ hm => ?_⟩
    · rw [Function.comp_apply, Function.comp_apply, key_entryOf, key_entryOf]
    · rw [entryOf_eq ⟨h, hlinks, hpackages⟩ hconfig hm]

/-- A project with two modules. -/
def twoModules : Files.Disk where
  entries := [(["p"], .directory), (["p", "a.ts"], .file "import './b';".toUTF8),
    (["p", "b.ts"], .file "import './a';".toUTF8)]
  here := []
  distinct := by decide
  proper := by decide

/-- The same project, in which the second module does not hold text. -/
def brokenModule : Files.Disk where
  entries := [(["p"], .directory), (["p", "a.ts"], .file "import './b';".toUTF8),
    (["p", "b.ts"], .file ⟨#[0xFF]⟩)]
  here := []
  distinct := by decide
  proper := by decide

theorem sameRulesAround_brokenModule :
    SameRulesAround { root := some ⟨"/p"⟩ } twoModules brokenModule := by
  have hfiles : ∀ dir ∈ [] :: twoModules.places, ∀ file ∈ Ignore.filesRead twoModules (pathOf dir),
      twoModules.readBytes file = brokenModule.readBytes file := by
    decide +kernel
  intro root place _ _ dir hdir _
  by_cases hne : dir = []
  · exact hfiles dir (hne ▸ List.mem_cons_self)
  · exact hfiles dir (List.mem_cons_of_mem _ (Files.Disk.mem_places_of_entry?_eq hne hdir))

theorem graph_twoModules : ∃ g, graph { root := some ⟨"/p"⟩ } twoModules = .ok g ∧
    g.value = ⟨⟨"/p"⟩, [⟨"a.ts", ["b.ts"]⟩, ⟨"b.ts", ["a.ts"]⟩]⟩ := by
  have hmodules : modules { root := some ⟨"/p"⟩ } twoModules =
      .ok (⟨"/p"⟩, [⟨"/p/a.ts"⟩, ⟨"/p/b.ts"⟩]) :=
    modules_eq_ok [⟨⟨"/p"⟩, []⟩, ⟨⟨"/p/a.ts"⟩, ["a.ts"]⟩, ⟨⟨"/p/b.ts"⟩, ["b.ts"]⟩]
      (by decide +kernel) (by decide +kernel) (by decide +kernel) (by decide) (by decide +kernel)
  exact graph_eq_ok hmodules (by decide +kernel) (by decide +kernel)

/-- A module that does not hold text spoils no entry but its own. -/
theorem graph_agrees_brokenModule :
    twoModules.readBytes ⟨"/p/b.ts"⟩ ≠ brokenModule.readBytes ⟨"/p/b.ts"⟩ ∧
    ∃ g, graph { root := some ⟨"/p"⟩ } brokenModule = .ok g ∧ g.value.root = ⟨"/p"⟩ ∧
      g.value.entries.map Graph.Entry.key = ["a.ts", "b.ts"] := by
  obtain ⟨g₁, hgraph, hvalue⟩ := graph_twoModules
  refine ⟨by decide +kernel, ?_⟩
  have hd : twoModules.IsTree := by decide
  have hlinks : twoModules.HasNoLinks := by decide
  have houtline : twoModules.SameOutline brokenModule :=
    Files.Disk.sameOutline_of_map_entries rfl rfl rfl rfl
  have hconfig : Files.Disk.SameNamed "tsconfig.json" twoModules brokenModule :=
    Files.Disk.sameNamed_of_forall_places (by decide) (by decide)
  have hpackages : Files.Disk.SameNamed "package.json" twoModules brokenModule :=
    Files.Disk.sameNamed_of_forall_places (by decide) (by decide)
  rcases graph_agrees hd hlinks houtline hconfig hpackages sameRulesAround_brokenModule with
    ⟨fault, hfault, -⟩ | ⟨g₁', g₂, modules, h₁, h₂, hroot, hkeys, -⟩
  · cases hgraph.symm.trans hfault
  · obtain rfl := Except.ok.inj (hgraph.symm.trans h₁)
    rw [hvalue] at hroot hkeys
    exact ⟨g₂, h₂, hroot.symm, hkeys.symm⟩

end ModuleGraph.Project

import ModuleGraph.Proofs.Path.Order
import ModuleGraph.Proofs.Project.Modules

/-!
# The entries of a graph

The modules of a project are collected in the order of the components of their paths, and the
entries of its graph stand in the order of their keys.  The two orders differ around the characters
that come before `/`, so sorting the entries is not idle: `a/b.ts` is collected in front of
`a-b.ts`, and listed behind it.

The entry of a module depends on nothing but the module, so the modules may be analysed in any
order, and the results may be gathered in any order.  Since no key occurs twice, sorting them leaves
nothing to chance: there is only one list of these entries whose keys increase.

## Main results

* `Project.pairwise_key_lt`: their keys increase strictly.
* `Project.graphOf_eq_of_perm`: the graph does not depend on the order of the modules.
* `Project.graph_of_collect`: the graph of the modules that are collected.
-/

namespace ModuleGraph.Project

variable {o : Options} {d : Files.Disk} {root : Path} {modules : List Path}
  (options : Dependencies.Options)

/-- The entry of a module: its key, and its dependencies if it can be analysed. -/
theorem value_entryOf (m : Path) : (entryOf options d root m).value =
    ⟨keyOf root m, ((Dependencies.of options d m).toOption.map Noted.value).getD []⟩ := by
  rw [entryOf]
  cases Dependencies.of options d m with
  | ok found => rfl
  | error fault => rfl

/-- The keys of a graph increase strictly, if no two modules have the same one. -/
theorem pairwise_key_lt (h : (modules.map (keyOf root)).Nodup) :
    ((graphOf options d root modules).value.entries.map Graph.Entry.key).Pairwise (· < ·) := by
  have hkeys : (((modules.map (entryOf options d root)).map Noted.value).map
      Graph.Entry.key).Nodup := by
    rw [List.map_map, List.map_map]
    exact List.map_congr_left (fun m _ => key_entryOf options m) ▸ h
  have hlt : (graphOf options d root modules).value.entries.Pairwise fun a b =>
      Path.compareText a.key b.key = .lt :=
    Path.pairwise_lt_mergeSort_key Path.compareText Graph.Entry.key hkeys
  rw [List.pairwise_map]
  exact hlt.imp Path.compareText_eq_lt_iff.mp

/-- The graph does not depend on the order of the modules, if no two of them have the same key. -/
theorem graphOf_eq_of_perm {order : List Path} (hperm : order.Perm modules)
    (h : (modules.map (keyOf root)).Nodup) :
    (graphOf options d root order).value = (graphOf options d root modules).value := by
  have hentries : (graphOf options d root order).value.entries =
      (graphOf options d root modules).value.entries := by
    refine Path.mergeSort_key_eq_of_perm Path.compareText Graph.Entry.key
      ((hperm.map _).map _) fun a ha b hb heq => ?_
    simp only [List.map_map, List.mem_map, Function.comp_apply] at ha hb
    obtain ⟨m, hm, rfl⟩ := ha
    obtain ⟨n, hn, rfl⟩ := hb
    rw [key_entryOf, key_entryOf] at heq
    rw [List.inj_on_of_nodup_map h (hperm.mem_iff.mp hm) (hperm.mem_iff.mp hn) heq]
  exact congrArg (Graph.mk root) hentries

/-- **The graph of a project.**  Let a project have a root, and let modules be collected from it.
If there are none, the project has no graph.  If there are some, and no name below the root holds a
backslash, then the project has a graph.  It has one entry for each module and no others: the text
of the names that lead from the root to the module, with the dependencies of the module, or with
none where the module cannot be analysed.  The keys differ and stand in increasing order, and in
whatever order the modules are analysed and their entries gathered, the graph is the same. -/
theorem graph_of_collect (hd : d.IsTree) (hroot : Project.root d o.root = .ok root)
    (hcollect : Collection.collect d root o.filter = .ok modules) :
    (modules = [] → graph o d = .error (.noModules root)) ∧
    (modules ≠ [] → (∀ m ∈ modules, ∀ name ∈ namesBelow root m, '\\' ∉ name.toList) →
      ∃ g, graph o d = .ok g ∧ g.value.root = root ∧
        (∀ m ∈ modules, m.components = root.components ++ (namesBelow root m).map .name) ∧
        g.value.entries.Perm (modules.map fun m => ⟨namesText (namesBelow root m),
          ((Dependencies.of { dynamic := o.dynamic } d m).toOption.map Noted.value).getD []⟩) ∧
        (g.value.entries.map Graph.Entry.key).Pairwise (· < ·) ∧
        ∀ order : List Path, order.Perm modules →
          (graphOf { dynamic := o.dynamic } d root order).value = g.value) := by
  have hmodules := modules_of_collect hroot hcollect
  refine ⟨fun hnil => graph_eq_error (by rw [hmodules, if_pos hnil]), fun hne hback => ?_⟩
  rw [if_neg hne] at hmodules
  have hkeys := nodup_map_keyOf hd hmodules hback
  refine ⟨_, graph_of_modules hmodules, rfl, fun m hm => components_module hd hmodules hm, ?_,
    pairwise_key_lt _ hkeys, fun order horder => graphOf_eq_of_perm _ horder hkeys⟩
  refine (perm_entries _ modules).trans (.of_eq (List.map_congr_left fun m hm => ?_))
  rw [value_entryOf, keyOf_module hd hmodules hm (hback m hm)]

/-- A project with two modules whose paths and keys are in different order, one of which does not
hold text. -/
def crossedProject : Files.Disk where
  entries := [(["p"], .directory), (["p", "a"], .directory),
    (["p", "a", "b.ts"], .file "import '../a-b'; import './b';".toUTF8),
    (["p", "a-b.ts"], .file ⟨#[0xFF]⟩)]
  here := []
  distinct := by decide +kernel
  proper := by decide +kernel

/-- The module that is collected last is listed first, whichever of the two is analysed first. -/
theorem graph_of_collect_crossedProject :
    Collection.collect crossedProject ⟨"/p"⟩ none = .ok [⟨"/p/a/b.ts"⟩, ⟨"/p/a-b.ts"⟩] ∧
    ∃ g, graph { root := some ⟨"/p"⟩ } crossedProject = .ok g ∧ g.value.root = ⟨"/p"⟩ ∧
      g.value.entries.Perm [⟨"a/b.ts", ["../a-b.ts", "b.ts"]⟩, ⟨"a-b.ts", []⟩] ∧
      (g.value.entries.map Graph.Entry.key).Pairwise (· < ·) ∧
      (graphOf {} crossedProject ⟨"/p"⟩ [⟨"/p/a-b.ts"⟩, ⟨"/p/a/b.ts"⟩]).value = g.value := by
  have hcollect : Collection.collect crossedProject ⟨"/p"⟩ none =
      .ok [⟨"/p/a/b.ts"⟩, ⟨"/p/a-b.ts"⟩] :=
    collect_eq_ok [⟨⟨"/p"⟩, []⟩, ⟨⟨"/p/a"⟩, ["a"]⟩, ⟨⟨"/p/a/b.ts"⟩, ["a", "b.ts"]⟩,
        ⟨⟨"/p/a-b.ts"⟩, ["a-b.ts"]⟩]
      (by decide +kernel) (by decide +kernel) (by decide +kernel)
  obtain ⟨g, hgraph, hroot, -, hentries, hkeys, horder⟩ :=
    (graph_of_collect (o := { root := some ⟨"/p"⟩ }) (by decide) (by decide +kernel) hcollect).2
      (by decide) (by decide +kernel)
  refine ⟨hcollect, g, hgraph, hroot, ?_, hkeys, horder _ (List.Perm.swap ..)⟩
  have hmap : ([⟨"/p/a/b.ts"⟩, ⟨"/p/a-b.ts"⟩] : List Path).map (fun m =>
      (⟨namesText (namesBelow ⟨"/p"⟩ m),
        ((Dependencies.of {} crossedProject m).toOption.map Noted.value).getD []⟩ : Graph.Entry)) =
      [⟨"a/b.ts", ["../a-b.ts", "b.ts"]⟩, ⟨"a-b.ts", []⟩] := by
    decide +kernel
  rwa [hmap] at hentries

end ModuleGraph.Project

import ModuleGraph.Project
import ModuleGraph.Proofs.Collection.Collected
import ModuleGraph.Proofs.Path.Reduced

/-!
# The modules of a project and their keys

Whatever root is given to a project in a tree, its modules are collected from the path of a place
that leads to itself.  So the modules are paths of places too, and unless a name holds a backslash,
the key of a module leads from the root to it, and no two modules have the same key.

## Main definitions

* `Project.namesBelow`, `Project.namesText`: the names between a root and a path, and their text.

## Main results

* `Project.exists_place_of_modules`: the root of a project is the path of a place.
* `Project.perm_entries`: the entries of a graph are those of the modules, one for one.
* `Project.leadsTo_keyOf`: a key leads from the root to the module.
* `Project.components_module`, `Project.keyOf_module`: a module lies below the root, and its key is
  the text of the names that lead there.
* `Project.nodup_map_keyOf`, `Project.nodup_keys`: no key occurs twice.
-/

namespace ModuleGraph

namespace Files.Disk

variable {d : Disk} {place : Place}

theorem isPlain_pathOf (h : ∀ name ∈ place, isName name = true) : (pathOf place).IsPlain :=
  ⟨place, components_pathOf h⟩

/-- No name of an entry holds a backslash. -/
def HasNoBackslashes (d : Disk) : Prop := ∀ place ∈ d.places, ∀ name ∈ place, '\\' ∉ name.toList

instance (d : Disk) : Decidable d.HasNoBackslashes :=
  inferInstanceAs (Decidable (∀ place ∈ d.places, ∀ name ∈ place, '\\' ∉ name.toList))

theorem HasNoBackslashes.components_pathOf (hd : d.HasNoBackslashes) {e : Entry}
    (he : d.entry? place = some e) : ∀ c ∈ (pathOf place).components, '\\' ∉ c.chars := by
  intro c hc
  rw [Disk.components_pathOf (isName_of_entry?_eq he)] at hc
  rcases List.mem_cons.mp hc with rfl | hc
  · decide
  · obtain ⟨name, hname, rfl⟩ := List.mem_map.mp hc
    have hne : place ≠ [] := List.ne_nil_of_mem hname
    exact hd place (mem_places_of_entry?_eq hne he) name hname

end Files.Disk

namespace Project

open Files.Disk (pathOf)

variable {o : Options} {d : Files.Disk} {root : Path} {modules : List Path}

/-! ### The root -/

theorem exists_follow_of_collect {filter : Option String}
    (h : Collection.collect d root filter = .ok modules) (hne : modules ≠ []) :
    ∃ place, d.follow root = .ok place := by
  cases hinput : Collection.isStandardInput root with
  | true =>
    rw [Collection.collect_of_isStandardInput hinput] at h
    exact absurd (Except.ok.inj h).symm hne
  | false =>
    rw [Collection.collect, Collection.walk, hinput, if_neg (by simp)] at h
    cases hfollow : d.follow root with
    | error fault =>
      rw [hfollow] at h
      cases h
    | ok place => exact ⟨place, rfl⟩

/-- The modules of a project are collected from its root, and there is at least one. -/
theorem collect_of_modules (h : Project.modules o d = .ok (root, modules)) :
    Project.root d o.root = .ok root ∧ Collection.collect d root o.filter = .ok modules ∧
      modules ≠ [] := by
  unfold Project.modules at h
  split at h
  · cases h
  · next found hroot =>
    split at h
    · cases h
    · cases h
    · next hne hcollect =>
      obtain ⟨rfl, rfl⟩ := Prod.mk.inj (Except.ok.inj h)
      exact ⟨hroot, hcollect, hne⟩

/-- The root of a project that has modules is the path of a place with an entry that is no link. -/
theorem exists_entry_of_root (hd : d.IsTree) {place : Files.Place}
    (h : Project.root d o.root = .ok root) (hfollow : d.follow root = .ok place) :
    ∃ front e, root = pathOf front ∧ d.entry? front = some e ∧ e.isLink = false := by
  unfold Project.root at h
  split at h
  · next given _ =>
    obtain rfl := Except.ok.inj h
    cases hgiven : d.follow given with
    | error fault =>
      -- A root that does not exist is kept as it is, so it cannot be followed either.
      rw [Files.Disk.real, hgiven] at hfollow
      exact absurd (hgiven.symm.trans hfollow) (by simp)
    | ok front =>
      obtain ⟨e, he, hlink⟩ := hd.of_follow hgiven
      exact ⟨front, e, by rw [Files.Disk.real, hgiven]; rfl, he, hlink⟩
  · unfold repositoryAbove at h
    split at h
    · next found hfound =>
      obtain rfl := Except.ok.inj h
      have hmem := List.mem_of_find?_eq_some hfound
      obtain ⟨front, ⟨back, hback⟩, rfl⟩ :=
        Files.Disk.exists_of_mem_ancestors_pathOf (Files.Disk.isName_of_entry?_eq hd.start) hmem
      refine ⟨front, .directory, rfl, ?_, rfl⟩
      by_cases hnil : back = []
      · rw [hnil, List.append_nil] at hback
        exact hback ▸ hd.start
      · exact hd.above hnil (hback ▸ hd.start)
    · cases h

/-- The root of a project is the path of a place that leads to itself. -/
theorem exists_place_of_modules (hd : d.IsTree) (h : Project.modules o d = .ok (root, modules)) :
    ∃ place, root = pathOf place ∧ d.IsSettled place ∧ d.follow (pathOf place) = .ok place ∧
      Collection.collect d (pathOf place) o.filter = .ok modules := by
  obtain ⟨hroot, hcollect, hne⟩ := collect_of_modules h
  obtain ⟨place, hfollow⟩ := exists_follow_of_collect hcollect hne
  obtain ⟨front, e, rfl, he, hlink⟩ := exists_entry_of_root hd hroot hfollow
  obtain ⟨rfl, hsettled⟩ := hd.follow_pathOf he hlink hfollow
  exact ⟨place, rfl, hsettled, hfollow, hcollect⟩

/-- Modules that are listed in their order are those that are collected. -/
theorem collect_eq_ok (found : List Collection.Found) {filter : Option String}
    (hwalk : Collection.walk d root = .ok found)
    (hkept : (found.filter fun f => Collection.isModule d f && Collection.passes filter f).map
      Collection.Found.path = modules)
    (hsorted : modules.Pairwise fun a b => a.le b = true) :
    Collection.collect d root filter = .ok modules := by
  rw [Collection.collect_of_walk hwalk, Collection.modulesAmong, hkept,
    List.mergeSort_of_pairwise hsorted]

/-- A project has the modules that are collected from its root, unless there are none. -/
theorem modules_of_collect (hroot : Project.root d o.root = .ok root)
    (hcollect : Collection.collect d root o.filter = .ok modules) :
    Project.modules o d =
      if modules = [] then .error (.noModules root) else .ok (root, modules) := by
  rw [Project.modules, hroot]
  simp only [hcollect]
  cases modules with
  | nil => rfl
  | cons m more => rfl

/-- Modules that are listed in their order are the modules of the project. -/
theorem modules_eq_ok (found : List Collection.Found) (hroot : Project.root d o.root = .ok root)
    (hwalk : Collection.walk d root = .ok found)
    (hkept : (found.filter fun f => Collection.isModule d f && Collection.passes o.filter f).map
      Collection.Found.path = modules)
    (hne : modules ≠ []) (hsorted : modules.Pairwise fun a b => a.le b = true) :
    Project.modules o d = .ok (root, modules) := by
  rw [modules_of_collect hroot (collect_eq_ok found hwalk hkept hsorted), if_neg hne]

/-! ### The entries -/

theorem graph_eq_error {fault : Fault} (h : Project.modules o d = .error fault) :
    graph o d = .error fault := by
  rw [graph, h]
  rfl

theorem graph_of_modules (h : Project.modules o d = .ok (root, modules)) :
    graph o d = .ok (graphOf { dynamic := o.dynamic } d root modules) := by
  rw [graph, h]
  rfl

/-- A graph is that of the modules. -/
theorem exists_modules_of_graph {g : Noted Graph} (h : graph o d = .ok g) :
    ∃ root modules, Project.modules o d = .ok (root, modules) ∧
      g = graphOf { dynamic := o.dynamic } d root modules := by
  unfold graph at h
  cases hmodules : Project.modules o d with
  | error fault =>
    rw [hmodules] at h
    cases h
  | ok found =>
    rw [hmodules] at h
    exact ⟨found.1, found.2, rfl, (Except.ok.inj h).symm⟩

@[simp] theorem root_graphOf (options : Dependencies.Options) (d : Files.Disk) (root : Path)
    (modules : List Path) : (graphOf options d root modules).value.root = root := rfl

/-- The entries of a graph are those of the modules, one for one. -/
theorem perm_entries (options : Dependencies.Options) (modules : List Path) :
    (graphOf options d root modules).value.entries.Perm
      (modules.map fun m => (entryOf options d root m).value) := by
  have hmap : (modules.map (entryOf options d root)).map Noted.value =
      modules.map fun m => (entryOf options d root m).value := List.map_map
  rw [← hmap]
  exact List.mergeSort_perm _ entryLe

/-- The entries of a graph are those of the modules. -/
theorem mem_entries_iff {options : Dependencies.Options} {e : Graph.Entry} :
    e ∈ (graphOf options d root modules).value.entries ↔
      ∃ m ∈ modules, e = (entryOf options d root m).value := by
  rw [(perm_entries options modules).mem_iff, List.mem_map]
  simp only [eq_comm]

/-- Entries that are made in the order of their keys are the entries of the graph. -/
theorem graph_eq_ok (h : Project.modules o d = .ok (root, modules)) {entries : List Graph.Entry}
    (hentries : modules.map (fun m => (entryOf { dynamic := o.dynamic } d root m).value) = entries)
    (hsorted : entries.Pairwise fun a b => entryLe a b = true) :
    ∃ g, graph o d = .ok g ∧ g.value = ⟨root, entries⟩ := by
  refine ⟨_, graph_of_modules h, ?_⟩
  simp only [graphOf, List.map_map]
  change (⟨root, List.mergeSort (modules.map fun m => (entryOf _ d root m).value) entryLe⟩ :
    Graph) = _
  rw [hentries, List.mergeSort_of_pairwise hsorted]

@[simp] theorem key_entryOf (options : Dependencies.Options) (m : Path) :
    (entryOf options d root m).value.key = keyOf root m := by
  unfold entryOf
  split
  · rfl
  · rfl

/-- The keys of a graph are those of the modules. -/
theorem perm_keys (options : Dependencies.Options) (modules : List Path) :
    ((graphOf options d root modules).value.entries.map Graph.Entry.key).Perm
      (modules.map (keyOf root)) := by
  have hkeys : (modules.map fun m => (entryOf options d root m).value).map Graph.Entry.key =
      modules.map (keyOf root) := by
    rw [List.map_map]
    exact List.map_congr_left fun m _ => key_entryOf options m
  rw [← hkeys]
  exact (perm_entries options modules).map Graph.Entry.key

/-! ### The keys -/

/-- A key leads from the root to the module. -/
theorem leadsTo_keyOf {m : Path} (hroot : root.IsPlain) (hm : m.IsPlain)
    (hback : ∀ c ∈ m.components, '\\' ∉ c.chars) :
    Path.LeadsTo root.components m.components (keyOf root m) := by
  obtain ⟨text, htext, hleads⟩ := Path.exists_slashed_relative? hm hroot
  rw [keyOf, htext]
  exact hleads hback

/-- The relative path from the path of a place to that of a place below it. -/
theorem relative?_pathOf {place : Files.Place} {names : List String}
    (hnames : ∀ name ∈ place ++ names, Files.isName name = true) :
    (pathOf (place ++ names)).relative? (pathOf place) = some (Path.relativePath 0 names) := by
  have hplace : (pathOf place).components = .root :: (place ++ []).map .name := by
    rw [List.append_nil]
    exact Files.Disk.components_pathOf fun n hn => hnames n (List.mem_append_left names hn)
  exact Path.relative?_of_diverge (Files.Disk.components_pathOf hnames) hplace
    (by simp [Path.Diverge]) fun n hn => hnames n (List.mem_append_right place hn)

/-- A key is made of the names below the root. -/
theorem keyOf_pathOf {place : Files.Place} {names : List String} (hne : names ≠ [])
    (hnames : ∀ name ∈ place ++ names, Files.isName name = true)
    (hback : ∀ name ∈ names, '\\' ∉ name.toList) :
    keyOf (pathOf place) (pathOf (place ++ names)) =
      (Path.ofComponents (names.map .name)).text := by
  have hbelow : ∀ name ∈ names, Files.isName name = true := fun n hn =>
    hnames n (List.mem_append_right place hn)
  have hrelative : (pathOf (place ++ names)).relative? (pathOf place) =
      some (Path.ofComponents (names.map .name)) := by
    rw [relative?_pathOf hnames, Path.relativePath_eq_ofComponents hbelow (by simpa using hne)]
    rfl
  rw [keyOf, hrelative, Option.map_some, Option.getD_some,
    Path.slashed_ofComponents (by simpa using hne) (Files.Disk.isProper_of_forall_isName hbelow)
      fun c hc => ?_]
  obtain ⟨name, hname, rfl⟩ := List.mem_map.mp hc
  exact hback name hname

/-- The names that lead from a root to a path below it. -/
def namesBelow (root file : Path) : List String := file.trail.drop root.trail.length

/-- Names with `/` between them.  No names at all are written `.`. -/
def namesText (names : List String) : String :=
  if names = [] then "." else "/".intercalate names

theorem namesBelow_pathOf {place : Files.Place} {names : List String}
    (h : ∀ name ∈ place ++ names, Files.isName name = true) :
    namesBelow (pathOf place) (pathOf (place ++ names)) = names := by
  rw [namesBelow, Files.Disk.trail_pathOf h,
    Files.Disk.trail_pathOf fun n hn => h n (List.mem_append_left names hn), List.drop_left]

theorem namesText_eq_text {names : List String} (hne : names ≠ [])
    (h : ∀ name ∈ names, Files.isName name = true) :
    namesText names = (Path.ofComponents (names.map .name)).text := by
  have hchars : (names.map Path.Component.name).map Path.Component.chars =
      names.map String.toList := by
    rw [List.map_map]
    rfl
  rw [namesText, if_neg hne,
    Path.ofComponents_eq_joinSlash (Files.Disk.isProper_of_forall_isName h), hchars,
    Path.joinSlash_eq_intercalate, ← String.toList_inj, String.toList_intercalate]
  exact String.toList_ofList.symm

/-- The names are found again in their text. -/
theorem body_namesText {names : List String} (h : ∀ name ∈ names, Files.isName name = true) :
    Path.body (namesText names).toList = names.map .name := by
  by_cases hne : names = []
  · rw [hne]
    rfl
  · have hproper := Files.Disk.isProper_of_forall_isName h
    rw [namesText_eq_text hne h, Path.ofComponents_eq_joinSlash hproper, String.toList_ofList,
      Path.body_joinSlash hproper]

/-- Names with the same text are the same. -/
theorem eq_of_namesText_eq {names names' : List String}
    (h : ∀ name ∈ names, Files.isName name = true)
    (h' : ∀ name ∈ names', Files.isName name = true) (heq : namesText names = namesText names') :
    names = names' := by
  have hinj : Function.Injective Path.Component.name := fun a b hab => Path.Component.name.inj hab
  apply List.map_injective_iff.mpr hinj
  rw [← body_namesText h, heq, body_namesText h']

/-- The key of a module is the text of the names below the root. -/
theorem keyOf_eq_namesText {place : Files.Place} {names : List String}
    (hnames : ∀ name ∈ place ++ names, Files.isName name = true)
    (hback : ∀ name ∈ names, '\\' ∉ name.toList) :
    keyOf (pathOf place) (pathOf (place ++ names)) = namesText names := by
  by_cases hne : names = []
  · have hdot : (Path.relativePath 0 []).slashed = "." := by decide
    rw [keyOf, relative?_pathOf hnames, hne, Option.map_some, Option.getD_some, hdot]
    rfl
  · rw [keyOf_pathOf hne hnames hback,
      namesText_eq_text hne fun n hn => hnames n (List.mem_append_right place hn)]

/-- The root of a project is the path of a place, and its modules are the paths of the entries that
the names below the root lead to from there. -/
theorem exists_place_namesBelow (hd : d.IsTree) (h : Project.modules o d = .ok (root, modules)) :
    ∃ place, root = pathOf place ∧ ∀ m ∈ modules, m = pathOf (place ++ namesBelow root m) ∧
      ∃ e, d.entry? (place ++ namesBelow root m) = some e := by
  obtain ⟨place, rfl, -, hfollow, hcollect⟩ := exists_place_of_modules hd h
  refine ⟨place, rfl, fun m hm => ?_⟩
  obtain ⟨names, hnames, -, rfl⟩ := (Collection.mem_collect_iff hfollow hcollect).mp hm
  obtain ⟨e, he⟩ := Collection.exists_entry_of_mem_listed hd hfollow hnames
  rw [namesBelow_pathOf (Files.Disk.isName_of_entry?_eq he)]
  exact ⟨rfl, e, he⟩

/-- The path of a module goes on behind the root with the names below it. -/
theorem components_module (hd : d.IsTree) (h : Project.modules o d = .ok (root, modules)) {m : Path}
    (hm : m ∈ modules) : m.components = root.components ++ (namesBelow root m).map .name := by
  obtain ⟨place, hroot, hmodules⟩ := exists_place_namesBelow hd h
  obtain ⟨hpath, e, he⟩ := hmodules m hm
  have hnames := Files.Disk.isName_of_entry?_eq he
  have hplace := Files.Disk.components_pathOf fun n hn =>
    hnames n (List.mem_append_left (namesBelow root m) hn)
  calc m.components = .root :: (place ++ namesBelow root m).map .name := by
        rw [congrArg Path.components hpath, Files.Disk.components_pathOf hnames]
    _ = root.components ++ (namesBelow root m).map .name := by
        rw [congrArg Path.components hroot, hplace, List.map_append, List.cons_append]

/-- The key of a module is the text of the names below the root, unless one of these holds a
backslash. -/
theorem keyOf_module (hd : d.IsTree) (h : Project.modules o d = .ok (root, modules)) {m : Path}
    (hm : m ∈ modules) (hback : ∀ name ∈ namesBelow root m, '\\' ∉ name.toList) :
    keyOf root m = namesText (namesBelow root m) := by
  obtain ⟨place, hroot, hmodules⟩ := exists_place_namesBelow hd h
  obtain ⟨hpath, e, he⟩ := hmodules m hm
  calc keyOf root m = keyOf (pathOf place) (pathOf (place ++ namesBelow root m)) := by
        rw [← hroot, ← hpath]
    _ = namesText (namesBelow root m) :=
        keyOf_eq_namesText (Files.Disk.isName_of_entry?_eq he) hback

/-- No key of a project occurs twice, unless the name of a module holds a backslash. -/
theorem nodup_map_keyOf (hd : d.IsTree) (h : Project.modules o d = .ok (root, modules))
    (hback : ∀ m ∈ modules, ∀ name ∈ namesBelow root m, '\\' ∉ name.toList) :
    (modules.map (keyOf root)).Nodup := by
  have hnodup : modules.Nodup := Collection.nodup_collect (collect_of_modules h).2.1
  obtain ⟨place, -, hmodules⟩ := exists_place_namesBelow hd h
  refine hnodup.map_on fun a ha b hb heq => ?_
  obtain ⟨ha', e, he⟩ := hmodules a ha
  obtain ⟨hb', e', he'⟩ := hmodules b hb
  have hnames := Files.Disk.isName_of_entry?_eq he
  have hnames' := Files.Disk.isName_of_entry?_eq he'
  rw [keyOf_module hd h ha (hback a ha), keyOf_module hd h hb (hback b hb)] at heq
  -- The two keys are the text of the same names, and these lead from the root to both modules.
  rw [ha', hb', eq_of_namesText_eq (fun n hn => hnames n (List.mem_append_right place hn))
    (fun n hn => hnames' n (List.mem_append_right place hn)) heq]

/-- No key of a project occurs twice. -/
theorem nodup_keys (hd : d.IsTree) (hback : d.HasNoBackslashes)
    (h : Project.modules o d = .ok (root, modules)) : (modules.map (keyOf root)).Nodup := by
  obtain ⟨place, -, hmodules⟩ := exists_place_namesBelow hd h
  refine nodup_map_keyOf hd h fun m hm name hname => ?_
  obtain ⟨-, e, he⟩ := hmodules m hm
  have hmem : name ∈ place ++ namesBelow root m := List.mem_append_right place hname
  exact hback _ (Files.Disk.mem_places_of_entry?_eq (List.ne_nil_of_mem hmem) he) name hmem

end Project

end ModuleGraph

import ModuleGraph.Proofs.Files.Linkless
import ModuleGraph.Proofs.Ignore.Layers
import ModuleGraph.Proofs.Project.Edges

/-!
# The edges of a graph stay among its modules

Where no rules leave anything out and there are neither links nor a filter, the walk comes upon
every file below the root.  So a dependency that leads, from the directory in which the graph lists
a module, to a path below the root that looks like a module leads to an entry of the graph.

Rules need not lie in the directories above or below the root: a file that stands in the place of a
repository points to private rules elsewhere, and these count as well.  So do the rules of the user,
where one of these directories is the root of a repository.

## Main results

* `Project.count_key_target`: what a dependency leads to below the root is a module, and only one.
-/

namespace ModuleGraph

/-! ### What a walk without rules lists -/

namespace Collection

variable {d : Files.Disk} {root : Files.Place} {names : List String}

/-- Where no directory at, above or below the root has rules, everything below it is listed. -/
theorem mem_listed_of_mem_places (p : Path) (hdir : d.entry? root = some .directory)
    (hrules : ∀ dir, d.entry? dir = some .directory → dir <+: root ∨ root <+: dir →
      Ignore.HasNoRules d dir)
    (hne : names ≠ []) (h : root ++ names ∈ d.places) : names ∈ listed d p root := by
  have hignored : ignoredBelow d p root = [] := by
    refine List.filter_eq_nil_iff.mpr fun place hplace => ?_
    obtain ⟨more, -, rfl⟩ := isBelow_iff.mp (List.mem_filter.mp hplace).2
    rw [Ignore.isIgnored_eq_false _ fun dir hprefix hentry => hrules dir hentry
      (List.prefix_or_prefix_of_prefix hprefix (List.prefix_append root more))]
    simp
  refine mem_listed_iff.mpr (.inr ⟨by rw [Ignore.isDirectoryAt, hdir], hne, ?_⟩)
  refine List.mem_filter.mpr ⟨List.mem_filter.mpr ⟨h, isBelow_iff.mpr ⟨names, hne, rfl⟩⟩, ?_⟩
  rw [hignored]
  rfl

end Collection

namespace Project

open Files.Disk (pathOf)

variable {o : Options} {d : Files.Disk} {root : Path} {modules : List Path}

/-- What a request in a tree without links is resolved to is the path of a file that leads to
itself. -/
theorem exists_place_of_resolution (hlinks : d.HasNoLinks) {options : Dependencies.Options}
    {dir file : Path} {request : String} (hdir : dir.isAbsolute = true)
    (h : Dependencies.resolution options d (Alias.loadFor d dir).value dir request = some file) :
    ∃ place contents, file = pathOf place ∧ d.follow (pathOf place) = .ok place ∧
      d.entry? place = some (.file contents) := by
  obtain ⟨p, hp, hfile, hcanonical⟩ := Dependencies.exists_of_resolution hdir h
  rw [hlinks.found?_eq] at hfile
  obtain ⟨contents, hreach⟩ := Files.Disk.exists_of_any_isFile hfile
  unfold Files.Disk.reach? at hreach
  split at hreach
  · next place hplace =>
    exact ⟨place, contents, hlinks.eq_pathOf_of_canonical hp hplace hreach hcanonical,
      hlinks.follow_pathOf hp hplace, hreach⟩
  · cases hreach

/-- In a tree without links a dependency leads, from the directory in which the graph lists its
module, to the place of a file. -/
theorem exists_place_of_target (hd : d.IsTree) (hlinks : d.HasNoLinks)
    (hback : d.HasNoBackslashes) (h : Project.modules o d = .ok (root, modules))
    (hroot : root.IsPlain) {options : Dependencies.Options} {m : Path} (hm : m ∈ modules)
    {dependency : String}
    (hdependency : dependency ∈ (entryOf options d root m).value.dependencies) :
    ∃ place contents, d.follow (pathOf place) = .ok place ∧
      d.entry? place = some (.file contents) ∧
      (entryOf options d root m).value.target root dependency = .root :: place.map .name := by
  obtain ⟨above, entry, rfl, hentry, r, contents, hr, hfile⟩ := exists_place_of_mem_modules hd h hm
  have hlink : entry.isLink = false := by
    cases entry with
    | link target => exact absurd hentry (hlinks _ _)
    | directory | file => rfl
  obtain ⟨rfl, -⟩ := hd.follow_pathOf hentry hlink hr
  have hnames := Files.Disk.isName_of_entry?_eq hentry
  have hproper := Files.Disk.isProper_of_entry?_file hfile
  have hdir := Files.Disk.isPlain_pathOf_dropLast hproper
  obtain ⟨-, -, s, -, file, hresolved, hshown⟩ :=
    exists_of_mem_dependencies_entryOf hr hfile hdependency
  have hmiss := hlinks.linksMissDirectories
  have hleads := leadsTo_of_shown? hmiss hback hdir
    (Dependencies.namesFile_of_resolution hmiss hdir.isAbsolute hresolved) hshown
  have hkey := leadsTo_keyOf hroot (Files.Disk.isPlain_pathOf hnames)
    (hback.components_pathOf hentry)
  rw [← key_entryOf options] at hkey
  obtain ⟨place, contents', rfl, hfollow, hplace⟩ :=
    exists_place_of_resolution hlinks hdir.isAbsolute hresolved
  refine ⟨place, contents', hfollow, hplace, ?_⟩
  rw [← eq_target (Files.Disk.isAbsolute_pathOf _) hkey (Files.Disk.parent?_pathOf hproper)
    hleads, Files.Disk.components_pathOf (Files.Disk.isName_of_entry?_eq hplace)]

/-- **The edges of a graph stay among its modules.**  In a tree without links and without
backslashes in names, let the root of a graph that was made without a filter be a directory, and let
no rules speak for any directory at, above or below it.  If a dependency in the graph leads, from
the directory in which the graph lists its module, to a path below the root that has the suffix of a
module and does not enter installed packages, then this path is the key of just one entry. -/
theorem count_key_target (hd : d.IsTree) (hlinks : d.HasNoLinks) (hback : d.HasNoBackslashes)
    (hfilter : o.filter = none) {g : Noted Graph} (hgraph : graph o d = .ok g)
    {place : Files.Place} (hplace : d.follow g.value.root = .ok place)
    (hdir : d.entry? place = some .directory)
    (hrules : ∀ dir, d.entry? dir = some .directory → dir <+: place ∨ place <+: dir →
      Ignore.HasNoRules d dir)
    {e : Graph.Entry} (he : e ∈ g.value.entries) {dependency : String}
    (hdependency : dependency ∈ e.dependencies) {names : List String}
    (hinside : e.target g.value.root dependency = g.value.root.components ++ names.map .name)
    (hsuffix : Collection.hasModuleSuffix (Path.ofComponents (e.target g.value.root dependency)))
    (hpackages : Collection.packagesName ∉ names) :
    (g.value.entries.map Graph.Entry.key).count (Path.ofComponents (names.map .name)).text = 1 := by
  obtain ⟨root, modules, hmodules, rfl⟩ := exists_modules_of_graph hgraph
  obtain ⟨m, hm, rfl⟩ := mem_entries_iff.mp he
  obtain ⟨front, hroot, hsettled, hfollow, hcollect⟩ := exists_place_of_modules hd hmodules
  have hrootValue : (graphOf { dynamic := o.dynamic } d root modules).value.root = root := rfl
  rw [hrootValue] at hplace hinside hsuffix
  subst hroot
  obtain rfl : front = place := Except.ok.inj (hfollow.symm.trans hplace)
  have hrootPlain := Files.Disk.isPlain_pathOf hsettled.names
  obtain ⟨file, contents, hfile, hentry, htarget⟩ :=
    exists_place_of_target hd hlinks hback hmodules hrootPlain hm hdependency
  have hnames : file = front ++ names := by
    rw [htarget, Files.Disk.components_pathOf hsettled.names, List.cons_append, List.cons.injEq,
      ← List.map_append] at hinside
    have hinj : Function.Injective Path.Component.name := fun a b h => Path.Component.name.inj h
    exact List.map_injective_iff.mpr hinj hinside.2
  rw [htarget] at hsuffix
  subst hnames
  have hne : names ≠ [] := by
    rintro rfl
    rw [List.append_nil, hdir] at hentry
    cases hentry
  have hmem : front ++ names ∈ d.places := Files.Disk.mem_places_of_entry?_eq (by simp [hne]) hentry
  -- The walk comes upon the file, and it is a module.
  have hlisted := Collection.mem_listed_of_mem_places (pathOf front) hdir hrules hne hmem
  have hkeeps : Collection.keeps d o.filter front names = true := by
    have hisFile : d.isFile (pathOf (front ++ names)) = true := by
      rw [Files.Disk.isFile, Files.Disk.reach?, hfile]
      simp only [hentry]
      rfl
    have hsuffix' : Collection.hasModuleSuffix (pathOf (front ++ names)) = true := hsuffix
    simp [Collection.keeps, Collection.isModule, Collection.passes, hisFile, hsuffix', hpackages,
      hfilter]
  have hmodule : pathOf (front ++ names) ∈ modules :=
    (Collection.mem_collect_iff hfollow hcollect).mpr ⟨names, hlisted, hkeeps, rfl⟩
  have hkey := keyOf_pathOf hne (Files.Disk.isName_of_entry?_eq hentry) fun name hname =>
    hback _ hmem name (List.mem_append_right front hname)
  rw [(perm_keys _ modules).count_eq, ← hkey]
  exact List.count_eq_one_of_mem (nodup_keys hd hback hmodules) (List.mem_map_of_mem hmodule)

/-- A project without links and rules. -/
def nestedProject : Files.Disk where
  entries := [(["p"], .directory), (["p", "a.ts"], .file "import './lib/b';".toUTF8),
    (["p", "lib"], .directory), (["p", "lib", "b.ts"], .file "".toUTF8)]
  here := []
  distinct := by decide
  proper := by decide

theorem graph_nestedProject : ∃ g, graph { root := some ⟨"/p"⟩ } nestedProject = .ok g ∧
    g.value = ⟨⟨"/p"⟩, [⟨"a.ts", ["lib/b.ts"]⟩, ⟨"lib/b.ts", []⟩]⟩ := by
  have hmodules : modules { root := some ⟨"/p"⟩ } nestedProject =
      .ok (⟨"/p"⟩, [⟨"/p/a.ts"⟩, ⟨"/p/lib/b.ts"⟩]) :=
    modules_eq_ok [⟨⟨"/p"⟩, []⟩, ⟨⟨"/p/a.ts"⟩, ["a.ts"]⟩, ⟨⟨"/p/lib"⟩, ["lib"]⟩,
        ⟨⟨"/p/lib/b.ts"⟩, ["lib", "b.ts"]⟩]
      (by decide +kernel) (by decide +kernel) (by decide +kernel) (by decide) (by decide +kernel)
  exact graph_eq_ok hmodules (by decide +kernel) (by decide +kernel)

/-- The dependency of a module in a project without links and rules is a key of the graph. -/
theorem count_key_target_nestedProject : ∃ g,
    graph { root := some ⟨"/p"⟩ } nestedProject = .ok g ∧
      (g.value.entries.map Graph.Entry.key).count
        (Path.ofComponents (["lib", "b.ts"].map .name)).text = 1 := by
  obtain ⟨g, hgraph, hvalue⟩ := graph_nestedProject
  have hrules : ∀ dir ∈ [] :: nestedProject.places, Ignore.HasNoRules nestedProject dir := by
    decide +kernel
  have he : (⟨"a.ts", ["lib/b.ts"]⟩ : Graph.Entry) ∈ g.value.entries := by
    rw [hvalue]
    exact List.mem_cons_self
  have hplace : nestedProject.follow g.value.root = .ok ["p"] := by
    rw [hvalue]
    decide +kernel
  refine ⟨g, hgraph, count_key_target (by decide) (by decide) (by decide) rfl hgraph hplace rfl
    (fun dir hdir _ => ?_) he List.mem_cons_self (by rw [hvalue]; decide +kernel)
    (by rw [hvalue]; decide +kernel) (by decide)⟩
  by_cases hne : dir = []
  · exact hrules dir (hne ▸ List.mem_cons_self)
  · exact hrules dir (List.mem_cons_of_mem _ (Files.Disk.mem_places_of_entry?_eq hne hdir))

/-- A working tree of a repository that lies elsewhere and has private rules. -/
def worktreeProject : Files.Disk where
  entries := [(["main"], .directory), (["main", ".git"], .directory),
    (["main", ".git", "info"], .directory),
    (["main", ".git", "info", "exclude"], .file "b.ts\n".toUTF8),
    (["main", ".git", "worktrees"], .directory),
    (["main", ".git", "worktrees", "w"], .directory),
    (["main", ".git", "worktrees", "w", "commondir"], .file "../..\n".toUTF8),
    (["w"], .directory), (["w", ".git"], .file "gitdir: /main/.git/worktrees/w\n".toUTF8),
    (["w", "a.ts"], .file "import './b';".toUTF8), (["w", "b.ts"], .file "".toUTF8)]
  here := []
  distinct := by decide
  proper := by decide

theorem graph_worktreeProject : ∃ g, graph { root := some ⟨"/w"⟩ } worktreeProject = .ok g ∧
    g.value = ⟨⟨"/w"⟩, [⟨"a.ts", ["b.ts"]⟩]⟩ := by
  have hmodules : modules { root := some ⟨"/w"⟩ } worktreeProject =
      .ok (⟨"/w"⟩, [⟨"/w/a.ts"⟩]) :=
    modules_eq_ok [⟨⟨"/w"⟩, []⟩, ⟨⟨"/w/.git"⟩, [".git"]⟩, ⟨⟨"/w/a.ts"⟩, ["a.ts"]⟩]
      (by decide +kernel) (by decide +kernel) (by decide +kernel) (by decide) (by decide +kernel)
  exact graph_eq_ok hmodules (by decide +kernel) (by decide +kernel)

/-- There is no file of rules at, above or below the root of a working tree, and yet what a
dependency leads to is not a key of the graph, because private rules that lie elsewhere leave it
out. -/
theorem count_key_target_worktreeProject :
    worktreeProject.IsTree ∧ worktreeProject.HasNoLinks ∧ worktreeProject.HasNoBackslashes ∧
    (∀ dir ∈ [] :: worktreeProject.places, dir.isPrefixOf ["w"] ∨ ["w"].isPrefixOf dir →
      ∀ rules ∈ [[".ignore"], [".gitignore"], [".git", "info", "exclude"]],
        worktreeProject.entry? (dir ++ rules) = none) ∧
    ∃ g, graph { root := some ⟨"/w"⟩ } worktreeProject = .ok g ∧
      ∃ e ∈ g.value.entries, ∃ dependency ∈ e.dependencies,
        e.target g.value.root dependency = g.value.root.components ++ ["b.ts"].map .name ∧
        Collection.hasModuleSuffix (Path.ofComponents (e.target g.value.root dependency)) = true ∧
        (g.value.entries.map Graph.Entry.key).count
          (Path.ofComponents (["b.ts"].map .name)).text = 0 := by
  have hnone : ∀ dir ∈ [] :: worktreeProject.places,
      dir.isPrefixOf ["w"] ∨ ["w"].isPrefixOf dir →
      ∀ rules ∈ [[".ignore"], [".gitignore"], [".git", "info", "exclude"]],
        (worktreeProject.entry? (dir ++ rules)).isNone = true := by
    decide +kernel
  refine ⟨by decide, by decide, by decide, fun dir hdir hnear rules hmem =>
    Option.isNone_iff_eq_none.mp (hnone dir hdir hnear rules hmem), ?_⟩
  obtain ⟨g, hgraph, hvalue⟩ := graph_worktreeProject
  refine ⟨g, hgraph, ⟨"a.ts", ["b.ts"]⟩, by rw [hvalue]; exact List.mem_cons_self, "b.ts",
    List.mem_cons_self, ?_⟩
  rw [hvalue]
  decide +kernel

/-- The rules of a user leave out what a dependency leads to in the same way. -/
theorem graph_ownedProject :
    ∃ g, graph { root := some ⟨"/h/p"⟩ } Ignore.ownedProject = .ok g ∧
      g.value = ⟨⟨"/h/p"⟩, [⟨"a.ts", ["b.ts"]⟩]⟩ := by
  have hmodules : modules { root := some ⟨"/h/p"⟩ } Ignore.ownedProject =
      .ok (⟨"/h/p"⟩, [⟨"/h/p/a.ts"⟩]) :=
    modules_eq_ok [⟨⟨"/h/p"⟩, []⟩, ⟨⟨"/h/p/.git"⟩, [".git"]⟩, ⟨⟨"/h/p/a.ts"⟩, ["a.ts"]⟩]
      (by decide +kernel) (by decide +kernel) (by decide +kernel) (by decide) (by decide +kernel)
  exact graph_eq_ok hmodules (by decide +kernel) (by decide +kernel)

end Project

end ModuleGraph

import ModuleGraph.Proofs.Dependencies
import ModuleGraph.Proofs.Project.Modules
import ModuleGraph.Proofs.Resolution.Existing

/-!
# The files that the edges of a graph lead to

A dependency of a module is written relative to the directory in which the module really lies, and
leads from there to a file: the one that a specifier of the module is resolved to.  For a module
that is no link this is the directory in which the graph lists it.  A module that is a link is
listed where the link is, so its dependencies do not lead anywhere from there.

## Main results

* `Dependencies.namesFile_of_resolution`: what a request is resolved to is a file.
* `Project.exists_file_of_mem_dependencies`: what the dependencies in a graph lead to.
-/

namespace ModuleGraph

namespace Dependencies

variable {o : Options} {d : Files.Disk} {dir file : Path} {request : String}

/-- What a request is resolved to is the canonical form of a path to a file. -/
theorem exists_of_resolution (hdir : dir.isAbsolute = true)
    (h : resolution o d (Alias.loadFor d dir).value dir request = some file) :
    ∃ p, p.isAbsolute = true ∧ (d.found? p).any Files.Entry.isFile = true ∧
      d.canonical p = .ok file := by
  obtain ⟨start, candidate, hstart, hresolve⟩ := exists_resolve?_of_resolution hdir h
  exact Resolution.Setting.exists_of_resolve? hstart hresolve

/-- What a request is resolved to is a file. -/
theorem namesFile_of_resolution (hd : d.LinksMissDirectories) (hdir : dir.isAbsolute = true)
    (h : resolution o d (Alias.loadFor d dir).value dir request = some file) :
    d.NamesFile file := by
  obtain ⟨start, candidate, hstart, hresolve⟩ := exists_resolve?_of_resolution hdir h
  exact Resolution.Setting.namesFile_of_resolve? hd hstart hresolve

/-- Each dependency that specifiers give is the way to a file that one of them is resolved to. -/
theorem exists_of_mem_resolvedAll {config : Alias.Config} {specifiers : List Specifier}
    {dependency : String} (h : dependency ∈ resolvedAll o d config dir specifiers) :
    ∃ s ∈ specifiers, ∃ file, resolution o d config dir s.request = some file ∧
      shown? dir file = some dependency := by
  obtain ⟨file, hfile, hshown⟩ := List.mem_filterMap.mp h
  obtain ⟨s, hs, hresolved⟩ := List.mem_filterMap.mp hfile
  exact ⟨s, hs, file, hresolved, hshown⟩

end Dependencies

/-- The components that a dependency leads to from the directory in which a graph with a root lists
a module. -/
def Graph.Entry.target (e : Graph.Entry) (root : Path) (dependency : String) :
    List Path.Component :=
  Path.apply (Path.apply root.components (Path.body e.key.toList)).dropLast
    (Path.body dependency.toList)

namespace Project

open Files.Disk (pathOf)

variable {o : Options} {d : Files.Disk} {root : Path} {modules : List Path}

/-- A module of a project is the path of a place and leads to a file. -/
theorem exists_place_of_mem_modules (hd : d.IsTree)
    (h : Project.modules o d = .ok (root, modules)) {m : Path} (hm : m ∈ modules) :
    ∃ place e, m = pathOf place ∧ d.entry? place = some e ∧
      ∃ r contents, d.follow m = .ok r ∧ d.entry? r = some (.file contents) := by
  obtain ⟨front, rfl, -, hfollow, hcollect⟩ := exists_place_of_modules hd h
  obtain ⟨names, hnames, hkeeps, rfl⟩ := (Collection.mem_collect_iff hfollow hcollect).mp hm
  obtain ⟨e, he⟩ := Collection.exists_entry_of_mem_listed hd hfollow hnames
  have hfile : d.isFile (pathOf (front ++ names)) = true := by
    simp only [Collection.keeps, Collection.isModule, Bool.and_eq_true] at hkeeps
    exact hkeeps.1.1.1
  refine ⟨_, e, rfl, he, ?_⟩
  obtain ⟨contents, hcontents⟩ := Files.Disk.exists_of_any_isFile hfile
  unfold Files.Disk.reach? at hcontents
  split at hcontents
  · next r hr => exact ⟨r, contents, hr, hcontents⟩
  · cases hcontents

/-- The dependencies in the entry of a module that leads to a file. -/
theorem exists_of_mem_dependencies_entryOf {options : Dependencies.Options} {m : Path}
    {r : Files.Place} {contents : ByteArray} (hr : d.follow m = .ok r)
    (hfile : d.entry? r = some (.file contents)) {dependency : String}
    (h : dependency ∈ (entryOf options d root m).value.dependencies) :
    ∃ text, d.readText m = .ok text ∧
      ∃ s ∈ extract (Source.Dialect.ofPath (pathOf r)) options.dynamic text, ∃ file,
        Dependencies.resolution options d (Alias.loadFor d (pathOf r.dropLast)).value
          (pathOf r.dropLast) s.request = some file ∧
        Dependencies.shown? (pathOf r.dropLast) file = some dependency := by
  have hlocated : Dependencies.located d m = .ok (r, contents) := by
    rw [Dependencies.located, hr]
    simp only [hfile]
  cases htext : String.fromUTF8? contents with
  | none =>
    rw [entryOf, Dependencies.of, hlocated] at h
    simp only [htext, List.not_mem_nil] at h
  | some text =>
    rw [entryOf, Dependencies.of, hlocated] at h
    simp only [htext] at h
    exact ⟨text, Files.Disk.readText_eq_ok hr hfile htext,
      Dependencies.exists_of_mem_resolvedAll h⟩

/-- A dependency that is written relative to a directory leads from it to the file. -/
theorem leadsTo_of_shown? (hlinks : d.LinksMissDirectories) (hback : d.HasNoBackslashes)
    {dir file : Path} {dependency : String} (hdir : dir.IsPlain) (hfile : d.NamesFile file)
    (h : Dependencies.shown? dir file = some dependency) :
    Path.LeadsTo dir.components file.components dependency := by
  obtain ⟨written, hwritten, hleads⟩ := Path.exists_slashed_relative? hfile.isPlain hdir
  obtain rfl := Option.some.inj (hwritten.symm.trans h)
  obtain ⟨e, he⟩ := hfile.exists_entry? hlinks
  have hpath := hback.components_pathOf he
  rw [Files.Disk.components_pathOf hfile.isPlain.isName_of_mem_trail,
    ← hfile.isPlain.components_eq] at hpath
  exact hleads hpath

/-- From the directory of a module that its key leads to, a dependency leads to what it leads to
from the directory in which the graph lists the module. -/
theorem eq_target {e : Graph.Entry} {m dir file : Path} {dependency : String}
    (hm : m.isAbsolute = true) (hkey : Path.LeadsTo root.components m.components e.key)
    (hdir : m.parent? = some dir)
    (hleads : Path.LeadsTo dir.components file.components dependency) :
    file.components = e.target root dependency := by
  obtain ⟨-, ⟨c, -, -, hcomponents⟩, -⟩ := Path.parent?_eq_some hm hdir
  have hlisted : Path.apply root.components (Path.body e.key.toList) = m.components := hkey.reached
  rw [Graph.Entry.target, hlisted, hcomponents, List.dropLast_concat]
  exact hleads.reached.symm

/-- **What the dependencies in a graph lead to.**  In a tree where links lead to files at most and
no name holds a backslash, every entry of a graph is about a module that its key leads to from the
root.  Each of its dependencies leads to a file, the one that a specifier of the module is resolved
to, and does so from the directory in which the module really lies.  Unless the module is a link,
that is the directory in which the graph lists it. -/
theorem exists_file_of_mem_dependencies (hd : d.IsTree) (hlinks : d.LinksMissDirectories)
    (hback : d.HasNoBackslashes) {g : Noted Graph} (hgraph : graph o d = .ok g)
    {e : Graph.Entry} (he : e ∈ g.value.entries) :
    ∃ module real dir,
      Path.LeadsTo g.value.root.components module.components e.key ∧
      d.real module = .ok real ∧ real.parent? = some dir ∧
      ∀ dependency ∈ e.dependencies, ∃ file, d.NamesFile file ∧
        Path.LeadsTo dir.components file.components dependency ∧
        (d.linkAt? module = none → file.components = e.target g.value.root dependency) ∧
        ∃ text, d.readText module = .ok text ∧
          ∃ s ∈ extract (Source.Dialect.ofPath real) o.dynamic text,
            Dependencies.resolution { dynamic := o.dynamic } d (Alias.loadFor d dir).value dir
              s.request = some file := by
  obtain ⟨root, modules, hmodules, rfl⟩ := exists_modules_of_graph hgraph
  obtain ⟨m, hm, rfl⟩ := mem_entries_iff.mp he
  obtain ⟨front, hroot, hsettled, -, -⟩ := exists_place_of_modules hd hmodules
  obtain ⟨place, entry, rfl, hentry, r, contents, hr, hfile⟩ :=
    exists_place_of_mem_modules hd hmodules hm
  have hnames := Files.Disk.isName_of_entry?_eq hentry
  have hrproper := Files.Disk.isProper_of_entry?_file hfile
  have hdir := Files.Disk.isPlain_pathOf_dropLast hrproper
  have hparent := Files.Disk.parent?_pathOf hrproper
  have hkey : Path.LeadsTo root.components (pathOf place).components
      (entryOf { dynamic := o.dynamic } d root (pathOf place)).value.key := by
    rw [key_entryOf]
    have hrootPlain : root.IsPlain := hroot ▸ Files.Disk.isPlain_pathOf hsettled.names
    exact leadsTo_keyOf hrootPlain (Files.Disk.isPlain_pathOf hnames)
      (hback.components_pathOf hentry)
  refine ⟨pathOf place, pathOf r, pathOf r.dropLast, hkey, ?_, hparent, ?_⟩
  · rw [Files.Disk.real, hr]
    rfl
  · intro dependency hdependency
    obtain ⟨text, htext, s, hs, file, hresolved, hshown⟩ :=
      exists_of_mem_dependencies_entryOf hr hfile hdependency
    have hnamesFile := Dependencies.namesFile_of_resolution hlinks hdir.isAbsolute hresolved
    have hleads := leadsTo_of_shown? hlinks hback hdir hnamesFile hshown
    refine ⟨file, hnamesFile, hleads, fun hnone => ?_, text, htext, s, hs, hresolved⟩
    have hsame : r = place := hd.eq_of_linkAt?_eq_none hentry hr hnone
    subst hsame
    exact eq_target (Files.Disk.isAbsolute_pathOf _) hkey hparent hleads

/-- A project in which one of the modules is a link to another directory. -/
def linkedModule : Files.Disk where
  entries := [(["p"], .directory), (["p", "l.ts"], .link "src/m.ts"), (["p", "src"], .directory),
    (["p", "src", "a.ts"], .file "".toUTF8), (["p", "src", "m.ts"], .file "import './a';".toUTF8)]
  here := []
  distinct := by decide
  proper := by decide

theorem linksMissDirectories_linkedModule : linkedModule.LinksMissDirectories := by
  intro place name target r he hreach
  have hmem := Files.Disk.mem_entries_of_entry?_eq (by simp) he
  have hplace : place ++ [name] = ["p"] ++ ["l.ts"] ∧ target = "src/m.ts" := by
    simpa [linkedModule] using hmem
  obtain ⟨rfl, hname⟩ := List.append_inj' hplace.1 rfl
  obtain rfl := List.singleton_inj.mp hname
  have hwalk : linkedModule.walk true 1 ["p"] ["l.ts"] = .ok ["p", "src", "m.ts"] := by
    decide +kernel
  have hfile : (linkedModule.entry? ["p", "src", "m.ts"]).any Files.Entry.isDirectory = false := by
    decide
  rw [hreach.unique (Files.Disk.reaches_of_walk hwalk)]
  intro hdirectory
  simp [hdirectory, Files.Entry.isDirectory] at hfile

theorem graph_linkedModule : ∃ g, graph { root := some ⟨"/p"⟩ } linkedModule = .ok g ∧
    g.value = ⟨⟨"/p"⟩, [⟨"l.ts", ["a.ts"]⟩, ⟨"src/a.ts", []⟩, ⟨"src/m.ts", ["a.ts"]⟩]⟩ := by
  have hmodules : modules { root := some ⟨"/p"⟩ } linkedModule =
      .ok (⟨"/p"⟩, [⟨"/p/l.ts"⟩, ⟨"/p/src/a.ts"⟩, ⟨"/p/src/m.ts"⟩]) :=
    modules_eq_ok [⟨⟨"/p"⟩, []⟩, ⟨⟨"/p/l.ts"⟩, ["l.ts"]⟩, ⟨⟨"/p/src"⟩, ["src"]⟩,
        ⟨⟨"/p/src/a.ts"⟩, ["src", "a.ts"]⟩, ⟨⟨"/p/src/m.ts"⟩, ["src", "m.ts"]⟩]
      (by decide +kernel) (by decide +kernel) (by decide +kernel) (by decide) (by decide +kernel)
  exact graph_eq_ok hmodules (by decide +kernel) (by decide +kernel)

/-- The dependency of a link leads to a file from the directory of the module that the link stands
for. -/
theorem exists_file_of_linkedModule : ∃ g,
    graph { root := some ⟨"/p"⟩ } linkedModule = .ok g ∧
    ∃ module real dir, Path.LeadsTo g.value.root.components module.components "l.ts" ∧
      linkedModule.real module = .ok real ∧ real.parent? = some dir ∧
      ∀ dependency ∈ ["a.ts"], ∃ file, linkedModule.NamesFile file ∧
        Path.LeadsTo dir.components file.components dependency := by
  obtain ⟨g, hgraph, hvalue⟩ := graph_linkedModule
  have he : (⟨"l.ts", ["a.ts"]⟩ : Graph.Entry) ∈ g.value.entries := by
    rw [hvalue]
    exact List.mem_cons_self
  obtain ⟨module, real, dir, hkey, hreal, hdir, hdependencies⟩ :=
    exists_file_of_mem_dependencies (by decide) linksMissDirectories_linkedModule (by decide)
      hgraph he
  refine ⟨g, hgraph, module, real, dir, hkey, hreal, hdir, fun dependency hmem => ?_⟩
  obtain ⟨file, hfile, hleads, -⟩ := hdependencies dependency hmem
  exact ⟨file, hfile, hleads⟩

/-- From the directory in which the graph lists a link, its dependency leads to no file. -/
theorem not_namesFile_target_linkedModule : ∃ g,
    graph { root := some ⟨"/p"⟩ } linkedModule = .ok g ∧
    ∃ e ∈ g.value.entries, ∃ dependency ∈ e.dependencies, ∀ file : Path,
      file.components = e.target g.value.root dependency → ¬ linkedModule.NamesFile file := by
  obtain ⟨g, hgraph, hvalue⟩ := graph_linkedModule
  refine ⟨g, hgraph, ⟨"l.ts", ["a.ts"]⟩, by rw [hvalue]; exact List.mem_cons_self, "a.ts",
    List.mem_cons_self, fun file hfile hnames => ?_⟩
  obtain ⟨e, he⟩ := hnames.exists_entry? linksMissDirectories_linkedModule
  have htarget : (⟨"l.ts", ["a.ts"]⟩ : Graph.Entry).target g.value.root "a.ts" =
      [.root, .name "p", .name "a.ts"] := by
    rw [hvalue]
    decide +kernel
  have htrail : file.trail = ["p", "a.ts"] := by
    rw [Path.trail, hfile, htarget]
    decide +kernel
  have hnone : (linkedModule.entry? ["p", "a.ts"]).isNone = true := by decide
  rw [← htrail, he] at hnone
  cases hnone

end Project

end ModuleGraph

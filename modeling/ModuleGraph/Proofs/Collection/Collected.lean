import ModuleGraph.Proofs.Collection.Listing
import ModuleGraph.Proofs.Path.Order
import ModuleGraph.Proofs.Path.Suffix

/-!
# What is collected

Whether a path that a walk lists is collected can be told from the path and the root: it leads to a
file, it ends with one of the known suffixes, and behind the root it has no component of the name of
installed packages and a text that contains what is asked for.  What stands in front, in the root
itself, plays no part.  Since no two listed paths mean the same, these paths form one increasing
list, and it is the list that is collected, in whatever order the walk has listed them.

## Main definitions

* `Collection.behind`: what a path means behind a root.
* `Collection.IsCollected`: the paths that are collected.
* `Collection.modulesAmong`: the modules among what a walk has listed.

## Main results

* `Collection.isModule_and_passes_iff`: what the walk keeps are the paths that are collected.
* `Collection.pairwise_precedes_modulesAmong`, `Collection.mem_modulesAmong_iff`: the modules are an
  increasing list of these paths.
* `Collection.collect_eq_ok_iff`: the modules of a project.
-/

namespace ModuleGraph.Collection

variable {d : Files.Disk} {root p : Path} {filter : Option String} {f : Found} {found : List Found}

/-! ### Texts and suffixes -/

theorem containsChars_iff {part cs : List Char} : containsChars part cs = true ↔ part <:+: cs := by
  induction cs with
  | nil => rw [containsChars, List.isEmpty_iff, List.infix_nil]
  | cons c cs ih =>
    rw [containsChars, Bool.or_eq_true, List.isPrefixOf_iff_prefix, ih, List.infix_cons_iff]

/-- The suffixes of modules hold no dots. -/
theorem dot_notMem_of_mem_moduleSuffixes :
    ∀ suffix ∈ moduleSuffixes, '.' ∉ suffix.toList := by
  decide

theorem hasModuleSuffix_iff :
    hasModuleSuffix p = true ↔ ∃ suffix ∈ moduleSuffixes, p.HasSuffix suffix := by
  have hsuffix : hasModuleSuffix p = true ↔ ∃ suffix ∈ moduleSuffixes, p.suffix? = some suffix := by
    rw [hasModuleSuffix]
    cases p.suffix? with
    | none => simp
    | some suffix => simp
  rw [hsuffix]
  refine exists_congr fun suffix => and_congr_right fun hmem => ?_
  rw [Path.suffix?_eq_some_iff, and_iff_left (dot_notMem_of_mem_moduleSuffixes suffix hmem)]

/-! ### The paths that are collected -/

/-- What a path means behind a root. -/
def behind (root p : Path) : List Path.Component := p.components.drop root.components.length

/-- The text of a path behind a root contains a part. -/
def ContainsBehind (root : Path) (part : String) (p : Path) : Prop :=
  part.toList <:+: (Path.ofComponents (behind root p)).text.toList

instance (root : Path) (part : String) (p : Path) : Decidable (ContainsBehind root part p) :=
  inferInstanceAs (Decidable (_ <:+: _))

/-- A path that is collected below a root, if a filter is asked for. -/
structure IsCollected (d : Files.Disk) (root : Path) (filter : Option String) (p : Path) :
    Prop where
  isFile : d.isFile p = true
  isBelow : root.components <+: p.components
  hasSuffix : ∃ suffix ∈ moduleSuffixes, p.HasSuffix suffix
  /-- Behind the root it goes through no directory of installed packages. -/
  notPackaged : .name packagesName ∉ behind root p
  /-- Behind the root it contains the filter. -/
  contains : ∀ part, filter = some part → ContainsBehind root part p

theorem isCollected_some_iff {part : String} : IsCollected d root (some part) p ↔
    IsCollected d root none p ∧ ContainsBehind root part p := by
  constructor
  · exact fun h => ⟨⟨h.isFile, h.isBelow, h.hasSuffix, h.notPackaged, by simp⟩, h.contains part rfl⟩
  · rintro ⟨h, hpart⟩
    refine ⟨h.isFile, h.isBelow, h.hasSuffix, h.notPackaged, fun _ heq => ?_⟩
    exact Option.some.inj heq ▸ hpart

/-- What a walk has come upon below its root: names lead to it from there. -/
structure Found.IsBelow (root : Path) (f : Found) : Prop where
  isName : ∀ name ∈ f.names, Files.isName name = true
  components : f.path.components = root.components ++ f.names.map .name

theorem Found.IsBelow.behind_eq (h : f.IsBelow root) :
    behind root f.path = f.names.map .name := by
  rw [behind, h.components, List.drop_left]

/-- What is told from the names is told from the path. -/
theorem Found.IsBelow.relativeChars_eq (h : f.IsBelow root) :
    f.relativeChars = (Path.ofComponents (behind root f.path)).text.toList := by
  have hproper := Files.Disk.isProper_of_forall_isName h.isName
  rw [h.behind_eq, Path.ofComponents_eq_joinSlash hproper, String.toList_ofList, List.map_map]
  rfl

/-- What a walk has come upon below its root is kept just if its path is collected. -/
theorem isModule_and_passes_iff (h : f.IsBelow root) :
    (isModule d f && passes filter f) = true ↔ IsCollected d root filter f.path := by
  have hmodule : isModule d f = true ↔ IsCollected d root none f.path := by
    have hpackaged : f.names.contains packagesName = false ↔
        .name packagesName ∉ behind root f.path := by
      rw [h.behind_eq]
      simp
    rw [isModule, Bool.and_eq_true, Bool.and_eq_true, Bool.not_eq_true', hpackaged,
      hasModuleSuffix_iff]
    constructor
    · rintro ⟨⟨hfile, hpackage⟩, hsuffix⟩
      exact ⟨hfile, h.components ▸ List.prefix_append _ _, hsuffix, hpackage, by simp⟩
    · exact fun hcollected => ⟨⟨hcollected.isFile, hcollected.notPackaged⟩, hcollected.hasSuffix⟩
  rw [Bool.and_eq_true, hmodule]
  cases filter with
  | none => simp [passes]
  | some part =>
    rw [isCollected_some_iff, passes, containsChars_iff, h.relativeChars_eq]
    rfl

/-! ### What a walk has come upon -/

/-- A walk lists the standard input, or what the listed names lead to from its root. -/
theorem walk_cases (h : walk d root = .ok found) : found = [standardInput] ∨
    root.text ≠ "" ∧ ∃ place, found = (listed d root place).map (Found.ofNames root) := by
  unfold walk at h
  split at h
  · exact .inl (Except.ok.inj h).symm
  · split at h
    · cases h
    · next place hplace =>
      refine .inr ⟨?_, place, ?_⟩
      · intro htext
        simp [Files.Disk.follow, Files.Disk.followIf, htext] at hplace
      · rw [walkFrom_eq] at h
        split_ifs at h
        exact (Except.ok.inj h).symm

theorem isName_of_mem_listed {place : Files.Place} {names : List String}
    (h : names ∈ listed d root place) : ∀ name ∈ names, Files.isName name = true := by
  by_cases hne : names = []
  · simp [hne]
  · obtain ⟨e, he⟩ := Files.Disk.entry?_isSome_of_mem_places (mem_places_of_mem_listed h hne)
    exact fun name hname =>
      Files.Disk.isName_of_entry?_eq he name (List.mem_append_right place hname)

theorem isBelow_ofNames (hroot : root.text ≠ "") {names : List String}
    (h : ∀ name ∈ names, Files.isName name = true) : (Found.ofNames root names).IsBelow root :=
  ⟨h, Path.components_foldl_join hroot fun name hname => Path.isName_iff.mp (h name hname)⟩

/-- What a walk lists is kept just if its path is collected. -/
theorem keeps_iff_of_walk (h : walk d root = .ok found) (hf : f ∈ found) :
    (isModule d f && passes filter f) = true ↔ IsCollected d root filter f.path := by
  rcases walk_cases h with rfl | ⟨hroot, place, rfl⟩
  · -- The standard input has no suffix.
    obtain rfl := List.mem_singleton.mp hf
    have hsuffix : hasModuleSuffix standardInput.path = false := by decide
    rw [isModule_standardInput, Bool.false_and]
    refine iff_of_false Bool.false_ne_true fun hcollected => ?_
    rw [hasModuleSuffix_iff.mpr hcollected.hasSuffix] at hsuffix
    cases hsuffix
  · obtain ⟨names, hnames, rfl⟩ := List.mem_map.mp hf
    exact isModule_and_passes_iff (isBelow_ofNames hroot (isName_of_mem_listed hnames))

/-- No two paths that a walk lists mean the same. -/
theorem nodup_components_of_walk (h : walk d root = .ok found) :
    (found.map fun f => f.path.components).Nodup := by
  rcases walk_cases h with rfl | ⟨hroot, place, rfl⟩
  · exact List.nodup_singleton _
  · rw [List.map_map]
    refine (nodup_listed d root place).map_on fun as has bs hbs heq => ?_
    have hcomponents {names : List String} (hnames : names ∈ listed d root place) :=
      (isBelow_ofNames hroot (isName_of_mem_listed hnames)).components
    rw [Function.comp_apply, Function.comp_apply, hcomponents has, hcomponents hbs] at heq
    exact List.map_injective_iff.mpr (fun _ _ => Path.Component.name.inj)
      (List.append_cancel_left heq)

/-! ### The modules -/

/-- The modules among what a walk has listed, sorted by their paths. -/
def modulesAmong (d : Files.Disk) (filter : Option String) (found : List Found) : List Path :=
  ((found.filter fun f => isModule d f && passes filter f).map Found.path).mergeSort Path.le

theorem collect_of_walk (h : walk d root = .ok found) (filter : Option String) :
    collect d root filter = .ok (modulesAmong d filter found) := by
  rw [collect, h]
  rfl

/-- The modules are an increasing list. -/
theorem pairwise_precedes_modulesAmong (h : walk d root = .ok found) (filter : Option String) :
    (modulesAmong d filter found).Pairwise Path.Precedes := by
  refine Path.pairwise_precedes_mergeSort ?_
  rw [List.map_map]
  exact (nodup_components_of_walk h).sublist (List.filter_sublist.map _)

/-- The modules are the listed paths that are collected. -/
theorem mem_modulesAmong_iff (h : walk d root = .ok found) :
    p ∈ modulesAmong d filter found ↔ p ∈ found.map Found.path ∧ IsCollected d root filter p := by
  rw [modulesAmong, List.mem_mergeSort, List.mem_map, List.mem_map]
  constructor
  · rintro ⟨f, hf, rfl⟩
    obtain ⟨hfound, hkept⟩ := List.mem_filter.mp hf
    exact ⟨⟨f, hfound, rfl⟩, (keeps_iff_of_walk h hfound).mp hkept⟩
  · rintro ⟨⟨f, hfound, rfl⟩, hcollected⟩
    exact ⟨f, List.mem_filter.mpr ⟨hfound, (keeps_iff_of_walk h hfound).mpr hcollected⟩, rfl⟩

/-- The modules do not depend on the order in which they are listed. -/
theorem modulesAmong_eq_of_perm (h : walk d root = .ok found) {order : List Found}
    (hperm : order.Perm found) : modulesAmong d filter order = modulesAmong d filter found := by
  refine Path.mergeSort_eq_of_perm ((hperm.filter _).map Found.path) fun p hp q hq heq => ?_
  have hlisted {p : Path} (hp : p ∈ (order.filter fun f => isModule d f && passes filter f).map
      Found.path) : ∃ f ∈ found, f.path = p := by
    obtain ⟨f, hf, rfl⟩ := List.mem_map.mp hp
    exact ⟨f, hperm.mem_iff.mp (List.mem_filter.mp hf).1, rfl⟩
  obtain ⟨f, hf, rfl⟩ := hlisted hp
  obtain ⟨g, hg, rfl⟩ := hlisted hq
  rw [List.inj_on_of_nodup_map (nodup_components_of_walk h) hf hg heq]

theorem collect_eq_error_iff {fault : Fault} :
    collect d root filter = .error fault ↔ walk d root = .error fault := by
  rw [collect]
  cases walk d root with
  | error e => simp [Except.map]
  | ok found => simp [Except.map]

/-- No module is collected twice. -/
theorem nodup_collect {modules : List Path} (h : collect d root filter = .ok modules) :
    modules.Nodup := by
  cases hwalk : walk d root with
  | error fault => cases h.symm.trans (collect_eq_error_iff.mpr hwalk)
  | ok found =>
    obtain rfl := Except.ok.inj (h.symm.trans (collect_of_walk hwalk filter))
    exact (pairwise_precedes_modulesAmong hwalk filter).nodup

/-- The modules that a filter keeps are those of all modules that contain it. -/
theorem collect_some_eq (d : Files.Disk) (root : Path) (part : String) :
    collect d root (some part) =
      (collect d root none).map (List.filter fun p => ContainsBehind root part p) := by
  cases hwalk : walk d root with
  | error fault => rw [collect_eq_error_iff.mpr hwalk, collect_eq_error_iff.mpr hwalk]; rfl
  | ok found =>
    rw [collect_of_walk hwalk, collect_of_walk hwalk, Except.map]
    refine congrArg Except.ok (List.Pairwise.eq_of_mem_iff
      (pairwise_precedes_modulesAmong hwalk _)
      ((pairwise_precedes_modulesAmong hwalk _).sublist List.filter_sublist) fun p => ?_)
    rw [List.mem_filter, mem_modulesAmong_iff hwalk, mem_modulesAmong_iff hwalk,
      isCollected_some_iff, decide_eq_true_eq, and_assoc]

/-- **The modules of a project.**  They cannot be collected just if the walk fails.  Otherwise they
are the increasing list of just those listed paths that lead to files, end with the suffix of a
module, go through no directory of installed packages behind the root and contain the filter there,
whatever stands in front; the order in which the walk has listed them does not matter.  With a
filter they are those modules without a filter that contain it. -/
theorem collect_eq_ok_iff (d : Files.Disk) (root : Path) (filter : Option String) :
    (∀ fault, collect d root filter = .error fault ↔ walk d root = .error fault) ∧
    (∀ found, walk d root = .ok found →
      (∀ order : List Found, order.Perm found →
        collect d root filter = .ok (modulesAmong d filter order)) ∧
      ∀ modules, collect d root filter = .ok modules ↔
        modules.Pairwise Path.Precedes ∧
        ∀ p, p ∈ modules ↔ p ∈ found.map Found.path ∧ IsCollected d root filter p) ∧
    ∀ part, collect d root (some part) =
      (collect d root none).map (List.filter fun p => ContainsBehind root part p) := by
  refine ⟨fun fault => collect_eq_error_iff, fun found hwalk => ⟨fun order hperm => ?_,
    fun modules => ?_⟩, collect_some_eq d root⟩
  · rw [collect_of_walk hwalk, modulesAmong_eq_of_perm hwalk hperm]
  · rw [collect_of_walk hwalk, Except.ok.injEq]
    have hincreasing := pairwise_precedes_modulesAmong hwalk filter
    constructor
    · rintro rfl
      exact ⟨hincreasing, fun p => mem_modulesAmong_iff hwalk⟩
    · rintro ⟨hmodules, hmem⟩
      refine hincreasing.eq_of_mem_iff hmodules fun p => ?_
      rw [hmem, mem_modulesAmong_iff hwalk]

/-- A tree whose root has the name of installed packages, with a module, a link to it, a link that
leads nowhere, an installed package, and a directory whose name merely contains that of installed
packages and merely ends like that of a module. -/
def packagesTree : Files.Disk where
  entries := [(["node_modules"], .directory),
    (["node_modules", "a.ts"], .file .empty),
    (["node_modules", "l.mjs"], .link "a.ts"),
    (["node_modules", "n.js"], .link "nowhere"),
    (["node_modules", "node_modules"], .directory),
    (["node_modules", "node_modules", "q.ts"], .file .empty),
    (["node_modules", "node_modules.ts"], .directory),
    (["node_modules", "node_modules.ts", "m.tsx"], .file .empty)]
  here := []
  distinct := by decide +kernel
  proper := by decide +kernel

/-- What the walk of the tree lists. -/
def packagesFound : List Found :=
  [[], ["a.ts"], ["l.mjs"], ["n.js"], ["node_modules"], ["node_modules", "q.ts"],
    ["node_modules.ts"], ["node_modules.ts", "m.tsx"]].map (Found.ofNames ⟨"/node_modules"⟩)

private theorem walk_packagesTree :
    walk packagesTree ⟨"/node_modules"⟩ = .ok packagesFound ∧
    (packagesFound.filter fun f => isModule packagesTree f && passes none f).map Found.path =
      [⟨"/node_modules/a.ts"⟩, ⟨"/node_modules/l.mjs"⟩,
        ⟨"/node_modules/node_modules.ts/m.tsx"⟩] := by
  decide +kernel

/-- Three modules are collected, and one of them if a part of its path is asked for. -/
theorem collect_packagesTree :
    walk packagesTree ⟨"/node_modules"⟩ = .ok packagesFound ∧
    collect packagesTree ⟨"/node_modules"⟩ none = .ok [⟨"/node_modules/a.ts"⟩,
      ⟨"/node_modules/l.mjs"⟩, ⟨"/node_modules/node_modules.ts/m.tsx"⟩] ∧
    collect packagesTree ⟨"/node_modules"⟩ (some "node_modules") =
      .ok [⟨"/node_modules/node_modules.ts/m.tsx"⟩] ∧
    ¬ IsCollected packagesTree ⟨"/node_modules"⟩ none ⟨"/node_modules/n.js"⟩ := by
  obtain ⟨hwalk, hkept⟩ := walk_packagesTree
  obtain ⟨-, hfound, hfilter⟩ := collect_eq_ok_iff packagesTree ⟨"/node_modules"⟩ none
  obtain ⟨horder, hmodules⟩ := hfound _ hwalk
  have hcollect : collect packagesTree ⟨"/node_modules"⟩ none = .ok [⟨"/node_modules/a.ts"⟩,
      ⟨"/node_modules/l.mjs"⟩, ⟨"/node_modules/node_modules.ts/m.tsx"⟩] := by
    rw [horder _ (.refl _), modulesAmong, hkept, List.mergeSort_of_pairwise (by decide +kernel)]
  refine ⟨hwalk, hcollect, ?_, fun hcollected => ?_⟩
  · rw [hfilter, hcollect]
    decide +kernel
  · have hmem := (((hmodules _).mp hcollect).2 ⟨"/node_modules/n.js"⟩).mpr
      ⟨by decide +kernel, hcollected⟩
    exact absurd hmem (by decide)

end ModuleGraph.Collection

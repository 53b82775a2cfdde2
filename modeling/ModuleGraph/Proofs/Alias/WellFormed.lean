import ModuleGraph.Alias.Load
import ModuleGraph.Proofs.Path.Normal

/-!
# Well-formed configurations

A configuration is *well formed* if it says nothing at all or if its base directory and the targets
of all its aliases are absolute paths in lexical normal form.  Options that stand in an absolute
directory give a well-formed configuration, whatever their texts are: the base directory is the
lexical normal form of an absolute path, and so are the targets below it.  A configuration that can
be read stands in a directory, since the root itself is no file.

## Main definitions

* `Alias.Config.IsWellFormed`: the configurations whose directories are in lexical normal form.
* `Alias.placed`: the alias of a key and a target below a place.

## Main results

* `Alias.ofOptions_of_baseUrl`: what options in an absolute directory give.
* `Alias.isWellFormed_load`: what is loaded at absolute paths is well formed.
* `Alias.value_load_isWellFormed`: what is loaded at absolute paths.
-/

namespace ModuleGraph

namespace Files.Disk

variable {d : Disk} {p : Path}

/-- A text is read in a directory: with nothing above it, an absolute path leads to the root. -/
theorem exists_parent?_of_readText {text : String} (hp : p.isAbsolute = true)
    (h : d.readText p = .ok text) : ∃ dir, p.parent? = some dir ∧ dir.isAbsolute = true := by
  cases hparent : p.parent? with
  | some dir => exact ⟨dir, rfl, (Path.parent?_eq_some hp hparent).1⟩
  | none =>
    obtain ⟨place, contents, hplace, hentry, -⟩ := exists_file_of_readText h
    have htrail : p.trail = [] := by
      rw [Path.trail, Path.parent?_eq_none hp hparent]
      rfl
    have hroot : d.Reaches false [] p.trail [] := by
      rw [htrail]
      exact .done []
    obtain rfl := hroot.eq_of_followIf hp hplace
    cases hentry

end Files.Disk

namespace Alias

open Files.Disk (pathOf)

/-- A configuration that says nothing, or whose directories are in lexical normal form. -/
structure Config.IsWellFormed (c : Config) : Prop where
  aliases_eq_nil : c.baseDir = none → c.aliases = []
  isNormal_baseDir : ∀ dir, c.baseDir = some dir → dir.IsNormal
  isNormal_target : ∀ a ∈ c.aliases, a.target.IsNormal

theorem Config.isWellFormed_empty : ({} : Config).IsWellFormed := ⟨fun _ => rfl, nofun, nofun⟩

/-- A well-formed configuration says nothing just if it has no base directory. -/
theorem Config.IsWellFormed.isEmpty_iff {c : Config} (h : c.IsWellFormed) :
    c.isEmpty = true ↔ c.baseDir = none := by
  rw [Config.isEmpty, Bool.and_eq_true_iff, Option.isNone_iff_eq_none, List.isEmpty_iff]
  exact and_iff_left_of_imp h.aliases_eq_nil

/-! ### Where directories lie -/

/-- The alias of a key and one of its targets, below the place of the base directory. -/
def placed (base : Files.Place) (key target : String) : Alias :=
  ⟨stripWildcard key, pathOf (Path.placeFrom base (stripWildcard target))⟩

/-- The aliases of entries are those of their keys and targets. -/
theorem mem_ofPaths_pathOf_iff {base : Files.Place} (h : ∀ name ∈ base, Files.isName name = true)
    {paths : List (String × Json.Value)} {a : Alias} : a ∈ ofPaths (pathOf base) paths ↔
      ∃ entry ∈ paths, ∃ target ∈ (targets? entry.2).getD [], a = placed base entry.1 target := by
  have halias (key target : String) : (⟨stripWildcard key,
      ((pathOf base).join (stripWildcard target)).clean⟩ : Alias) = placed base key target := by
    rw [Path.clean_join (Files.Disk.isAbsolute_pathOf base), Path.placeFrom_text_pathOf h, placed]
  simp only [ofPaths, ofEntry, List.mem_flatMap, List.mem_map, halias, eq_comm (a := a)]

/-- Options in an absolute directory that name a base directory: it lies where its text leads to
from there, and the targets lie where theirs lead to from the base directory. -/
theorem ofOptions_of_baseUrl {directory : Path} (hdir : directory.isAbsolute = true) {o : Options}
    {baseUrl : String} (hbase : o.baseUrl = some baseUrl) :
    ∃ base, base = Path.placeFrom (Path.placeFrom [] directory.text) baseUrl ∧
      (∀ name ∈ base, Files.isName name = true) ∧
      (Config.ofOptions directory o).baseDir = some (pathOf base) ∧
      ∀ a, a ∈ (Config.ofOptions directory o).aliases ↔ ∃ entry ∈ o.paths.getD [],
        ∃ target ∈ (targets? entry.2).getD [], a = placed base entry.1 target := by
  have hnames := Path.isName_of_mem_placeFrom
    (Path.isName_of_mem_placeFrom (List.forall_mem_nil _) directory.text) baseUrl
  refine ⟨_, rfl, hnames, ?_, fun a => ?_⟩
  · rw [Config.ofOptions, hbase]
    exact congrArg some (Path.clean_join hdir baseUrl)
  · rw [Config.ofOptions, hbase, ← mem_ofPaths_pathOf_iff hnames, ← Path.clean_join hdir]

/-! ### What is loaded -/

/-- Options in an absolute directory give a well-formed configuration. -/
theorem isWellFormed_ofOptions {directory : Path} (hdir : directory.isAbsolute = true)
    (o : Options) : (Config.ofOptions directory o).IsWellFormed := by
  cases hbase : o.baseUrl with
  | none =>
    rw [Config.ofOptions, hbase]
    exact Config.isWellFormed_empty
  | some baseUrl =>
    obtain ⟨base, -, hnames, hdirectory, haliases⟩ := ofOptions_of_baseUrl hdir hbase
    refine ⟨fun hnone => ?_, fun dir h => ?_, fun a ha => ?_⟩
    · rw [hdirectory] at hnone
      cases hnone
    · rw [hdirectory] at h
      exact Option.some.inj h ▸ Path.isNormal_pathOf hnames
    · obtain ⟨entry, -, target, -, rfl⟩ := (haliases a).mp ha
      exact Path.isNormal_pathOf (Path.isName_of_mem_placeFrom hnames _)

/-- What is loaded from options in a directory. -/
theorem value_load_of_options {d : Files.Disk} {file dir : Path} {text : String} {options : Options}
    (htext : d.readText file = .ok text)
    (hoptions : Document.options? text = some (some options)) (hparent : file.parent? = some dir) :
    (load d file).value = Config.ofOptions dir options := by
  unfold load
  rw [htext]
  dsimp only
  rw [hoptions, hparent]
  rfl

/-- What is loaded is empty, or it is what options that are read in a directory give. -/
theorem load_cases (d : Files.Disk) {file : Path} (hfile : file.isAbsolute = true) :
    (load d file).value = {} ∨ ∃ dir options, dir.isAbsolute = true ∧
      (load d file).value = Config.ofOptions dir options := by
  cases htext : d.readText file with
  | error fault => exact .inl (by simp [load, htext])
  | ok text =>
    obtain ⟨dir, hparent, hdir⟩ := Files.Disk.exists_parent?_of_readText hfile htext
    match hoptions : Document.options? text with
    | none => exact .inl (by simp [load, htext, hoptions])
    | some none => exact .inl (by simp [load, htext, hoptions])
    | some (some options) =>
      exact .inr ⟨dir, options, hdir, value_load_of_options htext hoptions hparent⟩

/-- What is loaded at an absolute path is well formed, whatever is found there. -/
theorem isWellFormed_load (d : Files.Disk) {file : Path} (hfile : file.isAbsolute = true) :
    (load d file).value.IsWellFormed := by
  rcases load_cases d hfile with hempty | ⟨dir, options, hdir, hoptions⟩
  · rw [hempty]
    exact Config.isWellFormed_empty
  · rw [hoptions]
    exact isWellFormed_ofOptions hdir options

/-- **Configurations are well formed.**  Whatever is found at an absolute path, a configuration is
loaded that is empty just if it has no base directory, and whose base directory and targets are in
lexical normal form.  If options with a base directory are found, these are not lost: the base
directory lies where its text leads to from the directory of the configuration, and there is an
alias for each key and target of the paths and no other, which lies where the text of the target
leads to from the base directory. -/
theorem value_load_isWellFormed (d : Files.Disk) {file : Path} (hfile : file.isAbsolute = true) :
    (load d file).value.IsWellFormed ∧
    ((load d file).value.isEmpty = true ↔ (load d file).value.baseDir = none) ∧
    ∀ text options baseUrl, d.readText file = .ok text →
      Document.options? text = some (some options) → options.baseUrl = some baseUrl →
      ∃ dir base, file.parent? = some dir ∧
        base = Path.placeFrom (Path.placeFrom [] dir.text) baseUrl ∧
        (load d file).value.baseDir = some (pathOf base) ∧
        ∀ a, a ∈ (load d file).value.aliases ↔ ∃ entry ∈ options.paths.getD [],
          ∃ target ∈ (targets? entry.2).getD [], a = placed base entry.1 target := by
  have hformed := isWellFormed_load d hfile
  refine ⟨hformed, hformed.isEmpty_iff, fun text options baseUrl htext hoptions hbase => ?_⟩
  obtain ⟨dir, hparent, hdir⟩ := Files.Disk.exists_parent?_of_readText hfile htext
  obtain ⟨base, hplace, -, hdirectory, haliases⟩ := ofOptions_of_baseUrl hdir hbase
  rw [value_load_of_options htext hoptions hparent]
  exact ⟨dir, base, hparent, hplace, hdirectory, haliases⟩

/-- The text of a configuration that names its base directory with empty segments and goes up beyond
the root, and whose targets are empty, absolute, or go up again. -/
def strayText : String :=
  "\x7b\"compilerOptions\":\x7b\"baseUrl\":\"..//../..//lib/./\",\"paths\":\x7b" ++
    "\"a\":[\"\",\"../../src/*\"],\"b\":\"//x/.//y/\",\"c\":0\x7d\x7d\x7d"

/-- A project with such a configuration. -/
def strayTargets : Files.Disk where
  entries := [(["p"], .directory), (["p", "tsconfig.json"], .file strayText.toUTF8)]
  here := []
  distinct := by decide
  proper := by decide +kernel

private theorem load_strayTargets :
    strayTargets.readText ⟨"/p/tsconfig.json"⟩ = .ok strayText ∧
    ((Document.options? strayText).bind id).bind Options.baseUrl = some "..//../..//lib/./" ∧
    (load strayTargets ⟨"/p/tsconfig.json"⟩).value.aliases =
      [⟨"a", ⟨"/lib"⟩⟩, ⟨"a", ⟨"/src"⟩⟩, ⟨"b", ⟨"/x/y"⟩⟩] := by
  decide +kernel

/-- The base directory and the targets are in lexical normal form all the same. -/
theorem value_load_isWellFormed_strayTargets :
    (⟨"/p/tsconfig.json"⟩ : Path).isAbsolute = true ∧
    (load strayTargets ⟨"/p/tsconfig.json"⟩).value.baseDir = some ⟨"/lib"⟩ ∧
    (load strayTargets ⟨"/p/tsconfig.json"⟩).value.aliases =
      [⟨"a", ⟨"/lib"⟩⟩, ⟨"a", ⟨"/src"⟩⟩, ⟨"b", ⟨"/x/y"⟩⟩] ∧
    (⟨"/x/y"⟩ : Path).IsNormal := by
  have hfile : (⟨"/p/tsconfig.json"⟩ : Path).isAbsolute = true := by decide
  obtain ⟨htext, hbase, haliases⟩ := load_strayTargets
  obtain ⟨options, hoptions, hbase⟩ := Option.bind_eq_some_iff.mp hbase
  obtain ⟨found, hfound, rfl⟩ := Option.bind_eq_some_iff.mp hoptions
  obtain ⟨hformed, -, hload⟩ := value_load_isWellFormed strayTargets hfile
  obtain ⟨dir, base, hparent, rfl, hdirectory, -⟩ := hload _ _ _ htext hfound hbase
  obtain rfl : ⟨"/p"⟩ = dir := by
    have hdir : (⟨"/p/tsconfig.json"⟩ : Path).parent? = some ⟨"/p"⟩ := by decide
    exact Option.some.inj (hdir.symm.trans hparent)
  refine ⟨hfile, hdirectory.trans (by decide), haliases, ?_⟩
  exact hformed.isNormal_target ⟨"b", ⟨"/x/y"⟩⟩ (by simp [haliases])

end Alias

end ModuleGraph

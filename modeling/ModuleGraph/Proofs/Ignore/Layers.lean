import ModuleGraph.Ignore.Layer
import ModuleGraph.Proofs.Files.Tree
import ModuleGraph.Proofs.Resolution.Absolute

/-!
# The rules that speak for a place

Of all the layers of a tree, those of the directories above a place decide whether it is left out,
and within a repository the rules of the user.  Where no file of rules speaks for these directories,
nothing is.

## Main definitions

* `Ignore.HasNoRules`: no file of rules speaks for a directory.

## Main results

* `Ignore.layersAbove_eq`: the layers above a place are those of the directories above it.
* `Ignore.isIgnored_eq_false`: without rules nothing is left out.
-/

namespace ModuleGraph.Ignore

open Files.Disk (pathOf)

variable {d : Files.Disk} {dir place : Files.Place}

/-! ### Layers above a place -/

theorem isDirectoryAt_iff : isDirectoryAt d place = true ↔ d.entry? place = some .directory := by
  unfold isDirectoryAt
  split
  · simp_all
  · simp_all

/-- The places above a place are those that something leads from to it. -/
theorem exists_append_of_mem_above (h : dir ∈ above place) :
    ∃ back, back ≠ [] ∧ dir ++ back = place := by
  induction place generalizing dir with
  | nil => cases h
  | cons name rest ih =>
    rcases List.mem_append.mp h with h | h
    · obtain ⟨front, hfront, rfl⟩ := List.mem_map.mp h
      obtain ⟨back, hne, hback⟩ := ih hfront
      exact ⟨back, hne, by rw [List.cons_append, hback]⟩
    · exact ⟨name :: rest, List.cons_ne_nil _ _, by rw [List.mem_singleton.mp h]; rfl⟩

theorem prefix_of_mem_above (h : dir ∈ above place) : dir <+: place := by
  obtain ⟨back, -, hback⟩ := exists_append_of_mem_above h
  exact ⟨back, hback⟩

/-- The layer of a directory is found under its place. -/
theorem find?_layers (d : Files.Disk) (place : Files.Place) :
    (layers d).find? (fun l => l.place == place) =
      if isDirectoryAt d place then some (Layer.of d place) else none := by
  cases hfound : (layers d).find? (fun l => l.place == place) with
  | none =>
    rw [if_neg]
    intro hdir
    have hmem : place ∈ ([] :: d.places).filter (isDirectoryAt d) := by
      refine List.mem_filter.mpr ⟨?_, hdir⟩
      by_cases hne : place = []
      · rw [hne]
        exact List.mem_cons_self
      · exact List.mem_cons_of_mem _
          (Files.Disk.mem_places_of_entry?_eq hne (isDirectoryAt_iff.mp hdir))
    have hnot := List.find?_eq_none.mp hfound _ (List.mem_map_of_mem hmem)
    exact hnot (beq_self_eq_true place)
  | some l =>
    have hplace : l.place = place := by simpa using List.find?_some hfound
    obtain ⟨front, hfront, rfl⟩ := List.mem_map.mp (List.mem_of_find?_eq_some hfound)
    obtain rfl : front = place := hplace
    rw [if_pos (List.mem_filter.mp hfront).2]

/-- The layers above a place are those of the directories above it. -/
theorem layersAbove_eq (d : Files.Disk) (place : Files.Place) :
    layersAbove (layers d) place = ((above place).filter (isDirectoryAt d)).map (Layer.of d) := by
  unfold layersAbove
  simp only [find?_layers]
  induction above place with
  | nil => rfl
  | cons dir dirs ih =>
    by_cases hdir : isDirectoryAt d dir = true
    · simp [hdir, ih]
    · simp [hdir, ih]

/-! ### Directories without rules -/

/-- No file of rules speaks for a directory: neither its own, nor that of a repository, nor one that
is private to the repository of the directory, wherever it lies, nor, if the directory is the root
of a repository, that of the user. -/
structure HasNoRules (d : Files.Disk) (dir : Files.Place) : Prop where
  own : d.isFile (Layer.ownFile (pathOf dir)) = false
  shared : d.isFile (Layer.sharedFile (pathOf dir)) = false
  hidden : ∀ p, privateDirectory? d (pathOf dir) = .ok (some p) →
    d.isFile (Layer.hiddenFile p) = false
  user : (Layer.of d dir).isRepository = true → ∀ file, userFile? d = some file →
    d.isFile file = false

theorem hasNoRules_iff : HasNoRules d dir ↔
    d.isFile (Layer.ownFile (pathOf dir)) = false ∧
      d.isFile (Layer.sharedFile (pathOf dir)) = false ∧
      (privateDirectory? d (pathOf dir)).toOption.join.all
        (fun p => !d.isFile (Layer.hiddenFile p)) = true ∧
      ((Layer.of d dir).isRepository = true → (userFile? d).all (fun p => !d.isFile p) = true) := by
  constructor
  · rintro ⟨hown, hshared, hhidden, huser⟩
    refine ⟨hown, hshared, ?_, fun hrepository => ?_⟩
    · cases hp : privateDirectory? d (pathOf dir) with
      | error fault => rfl
      | ok found =>
        cases found with
        | none => rfl
        | some p => simpa [Except.toOption] using hhidden p hp
    · cases hfile : userFile? d with
      | none => rfl
      | some file => simpa using huser hrepository file hfile
  · rintro ⟨hown, hshared, hhidden, huser⟩
    refine ⟨hown, hshared, fun p hp => ?_, fun hrepository file hfile => ?_⟩
    · rw [hp] at hhidden
      simpa [Except.toOption] using hhidden
    · have huser := huser hrepository
      rw [hfile] at huser
      simpa using huser

instance (d : Files.Disk) (dir : Files.Place) : Decidable (HasNoRules d dir) :=
  decidable_of_iff _ hasNoRules_iff.symm

/-- Where there is no file, there are no rules. -/
theorem rules_rulesAt_eq_nil {file : Path} (h : d.isFile file = false) :
    (rulesAt d file).rules = [] := by
  unfold rulesAt
  split
  · split
    · next contents hcontents =>
      obtain ⟨place, hplace, he⟩ := Files.Disk.exists_file_of_readBytes hcontents
      simp [Files.Disk.isFile, Files.Disk.reach?, hplace, he, Files.Entry.isFile] at h
    · rfl
  · rfl

/-- A layer that says nothing. -/
theorem HasNoRules.layer_of (h : HasNoRules d dir) : (Layer.of d dir).own = [] ∧
    (Layer.of d dir).shared = [] ∧ (Layer.of d dir).hidden = [] := by
  rw [Layer.of]
  dsimp only
  refine ⟨rules_rulesAt_eq_nil h.own, rules_rulesAt_eq_nil h.shared, ?_⟩
  unfold Layer.hiddenRules
  split
  · next p hp => exact rules_rulesAt_eq_nil (h.hidden p hp)
  · rfl

/-- At the root of a repository without rules, the user has none either. -/
theorem HasNoRules.userRules_eq_nil (h : HasNoRules d dir)
    (hrepository : (Layer.of d dir).isRepository = true) : userRules d = [] := by
  unfold userRules
  split
  · next file hfile => exact rules_rulesAt_eq_nil (h.user hrepository file hfile)
  · rfl

theorem mem_of_mem_withinRepository {l : Layer} {ls : List Layer} (h : l ∈ withinRepository ls) :
    l ∈ ls := by
  unfold withinRepository at h
  split at h
  · cases h
  · next root rest hdrop =>
    rcases List.mem_append.mp h with h | h
    · exact (List.takeWhile_sublist _).subset h
    · rw [List.mem_singleton.mp h]
      have hmem : root ∈ ls.dropWhile (!·.isRepository) := hdrop ▸ List.mem_cons_self
      exact (List.dropWhile_sublist _).subset hmem

/-- Without rules nothing is left out, under whatever path it is found. -/
theorem isIgnored_eq_false (path : Path)
    (h : ∀ dir, dir <+: place → d.entry? dir = some .directory → HasNoRules d dir) :
    isIgnored d (layers d) (userRules d) path place = false := by
  have hlayer {l : Layer} (hl : l ∈ layersAbove (layers d) place) :
      ∃ dir, HasNoRules d dir ∧ Layer.of d dir = l := by
    rw [layersAbove_eq] at hl
    obtain ⟨dir, hdir, rfl⟩ := List.mem_map.mp hl
    obtain ⟨habove, hdirectory⟩ := List.mem_filter.mp hdir
    exact ⟨dir, h dir (prefix_of_mem_above habove) (isDirectoryAt_iff.mp hdirectory), rfl⟩
  have hsilent {l : Layer} (hl : l ∈ layersAbove (layers d) place) :
      l.own = [] ∧ l.shared = [] ∧ l.hidden = [] := by
    obtain ⟨dir, hrules, rfl⟩ := hlayer hl
    exact hrules.layer_of
  have hnone {ls : List Layer} {rules : Layer → List Rule} {isDirectory : Bool}
      (hls : ∀ l ∈ ls, rules l = []) :
      ls.findSome? (Layer.says? rules place isDirectory) = none := by
    refine List.findSome?_eq_none_iff.mpr fun l hl => ?_
    rw [Layer.says?, hls l hl]
    rfl
  have huser (path : List UInt8) (isDirectory : Bool) :
      (if (layersAbove (layers d) place).any Layer.isRepository then
        decide? (userRules d) path isDirectory else none) = none := by
    split
    · next hany =>
      obtain ⟨l, hl, hrepository⟩ := List.any_eq_true.mp hany
      obtain ⟨dir, hrules, rfl⟩ := hlayer hl
      rw [hrules.userRules_eq_nil hrepository]
      rfl
    · rfl
  rw [isIgnored, verdict?, hnone fun l hl => (hsilent hl).1,
    hnone fun l hl => (hsilent (mem_of_mem_withinRepository hl)).2.1,
    hnone fun l hl => (hsilent (mem_of_mem_withinRepository hl)).2.2, huser]
  rfl

/-- A repository of a user who has `b.ts` left out in all repositories. -/
def ownedProject : Files.Disk where
  entries := [(["h"], .directory), (["h", ".config"], .directory),
    (["h", ".config", "git"], .directory),
    (["h", ".config", "git", "ignore"], .file "b.ts\n".toUTF8), (["h", "p"], .directory),
    (["h", "p", ".git"], .directory),
    (["h", "p", "a.ts"], .file "import './b';".toUTF8),
    (["h", "p", "b.ts"], .file "".toUTF8), (["h", "b.ts"], .file "".toUTF8)]
  here := []
  home := some ⟨"/h"⟩
  distinct := by decide
  proper := by decide

/-- Outside of the repository the rules of the user do not count. -/
example : HasNoRules ownedProject ["h"] ∧ ¬ HasNoRules ownedProject ["h", "p"] ∧
    [["h", "b.ts"], ["h", "p", "a.ts"], ["h", "p", "b.ts"]].filter (fun place =>
      isIgnored ownedProject (layers ownedProject) (userRules ownedProject) (pathOf place) place) =
        [["h", "p", "b.ts"]] := by
  decide +kernel

end ModuleGraph.Ignore

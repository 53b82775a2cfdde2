import ModuleGraph.Proofs.Files.Outline
import ModuleGraph.Proofs.Ignore.Layers

/-!
# The files that rules are read from

The rules of a directory are read from its own file, from that of the repository, and from the one
that is private to the repository; where a file stands in the place of the repository, further files
lead to that one.  The rules of the user are read from one more file, to which the settings of the
user lead.  In two trees with the same outline in which these files agree, the directory contributes
the same rules and the user has the same ones, so the same places are left out.

## Main definitions

* `Ignore.filesRead`: the files that are read for the rules of a directory.
* `Ignore.SameRules`: two trees agree in the files that are read for the rules of a directory.

## Main results

* `Ignore.SameRules.layer_eq`, `Ignore.SameRules.faults_eq`: the same rules, and the same faults.
* `Ignore.SameRules.userRules_eq`: the user has the same rules.
* `Ignore.isIgnored_eq`: the same places are left out.
-/

namespace ModuleGraph.Ignore

variable {d₁ d₂ : Files.Disk}

open Files.Disk (pathOf)

/-- The directory that a file in the place of the repository of a directory points to. -/
def pointedFrom? (d : Files.Disk) (dir : Path) : Option Path :=
  match firstLine d (dir.join repositoryName) with
  | .ok (some line) => pointedTo? line
  | _ => none

/-- The files that are read for the rules of a directory: its own rules, those of the repository,
and the private ones and those of the user, with the files that lead to them. -/
def filesRead (d : Files.Disk) (dir : Path) : List Path :=
  [Layer.ownFile dir, Layer.sharedFile dir, dir.join repositoryName] ++
    (pointedFrom? d dir).toList.map (·.join "commondir") ++
    (privateDirectory? d dir).toOption.join.toList.map Layer.hiddenFile ++
    settingsFiles d ++ (userFile? d).toList

/-- Two trees agree in the files that are read for the rules of a directory. -/
def SameRules (d₁ d₂ : Files.Disk) (dir : Path) : Prop :=
  ∀ file ∈ filesRead d₁ dir, d₁.readBytes file = d₂.readBytes file

theorem rulesAt_eq (h : d₁.SameOutline d₂) {file : Path}
    (hfile : d₁.readBytes file = d₂.readBytes file) : rulesAt d₁ file = rulesAt d₂ file := by
  rw [rulesAt, rulesAt, h.occupied_eq, hfile]

theorem firstLine_eq {file : Path} (hfile : d₁.readBytes file = d₂.readBytes file) :
    firstLine d₁ file = firstLine d₂ file := by
  rw [firstLine, firstLine, hfile]

theorem SameRules.privateDirectory?_eq (h : d₁.SameOutline d₂) {dir : Path}
    (hdir : SameRules d₁ d₂ dir) : privateDirectory? d₁ dir = privateDirectory? d₂ dir := by
  have hrepository : firstLine d₁ (dir.join repositoryName) =
      firstLine d₂ (dir.join repositoryName) :=
    firstLine_eq (hdir _ (by simp [filesRead]))
  have hcommon (target : Path) (htarget : pointedFrom? d₁ dir = some target) :
      firstLine d₁ (target.join "commondir") = firstLine d₂ (target.join "commondir") :=
    firstLine_eq (hdir _ (by simp [filesRead, htarget]))
  unfold pointedFrom? at hcommon
  simp only [privateDirectory?, h.isFile_eq, ← hrepository]
  cases hline : firstLine d₁ (dir.join repositoryName) with
  | error fault => simp only [bind, Except.bind]
  | ok line =>
    cases line with
    | none => simp only [bind, Except.bind]
    | some line =>
      simp only [hline] at hcommon
      cases htarget : pointedTo? line with
      | none => simp only [bind, Except.bind, htarget]
      | some target =>
        simp only [bind, Except.bind, htarget, hcommon target htarget]

theorem SameRules.hidden_eq (h : d₁.SameOutline d₂) {dir p : Path} (hdir : SameRules d₁ d₂ dir)
    (hp : privateDirectory? d₁ dir = .ok (some p)) :
    rulesAt d₁ (Layer.hiddenFile p) = rulesAt d₂ (Layer.hiddenFile p) :=
  rulesAt_eq h (hdir _ (by simp [filesRead, hp, Except.toOption]))

theorem SameRules.own_eq (h : d₁.SameOutline d₂) {dir : Path} (hdir : SameRules d₁ d₂ dir) :
    rulesAt d₁ (Layer.ownFile dir) = rulesAt d₂ (Layer.ownFile dir) :=
  rulesAt_eq h (hdir _ (by simp [filesRead]))

theorem SameRules.shared_eq (h : d₁.SameOutline d₂) {dir : Path} (hdir : SameRules d₁ d₂ dir) :
    rulesAt d₁ (Layer.sharedFile dir) = rulesAt d₂ (Layer.sharedFile dir) :=
  rulesAt_eq h (hdir _ (by simp [filesRead]))

theorem SameRules.hiddenRules_eq (h : d₁.SameOutline d₂) {dir : Path}
    (hdir : SameRules d₁ d₂ dir) : Layer.hiddenRules d₁ dir = Layer.hiddenRules d₂ dir := by
  unfold Layer.hiddenRules
  rw [← hdir.privateDirectory?_eq h]
  cases hp : privateDirectory? d₁ dir with
  | error fault => dsimp only
  | ok found =>
    cases found with
    | none => dsimp only
    | some p => simp only [hdir.hidden_eq h hp]

theorem SameRules.hiddenFaults_eq (h : d₁.SameOutline d₂) {dir : Path}
    (hdir : SameRules d₁ d₂ dir) : Layer.hiddenFaults d₁ dir = Layer.hiddenFaults d₂ dir := by
  unfold Layer.hiddenFaults
  rw [← hdir.privateDirectory?_eq h]
  cases hp : privateDirectory? d₁ dir with
  | error fault => dsimp only
  | ok found =>
    cases found with
    | none => dsimp only
    | some p => simp only [faultsAt, hdir.hidden_eq h hp]

/-- The directory contributes the same rules. -/
theorem SameRules.layer_eq (h : d₁.SameOutline d₂) {dir : Files.Place}
    (hdir : SameRules d₁ d₂ (pathOf dir)) : Layer.of d₁ dir = Layer.of d₂ dir := by
  simp only [Layer.of, hdir.own_eq h, hdir.shared_eq h, hdir.hiddenRules_eq h, h.occupied_eq]

/-- The same is wrong with the rules of the directory. -/
theorem SameRules.faults_eq (h : d₁.SameOutline d₂) {dir : Files.Place}
    (hdir : SameRules d₁ d₂ (pathOf dir)) : Layer.faults d₁ dir = Layer.faults d₂ dir := by
  simp only [Layer.faults, faultsAt, hdir.own_eq h, hdir.shared_eq h, hdir.hiddenFaults_eq h]

/-! ### The rules of the user -/

theorem configDirectory?_eq (h : d₁.SameOutline d₂) :
    configDirectory? d₁ = configDirectory? d₂ := by
  rw [configDirectory?, configDirectory?, h.home, h.configHome]

theorem settingsFiles_eq (h : d₁.SameOutline d₂) : settingsFiles d₁ = settingsFiles d₂ := by
  rw [settingsFiles, settingsFiles, h.home, configDirectory?_eq h]

/-- The settings name the same file. -/
theorem SameRules.userFile?_eq (h : d₁.SameOutline d₂) {dir : Path} (hdir : SameRules d₁ d₂ dir) :
    userFile? d₁ = userFile? d₂ := by
  have hnamed : ∀ file ∈ settingsFiles d₁, namedIn? d₁ file = namedIn? d₂ file := by
    intro file hfile
    rw [namedIn?, namedIn?, hdir file (by simp [filesRead, hfile]), h.home]
  rw [userFile?, userFile?, ← List.head?_filterMap, List.filterMap_congr hnamed,
    List.head?_filterMap, settingsFiles_eq h, configDirectory?_eq h]

/-- The user has the same rules. -/
theorem SameRules.userRules_eq (h : d₁.SameOutline d₂) {dir : Path} (hdir : SameRules d₁ d₂ dir) :
    userRules d₁ = userRules d₂ := by
  unfold userRules
  rw [← hdir.userFile?_eq h]
  cases hfile : userFile? d₁ with
  | none => rfl
  | some file => simp only [rulesAt_eq h (hdir file (by simp [filesRead, hfile]))]

theorem userBytes_eq (h : d₁.SameOutline d₂) : userBytes d₁ = userBytes d₂ := by
  funext path
  rw [userBytes, userBytes, h.here]

/-! ### What is left out -/

theorem isDirectoryAt_eq (h : d₁.SameOutline d₂) : isDirectoryAt d₁ = isDirectoryAt d₂ := by
  funext place
  rcases h.cases place with ⟨h₁, h₂⟩ | ⟨h₁, h₂⟩ | ⟨c₁, c₂, h₁, h₂⟩ | ⟨target, h₁, h₂⟩ <;>
    simp only [isDirectoryAt, h₁, h₂]

/-- The same places are left out. -/
theorem isIgnored_eq (h : d₁.SameOutline d₂) {place : Files.Place}
    (hrules : ∀ dir, dir <+: place → d₁.entry? dir = some .directory →
      SameRules d₁ d₂ (pathOf dir)) (path : Path) :
    isIgnored d₁ (layers d₁) (userRules d₁) path place =
      isIgnored d₂ (layers d₂) (userRules d₂) path place := by
  have hlayers : layersAbove (layers d₁) place = layersAbove (layers d₂) place := by
    rw [layersAbove_eq, layersAbove_eq, ← isDirectoryAt_eq h]
    refine List.map_congr_left fun dir hdir => ?_
    obtain ⟨habove, hdirectory⟩ := List.mem_filter.mp hdir
    exact (hrules dir (prefix_of_mem_above habove) (isDirectoryAt_iff.mp hdirectory)).layer_eq h
  -- The root is a directory above every place, and one directory is enough for the user.
  have huser := (hrules [] List.nil_prefix Files.Disk.entry?_nil).userRules_eq h
  rw [isIgnored, isIgnored, hlayers, huser, userBytes_eq h, isDirectoryAt_eq h]

end ModuleGraph.Ignore

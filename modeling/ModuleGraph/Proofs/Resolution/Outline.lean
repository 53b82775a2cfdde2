import ModuleGraph.Dependencies
import ModuleGraph.Proofs.Files.Outline

/-!
# What resolution reads

Of the contents of files, resolution reads the descriptions of packages and the configurations of
aliases, and nothing else.  So in two trees with the same outline in which those agree, every
request is resolved to the same file, and the dependencies of a module agree if its own contents
do.

## Main definitions

* `Resolution.SameDescriptions`: two trees with the same outline in which the descriptions of
  packages read alike.
* `Resolution.SamePackages`: two trees without links with the same outline and the same descriptions
  of packages.

## Main results

* `Resolution.SameDescriptions.resolve?_eq`: every request is resolved to the same file.
* `Alias.loadFor_eq`: every directory is governed by the same aliases.
* `Dependencies.of_eq`: a module with the same contents has the same dependencies.
-/

namespace ModuleGraph

variable {d₁ d₂ : Files.Disk}

namespace Resolution

/-- Two trees with the same outline in which the description of a package reads alike in every
directory. -/
structure SameDescriptions (d₁ d₂ : Files.Disk) : Prop where
  outline : d₁.SameOutline d₂
  reads : ∀ dir : Path,
    d₁.readBytes (dir.join descriptionName) = d₂.readBytes (dir.join descriptionName)

/-- Two trees without links that have the same outline and the same descriptions of packages. -/
structure SamePackages (d₁ d₂ : Files.Disk) : Prop where
  outline : d₁.SameOutline d₂
  noLinks : d₁.HasNoLinks
  descriptions : Files.Disk.SameNamed descriptionName d₁ d₂

theorem SamePackages.sameDescriptions (h : SamePackages d₁ d₂) : SameDescriptions d₁ d₂ :=
  ⟨h.outline, h.outline.readBytes_join_eq h.noLinks (by decide) h.descriptions⟩

namespace SameDescriptions

section Packages

variable (h : SameDescriptions d₁ d₂)
include h

theorem any_isFile_eq (p : Path) :
    (d₁.found? p).any Files.Entry.isFile = (d₂.found? p).any Files.Entry.isFile :=
  Files.Disk.any_eq_of_map_outline Files.Entry.isFile_outline (h.outline.found?_outline p)

theorem any_isDirectory_eq (p : Path) :
    (d₁.found? p).any Files.Entry.isDirectory = (d₂.found? p).any Files.Entry.isDirectory :=
  Files.Disk.any_eq_of_map_outline Files.Entry.isDirectory_outline (h.outline.found?_outline p)

theorem packageAt_eq : packageAt d₁ = packageAt d₂ := by
  funext dir
  unfold packageAt
  rw [h.reads, h.outline.canonical_eq]

theorem nearestPackage_eq : nearestPackage d₁ = nearestPackage d₂ := by
  funext p
  simp only [nearestPackage, directoriesAbove, h.packageAt_eq, h.any_isDirectory_eq]

theorem checkPackages_eq : checkPackages d₁ = checkPackages d₂ := by
  funext p
  simp only [checkPackages, h.packageAt_eq, h.nearestPackage_eq, h.any_isDirectory_eq]

end Packages

/-! ### Searches -/

section Searches

open Setting

variable (h : SameDescriptions d₁ d₂) (suffixes : List String)
include h

theorem isFile_eq : Setting.isFile ⟨d₁, suffixes⟩ = Setting.isFile ⟨d₂, suffixes⟩ :=
  funext h.any_isFile_eq

theorem isDirectory_eq :
    Setting.isDirectory ⟨d₁, suffixes⟩ = Setting.isDirectory ⟨d₂, suffixes⟩ :=
  funext h.any_isDirectory_eq

theorem withSuffix_eq : withSuffix ⟨d₁, suffixes⟩ = withSuffix ⟨d₂, suffixes⟩ := by
  funext p
  rw [withSuffix, withSuffix, h.isFile_eq]

theorem asFile_eq : asFile ⟨d₁, suffixes⟩ = asFile ⟨d₂, suffixes⟩ := by
  funext p
  rw [asFile, asFile, h.isFile_eq, h.withSuffix_eq]

theorem asDirectory_eq : asDirectory ⟨d₁, suffixes⟩ = asDirectory ⟨d₂, suffixes⟩ := by
  funext dir
  simp only [asDirectory, index, h.packageAt_eq, h.asFile_eq, h.withSuffix_eq]

theorem asEither_eq : asEither ⟨d₁, suffixes⟩ = asEither ⟨d₂, suffixes⟩ := by
  funext fileToo p
  rw [asEither, asEither, h.isDirectory_eq, h.asFile_eq, h.asDirectory_eq]

theorem asExport_eq : asExport ⟨d₁, suffixes⟩ = asExport ⟨d₂, suffixes⟩ := by
  funext dir request query
  simp only [asExport, asMatch, h.nearestPackage_eq, h.asEither_eq]

theorem asImport_eq : asImport ⟨d₁, suffixes⟩ = asImport ⟨d₂, suffixes⟩ := by
  funext dir request
  simp only [asImport, asMatch, h.nearestPackage_eq, h.asEither_eq]

theorem search_eq : search ⟨d₁, suffixes⟩ = search ⟨d₂, suffixes⟩ := by
  have hsearchPath : searchPath ⟨d₁, suffixes⟩ = searchPath ⟨d₂, suffixes⟩ := by
    funext dir path query
    simp only [searchPath, h.asEither_eq, h.asExport_eq, h.asImport_eq]
  funext dir request
  rw [search, search, hsearchPath]

/-- Every request is resolved to the same file. -/
theorem resolve?_eq : resolve? ⟨d₁, suffixes⟩ = resolve? ⟨d₂, suffixes⟩ := by
  funext dir request
  simp only [resolve?, settle, h.search_eq, h.outline.canonical_eq, h.checkPackages_eq]

end Searches

end SameDescriptions

end Resolution

/-! ### Aliases -/

namespace Alias

/-- A configuration that is found is the one of its name in some directory. -/
theorem exists_join_of_locateFrom {d : Files.Disk} {start dir file : Path} {left : Nat}
    (h : (locateFrom d start left dir).value = some file) :
    ∃ above : Path, file = above.join configName := by
  fun_induction locateFrom d start left dir with
  | case1 => cases h
  | case2 _ dir => exact ⟨dir, (Option.some.inj h).symm⟩
  | case3 _ _ _ _ _ ih => exact ih h
  | case4 => cases h

theorem locateFrom_eq (h : d₁.SameOutline d₂) (start : Path) (left : Nat) :
    locateFrom d₁ start left = locateFrom d₂ start left := by
  induction left with
  | zero => rfl
  | succ left ih =>
    funext dir
    rw [locateFrom, locateFrom, h.isFile_eq, ih]

/-- Every directory is governed by the same aliases. -/
theorem loadFor_eq (h : d₁.SameOutline d₂) (hlinks : d₁.HasNoLinks)
    (hconfig : Files.Disk.SameNamed configName d₁ d₂) : loadFor d₁ = loadFor d₂ := by
  funext dir
  have hlocate : locate d₁ dir = locate d₂ dir := by
    rw [locate, locate, locateFrom_eq h]
  have hload (above : Path) :
      load d₁ (above.join configName) = load d₂ (above.join configName) := by
    rw [load, load, Files.Disk.readText, Files.Disk.readText,
      h.readBytes_join_eq hlinks (by decide) hconfig above]
  unfold loadFor
  rw [hlocate]
  cases hfile : (locate d₂ dir).value with
  | none => simp only [hfile]
  | some file =>
    obtain ⟨above, rfl⟩ := exists_join_of_locateFrom hfile
    simp only [hfile, hload]

end Alias

/-! ### Dependencies -/

namespace Dependencies

variable {o : Options}

theorem resolution_eq (h : Resolution.SameDescriptions d₁ d₂) :
    resolution o d₁ = resolution o d₂ := by
  funext config dir request
  rw [resolution, resolution, h.resolve?_eq]

/-- A module with the same contents is found with them at the same place. -/
theorem located_eq (h : d₁.SameOutline d₂) {file : Path}
    (hsame : d₁.readBytes file = d₂.readBytes file) : located d₁ file = located d₂ file := by
  rw [Files.Disk.readBytes, Files.Disk.readBytes, h.follow_eq] at hsame
  rw [located, located, h.follow_eq]
  cases hfollow : d₂.follow file with
  | error fault => rfl
  | ok place =>
    rw [hfollow] at hsame
    rcases h.cases place with ⟨h₁, h₂⟩ | ⟨h₁, h₂⟩ | ⟨c₁, c₂, h₁, h₂⟩ | ⟨target, h₁, h₂⟩ <;>
      simp only [h₁, h₂]
    have hcontents : (Except.ok c₁ : Except Files.Fault ByteArray) = .ok c₂ := by
      simpa only [bind, Except.bind, h₁, h₂] using hsame
    rw [Except.ok.inj hcontents]

theorem ofText_eq (h : Resolution.SamePackages d₁ d₂)
    (hconfig : Files.Disk.SameNamed Alias.configName d₁ d₂) : ofText o d₁ = ofText o d₂ := by
  funext place text
  rw [ofText, ofText, Alias.loadFor_eq h.outline h.noLinks hconfig]
  simp only [resolvedAll, resolution_eq h.sameDescriptions]

/-- A module with the same contents has the same dependencies. -/
theorem of_eq (h : Resolution.SamePackages d₁ d₂)
    (hconfig : Files.Disk.SameNamed Alias.configName d₁ d₂) {file : Path}
    (hsame : d₁.readBytes file = d₂.readBytes file) : of o d₁ file = of o d₂ file := by
  rw [of, of, located_eq h.outline hsame, ofText_eq h hconfig]

end Dependencies

end ModuleGraph

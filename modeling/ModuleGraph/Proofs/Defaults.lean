import ModuleGraph.Proofs.Alias.Nearest
import ModuleGraph.Proofs.Alias.Void
import ModuleGraph.Proofs.Dependencies
import ModuleGraph.Proofs.Resolution.Outline

/-!
# Dependencies without a configuration

Whether the dependencies of a module can be told is a matter of the module alone: it has to be a
file that holds text.  Whatever is wrong with the nearest configuration, a configuration that says
nothing is as good as an empty one: every specifier is resolved from the directory of the module,
and no configuration further up is asked.

A file can stand in more than one role.  Where the configuration is the module itself, or is read as
the description of a package through a link, its contents matter in the other role too, and an empty
configuration in its stead gives other dependencies.

## Main results

* `Dependencies.exists_error_iff`: when the dependencies of a module cannot be told.
* `Alias.loadFor_value_of_isVoid`: below a configuration that says nothing there are no aliases.
* `Dependencies.of_isVoid`: the dependencies of a module below a configuration that says nothing.
-/

namespace ModuleGraph

open Files.Disk (pathOf)

variable {d : Files.Disk}

namespace Files.Disk

variable {p : Path} {place : Place}

theorem exists_entry?_of_isFile (h : d.isFile p = true) :
    ∃ place contents, d.follow p = .ok place ∧ d.entry? place = some (.file contents) := by
  rw [isFile, reach?] at h
  split at h
  · next place hplace =>
    rcases hentry : d.entry? place with _ | _ | contents | _ <;>
      simp [hentry, Entry.isFile] at h
    exact ⟨place, contents, hplace, hentry⟩
  · simp at h

theorem readBytes_of_entry? {contents : ByteArray} (hplace : d.follow p = .ok place)
    (hentry : d.entry? place = some (.file contents)) : d.readBytes p = .ok contents := by
  simp only [readBytes, hplace, bind, Except.bind, hentry]

end Files.Disk

/-! ### Aliases -/

namespace Alias

variable {dir config : Path} {bytes : ByteArray}

/-- A configuration that is found in the first directories of a chain is the nearest one. -/
theorem locateIn_of_take {chain : List Path} {n : Nat} {file : Path}
    (h : locateIn d (chain.take n) = some file) : locateIn d chain = some file := by
  rw [locateIn] at h
  rw [locateIn, ← List.take_append_drop n chain, List.map_append, List.find?_append, h,
    Option.some_or]

/-- Below a configuration that says nothing there are no aliases, not even if another one stands
further up. -/
theorem loadFor_value_of_isVoid (hdir : dir.isAbsolute = true)
    (hnearest : locateIn d dir.ancestors = some config)
    (hbytes : d.readBytes config = .ok bytes) (hvoid : Document.IsVoid bytes) :
    (loadFor d dir).value = {} := by
  have hvalue := (locateFrom_of_isChain d dir (Path.isChain_ancestors hdir) maxDirectories).1
  unfold loadFor locate
  dsimp only
  rw [hvalue]
  cases hfound : locateIn d (dir.ancestors.take maxDirectories) with
  | none => rfl
  | some file =>
    obtain rfl := Option.some.inj ((locateIn_of_take hfound).symm.trans hnearest)
    exact (load_value_eq_empty_iff hbytes).mpr hvoid

/-- The contents of an empty configuration. -/
def Document.blank : ByteArray := "\x7b\x7d".toUTF8

theorem Document.isVoid_blank : Document.IsVoid Document.blank := by
  have hvalue : Json.readChars? (Document.plainText "\x7b\x7d".toList) = some (.object []) := rfl
  exact .noOptions (by decide) hvalue (.object (.cons (.absent (by simp)) .nil))

end Alias

/-! ### Dependencies -/

namespace Dependencies

variable {o : Options} {file : Path}

/-- The dependencies of a module cannot be told exactly if it is not a file or does not hold text:
no configuration matters to it. -/
theorem exists_error_iff : (∃ fault, of o d file = .error fault) ↔
    d.isFile file = false ∨ d.readText file = .error .notText := by
  cases hfile : d.isFile file with
  | false =>
    refine iff_of_true ?_ (.inl rfl)
    rw [Files.Disk.isFile, Files.Disk.reach?] at hfile
    refine ⟨.notAFile file, ?_⟩
    rw [of, located]
    split at hfile
    · next place hplace =>
      rcases hentry : d.entry? place with _ | _ | _ | _ <;>
        simp [hentry, Files.Entry.isFile] at hfile <;> simp only [hplace, hentry]
    · next fault hfault => simp only [hfault]
  | true =>
    obtain ⟨place, contents, hplace, hentry⟩ := Files.Disk.exists_entry?_of_isFile hfile
    have hlocated : located d file = .ok (place, contents) := by
      simp only [located, hplace, hentry]
    rw [of, hlocated, Files.Disk.readText, Files.Disk.readBytes_of_entry? hplace hentry]
    cases htext : String.fromUTF8? contents with
    | none => simp [htext, bind, Except.bind]
    | some text => simp [htext, bind, Except.bind]

/-- The dependencies of the module at a place, by its text, without any configuration: every
specifier is resolved from the directory of the module. -/
def byDefault (o : Options) (d : Files.Disk) (place : Files.Place) (text : String) : List String :=
  ((extract (Source.Dialect.ofPath (pathOf place)) o.dynamic text).filterMap fun s =>
    (Resolution.Setting.mk d o.suffixes).resolve? (pathOf place.dropLast) s.request).filterMap
      (shown? (pathOf place.dropLast))

theorem ofText_value_of_empty {place : Files.Place}
    (h : (Alias.loadFor d (pathOf place.dropLast)).value = {}) (text : String) :
    (ofText o d place text).value = byDefault o d place text := by
  simp only [ofText, h]
  rfl

theorem byDefault_eq {d₁ d₂ : Files.Disk} (h : Resolution.SameDescriptions d₁ d₂) :
    byDefault o d₁ = byDefault o d₂ := by
  funext place text
  rw [byDefault, byDefault, h.resolve?_eq]

theorem follow_of_located {place : Files.Place} {contents : ByteArray}
    (h : located d file = .ok (place, contents)) : d.follow file = .ok place := by
  unfold located at h
  split at h
  · cases h
  · next found hfound =>
    split at h
    · obtain ⟨rfl, -⟩ := Prod.mk.inj (Except.ok.inj h)
      exact hfound
    · cases h

/-- A module that is found alike has the same dependencies in two trees if its text does. -/
theorem map_value_eq {d₁ d₂ : Files.Disk} (hlocated : located d₁ file = located d₂ file)
    (h : ∀ place contents, located d₁ file = .ok (place, contents) → ∀ text,
      (ofText o d₁ place text).value = (ofText o d₂ place text).value) :
    (of o d₁ file).map Noted.value = (of o d₂ file).map Noted.value := by
  rw [of, of, ← hlocated]
  cases hfound : located d₁ file with
  | error fault => rfl
  | ok found =>
    obtain ⟨place, contents⟩ := found
    cases htext : String.fromUTF8? contents with
    | none => simp only [htext]
    | some text => simp only [htext, Except.map, h place contents hfound text]

/-- Writing an empty configuration over one that says nothing changes no dependencies of a module
below it, unless the file is the module itself or is read as the description of a package. -/
theorem map_value_of_write {place target : Files.Place} {config : Path} {bytes : ByteArray}
    (hplace : d.follow file = .ok place)
    (hnearest : Alias.locateIn d (pathOf place.dropLast).ancestors = some config)
    (hbytes : d.readBytes config = .ok bytes) (hvoid : Alias.Document.IsVoid bytes)
    (htarget : d.follow config = .ok target) (hmodule : target ≠ place)
    (hpackages : ∀ dir : Path, d.follow (dir.join Resolution.descriptionName) ≠ .ok target) :
    (of o (d.write config Alias.Document.blank) file).map Noted.value =
      (of o d file).map Noted.value := by
  have hconfig : d.entry? target = some (.file bytes) := by
    have hread := hbytes
    simp only [Files.Disk.readBytes, htarget, bind, Except.bind] at hread
    split at hread
    · next contents hcontents => rw [hcontents, Except.ok.inj hread]
    · cases hread
    · cases hread
  rw [Files.Disk.write, htarget]
  have houtline := Files.Disk.sameOutline_put hconfig Alias.Document.blank
  have hsame : Resolution.SameDescriptions d (d.put target (.file Alias.Document.blank)) :=
    ⟨houtline, fun dir => (Files.Disk.readBytes_put hconfig _ (hpackages dir)).symm⟩
  have hlocated : located d file = located (d.put target (.file Alias.Document.blank)) file := by
    refine located_eq houtline (Files.Disk.readBytes_put hconfig _ fun h => hmodule ?_).symm
    exact Except.ok.inj (h.symm.trans hplace)
  have hblank : (d.put target (.file Alias.Document.blank)).readBytes config =
      .ok Alias.Document.blank :=
    Files.Disk.readBytes_of_entry? (houtline.follow_eq ▸ htarget)
      (Files.Disk.entry?_put_self (Files.Disk.isProper_of_entry?_file hconfig) _)
  have hnearest' : Alias.locateIn (d.put target (.file Alias.Document.blank))
      (pathOf place.dropLast).ancestors = some config := by
    rw [Alias.locateIn, ← houtline.isFile_eq]
    exact hnearest
  have hdir := Files.Disk.isAbsolute_pathOf place.dropLast
  refine map_value_eq hlocated.symm fun found contents hfound text => ?_
  rw [← hlocated] at hfound
  obtain rfl := Except.ok.inj ((follow_of_located hfound).symm.trans hplace)
  rw [ofText_value_of_empty
      (Alias.loadFor_value_of_isVoid hdir hnearest' hblank Alias.Document.isVoid_blank),
    ofText_value_of_empty (Alias.loadFor_value_of_isVoid hdir hnearest hbytes hvoid),
    byDefault_eq hsame]

/-- A project with a malformed configuration below one that gives an alias. -/
def brokenConfig : Files.Disk where
  entries := [(["tsconfig.json"], .file ("\x7b\"compilerOptions\":\x7b\"baseUrl\":\".\"," ++
      "\"paths\":\x7b\"@/*\":[\"lib/*\"]\x7d\x7d\x7d").toUTF8),
    (["lib"], .directory), (["lib", "b.ts"], .file "".toUTF8), (["p"], .directory),
    (["p", "tsconfig.json"], .file "\x7b\"compilerOptions\":".toUTF8),
    (["p", "m.ts"], .file "import './a'; import '@/b';".toUTF8), (["p", "a.ts"], .file "".toUTF8)]
  here := []
  distinct := by decide
  proper := by decide

private theorem reads_brokenConfig :
    brokenConfig.follow ⟨"/p/m.ts"⟩ = .ok ["p", "m.ts"] ∧
      brokenConfig.readText ⟨"/p/m.ts"⟩ = .ok "import './a'; import '@/b';" ∧
      brokenConfig.follow ⟨"/p/tsconfig.json"⟩ = .ok ["p", "tsconfig.json"] ∧
      brokenConfig.readBytes ⟨"/p/tsconfig.json"⟩ = .ok "\x7b\"compilerOptions\":".toUTF8 ∧
      ((pathOf ["p"]).ancestors.map fun dir => dir.join "tsconfig.json").find?
        brokenConfig.isFile = some ⟨"/p/tsconfig.json"⟩ ∧
      byDefault {} brokenConfig ["p", "m.ts"] "import './a'; import '@/b';" = ["a.ts"] := by
  decide +kernel

/-- A project whose configuration is a module. -/
def configModule : Files.Disk where
  entries := [(["tsconfig.json"], .file "import './a';".toUTF8), (["a.ts"], .file "".toUTF8)]
  here := []
  distinct := by decide
  proper := by decide

/-- A project whose configuration is a link to the description of its package. -/
def configPackage : Files.Disk where
  entries := [(["package.json"], .file "\x7b".toUTF8), (["tsconfig.json"], .link "package.json"),
    (["m.ts"], .file "import './a';".toUTF8), (["a.ts"], .file "".toUTF8)]
  here := []
  distinct := by decide
  proper := by decide

private theorem nearest_doubleRoles :
    ((pathOf []).ancestors.map fun dir => dir.join "tsconfig.json").find? configModule.isFile =
        some ⟨"/tsconfig.json"⟩ ∧
      ((pathOf []).ancestors.map fun dir => dir.join "tsconfig.json").find? configPackage.isFile =
        some ⟨"/tsconfig.json"⟩ ∧
      configModule.readBytes ⟨"/tsconfig.json"⟩ = .ok "import './a';".toUTF8 ∧
      configPackage.readBytes ⟨"/tsconfig.json"⟩ = .ok "\x7b".toUTF8 ∧
      String.fromUTF8? "import './a';".toUTF8 = some "import './a';" ∧
      String.fromUTF8? "\x7b".toUTF8 = some "\x7b" ∧
      (Json.readChars? (Alias.Document.plainText "import './a';".toList)).isNone = true ∧
      (Json.readChars? (Alias.Document.plainText "\x7b".toList)).isNone = true := by
  decide +kernel

private theorem dependencies_doubleRoles :
    (of {} configModule ⟨"/tsconfig.json"⟩).map Noted.value = .ok ["a.ts"] ∧
      (of {} (configModule.write ⟨"/tsconfig.json"⟩ "\x7b\x7d".toUTF8) ⟨"/tsconfig.json"⟩).map
        Noted.value = .ok [] ∧
      (of {} configPackage ⟨"/m.ts"⟩).map Noted.value = .ok [] ∧
      (of {} (configPackage.write ⟨"/tsconfig.json"⟩ "\x7b\x7d".toUTF8) ⟨"/m.ts"⟩).map
        Noted.value = .ok ["a.ts"] := by
  decide +kernel

end Dependencies

end ModuleGraph

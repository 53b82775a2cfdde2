import ModuleGraph.Proofs.Alias.Nearest
import ModuleGraph.Proofs.Alias.WellFormed

/-!
# Targets of aliases

The configuration that governs an absolute directory is found at an absolute path, so it is well
formed, and the targets of its aliases are plain paths.

## Main results

* `Alias.isAbsolute_of_locate`: where the configuration is found.
* `Alias.isPlain_target_of_mem_loadFor`: targets of the aliases that govern an absolute directory.
-/

namespace ModuleGraph.Alias

/-- A configuration that governs an absolute directory is absolute. -/
theorem isAbsolute_of_locate {d : Files.Disk} {dir file : Path} (hdir : dir.isAbsolute = true)
    (h : (locate d dir).value = some file) : file.isAbsolute = true := by
  have hchain := Path.isChain_ancestors hdir
  obtain ⟨above, hnearest, rfl⟩ := ((locate_of_isChain d hchain).1 file).mp h
  have habove := hchain.isAbsolute_of_mem hdir (List.mem_of_mem_take hnearest.mem)
  exact Path.isAbsolute_join habove configName

/-- The targets of the aliases that govern an absolute directory are plain. -/
theorem isPlain_target_of_mem_loadFor {d : Files.Disk} {dir : Path} {a : Alias}
    (hdir : dir.isAbsolute = true) (h : a ∈ (loadFor d dir).value.aliases) : a.target.IsPlain := by
  unfold loadFor at h
  dsimp only at h
  split at h
  · simp at h
  · next file hfile =>
    exact ((isWellFormed_load d (isAbsolute_of_locate hdir hfile)).isNormal_target a h).isPlain

end ModuleGraph.Alias

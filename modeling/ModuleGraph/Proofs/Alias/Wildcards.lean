import ModuleGraph.Proofs.Alias.Origin
import ModuleGraph.Proofs.Path.Clean

/-!
# Wildcards that aliases keep

One wildcard is taken off the end of every key and of every target, before the target is joined to
the base directory and worked off.  An alias can therefore keep a wildcard.  Its stem does if the
key has two of them at its end.  Its target does in more ways, since joining and working off come
later: a target that is nothing but `*` has no wildcard to lose, a `/` behind the wildcard hides it,
and a `..` brings one back that stands in front.  What decides is only the name that the joined path
ends with.

## Main results

* `Alias.stripWildcard_keeps_iff`: the patterns that keep a wildcard.
* `Alias.keeps_wildcard_iff`: the aliases of a configuration that keep one.
-/

namespace ModuleGraph.Alias

/-- A pattern keeps a wildcard if it ends with two. -/
theorem stripWildcard_keeps_iff {pattern : String} :
    (∃ front, stripWildcard pattern = front ++ "/*") ↔ ∃ front, pattern = front ++ "/*/*" := by
  have htwo (front : String) : front ++ "/*/*" = front ++ "/*" ++ "/*" := by
    rw [String.append_assoc]
    rfl
  constructor
  · rintro ⟨front, hfront⟩
    rcases isStem_iff.mpr hfront with hpattern | ⟨hpattern, hnone⟩
    · exact ⟨front, hpattern.trans (htwo front).symm⟩
    · exact absurd hpattern (hnone front)
  · rintro ⟨front, rfl⟩
    exact ⟨front, by rw [htwo, stripWildcard_append]⟩

/-- **Which aliases keep a wildcard.**  An alias of a configuration comes from a key and a target.
Its stem ends with a wildcard just if the key ends with two of them.  Its target ends with a
component `*` just if that is the name which the target, without one wildcard at its end and joined
to the base directory, ends with once `..` has been worked off. -/
theorem keeps_wildcard_iff {d : Files.Disk} {file : Path} {a : Alias}
    (ha : a ∈ (load d file).value.aliases) :
    ∃ base key target below, Gives d file base key target ∧ IsStem target below ∧
      a = ofTarget base key target ∧
      ((∃ front, a.stem = front ++ "/*") ↔ ∃ front, key = front ++ "/*/*") ∧
      (a.target.components.getLast? = some (.name "*") ↔
        Path.standing? 0 (base.join below).components.reverse = some "*") := by
  obtain ⟨base, key, target, hgives, rfl⟩ := mem_aliases_load_iff.mp ha
  refine ⟨base, key, target, stripWildcard target, hgives, isStem_iff.mpr rfl, rfl, ?_, ?_⟩
  · rw [stem_ofTarget]
    exact stripWildcard_keeps_iff
  · rw [target_ofTarget]
    exact Path.getLast?_components_clean_iff

/-- A configuration whose first key and target end with two wildcards, and whose second ones are
nothing but a wildcard. -/
def doubledConfig : Files.Disk where
  entries := [(["tsconfig.json"], .file ("\x7b\"compilerOptions\":\x7b\"baseUrl\":\".\"," ++
    "\"paths\":\x7b\"@/*/*\":[\"src/*/*\"],\"*\":[\"*\"]\x7d\x7d\x7d").toUTF8)]
  here := []
  distinct := by decide +kernel
  proper := by decide +kernel

private theorem value_load_doubledConfig :
    (load doubledConfig ⟨"/tsconfig.json"⟩).value =
      ⟨some ⟨"/"⟩, [⟨"@/*", ⟨"/src/*"⟩⟩, ⟨"*", ⟨"/*"⟩⟩]⟩ := by
  decide +kernel

/-- From the wildcard that a stem keeps, the two wildcards of its key can be told. -/
theorem keeps_wildcard_doubledConfig :
    ⟨"@/*", ⟨"/src/*"⟩⟩ ∈ (load doubledConfig ⟨"/tsconfig.json"⟩).value.aliases ∧
      ∃ base front target,
        Gives doubledConfig ⟨"/tsconfig.json"⟩ base (front ++ "/*/*") target := by
  have hmem : ⟨"@/*", ⟨"/src/*"⟩⟩ ∈ (load doubledConfig ⟨"/tsconfig.json"⟩).value.aliases := by
    rw [value_load_doubledConfig]
    exact List.mem_cons_self
  obtain ⟨base, key, target, -, hgives, -, -, hstem, -⟩ := keeps_wildcard_iff hmem
  obtain ⟨front, rfl⟩ := hstem.mp ⟨"@", by decide⟩
  exact ⟨hmem, base, front, target, hgives⟩

/-- Both the stem and the target of an alias can end with a wildcard, and so can the target of an
alias whose key and target have only one. -/
theorem load_doubledConfig :
    (load doubledConfig ⟨"/tsconfig.json"⟩).value =
        ⟨some ⟨"/"⟩, [⟨"@/*", ⟨"/src/*"⟩⟩, ⟨"*", ⟨"/*"⟩⟩]⟩ ∧
      (∃ front, "@/*" = front ++ "/*") ∧
      (⟨"/src/*"⟩ : Path).components.getLast? = some (.name "*") ∧
      (⟨"/*"⟩ : Path).components.getLast? = some (.name "*") :=
  ⟨value_load_doubledConfig, ⟨"@", by decide⟩, by decide, by decide⟩

end ModuleGraph.Alias

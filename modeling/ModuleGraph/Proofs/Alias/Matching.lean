import ModuleGraph.Proofs.Alias.Origin
import ModuleGraph.Resolution.Default

/-!
# Which requests an alias takes

An alias takes a request that begins with its stem, character by character.  The wildcard of a key
is gone by then, so that a key `@/*` takes `@/a`, and `@a` as well; and a key without a wildcard
takes every request that it begins, not only itself.  What is left of the request, without one
slash, is resolved below the target.

A request that is the stem itself leaves nothing, and the target is then looked for as a directory,
by its main module and its index.  It is not looked for as a file, with or without a suffix.

## Main results

* `Resolution.Setting.resolve?_here`: a directory resolved in itself.
* `Alias.mapped?_load`: the requests that the aliases of a configuration take, and where these lead.
-/

namespace ModuleGraph

namespace Resolution.Setting

variable (s : Setting) (dir : Path)

theorem search_here : s.search dir "./".toList =
    if s.isDirectory dir then s.asDirectory dir else .ok none := by
  have hread : Request.read? "./".toList = some ⟨"./".toList, false, none⟩ := by decide
  have haddress : fileAddress? "./".toList = none := by decide
  have hcomponents : (⟨String.ofList "./".toList⟩ : Path).components = [.here] := by decide
  have hextend : dir.extend ⟨String.ofList "./".toList⟩ = dir := by
    rw [Path.extend, hcomponents]
    rfl
  rw [search, hread]
  simp only [searchPath, haddress, Option.getD_none, hcomponents, List.head?_cons, hextend]
  rfl

/-- A directory that is resolved in itself leads to its main module or its index; anything else
leads nowhere. -/
theorem resolve?_here {p : Path} : s.resolve? dir "./" = some p ↔
    s.isDirectory dir = true ∧ ∃ file, s.asDirectory dir = .ok (some file) ∧
      s.settle file = some p := by
  rw [resolve?, search_here]
  cases hdir : s.isDirectory dir with
  | false => simp
  | true =>
    cases hfile : s.asDirectory dir with
    | error refusal => simp
    | ok found => cases found <;> simp

/-- What is a file is no directory. -/
theorem isDirectory_of_isFile {p : Path} (h : s.isFile p = true) : s.isDirectory p = false := by
  rw [isFile] at h
  rw [isDirectory]
  cases hfound : s.disk.found? p with
  | none => rfl
  | some e =>
    rw [hfound] at h
    cases e with
    | file contents => rfl
    | directory | link => simp [Files.Entry.isFile] at h

end Resolution.Setting

namespace Alias

variable {d : Files.Disk} {file base : Path} {key target : String}
  {plain : Path → String → Option Path} {request : String} {p : Path}

/-- An alias leads to what the rest of a request leads to below its target. -/
theorem throughAlias?_ofTarget_iff {stem : String} (hstem : IsStem key stem) :
    Resolution.throughAlias? plain request (ofTarget base key target) = some p ↔
      ∃ rest tail, request = stem ++ rest ∧ IsTail rest tail ∧
        plain (ofTarget base key target).target ("./" ++ tail) = some p := by
  rw [target_ofTarget, ofTarget, throughAlias?_eq_some_iff]
  constructor
  · rintro ⟨stem', below, rest, tail, hstem', hbelow, hrequest, htail, hplain⟩
    obtain rfl : stem' = stem := (isStem_iff.mp hstem').symm.trans (isStem_iff.mp hstem)
    obtain rfl := isStem_iff.mp hbelow
    exact ⟨rest, tail, hrequest, htail, hplain⟩
  · rintro ⟨rest, tail, hrequest, htail, hplain⟩
    exact ⟨stem, _, rest, tail, hstem, isStem_iff.mpr rfl, hrequest, htail, hplain⟩

/-- A key without a star is its own stem. -/
theorem isStem_self (h : '*' ∉ key.toList) : IsStem key key := by
  refine .inr ⟨rfl, fun front hfront => h ?_⟩
  rw [hfront, String.toList_append]
  exact List.mem_append_right _ (by decide)

theorem isTail_self_iff {stem rest tail : String} (h : stem = stem ++ rest) :
    IsTail rest tail ↔ tail = "" := by
  have hrest : rest = "" := by
    rw [← String.toList_inj, String.toList_append] at h
    exact String.toList_inj.mp (List.append_right_eq_self.mp h.symm)
  rw [hrest, isTail_iff]
  exact eq_comm

/-- A key without a star leads to what its target holds as a directory. -/
theorem throughAlias?_self_iff (h : '*' ∉ key.toList) :
    Resolution.throughAlias? plain key (ofTarget base key target) = some p ↔
      plain (ofTarget base key target).target "./" = some p := by
  rw [throughAlias?_ofTarget_iff (isStem_self h)]
  constructor
  · rintro ⟨rest, tail, hrequest, htail, hplain⟩
    rw [(isTail_self_iff hrequest).mp htail] at hplain
    exact hplain
  · intro hplain
    have hrequest : key = key ++ "" := (String.append_empty).symm
    exact ⟨"", "", hrequest, (isTail_self_iff hrequest).mpr rfl, hplain⟩

/-- **Which requests the aliases of a configuration take.**  What the aliases resolve a request to,
the alias of a key and a target does.  A key with a wildcard, and one without any star, takes the
requests that begin with it, its wildcard apart, and these lead to what is left of them below the
target.  The request that is a key without a star leads to what the target holds as a directory, and
nowhere if the target is a file. -/
theorem mapped?_load (s : Resolution.Setting) (d : Files.Disk) (file : Path) :
    (∀ request p, Resolution.mapped? s.resolve? (load d file).value request = some p →
      ∃ base key target, Gives d file base key target ∧
        Resolution.throughAlias? s.resolve? request (ofTarget base key target) = some p) ∧
    ∀ base key target, Gives d file base key target →
      ofTarget base key target ∈ (load d file).value.aliases ∧
      (∀ stem, key = stem ++ "/*" ∨ key = stem ∧ '*' ∉ key.toList → ∀ request p,
        (Resolution.throughAlias? s.resolve? request (ofTarget base key target) = some p ↔
          ∃ rest tail, request = stem ++ rest ∧ IsTail rest tail ∧
            s.resolve? (ofTarget base key target).target ("./" ++ tail) = some p)) ∧
      ('*' ∉ key.toList →
        (∀ p, Resolution.throughAlias? s.resolve? key (ofTarget base key target) = some p ↔
          s.isDirectory (ofTarget base key target).target = true ∧
            ∃ held, s.asDirectory (ofTarget base key target).target = .ok (some held) ∧
              s.settle held = some p) ∧
        (s.isFile (ofTarget base key target).target = true →
          Resolution.throughAlias? s.resolve? key (ofTarget base key target) = none)) := by
  refine ⟨fun request p h => exists_gives_of_mapped? h, fun base key target hgives =>
    ⟨mem_aliases_load_iff.mpr ⟨base, key, target, hgives, rfl⟩, fun stem hstem request p => ?_,
      fun hstar => ?_⟩⟩
  · have hstem : IsStem key stem := by
      rcases hstem with hkey | ⟨rfl, hstar⟩
      · exact .inl hkey
      · exact isStem_self hstar
    exact throughAlias?_ofTarget_iff hstem
  · have hself (p : Path) :
        Resolution.throughAlias? s.resolve? key (ofTarget base key target) = some p ↔ _ :=
      (throughAlias?_self_iff hstar).trans (s.resolve?_here _)
    refine ⟨hself, fun hfile => Option.eq_none_iff_forall_ne_some.mpr fun p hp => ?_⟩
    have hdirectory := ((hself p).mp hp).1
    rw [s.isDirectory_of_isFile hfile] at hdirectory
    exact Bool.false_ne_true hdirectory

/-- The configuration of `aliasedProject`. -/
def aliasedConfig : String :=
  "\x7b\"compilerOptions\":\x7b\"baseUrl\":\".\",\"paths\":\x7b" ++
    "\"@/*\":[\"src/*\"],\"~\":[\"src\"],\"lib\":[\"src/lib.ts\"]\x7d\x7d\x7d"

/-- A tree whose configuration has a key with a wildcard, a key for a directory and a key for a
file. -/
def aliasedProject : Files.Disk where
  entries := [(["tsconfig.json"], .file aliasedConfig.toUTF8), (["src"], .directory),
    (["src", "foo.ts"], .file .empty), (["src", "bar.ts"], .file .empty),
    (["src", "lib.ts"], .file .empty)]
  here := []
  distinct := by decide +kernel
  proper := by decide +kernel

/-- The tree as it is searched for files with one suffix. -/
def aliasedSetting : Resolution.Setting := ⟨aliasedProject, [".ts"]⟩

/-- The aliases of the configuration. -/
def aliasedAliases : Config :=
  ⟨some ⟨"/"⟩, [ofTarget ⟨"/"⟩ "@/*" "src/*", ofTarget ⟨"/"⟩ "~" "src",
    ofTarget ⟨"/"⟩ "lib" "src/lib.ts"]⟩

private theorem texts_aliasedConfig :
    aliasedProject.readText ⟨"/tsconfig.json"⟩ = .ok aliasedConfig ∧
    ((Document.options? aliasedConfig).bind id).map (fun o => (o.baseUrl,
      (o.paths.getD []).map fun entry => (entry.1, targets? entry.2))) = some (some ".",
        [("@/*", some ["src/*"]), ("~", some ["src"]), ("lib", some ["src/lib.ts"])]) := by
  decide +kernel

private theorem load_aliasedProject :
    (load aliasedProject ⟨"/tsconfig.json"⟩).value = aliasedAliases ∧
      Gives aliasedProject ⟨"/tsconfig.json"⟩ ⟨"/"⟩ "@/*" "src/*" ∧
      Gives aliasedProject ⟨"/tsconfig.json"⟩ ⟨"/"⟩ "~" "src" ∧
      Gives aliasedProject ⟨"/tsconfig.json"⟩ ⟨"/"⟩ "lib" "src/lib.ts" := by
  have hbase : baseDirectory ⟨"/tsconfig.json"⟩ "." = ⟨"/"⟩ := by decide
  obtain ⟨hload, hgives⟩ := load_of_texts texts_aliasedConfig.1 texts_aliasedConfig.2
  rw [hbase] at hload hgives
  exact ⟨hload, hgives "@/*" ["src/*"] "src/*" (by decide) (by decide),
    hgives "~" ["src"] "src" (by decide) (by decide),
    hgives "lib" ["src/lib.ts"] "src/lib.ts" (by decide) (by decide)⟩

private theorem resolve?_aliasedSetting :
    (Resolution.throughAlias? aliasedSetting.resolve? "@foo" (ofTarget ⟨"/"⟩ "@/*" "src/*") =
        some ⟨"/src/foo.ts"⟩ ∧
      Resolution.mapped? aliasedSetting.resolve? aliasedAliases "@foo" = some ⟨"/src/foo.ts"⟩) ∧
    (Resolution.throughAlias? aliasedSetting.resolve? "~/bar" (ofTarget ⟨"/"⟩ "~" "src") =
        some ⟨"/src/bar.ts"⟩ ∧
      Resolution.mapped? aliasedSetting.resolve? aliasedAliases "~/bar" = some ⟨"/src/bar.ts"⟩) ∧
    aliasedSetting.isFile (ofTarget ⟨"/"⟩ "lib" "src/lib.ts").target = true ∧
    Resolution.mapped? aliasedSetting.resolve? aliasedAliases "lib" = none := by
  decide +kernel

/-- From the file that `@foo` leads to, what is left of it below the target can be told, and the key
for a file leads nowhere. -/
theorem mapped?_load_aliasedProject :
    (∃ rest tail, "@foo" = "@" ++ rest ∧ IsTail rest tail ∧
      aliasedSetting.resolve? ⟨"/src"⟩ ("./" ++ tail) = some ⟨"/src/foo.ts"⟩) ∧
    Resolution.throughAlias? aliasedSetting.resolve? "lib" (ofTarget ⟨"/"⟩ "lib" "src/lib.ts") =
      none := by
  obtain ⟨-, hat, -, hlib⟩ := load_aliasedProject
  obtain ⟨⟨hfoo, -⟩, -, hfile, -⟩ := resolve?_aliasedSetting
  obtain ⟨-, hgives⟩ := mapped?_load aliasedSetting aliasedProject ⟨"/tsconfig.json"⟩
  obtain ⟨-, hwildcard, -⟩ := hgives ⟨"/"⟩ "@/*" "src/*" hat
  obtain ⟨-, -, hexact⟩ := hgives ⟨"/"⟩ "lib" "src/lib.ts" hlib
  have htarget : (ofTarget ⟨"/"⟩ "@/*" "src/*").target = ⟨"/src"⟩ := by decide
  rw [← htarget]
  exact ⟨(hwildcard "@" (.inl rfl) "@foo" ⟨"/src/foo.ts"⟩).mp hfoo, (hexact (by decide)).2 hfile⟩

/-- A key with a wildcard takes a request that has no slash behind it, a key without a star takes
one that goes on behind it, and a key whose target is a file does not lead there. -/
theorem throughAlias?_aliasedProject :
    (load aliasedProject ⟨"/tsconfig.json"⟩).value = aliasedAliases ∧
    (Gives aliasedProject ⟨"/tsconfig.json"⟩ ⟨"/"⟩ "@/*" "src/*" ∧
      (Resolution.throughAlias? aliasedSetting.resolve? "@foo" (ofTarget ⟨"/"⟩ "@/*" "src/*") =
          some ⟨"/src/foo.ts"⟩ ∧
        Resolution.mapped? aliasedSetting.resolve? aliasedAliases "@foo" = some ⟨"/src/foo.ts"⟩) ∧
      ¬ ∃ rest, "@foo" = "@/" ++ rest) ∧
    (Gives aliasedProject ⟨"/tsconfig.json"⟩ ⟨"/"⟩ "~" "src" ∧
      (Resolution.throughAlias? aliasedSetting.resolve? "~/bar" (ofTarget ⟨"/"⟩ "~" "src") =
          some ⟨"/src/bar.ts"⟩ ∧
        Resolution.mapped? aliasedSetting.resolve? aliasedAliases "~/bar" = some ⟨"/src/bar.ts"⟩) ∧
      "~/bar" ≠ "~") ∧
    (Gives aliasedProject ⟨"/tsconfig.json"⟩ ⟨"/"⟩ "lib" "src/lib.ts" ∧
      aliasedSetting.isFile (ofTarget ⟨"/"⟩ "lib" "src/lib.ts").target = true ∧
      Resolution.mapped? aliasedSetting.resolve? aliasedAliases "lib" = none) := by
  obtain ⟨hload, hat, htilde, hlib⟩ := load_aliasedProject
  obtain ⟨hfoo, hbar, hfile⟩ := resolve?_aliasedSetting
  refine ⟨hload, ⟨hat, hfoo, ?_⟩, ⟨htilde, hbar, by decide⟩, hlib, hfile⟩
  rintro ⟨rest, hrest⟩
  rw [← String.toList_inj, String.toList_append] at hrest
  exact absurd (List.cons.inj (List.cons.inj hrest).2).1 (by decide)

end Alias

end ModuleGraph

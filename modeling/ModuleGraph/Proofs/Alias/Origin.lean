import ModuleGraph.Proofs.Alias.Precedence

/-!
# Where aliases come from

Every alias of a configuration comes from a key of its paths and one of the targets of that key, and
every key gives an alias for each of its targets.  What an alias does to a request can therefore be
said of the key and the target as they are written.

## Main definitions

* `Alias.ofTarget`: the alias that a key gives for a target.
* `Alias.Gives`: the keys and targets that a configuration gives, with its base directory.

## Main results

* `Alias.mem_aliases_load_iff`: the aliases of a configuration, by keys and targets.
* `Alias.exists_gives_of_mapped?`: what the aliases resolve a request to, by keys and targets.
-/

namespace ModuleGraph.Alias

variable {d : Files.Disk} {file base : Path} {key target : String}

/-- The alias that a key gives for one of its targets. -/
def ofTarget (base : Path) (key target : String) : Alias :=
  ⟨stripWildcard key, (base.join (stripWildcard target)).clean⟩

@[simp] theorem stem_ofTarget (base : Path) (key target : String) :
    (ofTarget base key target).stem = stripWildcard key := by
  rw [ofTarget]

@[simp] theorem target_ofTarget (base : Path) (key target : String) :
    (ofTarget base key target).target = (base.join (stripWildcard target)).clean := by
  rw [ofTarget]

/-- The paths of a configuration list a target for a key, and its options name a base directory. -/
def Gives (d : Files.Disk) (file base : Path) (key target : String) : Prop :=
  ∃ text options baseUrl v position, d.readText file = .ok text ∧
    Document.options? text = some (some options) ∧ options.baseUrl = some baseUrl ∧
    base = baseDirectory file baseUrl ∧ (key, v) ∈ options.paths.getD [] ∧
    TargetAt v position target

/-- The aliases of entries, by keys and targets. -/
theorem mem_ofPaths_iff {a : Alias} {paths : List (String × Json.Value)} :
    a ∈ ofPaths base paths ↔ ∃ key v position target, (key, v) ∈ paths ∧
      TargetAt v position target ∧ a = ofTarget base key target := by
  simp only [ofPaths, ofEntry, List.mem_flatMap, List.mem_map]
  constructor
  · rintro ⟨⟨key, v⟩, hentry, target, htarget, rfl⟩
    obtain ⟨position, hposition⟩ := List.mem_iff_getElem?.mp htarget
    exact ⟨key, v, position, target, hentry, targetAt_iff.mpr hposition, rfl⟩
  · rintro ⟨key, v, position, target, hentry, htarget, rfl⟩
    exact ⟨(key, v), hentry, target, List.mem_of_getElem? (targetAt_iff.mp htarget), rfl⟩

/-- The aliases of a configuration are those that its keys give for their targets. -/
theorem mem_aliases_load_iff {a : Alias} : a ∈ (load d file).value.aliases ↔
    ∃ base key target, Gives d file base key target ∧ a = ofTarget base key target := by
  constructor
  · intro ha
    unfold load at ha
    split at ha
    · simp at ha
    · next text htext =>
      split at ha
      · simp at ha
      · simp at ha
      · next options hoptions =>
        dsimp only [Config.ofOptions] at ha
        split at ha
        · simp at ha
        · next baseUrl hbase =>
          obtain ⟨key, v, position, target, hentry, htarget, rfl⟩ := mem_ofPaths_iff.mp ha
          exact ⟨_, key, target, ⟨text, options, baseUrl, v, position, htext, hoptions, hbase, rfl,
            hentry, htarget⟩, rfl⟩
  · rintro ⟨base, key, target, ⟨text, options, baseUrl, v, position, htext, hoptions, hbase, rfl,
      hentry, htarget⟩, rfl⟩
    rw [load, htext]
    simp only [hoptions, Config.ofOptions, hbase]
    exact mem_ofPaths_iff.mpr ⟨key, v, position, target, hentry, htarget, rfl⟩

/-- What the aliases of a configuration resolve a request to, one of them does: the alias that a key
gives for a target. -/
theorem exists_gives_of_mapped? {plain : Path → String → Option Path} {request : String} {p : Path}
    (h : Resolution.mapped? plain (load d file).value request = some p) :
    ∃ base key target, Gives d file base key target ∧
      Resolution.throughAlias? plain request (ofTarget base key target) = some p := by
  obtain ⟨a, ha, hthrough⟩ := List.exists_of_findSome?_eq_some h
  obtain ⟨base, key, target, hgives, rfl⟩ := mem_aliases_load_iff.mp ha
  exact ⟨base, key, target, hgives, hthrough⟩

/-- What a configuration gives can be read off its base directory and the texts of its paths: its
aliases, and its keys and targets. -/
theorem load_of_texts {text baseUrl : String} {entries : List (String × Option (List String))}
    (htext : d.readText file = .ok text)
    (h : ((Document.options? text).bind id).map (fun o => (o.baseUrl,
      (o.paths.getD []).map fun entry => (entry.1, targets? entry.2))) =
        some (some baseUrl, entries)) :
    (load d file).value = ⟨some (baseDirectory file baseUrl), entries.flatMap fun entry =>
        (entry.2.getD []).map (ofTarget (baseDirectory file baseUrl) entry.1)⟩ ∧
      ∀ key targets target, (key, some targets) ∈ entries → target ∈ targets →
        Gives d file (baseDirectory file baseUrl) key target := by
  obtain ⟨options, hoptions, heq⟩ := Option.map_eq_some_iff.mp h
  obtain ⟨found, hfound, rfl⟩ := Option.bind_eq_some_iff.mp hoptions
  obtain ⟨hbase, rfl⟩ := Prod.mk.inj heq
  constructor
  · rw [load, htext]
    simp only [hfound, Config.ofOptions, hbase, ofPaths, List.flatMap_map]
    rfl
  · intro key targets target hkey htarget
    obtain ⟨⟨key', v⟩, hentry, hshown⟩ := List.mem_map.mp hkey
    obtain ⟨rfl, hv⟩ := Prod.mk.inj hshown
    obtain ⟨position, hposition⟩ := List.mem_iff_getElem?.mp htarget
    refine ⟨text, options, baseUrl, v, position, htext, hfound, hbase, rfl, hentry,
      targetAt_iff.mpr ?_⟩
    rw [show targets? v = some targets from hv, Option.getD_some]
    exact hposition

end ModuleGraph.Alias

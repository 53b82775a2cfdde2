import ModuleGraph.Proofs.Path.Components

/-!
# Suffixes of paths

The suffix of a path is what follows the last dot of the name at its end.  A dot that leads the name
does not count, so something has to stand in front of it.

## Main definitions

* `Path.HasSuffix`: the paths that end with a stem, a dot and a suffix.

## Main results

* `Path.suffixOf?_eq_some_iff`: the suffix of a name.
* `Path.suffix?_eq_some_iff`: the suffix of a path.
-/

namespace ModuleGraph.Path

/-- The suffix of a name stands behind its last dot, and a stem in front of it. -/
theorem suffixOf?_eq_some_iff {name suffix : List Char} : suffixOf? name = some suffix ↔
    ∃ stem, stem ≠ [] ∧ name = stem ++ '.' :: suffix ∧ '.' ∉ suffix := by
  constructor
  · intro h
    unfold suffixOf? at h
    dsimp only at h
    split_ifs at h with hlength
    obtain rfl := Option.some.inj h
    have hsplit := List.takeWhile_append_dropWhile (p := (· != '.')) (l := name.reverse)
    have hlengths := congrArg List.length hsplit
    rw [List.length_append, List.length_reverse] at hlengths
    cases hdrop : name.reverse.dropWhile (· != '.') with
    | nil =>
      rw [hdrop, List.length_nil] at hlengths
      omega
    | cons c before =>
      rw [hdrop, List.length_cons] at hlengths
      have hc : c = '.' := by
        simpa [hdrop] using List.head?_dropWhile_not (· != '.') name.reverse
      refine ⟨before.reverse, ?_, ?_, fun hmem => ?_⟩
      · intro hnil
        have hbefore := congrArg List.length hnil
        rw [List.length_reverse, List.length_nil] at hbefore
        omega
      · rw [hdrop, hc] at hsplit
        simpa using (congrArg List.reverse hsplit).symm
      · simpa using List.mem_takeWhile_imp (List.mem_reverse.mp hmem)
  · rintro ⟨stem, hne, rfl, hdot⟩
    have hpos := List.length_pos_of_ne_nil hne
    have htake : (stem ++ '.' :: suffix).reverse.takeWhile (· != '.') = suffix.reverse := by
      have hkept : ∀ c ∈ suffix.reverse, (c != '.') = true := fun c hc =>
        bne_iff_ne.mpr fun heq => hdot (heq ▸ List.mem_reverse.mp hc)
      rw [List.reverse_append, List.reverse_cons, List.append_assoc,
        List.takeWhile_append_of_pos hkept]
      simp
    rw [suffixOf?, htake]
    simp [hpos]

/-- The path ends with a name that consists of a stem, a dot and a suffix. -/
def HasSuffix (p : Path) (suffix : String) : Prop :=
  ∃ stem : String, stem ≠ "" ∧ p.components.getLast? = some (.name (stem ++ "." ++ suffix))

/-- The suffix of a path is the one it ends with that holds no dot. -/
theorem suffix?_eq_some_iff {p : Path} {suffix : String} :
    p.suffix? = some suffix ↔ p.HasSuffix suffix ∧ '.' ∉ suffix.toList := by
  have hname {name : String} : (suffixOf? name.toList).map String.ofList = some suffix ↔
      ∃ stem : String, stem ≠ "" ∧ name = stem ++ "." ++ suffix ∧ '.' ∉ suffix.toList := by
    rw [Option.map_eq_some_iff]
    constructor
    · rintro ⟨cs, hcs, rfl⟩
      obtain ⟨stem, hne, hname, hdot⟩ := suffixOf?_eq_some_iff.mp hcs
      refine ⟨String.ofList stem, by simpa using hne, ?_, by simpa using hdot⟩
      simp [← String.toList_inj, hname]
    · rintro ⟨stem, hne, rfl, hdot⟩
      refine ⟨suffix.toList, suffixOf?_eq_some_iff.mpr ⟨stem.toList, by simpa using hne, ?_, hdot⟩,
        String.ofList_toList⟩
      simp
  rw [suffix?, Option.bind_eq_some_iff]
  simp only [hname, fileName?_eq_some_iff, HasSuffix]
  constructor
  · rintro ⟨-, hlast, stem, hne, rfl, hdot⟩
    exact ⟨⟨stem, hne, hlast⟩, hdot⟩
  · rintro ⟨⟨stem, hne, hlast⟩, hdot⟩
    exact ⟨_, hlast, stem, hne, rfl, hdot⟩

end ModuleGraph.Path

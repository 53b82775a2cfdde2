import Mathlib.Data.Set.Function
import ModuleGraph.Proofs.Path.Normal
import ModuleGraph.Proofs.Path.Relative

/-!
# Reduced relative paths

A relative path between two places goes up as often as the base has components beyond the longest
common beginning, and then down along the names of the target beyond it.  It never steps back down
where it came up, so it is *reduced*: the first name is not the one that the last `..` left.  Every
target has such a path, every reduced path that stays below the root leads to a target, and the
relative path to that target is the reduced path again.  From a fixed base, normal paths and reduced
relative paths are therefore the same thing told in two ways.

## Main definitions

* `Path.relativePath`: the text of a number of steps up with names behind them.
* `Path.IsReduced`: the steps from a base that do not go back down where they came up.
* `Path.IsLongestCommonPrefix`: the longest common beginning of two lists.

## Main results

* `Path.relative?_of_diverge`: the relative path between two places that diverge.
* `Path.bijOn_relative?`: relative paths from a base correspond to targets.
-/

namespace ModuleGraph.Path

open Files.Disk (pathOf)

/-! ### Longest common beginnings -/

/-- A list is the longest common beginning of two lists. -/
structure IsLongestCommonPrefix {α : Type} (common as bs : List α) : Prop where
  left : common <+: as
  right : common <+: bs
  longest : ∀ other, other <+: as → other <+: bs → other <+: common

/-- What lists go together before they diverge is their longest common beginning. -/
theorem isLongestCommonPrefix_append {α : Type} {as bs : List α} (common : List α)
    (h : Diverge as bs) : IsLongestCommonPrefix common (common ++ as) (common ++ bs) := by
  refine ⟨List.prefix_append _ _, List.prefix_append _ _, fun other hleft hright => ?_⟩
  rcases List.prefix_or_prefix_of_prefix hleft (List.prefix_append common as) with hother | hother
  · exact hother
  · obtain ⟨more, rfl⟩ := hother
    rw [List.prefix_append_right_inj] at hleft hright
    cases more with
    | nil => simp
    | cons a more =>
      -- A longer common beginning would have its next member in both rests.
      obtain ⟨as, rfl⟩ := hleft
      obtain ⟨bs, rfl⟩ := hright
      exact absurd rfl (h a rfl)

/-! ### Relative paths -/

/-- The relative path of a number of steps up and the names behind them.  No steps at all are
written `.`. -/
def relativePath (ups : Nat) (names : List String) : Path :=
  if ups = 0 ∧ names = [] then ⟨"."⟩
  else ⟨"/".intercalate (List.replicate ups ".." ++ names)⟩

/-- Steps up and names that lead from a base and can be made no shorter. -/
structure IsReduced (base : List String) (ups : Nat) (names : List String) : Prop where
  isName : ∀ name ∈ names, Files.isName name = true
  le_length : ups ≤ base.length
  /-- The first name is not the one that the last step up has left. -/
  head?_ne : 0 < ups → names.head? ≠ base[base.length - ups]?

variable {ups : Nat} {names : List String}

theorem isProper_of_mem_steps (h : ∀ name ∈ names, Files.isName name = true) {c : Component}
    (hc : c ∈ List.replicate ups Component.up ++ names.map .name) : c.IsProper := by
  rcases List.mem_append.mp hc with hup | hname
  · rw [List.eq_of_mem_replicate hup]
    trivial
  · exact Files.Disk.isProper_of_forall_isName h c hname

/-- A relative path is the text of its steps. -/
theorem relativePath_eq_ofComponents (h : ∀ name ∈ names, Files.isName name = true)
    (hne : List.replicate ups Component.up ++ names.map .name ≠ []) :
    relativePath ups names = ofComponents (List.replicate ups .up ++ names.map .name) := by
  have hsome : ¬ (ups = 0 ∧ names = []) := by
    rintro ⟨rfl, rfl⟩
    exact hne rfl
  have hchars : (List.replicate ups Component.up ++ names.map Component.name).map Component.chars =
      (List.replicate ups ".." ++ names).map String.toList := by
    rw [List.map_append, List.map_append, List.map_replicate, List.map_replicate, List.map_map]
    rfl
  rw [relativePath, if_neg hsome, ofComponents_eq_joinSlash fun c => isProper_of_mem_steps h,
    hchars, joinSlash_eq_intercalate, Path.mk.injEq, ← String.toList_inj,
    String.toList_intercalate]
  exact String.toList_ofList.symm

/-- Following a relative path is following its steps. -/
theorem apply_relativePath (base : List Component)
    (h : ∀ name ∈ names, Files.isName name = true) :
    apply base (relativePath ups names).components =
      apply base (List.replicate ups .up ++ names.map .name) := by
  by_cases hne : List.replicate ups Component.up ++ names.map .name = []
  · obtain ⟨hups, hnames⟩ := List.append_eq_nil_iff.mp hne
    obtain rfl : ups = 0 := by simpa using hups
    obtain rfl := List.map_eq_nil_iff.mp hnames
    rfl
  · rw [relativePath_eq_ofComponents h hne,
      components_ofComponents hne fun c => isProper_of_mem_steps h]

/-- The relative path between two places that diverge behind a common beginning. -/
theorem relative?_of_diverge {target base : Path} {common back : List String}
    (htarget : target.components = .root :: (common ++ names).map .name)
    (hbase : base.components = .root :: (common ++ back).map .name) (hdiverge : Diverge names back)
    (h : ∀ name ∈ names, Files.isName name = true) :
    target.relative? base = some (relativePath back.length names) := by
  rw [relative?, htarget, hbase, relativeComponents?_of_diverge common hdiverge, Option.map_some]
  by_cases hne : List.replicate back.length Component.up ++ names.map .name = []
  · obtain ⟨hups, hnames⟩ := List.append_eq_nil_iff.mp hne
    obtain rfl : back = [] := by simpa using hups
    obtain rfl := List.map_eq_nil_iff.mp hnames
    rfl
  · rw [relativePath_eq_ofComponents h hne]
    split
    · next heq => exact absurd heq hne
    · rfl

/-! ### The correspondence -/

/-- Steps from a base are reduced if the names behind them diverge from what the steps up leave. -/
theorem isReduced_iff {base : List String} : IsReduced base ups names ↔
    (∀ name ∈ names, Files.isName name = true) ∧
      ∃ common back, base = common ++ back ∧ back.length = ups ∧ Diverge names back := by
  constructor
  · rintro ⟨hnames, hlength, hhead⟩
    refine ⟨hnames, base.take (base.length - ups), base.drop (base.length - ups),
      (List.take_append_drop _ _).symm, by rw [List.length_drop]; omega, fun name hname hleft => ?_⟩
    have hpos : 0 < ups := by
      have hlt := (List.getElem?_eq_some_iff.mp (List.head?_drop ▸ hleft)).1
      omega
    exact hhead hpos (hname.trans (List.head?_drop ▸ hleft).symm)
  · rintro ⟨hnames, common, back, rfl, rfl, hdiverge⟩
    refine ⟨hnames, by simp, fun hpos hhead => ?_⟩
    rw [List.length_append, Nat.add_sub_cancel, List.getElem?_append_right (Nat.le_refl _),
      Nat.sub_self, ← List.head?_eq_getElem?] at hhead
    obtain ⟨name, back, rfl⟩ := List.exists_cons_of_ne_nil (List.ne_nil_of_length_pos hpos)
    exact hdiverge name hhead rfl

/-- The relative path from a plain path to a plain path is reduced, and leads from one to the
other. -/
theorem IsPlain.exists_isReduced {target base : Path} (htarget : target.IsPlain)
    (hbase : base.IsPlain) : ∃ ups names common,
      target.relative? base = some (relativePath ups names) ∧ IsReduced base.trail ups names ∧
      IsLongestCommonPrefix common target.components base.components ∧
      ups = base.components.length - common.length ∧
      apply base.components (relativePath ups names).components = target.components := by
  obtain ⟨common, names, back, hforth, hback, hdiverge⟩ := exists_diverge target.trail base.trail
  have hnames : ∀ name ∈ names, Files.isName name = true := fun name hname =>
    htarget.isName_of_mem_trail name (by rw [hforth]; exact List.mem_append_right _ hname)
  have hto : target.components = .root :: (common ++ names).map .name := by
    rw [htarget.components_eq, hforth]
  have hfrom : base.components = .root :: (common ++ back).map .name := by
    rw [hbase.components_eq, hback]
  refine ⟨back.length, names, .root :: common.map .name,
    relative?_of_diverge hto hfrom hdiverge hnames,
    isReduced_iff.mpr ⟨hnames, common, back, hback, rfl, hdiverge⟩, ?_, by simp [hfrom], ?_⟩
  · rw [hto, hfrom, List.map_append, List.map_append, ← List.cons_append, ← List.cons_append]
    exact isLongestCommonPrefix_append _ hdiverge.map_name
  · rw [apply_relativePath _ hnames, hto, hfrom, apply_of_diverge]

/-- Every reduced relative path leads to a normal path, and is the relative path to everything with
the components that it leads to. -/
theorem IsReduced.exists_target {base : Path} (hbase : base.IsPlain)
    (h : IsReduced base.trail ups names) :
    (∃ target : Path, target.IsNormal ∧
      target.components = apply base.components (relativePath ups names).components) ∧
    ∀ target : Path,
      target.components = apply base.components (relativePath ups names).components →
      target.relative? base = some (relativePath ups names) := by
  obtain ⟨hnames, common, back, hback, rfl, hdiverge⟩ := isReduced_iff.mp h
  have hfrom : base.components = .root :: (common ++ back).map .name := by
    rw [hbase.components_eq, hback]
  rw [apply_relativePath _ hnames, hfrom, apply_of_diverge]
  refine ⟨⟨pathOf (common ++ names), ?_⟩, fun target hto =>
    relative?_of_diverge hto hfrom hdiverge hnames⟩
  have hproper : ∀ name ∈ common ++ names, Files.isName name = true := by
    intro name hname
    rcases List.mem_append.mp hname with hname | hname
    · exact hbase.isName_of_mem_trail name (by rw [hback]; exact List.mem_append_left _ hname)
    · exact hnames name hname
  exact ⟨isNormal_pathOf hproper, Files.Disk.components_pathOf hproper⟩

/-- **Relative paths are the reduced ones.**  From a plain base to a plain target there is a
relative path: a `..` for each component of the base beyond the longest common beginning, and then
names; it is `.` just where the two agree, and followed from the base it ends at the target.  Every
reduced relative path is the relative path to what it leads to.  So normal targets and reduced
relative paths correspond one to one. -/
theorem bijOn_relative? {base : Path} (hbase : base.IsPlain) :
    (∀ target : Path, target.IsPlain → ∃ ups names common,
      target.relative? base = some (relativePath ups names) ∧
      (∀ name ∈ names, Files.isName name = true) ∧
      IsLongestCommonPrefix common target.components base.components ∧
      ups = base.components.length - common.length ∧
      (relativePath ups names = ⟨"."⟩ ↔ target.components = base.components) ∧
      apply base.components (relativePath ups names).components = target.components) ∧
    (∀ ups names, IsReduced base.trail ups names → ∀ target : Path,
      target.components = apply base.components (relativePath ups names).components →
      target.relative? base = some (relativePath ups names)) ∧
    Set.BijOn (fun target : Path => target.relative? base) {target | target.IsNormal}
      {r | ∃ ups names, IsReduced base.trail ups names ∧ r = some (relativePath ups names)} := by
  refine ⟨fun target htarget => ?_, fun ups names h => (h.exists_target hbase).2, ?_, ?_, ?_⟩
  · obtain ⟨ups, names, common, hrelative, hreduced, hlongest, hups, happly⟩ :=
      htarget.exists_isReduced hbase
    refine ⟨ups, names, common, hrelative, hreduced.isName, hlongest, hups,
      ⟨fun hdot => ?_, fun heq => ?_⟩, happly⟩
    · rw [← happly, hdot]
      rfl
    · have hself : target.relative? base = some ⟨"."⟩ := by
        have hzero : IsReduced base.trail 0 [] := ⟨by simp, Nat.zero_le _, by simp⟩
        exact (hzero.exists_target hbase).2 target heq
      exact Option.some.inj (hrelative.symm.trans hself)
  · intro target htarget
    obtain ⟨ups, names, -, hrelative, hreduced, -⟩ := htarget.isPlain.exists_isReduced hbase
    exact ⟨ups, names, hreduced, hrelative⟩
  · intro target htarget other hother heq
    obtain ⟨ups, names, -, hrelative, -, -, -, happly⟩ := htarget.isPlain.exists_isReduced hbase
    obtain ⟨ups', names', -, hrelative', -, -, -, happly'⟩ := hother.isPlain.exists_isReduced hbase
    have hpath : relativePath ups names = relativePath ups' names' :=
      Option.some.inj (hrelative.symm.trans (heq.trans hrelative'))
    exact htarget.eq_of_components hother (happly.symm.trans (hpath ▸ happly'))
  · rintro _ ⟨ups, names, hreduced, rfl⟩
    obtain ⟨⟨target, hnormal, hto⟩, hunique⟩ := hreduced.exists_target hbase
    exact ⟨target, hnormal, hunique target hto⟩

/-- The relative path to a directory above the base whose text has an empty segment, and the reduced
path that goes up twice and down again along another name. -/
theorem bijOn_relative?_deepBase :
    (⟨"/p/src/deep"⟩ : Path).IsPlain ∧ (⟨"/p//src"⟩ : Path).IsPlain ∧
    (∃ ups names common,
      (⟨"/p//src"⟩ : Path).relative? ⟨"/p/src/deep"⟩ = some (relativePath ups names) ∧
      IsLongestCommonPrefix common (⟨"/p//src"⟩ : Path).components
        (⟨"/p/src/deep"⟩ : Path).components ∧
      ups = (⟨"/p/src/deep"⟩ : Path).components.length - common.length) ∧
    IsReduced (⟨"/p/src/deep"⟩ : Path).trail 2 ["lib", "x.ts"] ∧
    (⟨"/p/lib/x.ts"⟩ : Path).relative? ⟨"/p/src/deep"⟩ = some ⟨"../../lib/x.ts"⟩ := by
  have hbase : (⟨"/p/src/deep"⟩ : Path).IsPlain := ⟨["p", "src", "deep"], by decide⟩
  have htarget : (⟨"/p//src"⟩ : Path).IsPlain := ⟨["p", "src"], by decide⟩
  have hreduced : IsReduced (⟨"/p/src/deep"⟩ : Path).trail 2 ["lib", "x.ts"] :=
    ⟨by decide, by decide, by decide⟩
  obtain ⟨hforth, hback, -⟩ := bijOn_relative? hbase
  obtain ⟨ups, names, common, hrelative, -, hlongest, hups, -⟩ := hforth _ htarget
  exact ⟨hbase, htarget, ⟨ups, names, common, hrelative, hlongest, hups⟩, hreduced,
    hback 2 ["lib", "x.ts"] hreduced _ (by decide)⟩

end ModuleGraph.Path

import Mathlib.Data.List.Sort
import ModuleGraph.Path.Basic

/-!
# The order of paths

Texts are ordered by their characters and paths by their components, both lexicographically.  These
are total orders, on paths up to the text that writes the components.  So sorting paths of different
meaning gives the same list in whatever order they came.

## Main definitions

* `Path.Precedes`: the strict order of paths.

## Main results

* `Path.compareText_eq_lt_iff`: the order of texts is the lexicographic one.
* `Path.mergeSort_key_eq_of_perm`: sorting by keys that differ does not depend on the order in which
  the values come.
* `Path.mergeSort_eq_of_perm`: sorting does not depend on the order of the paths.
* `Path.pairwise_precedes_mergeSort`: paths of different meaning are sorted into an increasing list.
-/

namespace ModuleGraph.Path

theorem compareChars_eq : compareChars = List.compareLex (compareOn Char.toNat) := by
  funext as bs
  induction as generalizing bs with
  | nil => cases bs <;> rfl
  | cons a as ih =>
    cases bs with
    | nil => rfl
    | cons b bs => rw [compareChars, ih, List.compareLex_cons_cons]; rfl

instance : Std.TransCmp compareChars := compareChars_eq ▸ inferInstance

instance : Std.LawfulEqCmp (compareOn Char.toNat) where
  eq_of_compare h := Char.toNat_inj.mp (Nat.compare_eq_eq.mp h)

instance : Std.LawfulEqCmp compareChars := compareChars_eq ▸ inferInstance

instance : Std.TransCmp compareText where
  eq_swap {_ _} := @Std.OrientedCmp.eq_swap _ compareChars _ _ _
  isLE_trans {_ _ _} := @Std.TransCmp.isLE_trans _ compareChars _ _ _ _

instance : Std.LawfulEqCmp compareText where
  eq_of_compare h := String.toList_inj.mp (@Std.LawfulEqCmp.eq_of_compare _ compareChars _ _ _ h)

theorem compareChars_eq_lt_iff {as bs : List Char} : compareChars as bs = .lt ↔ as < bs := by
  induction as generalizing bs with
  | nil => cases bs <;> simp [compareChars]
  | cons a as ih =>
    cases bs with
    | nil => simp [compareChars]
    | cons b bs =>
      rw [compareChars, Ordering.then_eq_lt, Nat.compare_eq_lt, Nat.compare_eq_eq, Char.toNat_inj,
        ih, List.cons_lt_cons_iff]
      rfl

/-- The order of texts is the lexicographic order of their characters. -/
theorem compareText_eq_lt_iff {a b : String} : compareText a b = .lt ↔ a < b :=
  compareChars_eq_lt_iff

/-- The text of a component that is a name. -/
def Component.text : Component → String
  | .name text => text
  | _ => ""

theorem Component.compare_eq :
    Component.compare =
      compareLex (compareOn Component.rank) (fun a b => compareText a.text b.text) := by
  funext a b
  cases a <;> cases b <;> rfl

instance : Std.TransCmp (fun a b : Component => compareText a.text b.text) where
  eq_swap {_ _} := @Std.OrientedCmp.eq_swap _ compareText _ _ _
  isLE_trans {_ _ _} := @Std.TransCmp.isLE_trans _ compareText _ _ _ _

instance : Std.TransCmp Component.compare := Component.compare_eq ▸ inferInstance

instance : Std.LawfulEqCmp Component.compare where
  eq_of_compare {a b} h := by
    cases a <;> cases b
    case name.name a b =>
      exact congrArg Component.name (@Std.LawfulEqCmp.eq_of_compare _ compareText _ _ _ h)
    all_goals first | rfl | cases h

theorem compareComponents_eq : compareComponents = List.compareLex Component.compare := by
  funext as bs
  induction as generalizing bs with
  | nil => cases bs <;> rfl
  | cons a as ih =>
    cases bs with
    | nil => rfl
    | cons b bs => rw [compareComponents, ih, List.compareLex_cons_cons]

instance : Std.TransCmp compareComponents := compareComponents_eq ▸ inferInstance

instance : Std.LawfulEqCmp compareComponents := compareComponents_eq ▸ inferInstance

/-! ### Sorting by a key -/

section Keys

variable {α β : Type} (cmp : β → β → Ordering) [Std.TransCmp cmp] (key : α → β)

theorem pairwise_mergeSort_key (l : List α) :
    (l.mergeSort fun a b => (cmp (key a) (key b)).isLE).Pairwise
      fun a b => (cmp (key a) (key b)).isLE = true := by
  refine List.pairwise_mergeSort (fun a b c => Std.TransCmp.isLE_trans) (fun a b => ?_) l
  have hswap : cmp (key b) (key a) = (cmp (key a) (key b)).swap := Std.OrientedCmp.eq_swap
  rw [hswap]
  cases cmp (key a) (key b) <;> rfl

/-- Values are sorted strictly by keys that differ. -/
theorem pairwise_lt_mergeSort_key [Std.LawfulEqCmp cmp] {l : List α} (h : (l.map key).Nodup) :
    (l.mergeSort fun a b => (cmp (key a) (key b)).isLE).Pairwise
      fun a b => cmp (key a) (key b) = .lt := by
  have hkeys : ((l.mergeSort fun a b => (cmp (key a) (key b)).isLE).map key).Nodup :=
    ((List.mergeSort_perm l _).map key).nodup_iff.mpr h
  have hne := List.pairwise_map.mp hkeys
  refine ((pairwise_mergeSort_key cmp key l).and hne).imp fun {a b} hab => ?_
  obtain ⟨hle, hne⟩ := hab
  cases hcompare : cmp (key a) (key b) with
  | lt => rfl
  | eq => exact absurd (Std.LawfulEqCmp.eq_of_compare hcompare) hne
  | gt => simp [hcompare] at hle

/-- Sorting by keys that differ does not depend on the order in which the values come. -/
theorem mergeSort_key_eq_of_perm [Std.LawfulEqCmp cmp] {l l' : List α} (h : l.Perm l')
    (hinj : ∀ a ∈ l, ∀ b ∈ l, key a = key b → a = b) :
    (l.mergeSort fun a b => (cmp (key a) (key b)).isLE) =
      l'.mergeSort fun a b => (cmp (key a) (key b)).isLE := by
  have hperm := (List.mergeSort_perm l fun a b => (cmp (key a) (key b)).isLE).trans
    (h.trans (List.mergeSort_perm l' fun a b => (cmp (key a) (key b)).isLE).symm)
  refine hperm.eq_of_pairwise (fun a b ha hb hab hba => ?_) (pairwise_mergeSort_key cmp key l)
    (pairwise_mergeSort_key cmp key l')
  have heq : cmp (key a) (key b) = .eq := Std.OrientedCmp.isLE_antisymm hab hba
  exact hinj a (List.mem_mergeSort.mp ha) b (h.mem_iff.mpr (List.mem_mergeSort.mp hb))
    (Std.LawfulEqCmp.eq_of_compare heq)

end Keys

/-- Sorting paths of different meaning does not depend on the order in which they come. -/
theorem mergeSort_eq_of_perm {ps qs : List Path} (h : ps.Perm qs)
    (hinj : ∀ p ∈ ps, ∀ q ∈ ps, p.components = q.components → p = q) :
    ps.mergeSort Path.le = qs.mergeSort Path.le :=
  mergeSort_key_eq_of_perm compareComponents components h hinj

/-! ### Increasing lists of paths -/

/-- One path comes before another one in the order of paths. -/
def Precedes (p q : Path) : Prop := compareComponents p.components q.components = .lt

instance (p q : Path) : Decidable (p.Precedes q) :=
  inferInstanceAs (Decidable (compareComponents p.components q.components = .lt))

instance : Std.Irrefl Precedes where
  irrefl p h := by
    have heq : compareComponents p.components p.components = .eq := Std.ReflCmp.compare_self
    cases heq.symm.trans h

instance : Std.Antisymm Precedes where
  antisymm p q hpq hqp := by
    have hgt : compareComponents p.components q.components = .gt := Std.OrientedCmp.gt_of_lt hqp
    cases hgt.symm.trans hpq

/-- Paths of different meaning are sorted into an increasing list. -/
theorem pairwise_precedes_mergeSort {ps : List Path} (h : (ps.map components).Nodup) :
    (ps.mergeSort Path.le).Pairwise Precedes :=
  pairwise_lt_mergeSort_key compareComponents components h

end ModuleGraph.Path

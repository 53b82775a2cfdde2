import ModuleGraph.Path.Ancestors
import ModuleGraph.Proofs.Path.Components

/-!
# The chain above a path

From an absolute path one can go up until there is nothing above.  The paths on the way form a
chain: the path itself, the path above it, and so on up to the root.  Every path on the way has one
component less than the one before, so the chain ends, and there is one for every absolute path.  It
is the chain of its ancestors, whose bound never cuts it short.

## Main definitions

* `Path.IsChain`: a path, the path above it, and so on, as long as there is one.
* `Path.IsNearest`: the first path of a chain that fits.

## Main results

* `Path.isChain_ancestors`, `Path.IsChain.unique`: the ancestors of an absolute path are its chain.
* `Path.IsChain.length_eq`, `Path.IsChain.getLast?_eq`: how long it is, and that it ends at the
  root.
-/

namespace ModuleGraph.Path

/-- A path, the path above it, and so on, as long as there is one. -/
inductive IsChain : Path → List Path → Prop where
  | last {p : Path} (h : p.parent? = none) : IsChain p [p]
  | cons {p q : Path} {chain : List Path} (h : p.parent? = some q) (more : IsChain q chain) :
    IsChain p (p :: chain)

/-- A path has no two chains. -/
theorem IsChain.unique {p : Path} {chain other : List Path} (h : IsChain p chain)
    (hother : IsChain p other) : other = chain := by
  induction h generalizing other with
  | last hnone =>
    cases hother with
    | last => rfl
    | cons hsome => cases hnone.symm.trans hsome
  | cons hsome _ ih =>
    cases hother with
    | last hnone => cases hnone.symm.trans hsome
    | cons hsome' more =>
      obtain rfl := Option.some.inj (hsome.symm.trans hsome')
      rw [ih more]

theorem IsChain.ne_nil {p : Path} {chain : List Path} (h : IsChain p chain) : chain ≠ [] := by
  cases h <;> simp

/-- The chain of an absolute path does not depend on the bound, once it is large enough. -/
theorem ancestorsUpTo_eq {p : Path} (hp : p.isAbsolute = true) {n m : Nat}
    (hn : p.text.length < n) (hm : p.text.length < m) : ancestorsUpTo n p = ancestorsUpTo m p := by
  induction n generalizing p m with
  | zero => omega
  | succ n ih =>
    obtain ⟨m, rfl⟩ : ∃ k, m = k + 1 := ⟨m - 1, by omega⟩
    rw [ancestorsUpTo, ancestorsUpTo]
    cases hparent : p.parent? with
    | none => rfl
    | some q =>
      obtain ⟨hq, -, hshort⟩ := parent?_eq_some hp hparent
      have hchain : ancestorsUpTo n q = ancestorsUpTo m q := ih hq (by omega) (by omega)
      rw [Option.map_some, Option.map_some, hchain]

theorem ancestors_of_parent? {p q : Path} (hp : p.isAbsolute = true) (h : p.parent? = some q) :
    p.ancestors = p :: q.ancestors := by
  obtain ⟨hq, -, hshort⟩ := parent?_eq_some hp h
  rw [ancestors, ancestorsUpTo, h, Option.map_some, Option.getD_some,
    ancestorsUpTo_eq hq hshort (Nat.lt_succ_self _)]
  rfl

/-- The ancestors of an absolute path are its chain. -/
theorem isChain_ancestors {p : Path} (hp : p.isAbsolute = true) : IsChain p p.ancestors := by
  -- The text above is shorter, so going up ends.
  induction hlength : p.text.length using Nat.strongRecOn generalizing p with
  | ind n ih =>
    cases hparent : p.parent? with
    | none =>
      rw [ancestors, ancestorsUpTo, hparent]
      exact .last hparent
    | some q =>
      obtain ⟨hq, -, hshort⟩ := parent?_eq_some hp hparent
      rw [ancestors_of_parent? hp hparent]
      exact .cons hparent (ih _ (hlength ▸ hshort) hq rfl)

/-- The paths above an absolute path are absolute. -/
theorem IsChain.isAbsolute_of_mem {p q : Path} {chain : List Path} (h : IsChain p chain)
    (hp : p.isAbsolute = true) (hq : q ∈ chain) : q.isAbsolute = true := by
  induction h with
  | last => exact List.mem_singleton.mp hq ▸ hp
  | cons hsome _ ih =>
    rcases List.mem_cons.mp hq with rfl | hq
    · exact hp
    · exact ih (parent?_eq_some hp hsome).1 hq

theorem isAbsolute_of_mem_ancestors {p q : Path} (hp : p.isAbsolute = true)
    (h : q ∈ p.ancestors) : q.isAbsolute = true :=
  (isChain_ancestors hp).isAbsolute_of_mem hp h

/-- The chain of an absolute path has one member for each of its components. -/
theorem IsChain.length_eq {p : Path} {chain : List Path} (h : IsChain p chain)
    (hp : p.isAbsolute = true) : chain.length = p.components.length := by
  induction h with
  | last hnone => rw [parent?_eq_none hp hnone]; rfl
  | cons hsome _ ih =>
    obtain ⟨hq, ⟨c, -, -, hcomponents⟩, -⟩ := parent?_eq_some hp hsome
    rw [hcomponents, List.length_append, List.length_cons, ih hq]
    rfl

/-- The chain of an absolute path ends at the root. -/
theorem IsChain.getLast?_eq {p : Path} {chain : List Path} (h : IsChain p chain)
    (hp : p.isAbsolute = true) :
    ∃ top : Path, chain.getLast? = some top ∧ top.components = [.root] := by
  induction h with
  | last hnone => exact ⟨_, rfl, parent?_eq_none hp hnone⟩
  | cons hsome more ih =>
    obtain ⟨top, htop, hroot⟩ := ih (parent?_eq_some hp hsome).1
    exact ⟨top, by rw [List.getLast?_cons_of_ne_nil more.ne_nil, htop], hroot⟩

/-- The first path of a chain that fits. -/
def IsNearest (fits : Path → Prop) (chain : List Path) (p : Path) : Prop :=
  ∃ below above, chain = below ++ p :: above ∧ fits p ∧ ∀ q ∈ below, ¬ fits q

theorem IsNearest.mem {fits : Path → Prop} {chain : List Path} {p : Path}
    (h : IsNearest fits chain p) : p ∈ chain := by
  obtain ⟨below, above, rfl, -⟩ := h
  simp

/-- A search along a chain finds the nearest path. -/
theorem find?_eq_some_iff_isNearest {fits : Path → Bool} {chain : List Path} {p : Path} :
    chain.find? fits = some p ↔ IsNearest (fits · = true) chain p := by
  rw [List.find?_eq_some_iff_append]
  constructor
  · rintro ⟨hp, below, above, rfl, hbelow⟩
    exact ⟨below, above, rfl, hp, fun q hq => by simpa using hbelow q hq⟩
  · rintro ⟨below, above, rfl, hp, hbelow⟩
    exact ⟨hp, below, above, rfl, fun q hq => by simpa using hbelow q hq⟩

end ModuleGraph.Path

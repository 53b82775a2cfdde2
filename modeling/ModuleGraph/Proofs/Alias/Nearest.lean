import ModuleGraph.Alias.Load
import ModuleGraph.Project
import ModuleGraph.Proofs.Path.Chain

/-!
# The nearest configuration and the nearest repository

Two searches go up the chain of a directory.  The search for a configuration looks at the first 256
directories, takes the nearest one in which the name of a configuration leads to a file, and notes
that it gave up if the chain goes on beyond them.  The search for a repository looks at the whole
chain and takes the nearest directory in which the name of a repository leads anywhere.  A link that
leads nowhere is an entry of its directory, but it makes no repository.

## Main results

* `Alias.locate_of_isChain`, `Project.repositoryAbove_of_isChain`: the two searches along the chain
  of an absolute directory.
* `Alias.nearest_of_isChain`: both searches, with what the chain is.
-/

namespace ModuleGraph

variable {d : Files.Disk} {dir : Path} {chain : List Path}

namespace Alias

/-- The nearest configuration in a chain of directories. -/
def locateIn (d : Files.Disk) (chain : List Path) : Option Path :=
  (chain.map fun dir => dir.join configName).find? d.isFile

theorem locateIn_cons (d : Files.Disk) (dir : Path) (chain : List Path) :
    locateIn d (dir :: chain) =
      if d.isFile (dir.join configName) then some (dir.join configName) else locateIn d chain := by
  rw [locateIn, List.map_cons, List.find?_cons]
  split <;> simp_all [locateIn]

theorem locateIn_eq_some_iff {file : Path} : locateIn d chain = some file ↔
    ∃ above, Path.IsNearest (fun p => d.isFile (p.join configName) = true) chain above ∧
      file = above.join configName := by
  rw [locateIn, List.find?_map, Option.map_eq_some_iff]
  refine exists_congr fun above => and_congr ?_ eq_comm
  exact Path.find?_eq_some_iff_isNearest

theorem locateIn_eq_none_iff :
    locateIn d chain = none ↔ ∀ p ∈ chain, d.isFile (p.join configName) = false := by
  simp [locateIn, List.find?_map, List.find?_eq_none]

/-! ### The search step by step -/

section Search

variable {start above : Path} {left : Nat}

/-- The search ends at a directory with a configuration. -/
theorem locateFrom_of_isFile (h : d.isFile (dir.join configName) = true) :
    locateFrom d start (left + 1) dir = ⟨some (dir.join configName), []⟩ := by
  rw [locateFrom, if_pos h]

/-- The search ends with the chain. -/
theorem locateFrom_of_parent?_eq_none (h : d.isFile (dir.join configName) = false)
    (htop : dir.parent? = none) : locateFrom d start (left + 1) dir = ⟨none, []⟩ := by
  rw [locateFrom, if_neg (by simp [h]), htop]

/-- Otherwise it goes on with the directory above. -/
theorem locateFrom_of_parent?_eq_some (h : d.isFile (dir.join configName) = false)
    (habove : dir.parent? = some above) :
    locateFrom d start (left + 1) dir = locateFrom d start left above := by
  rw [locateFrom, if_neg (by simp [h]), habove]

end Search

/-- The search along a chain comes to the nearest configuration of the directories that it may look
at.  If there is none, it is noted that it was given up just if there are more directories. -/
theorem locateFrom_of_isChain (d : Files.Disk) (start : Path) (hchain : Path.IsChain dir chain)
    (left : Nat) :
    (locateFrom d start left dir).value = locateIn d (chain.take left) ∧
      (locateFrom d start left dir).warnings =
        if locateIn d (chain.take left) = none ∧ left < chain.length then [.gaveUp start]
        else [] := by
  induction left generalizing dir chain with
  | zero =>
    have hlength : 0 < chain.length := List.length_pos_of_ne_nil hchain.ne_nil
    exact ⟨rfl, (if_pos ⟨rfl, hlength⟩).symm⟩
  | succ left ih =>
    cases hfile : d.isFile (dir.join configName) with
    | true =>
      have hfound : locateIn d (chain.take (left + 1)) = some (dir.join configName) := by
        cases hchain with
        | last | cons => rw [List.take_succ_cons, locateIn_cons, if_pos hfile]
      rw [locateFrom_of_isFile hfile, hfound]
      exact ⟨rfl, rfl⟩
    | false =>
      cases hchain with
      | last htop =>
        rw [locateFrom_of_parent?_eq_none hfile htop, List.take_succ_cons, locateIn_cons,
          if_neg (by simp [hfile]), List.take_nil]
        exact ⟨rfl, rfl⟩
      | cons habove more =>
        rw [locateFrom_of_parent?_eq_some hfile habove, List.take_succ_cons, locateIn_cons,
          if_neg (by simp [hfile])]
        simpa only [List.length_cons, Nat.add_lt_add_iff_right] using ih more

/-- The search for a configuration finds the nearest one among the first directories of the chain.
It is noted that the search was given up just if none of them has one and the chain goes on. -/
theorem locate_of_isChain (d : Files.Disk) (hchain : Path.IsChain dir chain) :
    (∀ file, (locate d dir).value = some file ↔
      ∃ above, Path.IsNearest (fun p => d.isFile (p.join configName) = true)
        (chain.take maxDirectories) above ∧ file = above.join configName) ∧
    ((locate d dir).value = none ↔
      ∀ p ∈ chain.take maxDirectories, d.isFile (p.join configName) = false) ∧
    (locate d dir).warnings =
      if (locate d dir).value = none ∧ maxDirectories < chain.length then [.gaveUp dir]
      else [] := by
  obtain ⟨hvalue, hwarnings⟩ := locateFrom_of_isChain d dir hchain maxDirectories
  rw [locate, hwarnings, hvalue]
  exact ⟨fun _ => locateIn_eq_some_iff, locateIn_eq_none_iff, rfl⟩

end Alias

namespace Project

theorem repositoryAbove_eq_ok_iff {root : Path} : repositoryAbove d dir = .ok root ↔
    repositoryRoot? d dir = some root := by
  unfold repositoryAbove
  cases repositoryRoot? d dir with
  | none => simp
  | some found => simp

theorem repositoryAbove_eq_error_iff {fault : Fault} : repositoryAbove d dir = .error fault ↔
    repositoryRoot? d dir = none ∧ fault = .noRepository := by
  unfold repositoryAbove
  cases repositoryRoot? d dir with
  | none => simp [eq_comm]
  | some found => simp

/-- The search for a repository finds the nearest directory of the chain in which the name of a
repository leads anywhere, and fails just if there is none. -/
theorem repositoryAbove_of_isChain (d : Files.Disk) (hdir : dir.isAbsolute = true)
    (hchain : Path.IsChain dir chain) :
    (∀ root, repositoryAbove d dir = .ok root ↔
      Path.IsNearest (fun p => d.occupied (p.join ".git") = true) chain root) ∧
    ∀ fault, repositoryAbove d dir = .error fault ↔
      (∀ p ∈ chain, d.occupied (p.join ".git") = false) ∧ fault = .noRepository := by
  obtain rfl := hchain.unique (Path.isChain_ancestors hdir)
  refine ⟨fun root => ?_, fun fault => ?_⟩
  · rw [repositoryAbove_eq_ok_iff, repositoryRoot?]
    exact Path.find?_eq_some_iff_isNearest
  · rw [repositoryAbove_eq_error_iff, repositoryRoot?, List.find?_eq_none]
    simp only [Bool.not_eq_true]

end Project

/-! ### Both searches -/

namespace Alias

/-- An absolute directory has one chain, which ends at the root.  Of its first 256 directories the
nearest with a configuration is found, and of all of them the nearest with a repository. -/
theorem nearest_of_isChain (d : Files.Disk) (hdir : dir.isAbsolute = true) :
    (∃! chain, Path.IsChain dir chain) ∧ ∀ chain, Path.IsChain dir chain →
      (chain.length = dir.components.length ∧
        ∃ top : Path, chain.getLast? = some top ∧ top.components = [.root]) ∧
      ((∀ file, (locate d dir).value = some file ↔
          ∃ above, Path.IsNearest (fun p => d.isFile (p.join "tsconfig.json") = true)
            (chain.take 256) above ∧ file = above.join "tsconfig.json") ∧
        ((locate d dir).value = none ↔
          ∀ p ∈ chain.take 256, d.isFile (p.join "tsconfig.json") = false) ∧
        (locate d dir).warnings =
          if (locate d dir).value = none ∧ 256 < chain.length then [.gaveUp dir] else []) ∧
      (∀ root, Project.repositoryAbove d dir = .ok root ↔
          Path.IsNearest (fun p => d.occupied (p.join ".git") = true) chain root) ∧
        ∀ fault, Project.repositoryAbove d dir = .error fault ↔
          (∀ p ∈ chain, d.occupied (p.join ".git") = false) ∧ fault = .noRepository := by
  have hancestors := Path.isChain_ancestors hdir
  refine ⟨⟨_, hancestors, fun other hother => hancestors.unique hother⟩, fun chain hchain => ?_⟩
  exact ⟨⟨hchain.length_eq hdir, hchain.getLast?_eq hdir⟩, locate_of_isChain d hchain,
    Project.repositoryAbove_of_isChain d hdir hchain⟩

/-- A project in whose root directory the name of a configuration is that of a directory and the
name of a repository is that of a link that leads nowhere; above it both are files. -/
def passedOver : Files.Disk where
  entries := [(["p"], .directory), (["p", "src"], .directory),
    (["p", "tsconfig.json"], .directory), (["tsconfig.json"], .file .empty),
    (["p", ".git"], .link "nowhere"), ([".git"], .file .empty)]
  here := []
  distinct := by decide
  proper := by decide +kernel

private theorem leads_passedOver :
    (∀ p ∈ [(⟨"/p/src"⟩ : Path), ⟨"/p"⟩], ¬ passedOver.isFile (p.join "tsconfig.json") = true ∧
      ¬ passedOver.occupied (p.join ".git") = true) ∧
    passedOver.isFile ⟨"/tsconfig.json"⟩ = true ∧ passedOver.occupied ⟨"/.git"⟩ = true ∧
    passedOver.followIf false ⟨"/p/.git"⟩ = .ok ["p", ".git"] ∧
    (passedOver.entry? ["p", ".git"]).isSome = true := by
  decide +kernel

/-- Both searches pass over the project, and end at the root. -/
theorem nearest_passedOver :
    (⟨"/p/src"⟩ : Path).isAbsolute = true ∧
    Path.IsChain ⟨"/p/src"⟩ [⟨"/p/src"⟩, ⟨"/p"⟩, ⟨"/"⟩] ∧
    (locate passedOver ⟨"/p/src"⟩).value = some ⟨"/tsconfig.json"⟩ ∧
    (locate passedOver ⟨"/p/src"⟩).warnings = [] ∧
    Project.repositoryAbove passedOver ⟨"/p/src"⟩ = .ok ⟨"/"⟩ := by
  have hdir : (⟨"/p/src"⟩ : Path).isAbsolute = true := by decide
  have hchain : Path.IsChain ⟨"/p/src"⟩ [⟨"/p/src"⟩, ⟨"/p"⟩, ⟨"/"⟩] :=
    .cons (by decide) (.cons (by decide) (.last (by decide)))
  obtain ⟨hbelow, hfile, hrepository, -⟩ := leads_passedOver
  obtain ⟨-, ⟨hsome, -, hwarnings⟩, hroot, -⟩ := (nearest_of_isChain passedOver hdir).2 _ hchain
  have hvalue : (locate passedOver ⟨"/p/src"⟩).value = some ⟨"/tsconfig.json"⟩ :=
    (hsome _).mpr ⟨⟨"/"⟩, ⟨[⟨"/p/src"⟩, ⟨"/p"⟩], [], rfl, hfile, fun q hq => (hbelow q hq).1⟩,
      by decide⟩
  have hfound : ¬ ((locate passedOver ⟨"/p/src"⟩).value = none ∧ 256 < 3) := by simp
  refine ⟨hdir, hchain, hvalue, hwarnings.trans (if_neg hfound), ?_⟩
  exact (hroot _).mpr ⟨[⟨"/p/src"⟩, ⟨"/p"⟩], [], rfl, hrepository, fun q hq => (hbelow q hq).2⟩

/-- The nearest directory that has an entry under the name of a repository need not be found: the
entry may be a link that leads nowhere. -/
theorem repositoryAbove_passedOver :
    Path.IsChain ⟨"/p"⟩ [⟨"/p"⟩, ⟨"/"⟩] ∧
    Path.IsNearest (fun p => ∃ place, passedOver.followIf false (p.join ".git") = .ok place ∧
      (passedOver.entry? place).isSome = true) [⟨"/p"⟩, ⟨"/"⟩] ⟨"/p"⟩ ∧
    Project.repositoryAbove passedOver ⟨"/p"⟩ = .ok ⟨"/"⟩ := by
  have hchain : Path.IsChain ⟨"/p"⟩ [⟨"/p"⟩, ⟨"/"⟩] := .cons (by decide) (.last (by decide))
  obtain ⟨hbelow, -, hrepository, hentry⟩ := leads_passedOver
  refine ⟨hchain, ⟨[], [⟨"/"⟩], rfl, ⟨_, hentry⟩, by simp⟩, ?_⟩
  refine ((Project.repositoryAbove_of_isChain passedOver (by decide) hchain).1 ⟨"/"⟩).mpr ?_
  exact ⟨[⟨"/p"⟩], [], rfl, hrepository, fun q hq => (hbelow q (List.mem_cons_of_mem _ hq)).2⟩

end Alias

end ModuleGraph

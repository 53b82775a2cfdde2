import Mathlib.Data.List.Flatten
import Mathlib.Data.String.Basic
import ModuleGraph.Proofs.Files.Tree

/-!
# Trees without links

In a tree without links a path that can be followed leads to the place its components give, and the
path of that place, which is no longer, leads there too.

## Main definitions

* `Files.Disk.HasNoLinks`: no entry is a link.

## Main results

* `Files.Disk.HasNoLinks.follow_pathOf`: the path of a place that some path leads to leads there.
* `Files.Disk.HasNoLinks.eq_pathOf_of_canonical`: the canonical form of a path to a file is the path
  of the place of the file.
-/

open scoped List

namespace ModuleGraph

namespace Path

/-- Segments with a `/` in front of each. -/
theorem slash_joinSlash {segments : List (List Char)} (hne : segments ≠ []) :
    '/' :: joinSlash segments = segments.flatMap ('/' :: ·) := by
  obtain ⟨a, more, rfl⟩ := List.exists_cons_of_ne_nil hne
  rw [joinSlash_cons, List.flatMap_cons, List.cons_append]

/-- The trail of a path is found among the segments of its text. -/
theorem map_toList_trail_sublist (cs : List Char) :
    (⟨String.ofList ('/' :: cs)⟩ : Path).trail.map String.toList <+ splitSlash cs := by
  rw [trail, components_slash, List.tail_cons, body]
  induction splitSlash cs with
  | nil => exact .slnil
  | cons s segments ih =>
    cases hc : Component.ofSegment? s with
    | none =>
      rw [List.filterMap_cons_none hc]
      exact ih.cons s
    | some c =>
      rw [List.filterMap_cons_some hc, List.map_cons, List.map_cons,
        Component.segment_of_ofSegment? hc, String.toList_ofList]
      exact ih.cons_cons s

end Path

namespace Files.Disk

variable {d : Disk} {links : Bool} {place r : Place} {segments : List String} {p q : Path}

/-- No entry is a link. -/
def HasNoLinks (d : Disk) : Prop := ∀ place target, d.entry? place ≠ some (.link target)

theorem hasNoLinks_iff : d.HasNoLinks ↔ ∀ e ∈ d.entries, e.2.isLink = false := by
  constructor
  · rintro h ⟨place, e⟩ hmem
    cases e with
    | link target => exact absurd (entry?_of_mem_entries hmem) (h place target)
    | directory | file => rfl
  · intro h place target he
    by_cases hne : place = []
    · rw [hne] at he
      cases he
    · cases h _ (mem_entries_of_entry?_eq hne he)

instance (d : Disk) : Decidable d.HasNoLinks := decidable_of_iff _ hasNoLinks_iff.symm

theorem HasNoLinks.linksMissDirectories (hd : d.HasNoLinks) : d.LinksMissDirectories := by
  intro place name target r he
  exact absurd he (hd _ _)

theorem HasNoLinks.direct (hd : d.HasNoLinks) (h : d.Reaches links place segments r) :
    d.Reaches false place segments r := by
  induction h with
  | done place => exact .done place
  | here hdir _ ih => exact .here hdir ih
  | up hdir _ ih => exact .up hdir ih
  | down hdir hname he hlink _ ih => exact .down hdir hname he hlink ih
  | link _ _ _ he => exact absurd he (hd _ _)

/-- What is reached without links has no other names than those that were followed. -/
theorem Reaches.sublist (h : d.Reaches false place segments r) : r <+ place ++ segments := by
  induction h with
  | done place => simp
  | @here place r rest _ _ ih => exact ih.trans ((List.sublist_cons_self _ _).append_left _)
  | @up place r rest _ _ ih =>
    exact ih.trans ((List.dropLast_sublist place).append (List.sublist_cons_self _ _))
  | down _ _ _ _ _ ih => simpa using ih
  | link hlinks => cases hlinks

/-- The path of a place that is reached without links is contained in every path to it. -/
theorem Reaches.toList_pathOf_sublist (hp : p.isAbsolute = true)
    (h : d.Reaches false [] p.trail r) : (pathOf r).text.toList <+ p.text.toList := by
  have hnames := (IsSettled.of_reaches h isSettled_nil).names
  obtain ⟨cs, rfl⟩ := Path.isAbsolute_iff.mp hp
  have hsegments : r.map String.toList <+ Path.splitSlash cs :=
    (h.sublist.map String.toList).trans (Path.map_toList_trail_sublist cs)
  rw [toList_pathOf hnames, String.toList_ofList]
  conv_rhs => rw [← Path.joinSlash_splitSlash cs]
  by_cases hne : r = []
  · subst hne
    exact (List.nil_sublist _).cons_cons '/'
  · rw [Path.slash_joinSlash (by simpa using hne), Path.slash_joinSlash (Path.splitSlash_ne_nil cs)]
    exact hsegments.flatMap _

theorem IsSettled.reaches_segmentsOf (h : d.IsSettled place) :
    d.Reaches false [] (segmentsOf (pathOf place).text.toList) place := by
  by_cases hne : place = []
  · subst hne
    exact .here entry?_nil (.done [])
  · rw [segmentsOf_pathOf hne h.names]
    exact h.reaches

/-- The path of a place that some path leads to leads there. -/
theorem HasNoLinks.follow_pathOf (hd : d.HasNoLinks) (hp : p.isAbsolute = true)
    (h : d.follow p = .ok r) : d.follow (pathOf r) = .ok r := by
  have hreach : d.Reaches false [] p.trail r :=
    hd.direct (reaches_trail_of_follow hd.linksMissDirectories hp h)
  have hsettled := IsSettled.of_reaches hreach isSettled_nil
  have hsub := hreach.toList_pathOf_sublist hp
  have hroot : startsAtRoot (pathOf r).text.toList = true := isAbsolute_pathOf r
  have hsize : (pathOf r).text.utf8ByteSize ≤ p.text.utf8ByteSize := by
    have hle := String.utf8Len_le_of_sublist hsub
    rwa [← String.utf8ByteSize_ofList, ← String.utf8ByteSize_ofList, String.ofList_toList,
      String.ofList_toList] at hle
  unfold follow followIf at h ⊢
  dsimp only at h ⊢
  split_ifs at h with hnul hempty hlong _
  all_goals
    have hnul' : ¬ (pathOf r).text.toList.contains (Char.ofNat 0) = true := fun hmem =>
      hnul (by simpa using hsub.subset (by simpa using hmem))
    have hempty' : ¬ (pathOf r).text.toList.isEmpty = true := fun hnil => by
      rw [List.isEmpty_iff.mp hnil] at hroot
      cases hroot
    rw [if_neg hnul', if_neg hempty', if_neg (by omega), if_pos hroot]
    exact walk_of_reaches hsettled.reaches_segmentsOf maxLinks

theorem HasNoLinks.steps_ne_tooManyLinks (hd : d.HasNoLinks) (last : Bool)
    (onLink : Place → List String → Except Fault Place) (place : Place) (segments : List String) :
    d.steps last onLink place segments ≠ .error .tooManyLinks := by
  induction segments generalizing place with
  | nil => intro h; cases h
  | cons name rest ih =>
    rw [steps]
    split
    · split
      · exact ih _
      · split
        · exact ih _
        · split
          · simp
          · split
            · simp
            · next he => exact absurd he (hd _ _)
            · exact ih _
    · simp

/-- Where there are no links, there are never too many of them. -/
theorem HasNoLinks.walk_ne_tooManyLinks (hd : d.HasNoLinks) (last : Bool) (bound : Nat)
    (place : Place) (segments : List String) :
    d.walk last bound place segments ≠ .error .tooManyLinks := by
  cases bound with
  | zero => exact hd.steps_ne_tooManyLinks last _ place segments
  | succ bound => exact hd.steps_ne_tooManyLinks last _ place segments

/-- Where there are no links, what a path leads to is found by following it. -/
theorem HasNoLinks.found?_eq (hd : d.HasNoLinks) (p : Path) : d.found? p = d.reach? p := by
  have hnot : d.follow p ≠ .error .tooManyLinks := by
    unfold follow followIf
    dsimp only
    split
    · simp
    · split
      · simp
      · split
        · simp
        · exact hd.walk_ne_tooManyLinks _ _ _ _
  unfold found? reach?
  split
  · next h => rw [h]
  · next h => exact absurd h hnot
  · next h => rw [h]

/-- The canonical form of a path to a file is the path of the place of the file. -/
theorem HasNoLinks.eq_pathOf_of_canonical (hd : d.HasNoLinks) {contents : ByteArray}
    (hp : p.isAbsolute = true) (hr : d.follow p = .ok r) (he : d.entry? r = some (.file contents))
    (hq : d.canonical p = .ok q) : q = pathOf r := by
  obtain ⟨place, hnames, rfl, hreach⟩ :=
    exists_place_of_canonical hd.linksMissDirectories hp hr he hq
  rw [(hd.direct hreach).eq_append hnames, List.nil_append]

end Files.Disk

end ModuleGraph

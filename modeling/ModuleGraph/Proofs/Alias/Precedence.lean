import Mathlib.Data.List.Basic
import Mathlib.Data.List.Induction
import Mathlib.Tactic.Common
import ModuleGraph.Proofs.Alias.LaxText
import ModuleGraph.Resolution.Mapped

/-!
# Precedence among aliases

The paths of a configuration are entries of a key and one or more targets.  An entry is tried for a
request that begins with the stem of its key, and leads to a file if the rest of the request is
resolved below one of its targets.  The winner is the first place that leads to a file, in the order
of the keys and, for one key, in the order of its targets; where no place does, the request is
resolved from the directory of the module.  An entry whose targets are not texts has no places, and
so makes no difference to the others.

All of this holds of paths that can be read as a whole.  A number that is out of range, half of a
surrogate pair or a nesting that is too deep, anywhere in the paths, makes the configuration
malformed, and then every request is resolved from the directory of the module.

## Main definitions

* `Alias.IsStem`, `Alias.IsTail`: a pattern without its wildcard, a rest without its slash.
* `Alias.TargetAt`: the targets of an entry, by position.
* `Alias.LeadsAt`: the file that a place leads to.
* `Alias.Wins`: the file that a request is resolved to.

## Main results

* `Alias.resolved?_ofPaths_iff`: the aliases of entries give the winner.
* `Alias.map_fst_lastValues`, `Alias.lookup_of_mem_lastValues`: a repeated key keeps its first place
  and takes its last value.
* `Alias.resolved?_load_iff`: the configuration of a file gives the winner.
-/

namespace ModuleGraph.Alias

/-! ### Patterns and requests -/

/-- A pattern without one wildcard at its end. -/
def IsStem (pattern stem : String) : Prop :=
  pattern = stem ++ "/*" ∨ pattern = stem ∧ ∀ front, pattern ≠ front ++ "/*"

/-- The rest of a request without one leading slash. -/
def IsTail (rest tail : String) : Prop :=
  rest = "/" ++ tail ∨ rest = tail ∧ ∀ behind, rest ≠ "/" ++ behind

theorem stripWildcard_append (stem : String) : stripWildcard (stem ++ "/*") = stem := by
  have hstrip : stripWildcardChars (stem.toList ++ ['/', '*']) = stem.toList := by
    simp [stripWildcardChars, List.isSuffixOf_iff_suffix]
  rw [stripWildcard, String.toList_append]
  exact (congrArg String.ofList hstrip).trans String.ofList_toList

theorem stripWildcard_eq_self {pattern : String} (h : ∀ front, pattern ≠ front ++ "/*") :
    stripWildcard pattern = pattern := by
  have hsuffix : ¬ ['/', '*'].isSuffixOf pattern.toList = true := by
    rw [List.isSuffixOf_iff_suffix]
    rintro ⟨front, hfront⟩
    apply h (String.ofList front)
    rw [← String.toList_inj, String.toList_append, String.toList_ofList]
    exact hfront.symm
  rw [stripWildcard, stripWildcardChars, if_neg hsuffix, String.ofList_toList]

theorem isStem_iff {pattern stem : String} :
    IsStem pattern stem ↔ stripWildcard pattern = stem := by
  constructor
  · rintro (rfl | ⟨rfl, h⟩)
    · exact stripWildcard_append stem
    · exact stripWildcard_eq_self h
  · rintro rfl
    by_cases h : ∃ front, pattern = front ++ "/*"
    · obtain ⟨front, rfl⟩ := h
      rw [stripWildcard_append]
      exact .inl rfl
    · have hnone : ∀ front, pattern ≠ front ++ "/*" := fun front hfront => h ⟨front, hfront⟩
      exact .inr ⟨(stripWildcard_eq_self hnone).symm, hnone⟩

theorem behind?_eq_some_iff {stem cs rest : List Char} :
    behind? stem cs = some rest ↔ cs = stem ++ rest := by
  fun_induction behind? stem cs with
  | case1 cs => simp [eq_comm]
  | case2 s ss c cs hs ih =>
    rw [ih, beq_iff_eq.mp hs]
    simp
  | case3 s ss c cs hs =>
    simp only [beq_iff_eq] at hs
    simp [Ne.symm hs]
  | case4 => simp

theorem isTail_iff {rest tail : String} :
    IsTail rest tail ↔ String.ofList (dropSlash rest.toList) = tail := by
  have hslash (behind : String) : ("/" ++ behind).toList = '/' :: behind.toList := by simp
  by_cases h : ∃ behind, rest = "/" ++ behind
  · obtain ⟨behind, rfl⟩ := h
    have hdrop : String.ofList (dropSlash ("/" ++ behind).toList) = behind := by
      rw [hslash, dropSlash, String.ofList_toList]
    rw [hdrop, IsTail]
    constructor
    · rintro (heq | ⟨-, hnone⟩)
      · rw [← String.toList_inj, hslash, hslash] at heq
        exact String.toList_inj.mp (List.cons.inj heq).2
      · exact absurd rfl (hnone behind)
    · rintro rfl
      exact .inl rfl
  · have hnone : ∀ behind, rest ≠ "/" ++ behind := fun behind heq => h ⟨behind, heq⟩
    have hdrop : String.ofList (dropSlash rest.toList) = rest := by
      rw [dropSlash, String.ofList_toList]
      intro cs hcs
      apply hnone (String.ofList cs)
      rw [← String.toList_inj, hslash, hcs, String.toList_ofList]
    rw [hdrop, IsTail]
    constructor
    · rintro (heq | ⟨heq, -⟩)
      · exact absurd heq (hnone tail)
      · exact heq
    · rintro rfl
      exact .inr ⟨rfl, hnone⟩

/-- What an alias makes of a request, in terms of texts. -/
theorem candidate?_eq_some_iff {a : Alias} {request asked : String} :
    a.candidate? request = some asked ↔
      ∃ rest tail, request = a.stem ++ rest ∧ IsTail rest tail ∧ asked = "./" ++ tail := by
  have hdot (cs : List Char) : String.ofList ('.' :: '/' :: cs) = "./" ++ String.ofList cs := by
    rw [← String.toList_inj]
    simp
  rw [candidate?, Option.map_eq_some_iff]
  constructor
  · rintro ⟨cs, hcs, rfl⟩
    refine ⟨String.ofList cs, _, ?_, isTail_iff.mpr rfl, ?_⟩
    · rw [← String.toList_inj, String.toList_append, String.toList_ofList]
      exact behind?_eq_some_iff.mp hcs
    · rw [hdot, String.toList_ofList]
  · rintro ⟨rest, tail, rfl, htail, rfl⟩
    refine ⟨rest.toList, behind?_eq_some_iff.mpr (String.toList_append ..), ?_⟩
    rw [hdot, isTail_iff.mp htail]

/-! ### Places -/

/-- The target at a position of an entry: a text has one, and a list of texts has its members. -/
def TargetAt (v : Json.Value) (position : Nat) (target : String) : Prop :=
  v = .string target ∧ position = 0 ∨
    ∃ items, v = .array items ∧ (∀ item ∈ items, ∃ text, item = .string text) ∧
      items[position]? = some (.string target)

/-- The file that a place leads to: the entry at position `i` begins the request with the stem of
its key, and the rest is resolved below its target at position `j`. -/
def LeadsAt (plain : Path → String → Option Path) (base : Path)
    (entries : List (String × Json.Value)) (request : String) (i j : Nat) (p : Path) : Prop :=
  ∃ key v target stem below rest tail, entries[i]? = some (key, v) ∧ TargetAt v j target ∧
    IsStem key stem ∧ IsStem target below ∧ request = stem ++ rest ∧ IsTail rest tail ∧
    plain (base.join below).clean ("./" ++ tail) = some p

/-- The file that a request is resolved to: the one of the first place that leads to any, in the
order of keys and then of targets, or else the one that it leads to from the directory. -/
def Wins (plain : Path → String → Option Path) (base : Path)
    (entries : List (String × Json.Value)) (dir : Path) (request : String) (p : Path) : Prop :=
  (∃ i j, LeadsAt plain base entries request i j p ∧
    ∀ i' j', i' < i ∨ i' = i ∧ j' < j → ∀ q, ¬ LeadsAt plain base entries request i' j' q) ∨
  (∀ i j q, ¬ LeadsAt plain base entries request i j q) ∧ plain dir request = some p

theorem mapM_text?_eq_some_iff {items : List Json.Value} {texts : List String} :
    items.mapM Json.Value.text? = some texts ↔ items = texts.map .string := by
  induction items generalizing texts with
  | nil => cases texts <;> simp
  | cons item items ih =>
    rw [List.mapM_cons]
    cases texts with
    | nil => simp [Option.bind_eq_some_iff]
    | cons text texts =>
      cases item <;> simp [Json.Value.text?, Option.bind_eq_some_iff, ih, and_comm]

theorem exists_texts {items : List Json.Value} (h : ∀ item ∈ items, ∃ text, item = .string text) :
    ∃ texts : List String, items = texts.map .string := by
  induction items with
  | nil => exact ⟨[], rfl⟩
  | cons item items ih =>
    obtain ⟨text, rfl⟩ := h item List.mem_cons_self
    obtain ⟨texts, rfl⟩ := ih fun i hi => h i (List.mem_cons_of_mem _ hi)
    exact ⟨text :: texts, rfl⟩

theorem targetAt_iff {v : Json.Value} {j : Nat} {target : String} :
    TargetAt v j target ↔ ((targets? v).getD [])[j]? = some target := by
  cases v with
  | string text => cases j <;> simp [TargetAt, targets?]
  | array items =>
    constructor
    · rintro (⟨hstring, -⟩ | ⟨items', hitems, hall, hget⟩)
      · simp at hstring
      · obtain rfl := Json.Value.array.inj hitems
        obtain ⟨texts, rfl⟩ := exists_texts hall
        have htargets : targets? (.array (texts.map .string)) = some texts :=
          mapM_text?_eq_some_iff.mpr rfl
        simpa [htargets] using hget
    · intro hget
      cases htargets : targets? (.array items) with
      | none => simp [htargets] at hget
      | some texts =>
        rw [htargets, Option.getD_some] at hget
        have hitems : items = texts.map .string := mapM_text?_eq_some_iff.mp htargets
        exact .inr ⟨items, rfl, by simp [hitems], by simp [hitems, hget]⟩
  | null | bool | number | object | unreadable => simp [TargetAt, targets?]

/-- The places of an entry are the aliases that it gives. -/
theorem throughAlias?_eq_some_iff {plain : Path → String → Option Path} {base : Path}
    {request key target : String} {p : Path} :
    Resolution.throughAlias? plain request
        ⟨stripWildcard key, (base.join (stripWildcard target)).clean⟩ = some p ↔
      ∃ stem below rest tail, IsStem key stem ∧ IsStem target below ∧ request = stem ++ rest ∧
        IsTail rest tail ∧ plain (base.join below).clean ("./" ++ tail) = some p := by
  rw [Resolution.throughAlias?, Option.bind_eq_some_iff]
  constructor
  · rintro ⟨asked, hasked, hplain⟩
    obtain ⟨rest, tail, hrequest, htail, rfl⟩ := candidate?_eq_some_iff.mp hasked
    dsimp only at hrequest hplain
    exact ⟨stripWildcard key, stripWildcard target, rest, tail, isStem_iff.mpr rfl,
      isStem_iff.mpr rfl, hrequest, htail, hplain⟩
  · rintro ⟨stem, below, rest, tail, hstem, hbelow, hrequest, htail, hplain⟩
    obtain rfl := isStem_iff.mp hstem
    obtain rfl := isStem_iff.mp hbelow
    refine ⟨"./" ++ tail, candidate?_eq_some_iff.mpr ⟨rest, tail, hrequest, htail, rfl⟩, ?_⟩
    dsimp only
    exact hplain

/-! ### The first place -/

section First

variable {α β γ : Type} {l : List α} {c : γ}

theorem findSome?_eq_some_iff_getElem? {f : α → Option γ} :
    l.findSome? f = some c ↔
      ∃ (i : Nat) (a : α), l[i]? = some a ∧ f a = some c ∧
        ∀ i' < i, ∀ a', l[i']? = some a' → f a' = none := by
  rw [List.findSome?_eq_some_iff]
  constructor
  · rintro ⟨before, a, after, rfl, hc, hnone⟩
    refine ⟨before.length, a, by simp, hc, fun i hi a' ha' => hnone a' ?_⟩
    rw [List.getElem?_append_left hi] at ha'
    exact List.mem_of_getElem? ha'
  · rintro ⟨i, a, ha, hc, hnone⟩
    obtain ⟨hi, rfl⟩ := List.getElem?_eq_some_iff.mp ha
    refine ⟨l.take i, l[i], l.drop (i + 1), by simp, hc, fun a' ha' => ?_⟩
    obtain ⟨i', hi', rfl⟩ := List.mem_take_iff_getElem.mp ha'
    exact hnone i' (by omega) _ (List.getElem?_eq_getElem (by omega))

/-- A search through the lists of a list finds the first place in lexicographic order. -/
theorem findSome?_findSome?_eq_some_iff {f : α → List β} {g : α → β → Option γ} :
    l.findSome? (fun a => (f a).findSome? (g a)) = some c ↔
      ∃ i j : Nat, (∃ a b, l[i]? = some a ∧ (f a)[j]? = some b ∧ g a b = some c) ∧
        ∀ i' j', i' < i ∨ i' = i ∧ j' < j →
          ∀ a b, l[i']? = some a → (f a)[j']? = some b → g a b = none := by
  rw [findSome?_eq_some_iff_getElem?]
  constructor
  · rintro ⟨i, a, ha, hc, hbefore⟩
    obtain ⟨j, b, hb, hc, hnone⟩ := findSome?_eq_some_iff_getElem?.mp hc
    refine ⟨i, j, ⟨a, b, ha, hb, hc⟩, ?_⟩
    rintro i' j' (hi | ⟨rfl, hj⟩) a' b' ha' hb'
    · exact List.findSome?_eq_none_iff.mp (hbefore i' hi a' ha') b' (List.mem_of_getElem? hb')
    · obtain rfl : a = a' := Option.some.inj (ha.symm.trans ha')
      exact hnone j' hj b' hb'
  · rintro ⟨i, j, ⟨a, b, ha, hb, hc⟩, hbefore⟩
    refine ⟨i, a, ha, ?_, fun i' hi a' ha' => ?_⟩
    · refine findSome?_eq_some_iff_getElem?.mpr ⟨j, b, hb, hc, fun j' hj b' hb' => ?_⟩
      exact hbefore i j' (.inr ⟨rfl, hj⟩) a b' ha hb'
    · rw [List.findSome?_eq_none_iff]
      intro b' hb'
      obtain ⟨j', hj'⟩ := List.mem_iff_getElem?.mp hb'
      exact hbefore i' j' (.inl hi) a' b' ha' hj'

end First

theorem findSome?_ofPaths (f : Alias → Option Path) (base : Path)
    (entries : List (String × Json.Value)) :
    (ofPaths base entries).findSome? f =
      entries.findSome? fun entry => ((targets? entry.2).getD []).findSome? fun target =>
        f ⟨stripWildcard entry.1, (base.join (stripWildcard target)).clean⟩ := by
  induction entries with
  | nil => rfl
  | cons entry entries ih =>
    have hentry : (ofEntry base entry.1 ((targets? entry.2).getD [])).findSome? f =
        ((targets? entry.2).getD []).findSome? fun target =>
          f ⟨stripWildcard entry.1, (base.join (stripWildcard target)).clean⟩ :=
      List.findSome?_map
    rw [ofPaths, List.flatMap_cons, List.findSome?_append, hentry, List.findSome?_cons, ← ih]
    cases ((targets? entry.2).getD []).findSome? fun target =>
      f ⟨stripWildcard entry.1, (base.join (stripWildcard target)).clean⟩ <;> rfl

/-- The file that a place leads to, through the alias of the place. -/
theorem leadsAt_iff {plain : Path → String → Option Path} {base : Path}
    {entries : List (String × Json.Value)} {request : String} {i j : Nat} {p : Path} :
    LeadsAt plain base entries request i j p ↔
      ∃ entry target, entries[i]? = some entry ∧ ((targets? entry.2).getD [])[j]? = some target ∧
        Resolution.throughAlias? plain request
          ⟨stripWildcard entry.1, (base.join (stripWildcard target)).clean⟩ = some p := by
  constructor
  · rintro ⟨key, v, target, stem, below, rest, tail, hentry, htarget, hplace⟩
    exact ⟨(key, v), target, hentry, targetAt_iff.mp htarget,
      throughAlias?_eq_some_iff.mpr ⟨stem, below, rest, tail, hplace⟩⟩
  · rintro ⟨⟨key, v⟩, target, hentry, htarget, hplace⟩
    obtain ⟨stem, below, rest, tail, hplace⟩ := throughAlias?_eq_some_iff.mp hplace
    exact ⟨key, v, target, stem, below, rest, tail, hentry, targetAt_iff.mpr htarget, hplace⟩

/-- The aliases of entries give the first place that leads to a file. -/
theorem mapped?_ofPaths_iff {plain : Path → String → Option Path} {base : Path}
    {entries : List (String × Json.Value)} {request : String} {p : Path} :
    Resolution.mapped? plain ⟨some base, ofPaths base entries⟩ request = some p ↔
      ∃ i j, LeadsAt plain base entries request i j p ∧
        ∀ i' j', i' < i ∨ i' = i ∧ j' < j → ∀ q, ¬ LeadsAt plain base entries request i' j' q := by
  rw [Resolution.mapped?, findSome?_ofPaths, findSome?_findSome?_eq_some_iff]
  refine exists_congr fun i => exists_congr fun j => and_congr leadsAt_iff.symm ?_
  refine forall_congr' fun i' => forall_congr' fun j' => imp_congr_right fun _ => ?_
  constructor
  · intro hnone q hleads
    obtain ⟨entry, target, hentry, htarget, hq⟩ := leadsAt_iff.mp hleads
    simp [hnone entry target hentry htarget] at hq
  · intro hnone entry target hentry htarget
    rw [Option.eq_none_iff_forall_ne_some]
    exact fun q hq => hnone q (leadsAt_iff.mpr ⟨entry, target, hentry, htarget, hq⟩)

theorem mapped?_ofPaths_eq_none_iff {plain : Path → String → Option Path} {base : Path}
    {entries : List (String × Json.Value)} {request : String} :
    Resolution.mapped? plain ⟨some base, ofPaths base entries⟩ request = none ↔
      ∀ i j q, ¬ LeadsAt plain base entries request i j q := by
  rw [Resolution.mapped?, findSome?_ofPaths]
  simp only [List.findSome?_eq_none_iff]
  constructor
  · intro hnone i j q hleads
    obtain ⟨entry, target, hentry, htarget, hq⟩ := leadsAt_iff.mp hleads
    simp [hnone entry (List.mem_of_getElem? hentry) target (List.mem_of_getElem? htarget)] at hq
  · intro hnone entry hentry target htarget
    obtain ⟨i, hi⟩ := List.mem_iff_getElem?.mp hentry
    obtain ⟨j, hj⟩ := List.mem_iff_getElem?.mp htarget
    rw [Option.eq_none_iff_forall_ne_some]
    exact fun q hq => hnone i j q (leadsAt_iff.mpr ⟨entry, target, hi, hj, hq⟩)

/-- The aliases of entries give the winner. -/
theorem resolved?_ofPaths_iff {plain : Path → String → Option Path} {base : Path}
    {entries : List (String × Json.Value)} {dir : Path} {request : String} {p : Path} :
    Resolution.resolved? plain ⟨some base, ofPaths base entries⟩ dir request = some p ↔
      Wins plain base entries dir request p := by
  rw [Resolution.resolved?, Option.or_eq_some_iff, mapped?_ofPaths_iff,
    mapped?_ofPaths_eq_none_iff]
  rfl

/-- The targets of an entry are texts. -/
def IsTargets (v : Json.Value) : Prop :=
  (∃ text, v = .string text) ∨
    ∃ items, v = .array items ∧ ∀ item ∈ items, ∃ text, item = .string text

theorem isSome_targets?_iff {v : Json.Value} : (targets? v).isSome = true ↔ IsTargets v := by
  cases v with
  | string text => simp [IsTargets, targets?]
  | array items =>
    constructor
    · intro hsome
      obtain ⟨texts, htexts⟩ := Option.isSome_iff_exists.mp hsome
      have hitems : items = texts.map .string := mapM_text?_eq_some_iff.mp htexts
      exact .inr ⟨items, rfl, by simp [hitems]⟩
    · rintro (⟨text, hstring⟩ | ⟨items', hitems, hall⟩)
      · simp at hstring
      · obtain rfl := Json.Value.array.inj hitems
        obtain ⟨texts, htexts⟩ := exists_texts hall
        exact Option.isSome_iff_exists.mpr ⟨texts, mapM_text?_eq_some_iff.mpr htexts⟩
  | null | bool | number | object | unreadable => simp [IsTargets, targets?]

instance (v : Json.Value) : Decidable (IsTargets v) := decidable_of_iff _ isSome_targets?_iff

/-- Entries whose targets are not texts give no aliases. -/
theorem ofPaths_filter (base : Path) (entries : List (String × Json.Value)) :
    ofPaths base (entries.filter fun entry => IsTargets entry.2) = ofPaths base entries := by
  induction entries with
  | nil => rfl
  | cons entry entries ih =>
    by_cases htargets : IsTargets entry.2
    · rw [List.filter_cons_of_pos (by simpa using htargets), ofPaths, List.flatMap_cons,
        ofPaths, List.flatMap_cons]
      exact congrArg (_ ++ ·) ih
    · have hnone : targets? entry.2 = none := by
        rw [← Option.not_isSome_iff_eq_none, isSome_targets?_iff]
        exact htargets
      rw [List.filter_cons_of_neg (by simpa using htargets), ih, ofPaths, ofPaths,
        List.flatMap_cons, hnone]
      rfl

/-! ### Repeated keys -/

open Document

theorem lastValues_append (members : List (String × Json.Value)) (m : String × Json.Value) :
    lastValues (members ++ [m]) =
      if (lastValues members).any fun d => d.1 == m.1 then
        (lastValues members).map fun d => if d.1 == m.1 then (d.1, m.2) else d
      else lastValues members ++ [m] := by
  rw [lastValues, List.foldl_append]
  rfl

theorem any_fst_eq_iff {entries : List (String × Json.Value)} {key : String} :
    (entries.any fun d => d.1 == key) = true ↔ key ∈ entries.map Prod.fst := by
  simp [List.any_eq_true]

/-- A repeated key keeps its first place. -/
theorem map_fst_lastValues (members : List (String × Json.Value)) :
    (lastValues members).map Prod.fst = (members.map Prod.fst).eraseDups := by
  induction members using List.reverseRecOn with
  | nil => rfl
  | append_singleton members m ih =>
    rw [lastValues_append, List.map_append, List.eraseDups_append, ← ih]
    have hmem : m.1 ∈ (lastValues members).map Prod.fst ↔ m.1 ∈ members.map Prod.fst := by
      rw [ih, List.mem_eraseDups]
    by_cases hkey : m.1 ∈ members.map Prod.fst
    · have hkeys : ((lastValues members).map fun d => if d.1 == m.1 then (d.1, m.2) else d).map
          Prod.fst = (lastValues members).map Prod.fst := by
        rw [List.map_map]
        refine List.map_congr_left fun d _ => ?_
        by_cases hd : d.1 = m.1 <;> simp [hd]
      rw [if_pos (any_fst_eq_iff.mpr (hmem.mpr hkey)), hkeys]
      simp [List.removeAll, hkey]
    · rw [if_neg fun hany => hkey (hmem.mp (any_fst_eq_iff.mp hany)), List.map_append]
      simp [List.removeAll, hkey, List.eraseDups_cons]

/-- A repeated key takes its last value. -/
theorem lookup_of_mem_lastValues {members : List (String × Json.Value)} :
    ∀ entry ∈ lastValues members, members.reverse.lookup entry.1 = some entry.2 := by
  induction members using List.reverseRecOn with
  | nil => simp [lastValues]
  | append_singleton members m ih =>
    intro entry hentry
    rw [List.reverse_append, List.reverse_singleton, List.singleton_append, List.lookup_cons]
    rw [lastValues_append] at hentry
    split at hentry
    · obtain ⟨d, hd, rfl⟩ := List.mem_map.mp hentry
      by_cases hkey : d.1 = m.1
      · simp [hkey]
      · have hbeq : (d.1 == m.1) = false := beq_eq_false_iff_ne.mpr hkey
        simpa [hbeq] using ih d hd
    · next hany =>
      rcases List.mem_append.mp hentry with hentry | hentry
      · have hkey : entry.1 ≠ m.1 := fun hkey =>
          hany (any_fst_eq_iff.mpr (hkey ▸ List.mem_map_of_mem hentry))
        have hbeq : (entry.1 == m.1) = false := beq_eq_false_iff_ne.mpr hkey
        simpa [hbeq] using ih entry hentry
      · obtain rfl := List.mem_singleton.mp hentry
        simp

/-! ### Configurations -/

/-- Paths that can be read: all of them is represented, and none of it is nested too deeply. -/
def IsAccepted (members : List (String × Json.Value)) : Prop :=
  (Json.Value.object members).isReadable = true ∧
    (Json.Value.object members).depth + 2 ≤ maxDepth

/-- The base directory of a configuration. -/
def baseDirectory (file : Path) (baseUrl : String) : Path :=
  ((file.parent?.getD ⟨""⟩).join baseUrl).clean

instance (members : List (String × Json.Value)) : Decidable (IsAccepted members) :=
  inferInstanceAs (Decidable (_ ∧ _))

section Load

variable {text : String} {top options members : List (String × Json.Value)} {baseUrl : String}
  (hvalue : Json.readChars? (plainText text.toList) = some (.object top))
  (hoptions : (top.filter fun m => m.1 == "compilerOptions") =
    [("compilerOptions", .object options)])
  (hbase : (options.filter fun m => m.1 == "baseUrl") = [("baseUrl", .string baseUrl)])
  (hpaths : (options.filter fun m => m.1 == "paths") = [("paths", .object members)])

include hvalue hoptions hbase hpaths

theorem options?_of_isAccepted (h : IsAccepted members) :
    options? text = some (some ⟨some baseUrl, some (lastValues members)⟩) := by
  have hmembers : members? (some (.object members)) = some (some (lastValues members)) := by
    rw [members?, if_pos (by simpa [IsAccepted] using h)]
  simp [options?, hvalue, ofValue?, fields?, field?, hoptions, ofRecord?, hbase, hpaths,
    Document.text?, hmembers]

theorem options?_of_not_isAccepted (h : ¬ IsAccepted members) : options? text = none := by
  have hmembers : members? (some (.object members)) = none := by
    rw [members?, if_neg (by simpa [IsAccepted] using h)]
  simp [options?, hvalue, ofValue?, fields?, field?, hoptions, ofRecord?, hbase, hpaths,
    Document.text?, hmembers]

end Load

/-- **The order of aliases.**  Of a configuration that gives its options once, with a text for the
base directory and an object for the paths, the entries are the keys in their first places with
their last values.  If the paths can be read, a request is resolved to the winner among the entries,
and the entries whose targets are not texts make no difference to it; otherwise every request is
resolved from the directory. -/
theorem resolved?_load_iff (plain : Path → String → Option Path) {d : Files.Disk} {file : Path}
    {text : String} (htext : d.readText file = .ok text)
    {top options members : List (String × Json.Value)} {baseUrl : String}
    (hvalue : Json.readChars? (plainText text.toList) = some (.object top))
    (hoptions : (top.filter fun m => m.1 == "compilerOptions") =
      [("compilerOptions", .object options)])
    (hbase : (options.filter fun m => m.1 == "baseUrl") = [("baseUrl", .string baseUrl)])
    (hpaths : (options.filter fun m => m.1 == "paths") = [("paths", .object members)]) :
    ∃ entries, entries.map Prod.fst = (members.map Prod.fst).eraseDups ∧
      (∀ entry ∈ entries, members.reverse.lookup entry.1 = some entry.2) ∧
      (IsAccepted members → ∀ dir request p,
        (Resolution.resolved? plain (load d file).value dir request = some p ↔
          Wins plain (baseDirectory file baseUrl) entries dir request p) ∧
        (Wins plain (baseDirectory file baseUrl) entries dir request p ↔
          Wins plain (baseDirectory file baseUrl)
            (entries.filter fun entry => IsTargets entry.2) dir request p)) ∧
      (¬ IsAccepted members → ∀ dir request,
        Resolution.resolved? plain (load d file).value dir request = plain dir request) := by
  refine ⟨lastValues members, map_fst_lastValues members, lookup_of_mem_lastValues, ?_, ?_⟩
  · intro haccepted dir request p
    have hconfig : (load d file).value = ⟨some (baseDirectory file baseUrl),
        ofPaths (baseDirectory file baseUrl) (lastValues members)⟩ := by
      rw [load, htext]
      simp only [options?_of_isAccepted hvalue hoptions hbase hpaths haccepted]
      rfl
    rw [hconfig, ← resolved?_ofPaths_iff, ← resolved?_ofPaths_iff, ofPaths_filter]
    exact ⟨Iff.rfl, Iff.rfl⟩
  · intro haccepted dir request
    have hconfig : (load d file).value = {} := by
      rw [load, htext]
      simp only [options?_of_not_isAccepted hvalue hoptions hbase hpaths haccepted]
    rw [hconfig]
    rfl

section Sample

open Json

/-- A configuration with the given paths, as a syntax tree. -/
def configTree (paths : List (List StringPiece × Tree)) : Tree :=
  .object [(optionsKey,
    .object [(baseKey, .string (spelled ".".toList rfl)),
      (spelled "paths".toList rfl, .object paths false)] false)] false

/-- A configuration with the given paths, as a text. -/
def configText (paths : List (List StringPiece × Tree)) : List Char :=
  ((configTree paths).tokens false).flatMap Token.chars

theorem readChars?_configText {paths : List (List StringPiece × Tree)}
    {members : List (String × Value)}
    (h : objectOf (Tree.memberValues .scaled paths) = .object members) :
    readChars? (plainText (configText paths)) =
      some (.object [("compilerOptions", .object [("baseUrl", .string "."),
        ("paths", .object members)])]) := by
  have htext : IsPlainText ((configTree paths).tokens false) (configText paths) :=
    isPlainText_flatMap _
  have hcompiler : Tree.stringValue? .scaled optionsKey = some "compilerOptions" := by
    decide +kernel
  have hbase : Tree.stringValue? .scaled baseKey = some "baseUrl" := by decide +kernel
  have hdot : Tree.stringValue? .scaled (spelled ".".toList rfl) = some "." := by
    decide +kernel
  have hpaths : Tree.stringValue? .scaled (spelled "paths".toList rfl) = some "paths" := by
    decide +kernel
  rw [plainText_plainText htext, readChars?, readWithin?_tokens .scaled _ htext]
  simp only [configTree, Tree.value, Tree.memberValues, hcompiler, hbase, hdot, hpaths, h]
  rfl

private def aliasKey : List StringPiece := spelled "@/*".toList rfl

private def badKey : List StringPiece := spelled "@bad/*".toList rfl

private def library : List StringPiece := spelled "lib/*".toList rfl

private def source : List StringPiece := spelled "src/*".toList rfl

private def one : Digits := ⟨['1'], by decide, List.all_eq_true.mp rfl⟩

private def manyNines : Digits := ⟨"999".toList, by decide, List.all_eq_true.mp rfl⟩

private def huge : Numeral :=
  ⟨false, one, none, some ⟨'e', none, manyNines, .inl rfl, by simp⟩, by decide⟩

/-- A resolution that knows one file. -/
def onlySource (dir : Path) (request : String) : Option Path :=
  if dir = ⟨"/src"⟩ ∧ request = "./a" then some ⟨"/src/a.ts"⟩ else none

/-- Paths whose first entry has no texts for targets, and whose second one has two. -/
def layeredPaths : List (List StringPiece × Tree) :=
  [(badKey, .number ⟨false, one, none, none, by decide⟩),
    (aliasKey, .array [.string library, .string source] false)]

/-- Paths whose first entry is a number that is out of range. -/
def outOfRangePaths : List (List StringPiece × Tree) :=
  [(badKey, .number huge), (aliasKey, .array [.string source] false)]

private theorem stringValue?_samples :
    Tree.stringValue? .scaled badKey = some "@bad/*" ∧
      Tree.stringValue? .scaled aliasKey = some "@/*" ∧
      Tree.stringValue? .scaled library = some "lib/*" ∧
      Tree.stringValue? .scaled source = some "src/*" := by
  decide +kernel

/-- In the configuration with the layered paths, the second target of the second entry wins. -/
theorem wins_layeredPaths :
    IsAccepted [("@bad/*", .number "1"), ("@/*", .array [.string "lib/*", .string "src/*"])] ∧
      ∃ entries, entries.map Prod.fst = ["@bad/*", "@/*"] ∧
        Wins onlySource (baseDirectory ⟨"/tsconfig.json"⟩ ".") entries ⟨"/"⟩ "@/a"
          ⟨"/src/a.ts"⟩ := by
  obtain ⟨hbad, halias, hlibrary, hsource⟩ := stringValue?_samples
  have hfits : Limits.scaled.fits (Numeral.literal ⟨false, one, none, none, by decide⟩) = true := by
    decide +kernel
  have hmembers : objectOf (Tree.memberValues .scaled layeredPaths) =
      .object [("@bad/*", .number "1"), ("@/*", .array [.string "lib/*", .string "src/*"])] := by
    simp only [layeredPaths, Tree.memberValues, Tree.itemValues, Tree.value, hbad, halias, hlibrary,
      hsource, hfits]
    rfl
  have haccepted : IsAccepted
      [("@bad/*", .number "1"), ("@/*", .array [.string "lib/*", .string "src/*"])] := by
    decide +kernel
  have htext : (configured (configText layeredPaths)).readText ⟨"/tsconfig.json"⟩ =
      .ok (String.ofList (configText layeredPaths)) := by decide +kernel
  have hvalue := readChars?_configText hmembers
  rw [← String.toList_ofList (l := configText layeredPaths)] at hvalue
  obtain ⟨entries, hkeys, -, hwins, -⟩ :=
    resolved?_load_iff onlySource htext hvalue rfl rfl rfl
  refine ⟨haccepted, entries, hkeys, ?_⟩
  rw [← (hwins haccepted ⟨"/"⟩ "@/a" ⟨"/src/a.ts"⟩).1]
  decide +kernel

/-- A number that is out of range, in an entry that the request does not begin with, keeps the entry
that leads to a file from winning. -/
theorem resolved?_outOfRangePaths :
    String.ofList (configText outOfRangePaths) =
        "\x7b\"compilerOptions\":\x7b\"baseUrl\":\".\"," ++
          "\"paths\":\x7b\"@bad/*\":1e999,\"@/*\":[\"src/*\"]\x7d\x7d\x7d" ∧
      readChars? (plainText (configText outOfRangePaths)) =
        some (.object [("compilerOptions", .object [("baseUrl", .string "."), ("paths",
          .object [("@bad/*", .unreadable), ("@/*", .array [.string "src/*"])])])]) ∧
      Wins onlySource (baseDirectory ⟨"/tsconfig.json"⟩ ".")
        [("@bad/*", .unreadable), ("@/*", .array [.string "src/*"])] ⟨"/"⟩ "@/a" ⟨"/src/a.ts"⟩ ∧
      Resolution.resolved? onlySource
        (load (configured (configText outOfRangePaths)) ⟨"/tsconfig.json"⟩).value ⟨"/"⟩ "@/a" =
          none := by
  obtain ⟨hbad, halias, -, hsource⟩ := stringValue?_samples
  have hfits : Limits.scaled.fits huge.literal = false := by decide +kernel
  have hmembers : objectOf (Tree.memberValues .scaled outOfRangePaths) =
      .object [("@bad/*", .unreadable), ("@/*", .array [.string "src/*"])] := by
    simp only [outOfRangePaths, Tree.memberValues, Tree.itemValues, Tree.value, hbad, halias,
      hsource, hfits]
    rfl
  refine ⟨by decide +kernel, readChars?_configText hmembers, ?_, by decide +kernel⟩
  rw [← resolved?_ofPaths_iff]
  decide +kernel

end Sample

end ModuleGraph.Alias

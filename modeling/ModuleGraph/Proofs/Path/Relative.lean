import ModuleGraph.Path.Relative
import ModuleGraph.Proofs.Path.Absolute

/-!
# Relative paths lead back

From one plain path to another there is always a relative path: a step up for every component of the
base beyond the common beginning, and then the names of the target beyond it.  Followed from the
base, these steps end at the target.  Its text, cut at the `/` signs, gives the same steps again, so
nothing is lost by writing it down, as long as no name holds a backslash, which is written as `/`.

## Main definitions

* `Path.Diverge`: two lists that do not begin with the same member.
* `Path.LeadsTo`: a text that leads from a base to a target.

## Main results

* `Path.relativeComponents?_of_diverge`, `Path.apply_of_diverge`: the steps between two places that
  diverge behind a common beginning, and where they end.
* `Path.exists_relativeComponents?`: the steps from a plain path to a plain path.
* `Path.exists_slashed_relative?`: the text of these steps leads to the target.
-/

namespace ModuleGraph.Path

/-! ### Steps -/

theorem apply_append (base front back : List Component) :
    apply base (front ++ back) = apply (apply base front) back := by
  rw [apply, List.foldl_append]
  rfl

theorem apply_replicate_up (base : List Component) (n : Nat) :
    apply base (List.replicate n .up) = base.take (base.length - n) := by
  induction n generalizing base with
  | zero => simp [apply]
  | succ n ih =>
    have hup : apply base [.up] = base.dropLast := rfl
    rw [List.replicate_succ, ← List.singleton_append, apply_append, hup, ih, List.length_dropLast,
      List.dropLast_eq_take, List.take_take]
    congr 1
    omega

theorem apply_names (base : List Component) (names : List String) :
    apply base (names.map .name) = base ++ names.map .name := by
  induction names generalizing base with
  | nil => simp [apply]
  | cons name names ih =>
    have hname : apply base [.name name] = base ++ [.name name] := rfl
    rw [List.map_cons, ← List.singleton_append, apply_append, hname, ih, List.append_assoc]

/-! ### Where two paths diverge -/

/-- Two lists diverge at once: they do not begin with the same member. -/
def Diverge {α : Type} (as bs : List α) : Prop := ∀ a, as.head? = some a → bs.head? ≠ some a

theorem Diverge.map_name {names back : List String} (h : Diverge names back) :
    Diverge (names.map Component.name) (back.map Component.name) := by
  intro c hc hback
  rw [List.head?_map, Option.map_eq_some_iff] at hc hback
  obtain ⟨name, hname, rfl⟩ := hc
  obtain ⟨other, hother, heq⟩ := hback
  exact h name hname (Component.name.inj heq ▸ hother)

/-- Two lists go together for a while, and then they diverge. -/
theorem exists_diverge (as bs : List String) :
    ∃ common names back, as = common ++ names ∧ bs = common ++ back ∧ Diverge names back := by
  induction as generalizing bs with
  | nil => exact ⟨[], [], bs, rfl, rfl, by simp [Diverge]⟩
  | cons a as ih =>
    by_cases hhead : bs.head? = some a
    · obtain ⟨bs, rfl⟩ := List.head?_eq_some_iff.mp hhead
      obtain ⟨common, names, back, rfl, rfl, hdiverge⟩ := ih bs
      exact ⟨a :: common, names, back, rfl, rfl, hdiverge⟩
    · refine ⟨[], a :: as, bs, rfl, rfl, fun b hb => ?_⟩
      rw [List.head?_cons] at hb
      exact Option.some.inj hb ▸ hhead

theorem dropCommon_append_append (common as bs : List Component) :
    dropCommon (common ++ as) (common ++ bs) = dropCommon as bs := by
  induction common with
  | nil => rfl
  | cons c common ih => rw [List.cons_append, List.cons_append, dropCommon, if_pos rfl, ih]

theorem dropCommon_eq_self {as bs : List Component} (h : Diverge as bs) :
    dropCommon as bs = (as, bs) := by
  match as, bs with
  | [], bs => cases bs <;> rfl
  | a :: as, [] => rfl
  | a :: as, b :: bs =>
    have hne : a ≠ b := fun heq => h a rfl (by rw [heq, List.head?_cons])
    rw [dropCommon, if_neg hne]

/-- The steps between two places that diverge behind a common beginning: as many up as the base goes
on, and then down along the names of the target. -/
theorem relativeComponents?_of_diverge {names back : List String} (common : List String)
    (h : Diverge names back) :
    relativeComponents? (.root :: (common ++ names).map .name)
        (.root :: (common ++ back).map .name) =
      some (List.replicate back.length .up ++ names.map .name) := by
  have hfilter : (names.map Component.name).filter Component.isStep = names.map .name :=
    List.filter_eq_self.mpr fun c hc => by
      obtain ⟨name, -, rfl⟩ := List.mem_map.mp hc
      rfl
  have hups : (back.map Component.name).map (fun _ => Component.up) =
      List.replicate back.length .up := by
    rw [List.map_const', List.length_map]
  rw [relativeComponents?, List.head?_cons, List.head?_cons, if_pos rfl, List.map_append,
    List.map_append, ← List.cons_append, ← List.cons_append, dropCommon_append_append,
    dropCommon_eq_self h.map_name]
  simp only [hfilter, hups]

/-- These steps, followed from the base, end at the target. -/
theorem apply_of_diverge (common names back : List String) :
    apply (.root :: (common ++ back).map .name)
        (List.replicate back.length .up ++ names.map .name) =
      .root :: (common ++ names).map .name := by
  have hback : (Component.root :: (common ++ back).map .name).take
      ((Component.root :: (common ++ back).map .name).length - back.length) =
      .root :: common.map .name := by
    rw [List.map_append, ← List.cons_append, List.length_append, List.length_map,
      Nat.add_sub_cancel, List.take_left]
  rw [apply_append, apply_replicate_up, hback, apply_names, List.map_append, List.cons_append]

/-- From a base to a target below the same root there are steps, up first and then down along names
of the target; there are none just if the two agree. -/
theorem exists_relativeComponents? (target base : List String) :
    ∃ steps, relativeComponents? (.root :: target.map .name) (.root :: base.map .name) =
        some steps ∧
      apply (.root :: base.map .name) steps = .root :: target.map .name ∧
      (∀ c ∈ steps, c = .up ∨ c ∈ target.map Component.name) ∧
      (steps = [] → target = base) := by
  obtain ⟨common, names, back, rfl, rfl, hdiverge⟩ := exists_diverge target base
  refine ⟨_, relativeComponents?_of_diverge common hdiverge, apply_of_diverge common names back,
    fun c hc => ?_, fun hnil => ?_⟩
  · rcases List.mem_append.mp hc with hup | hname
    · exact .inl (List.eq_of_mem_replicate hup)
    · exact .inr (by rw [List.map_append]; exact List.mem_append_right _ hname)
  · obtain ⟨hups, hdown⟩ := List.append_eq_nil_iff.mp hnil
    have hback : back = [] := by simpa using hups
    rw [hback, List.map_eq_nil_iff.mp hdown]

/-! ### Texts -/

/-- A text leads from a base to a target when its segments, each a step up or a name, end there.
Only where the two agree, the text has a segment that means nothing. -/
structure LeadsTo (base target : List Component) (text : String) : Prop where
  reached : apply base ((splitSlash text.toList).filterMap Component.ofSegment?) = target
  steps : target ≠ base → ∀ s ∈ splitSlash text.toList, (Component.ofSegment? s).isSome = true

theorem map_slash_eq_self {cs : List Char} (h : '\\' ∉ cs) : cs.map slash = cs := by
  have hslash : ∀ c ∈ cs, slash c = c := by
    intro c hc
    have hne : c ≠ '\\' := fun heq => h (heq ▸ hc)
    simp [slash, hne]
  calc cs.map slash = cs.map id := List.map_congr_left hslash
    _ = cs := List.map_id cs

theorem notMem_joinSlash {segments : List (List Char)} {x : Char} (hx : x ≠ '/')
    (h : ∀ s ∈ segments, x ∉ s) : x ∉ joinSlash segments := by
  induction segments with
  | nil => simp [joinSlash]
  | cons a more ih =>
    have ha := h a List.mem_cons_self
    cases more with
    | nil => exact ha
    | cons b more =>
      have hmore := ih fun s hs => h s (List.mem_cons_of_mem a hs)
      simp [joinSlash_cons_cons, ha, hx, hmore]

/-- The text of proper components is written as it is, unless a name holds a backslash. -/
theorem slashed_ofComponents {cs : List Component} (hne : cs ≠ []) (h : ∀ c ∈ cs, c.IsProper)
    (hback : ∀ c ∈ cs, '\\' ∉ c.chars) : (ofComponents cs).slashed = (ofComponents cs).text := by
  have hfilter : cs.filter (· ≠ .root) = cs :=
    List.filter_eq_self.mpr fun c hc => by
      have hc' := h c hc
      cases c <;> simp_all [Component.IsProper]
  have hplain : '\\' ∉ joinSlash (cs.map Component.chars) :=
    notMem_joinSlash (by decide) fun s hs => by
      obtain ⟨c, hc, rfl⟩ := List.mem_map.mp hs
      exact hback c hc
  rw [slashed, components_ofComponents hne h, hfilter, map_slash_eq_self hplain,
    ofComponents_eq_joinSlash h]

/-- The text of proper components leads where the components do. -/
theorem leadsTo_ofComponents {base target cs : List Component} (hne : cs ≠ [])
    (h : ∀ c ∈ cs, c.IsProper) (happly : apply base cs = target) :
    LeadsTo base target (ofComponents cs).text := by
  rw [ofComponents_eq_joinSlash h]
  refine ⟨?_, fun _ s hs => ?_⟩
  · rw [String.toList_ofList]
    exact (congrArg (apply base) (body_joinSlash h)).trans happly
  · rw [String.toList_ofList, splitSlash_joinSlash_chars hne h] at hs
    obtain ⟨c, hc, rfl⟩ := List.mem_map.mp hs
    rw [(h c hc).ofSegment?_chars]
    rfl

/-- Between plain paths there is a relative path, and its text leads to the target. -/
theorem exists_slashed_relative? {target base : Path} (htarget : target.IsPlain)
    (hbase : base.IsPlain) :
    ∃ text, (target.relative? base).map slashed = some text ∧
      ((∀ c ∈ target.components, '\\' ∉ c.chars) →
        LeadsTo base.components target.components text) := by
  obtain ⟨names, hnames⟩ := id htarget
  obtain ⟨baseNames, hbaseNames⟩ := hbase
  obtain ⟨steps, hsteps, happly, hmem, hnil⟩ := exists_relativeComponents? names baseNames
  rw [relative?, hnames, hbaseNames, hsteps]
  by_cases hempty : steps = []
  · subst hempty
    refine ⟨".", by decide, fun _ => ⟨happly, fun hne => ?_⟩⟩
    exact absurd (by rw [hnil rfl]) hne
  · have hproper : ∀ c ∈ steps, c.IsProper := by
      intro c hc
      rcases hmem c hc with rfl | hname
      · trivial
      · exact htarget.isProper (by rw [hnames]; exact hname)
    obtain ⟨c, rest, rfl⟩ := List.exists_cons_of_ne_nil hempty
    refine ⟨_, by rw [Option.map_some, Option.map_some], fun hback => ?_⟩
    have hplain : ∀ d ∈ c :: rest, '\\' ∉ d.chars := by
      intro d hd
      rcases hmem d hd with rfl | hname
      · decide
      · exact hback d (List.mem_cons_of_mem _ hname)
    rw [slashed_ofComponents hempty hproper hplain]
    exact leadsTo_ofComponents hempty hproper happly

end ModuleGraph.Path

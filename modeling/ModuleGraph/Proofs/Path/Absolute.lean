import ModuleGraph.Proofs.Path.Components

/-!
# Absolute paths and plain paths

An absolute path stays absolute whatever is joined to it or worked into it.  A *plain* path is one
whose components are the root and names only, so that it names a place and nothing has to be worked
off.  The lexical normal form of an absolute path is plain, and working a component into a plain
path gives a plain path.

## Main definitions

* `Path.IsPlain`: the paths made of the root and names.

## Main results

* `Path.isAbsolute_extend`: what stays absolute.
* `Path.isPlain_clean`: the lexical normal form of an absolute path is plain.
* `Path.IsPlain.step`: a plain path with a component worked into it is plain.
-/

namespace ModuleGraph.Path

variable {p q : Path}

/-! ### Absolute paths -/

theorem last?_isProper (hp : p.isAbsolute = true) {c : Component} (h : p.last? = some c) :
    c.IsProper := by
  obtain ⟨cs, rfl⟩ := isAbsolute_iff.mp hp
  obtain ⟨⟨above, d⟩, hsplit, rfl⟩ := Option.map_eq_some_iff.mp h
  rw [String.toList_ofList] at hsplit
  obtain ⟨ds, -, hbody, -⟩ := splitLast?_slash_eq_some hsplit
  have hmem : d ∈ body cs := by simp [hbody]
  exact isProper_of_mem_body hmem

theorem isAbsolute_parent?_getD (hp : p.isAbsolute = true) :
    (p.parent?.getD p).isAbsolute = true := by
  cases h : p.parent? with
  | none => exact hp
  | some q => exact (parent?_eq_some hp h).1

theorem isAbsolute_step (hp : p.isAbsolute = true) (c : Component) :
    (p.step c).isAbsolute = true := by
  cases c with
  | name text => exact isAbsolute_join hp text
  | up => exact isAbsolute_parent?_getD hp
  | root | here => exact hp

theorem isAbsolute_foldl_step (hp : p.isAbsolute = true) (cs : List Component) :
    (cs.foldl step p).isAbsolute = true := by
  induction cs generalizing p with
  | nil => exact hp
  | cons c cs ih => exact ih (isAbsolute_step hp c)

/-- Whatever is worked into an absolute path, the outcome is absolute. -/
theorem isAbsolute_extend (hp : p.isAbsolute = true) (sub : Path) :
    (p.extend sub).isAbsolute = true := by
  rw [extend]
  split_ifs with hroot
  · exact isAbsolute_of_head?_components (by simpa using hroot)
  · exact isAbsolute_foldl_step hp sub.components

theorem isAbsolute_append (hp : p.isAbsolute = true) (suffix : String) :
    (⟨p.text ++ suffix⟩ : Path).isAbsolute = true := by
  obtain ⟨cs, rfl⟩ := isAbsolute_iff.mp hp
  simp [isAbsolute]

/-! ### Plain paths -/

/-- A path made of the root and names. -/
def IsPlain (p : Path) : Prop := ∃ names : List String, p.components = .root :: names.map .name

theorem IsPlain.isAbsolute (h : p.IsPlain) : p.isAbsolute = true := by
  obtain ⟨names, hnames⟩ := h
  exact isAbsolute_of_head?_components (by rw [hnames, List.head?_cons])

/-- The names of a plain path can name entries. -/
theorem IsPlain.isProper (h : p.IsPlain) {c : Component} (hc : c ∈ p.components.tail) :
    c.IsProper := by
  obtain ⟨cs, rfl⟩ := isAbsolute_iff.mp h.isAbsolute
  rw [components_slash, List.tail_cons] at hc
  exact isProper_of_mem_body hc

/-- A proper component that is worked into a plain path leaves it plain. -/
theorem IsPlain.step (h : p.IsPlain) {c : Component} (hc : c.IsProper) : (p.step c).IsPlain := by
  obtain ⟨names, hnames⟩ := h
  have hp : p.isAbsolute = true := IsPlain.isAbsolute ⟨names, hnames⟩
  cases c with
  | name text =>
    refine ⟨names ++ [text], ?_⟩
    rw [Path.step, components_join (text_ne_of_isAbsolute hp) hc, hnames]
    simp
  | up =>
    rw [Path.step]
    cases hparent : p.parent? with
    | none => exact ⟨names, hnames⟩
    | some q =>
      obtain ⟨hq, ⟨c, -, -, hsplit⟩, -⟩ := parent?_eq_some hp hparent
      obtain ⟨cs, rfl⟩ := isAbsolute_iff.mp hq
      rw [hnames, components_slash, List.cons_append, List.cons.injEq] at hsplit
      have hbody : body cs = names.dropLast.map .name := by
        rw [List.map_dropLast, hsplit.2, List.dropLast_concat]
      exact ⟨names.dropLast, by rw [Option.getD_some, components_slash, hbody]⟩
  | root | here => exact hc.elim

/-- The steps of the lexical normal form keep the root at the bottom and names above it. -/
private theorem foldl_cleanStep {cs : List Component} (h : ∀ c ∈ cs, c.IsProper)
    (names : List String) : ∃ names' : List String,
    cs.foldl cleanStep (names.map .name ++ [.root]) = names'.map .name ++ [.root] := by
  induction cs generalizing names with
  | nil => exact ⟨names, rfl⟩
  | cons c cs ih =>
    have hcs : ∀ d ∈ cs, d.IsProper := fun d hd => h d (List.mem_cons_of_mem c hd)
    have hc := h c List.mem_cons_self
    cases c with
    | name text => exact ih hcs (text :: names)
    | up =>
      cases names with
      | nil => exact ih hcs []
      | cons name names => exact ih hcs names
    | root | here => exact hc.elim

theorem mem_of_mem_foldl_cleanStep {c : Component} {cs done : List Component}
    (h : c ∈ cs.foldl cleanStep done) : c ∈ done ∨ c ∈ cs := by
  induction cs generalizing done with
  | nil => exact .inl h
  | cons d cs ih =>
    rcases ih h with hdone | hcs
    · have hstep : c ∈ done ∨ c = d := by
        unfold cleanStep at hdone
        grind
      rcases hstep with hstep | rfl
      · exact .inl hstep
      · exact .inr List.mem_cons_self
    · exact .inr (List.mem_cons_of_mem d hcs)

/-- The normal form of components behind the root has the root, and then names. -/
theorem exists_cleanComponents_root {cs : List Component} (h : ∀ c ∈ cs, c.IsProper) :
    ∃ names : List String, cleanComponents (.root :: cs) = .root :: names.map .name ∧
      ∀ c ∈ names.map Component.name, c.IsProper := by
  obtain ⟨names, hnames⟩ := foldl_cleanStep h []
  refine ⟨names.reverse, ?_, fun c hc => ?_⟩
  · rw [cleanComponents, List.foldl_cons]
    change (cs.foldl cleanStep ([].map .name ++ [.root])).reverse = _
    rw [hnames]
    simp
  · have hmem : c ∈ cs.foldl cleanStep ([].map .name ++ [.root]) := by
      rw [hnames]
      exact List.mem_append_left _ (by simpa using hc)
    rcases mem_of_mem_foldl_cleanStep hmem with hroot | hcs
    · obtain rfl : c = .root := by simpa using hroot
      simp at hc
    · exact h c hcs

/-- The lexical normal form of an absolute path is plain. -/
theorem isPlain_clean (hp : p.isAbsolute = true) : p.clean.IsPlain := by
  obtain ⟨cs, rfl⟩ := isAbsolute_iff.mp hp
  have hcs : ∀ c ∈ body cs, c.IsProper := fun c => isProper_of_mem_body
  obtain ⟨names, hclean, hproper⟩ := exists_cleanComponents_root hcs
  refine ⟨names, ?_⟩
  rw [clean, components_slash, hclean]
  exact components_ofComponents_root hproper

end ModuleGraph.Path

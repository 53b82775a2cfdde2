import Mathlib.Data.List.Basic
import Mathlib.Data.List.TakeWhile
import Mathlib.Tactic.Common
import ModuleGraph.Files.Disk
import ModuleGraph.Path.Extend

/-!
# Texts of paths and their components

A text between two `/` signs is a *segment*; one that is neither empty nor made of one or two dots
is a name.  Cutting a text at its `/` signs and joining the segments again are inverse to each
other, so what a path means can be computed from its text piece by piece: a name that is joined to
an absolute path adds one component, and the path above has all components but the last.  The text
of a list of components has those components again, as long as its names are names.

## Main definitions

* `Path.IsSegment`: the texts that name an entry.
* `Path.Component.IsProper`: the components that follow the leading one.
* `Path.body`: the components of a text without its leading component.

## Main results

* `Path.components_join`: a name adds one component to an absolute path.
* `Path.parent?_eq_some`, `Path.parent?_eq_none`: the path above an absolute path.
* `Path.components_ofComponents_root`, `Path.components_ofComponents`: the components of the text of
  a list of components.
-/

namespace ModuleGraph.Path

/-! ### Segments -/

/-- A text that can name an entry: it is not empty, not made of one or two dots, and holds no
`/`. -/
def IsSegment (cs : List Char) : Prop := cs ≠ [] ∧ cs ≠ ['.'] ∧ cs ≠ ['.', '.'] ∧ '/' ∉ cs

instance (cs : List Char) : Decidable (IsSegment cs) :=
  inferInstanceAs (Decidable (cs ≠ [] ∧ cs ≠ ['.'] ∧ cs ≠ ['.', '.'] ∧ '/' ∉ cs))

theorem isName_iff {name : String} : Files.isName name = true ↔ IsSegment name.toList := by
  simp only [Files.isName, IsSegment, Bool.and_eq_true, bne_iff_ne, ne_eq, Bool.not_eq_true',
    List.contains_eq_mem, decide_eq_false_iff_not, and_assoc, ← String.toList_inj]
  rfl

theorem splitSlash_slash (cs : List Char) : splitSlash ('/' :: cs) = [] :: splitSlash cs := by
  simp [splitSlash]

theorem splitSlash_ne_nil (cs : List Char) : splitSlash cs ≠ [] := by
  cases cs with
  | nil => simp [splitSlash]
  | cons c rest =>
    rw [splitSlash]
    split_ifs
    · simp
    · cases splitSlash rest <;> simp

/-- A character other than `/` belongs to the first segment. -/
theorem splitSlash_cons {c : Char} (hc : c ≠ '/') (cs : List Char) :
    ∃ first more, splitSlash cs = first :: more ∧ splitSlash (c :: cs) = (c :: first) :: more := by
  obtain ⟨first, more, h⟩ := List.exists_cons_of_ne_nil (splitSlash_ne_nil cs)
  exact ⟨first, more, h, by simp [splitSlash, hc, h]⟩

theorem slash_notMem_of_mem_splitSlash {cs segment : List Char} (h : segment ∈ splitSlash cs) :
    '/' ∉ segment := by
  induction cs generalizing segment with
  | nil =>
    obtain rfl : segment = [] := by simpa [splitSlash] using h
    simp
  | cons c cs ih =>
    by_cases hc : c = '/'
    · subst hc
      rw [splitSlash_slash, List.mem_cons] at h
      rcases h with rfl | h
      · simp
      · exact ih h
    · obtain ⟨first, more, hcs, hsplit⟩ := splitSlash_cons hc cs
      rw [hsplit, List.mem_cons] at h
      rcases h with rfl | h
      · have hfirst : '/' ∉ first := ih (by rw [hcs]; exact List.mem_cons_self)
        simp [Ne.symm hc, hfirst]
      · exact ih (by rw [hcs]; exact List.mem_cons_of_mem _ h)

/-- Cutting at a `/` splits the work in two. -/
theorem splitSlash_append_slash (front back : List Char) :
    splitSlash (front ++ '/' :: back) = splitSlash front ++ splitSlash back := by
  induction front with
  | nil => simp [splitSlash]
  | cons c front ih =>
    by_cases hc : c = '/'
    · subst hc
      rw [List.cons_append, splitSlash_slash, splitSlash_slash, ih, List.cons_append]
    · obtain ⟨first, more, hfront, hsplit⟩ := splitSlash_cons hc front
      rw [hsplit, List.cons_append, splitSlash, ih, hfront]
      simp [hc]

theorem splitSlash_eq_singleton {cs : List Char} (h : '/' ∉ cs) : splitSlash cs = [cs] := by
  induction cs with
  | nil => rfl
  | cons c cs ih =>
    obtain ⟨hc, hcs⟩ := List.ne_and_not_mem_of_not_mem_cons h
    rw [splitSlash, ih hcs]
    simp [Ne.symm hc]

theorem joinSlash_cons_cons (a b : List Char) (more : List (List Char)) :
    joinSlash (a :: b :: more) = a ++ '/' :: joinSlash (b :: more) := rfl

/-- Segments without `/` are found again in the text that joins them. -/
theorem splitSlash_joinSlash {segments : List (List Char)} (hne : segments ≠ [])
    (h : ∀ s ∈ segments, '/' ∉ s) : splitSlash (joinSlash segments) = segments := by
  induction segments with
  | nil => exact absurd rfl hne
  | cons a more ih =>
    have ha : splitSlash a = [a] := splitSlash_eq_singleton (h a List.mem_cons_self)
    cases more with
    | nil => exact ha
    | cons b more =>
      have hmore := ih (List.cons_ne_nil b more) fun s hs => h s (List.mem_cons_of_mem a hs)
      rw [joinSlash_cons_cons, splitSlash_append_slash, ha, hmore]
      rfl

theorem joinSlash_append {front back : List (List Char)} (hfront : front ≠ []) (hback : back ≠ []) :
    joinSlash (front ++ back) = joinSlash front ++ '/' :: joinSlash back := by
  induction front with
  | nil => exact absurd rfl hfront
  | cons a more ih =>
    obtain ⟨b, rest, rfl⟩ := List.exists_cons_of_ne_nil hback
    cases more with
    | nil => rfl
    | cons c more =>
      have hmore := ih (List.cons_ne_nil c more)
      rw [List.cons_append, List.cons_append, joinSlash_cons_cons, ← List.cons_append, hmore,
        joinSlash_cons_cons, List.append_assoc, List.cons_append]

theorem joinSlash_eq_intercalate (segments : List (List Char)) :
    joinSlash segments = ['/'].intercalate segments := by
  fun_induction joinSlash segments with
  | case1 => rfl
  | case2 segment => simp
  | case3 segment more hmore ih =>
    obtain ⟨next, more, rfl⟩ := List.exists_cons_of_ne_nil (l := more) (by simpa using hmore)
    rw [ih, List.intercalate_cons_cons, List.append_assoc]
    rfl

/-- A text is joined again from its segments. -/
theorem joinSlash_splitSlash (cs : List Char) : joinSlash (splitSlash cs) = cs := by
  induction cs with
  | nil => rfl
  | cons c cs ih =>
    by_cases hc : c = '/'
    · subst hc
      rw [splitSlash_slash, ← List.singleton_append,
        joinSlash_append (List.cons_ne_nil _ _) (splitSlash_ne_nil cs), ih]
      rfl
    · obtain ⟨first, more, hcs, hsplit⟩ := splitSlash_cons hc cs
      rw [hsplit]
      rw [hcs] at ih
      cases more with
      | nil => rw [← ih]; rfl
      | cons b more => rw [← ih, joinSlash_cons_cons, joinSlash_cons_cons, List.cons_append]

/-! ### Components of segments -/

/-- The components that a relative path is made of: steps up, and names that can name an entry. -/
def Component.IsProper : Component → Prop
  | .up => True
  | .name text => IsSegment text.toList
  | .root | .here => False

theorem isVoid_iff {segment : List Char} :
    isVoid segment = true ↔ segment = [] ∨ segment = ['.'] := by
  simp [isVoid]

theorem Component.ofSegment?_eq_none_iff {segment : List Char} :
    Component.ofSegment? segment = none ↔ isVoid segment = true := by
  unfold Component.ofSegment?
  split_ifs <;> simp_all

theorem Component.isProper_of_ofSegment? {segment : List Char} {c : Component}
    (hs : '/' ∉ segment) (h : Component.ofSegment? segment = some c) : c.IsProper := by
  unfold Component.ofSegment? at h
  split_ifs at h with hvoid hup
  · obtain rfl := Option.some.inj h
    trivial
  · obtain rfl := Option.some.inj h
    rw [isVoid_iff, not_or] at hvoid
    have hdots : segment ≠ ['.', '.'] := by simpa using hup
    simpa [Component.IsProper, IsSegment] using ⟨hvoid.1, hvoid.2, hdots, hs⟩

/-- A step is read off its own text. -/
theorem Component.IsProper.ofSegment?_chars {c : Component} (h : c.IsProper) :
    Component.ofSegment? c.chars = some c := by
  cases c with
  | up => rfl
  | name text =>
    obtain ⟨hne, hdot, hdots, -⟩ := h
    simp [Component.ofSegment?, Component.chars, isVoid, hne, hdot, hdots]
  | root | here => exact h.elim

theorem Component.IsProper.slash_notMem {c : Component} (h : c.IsProper) : '/' ∉ c.chars := by
  cases c with
  | up => simp [Component.chars]
  | name text => exact h.2.2.2
  | root | here => exact h.elim

theorem Component.IsProper.chars_ne_nil {c : Component} (h : c.IsProper) : c.chars ≠ [] := by
  cases c with
  | up => simp [Component.chars]
  | name text => exact h.1
  | root | here => exact h.elim

/-! ### Components of texts -/

/-- The components of a text without its leading component. -/
def body (cs : List Char) : List Component := (splitSlash cs).filterMap Component.ofSegment?

@[simp] theorem body_nil : body [] = [] := rfl

theorem body_append_slash (front back : List Char) :
    body (front ++ '/' :: back) = body front ++ body back := by
  rw [body, splitSlash_append_slash, List.filterMap_append]
  rfl

theorem body_chars {c : Component} (h : c.IsProper) : body c.chars = [c] := by
  rw [body, splitSlash_eq_singleton h.slash_notMem]
  simp [h.ofSegment?_chars]

theorem isProper_of_mem_body {c : Component} {cs : List Char} (h : c ∈ body cs) : c.IsProper := by
  obtain ⟨segment, hmem, hc⟩ := List.mem_filterMap.mp h
  exact Component.isProper_of_ofSegment? (slash_notMem_of_mem_splitSlash hmem) hc

theorem componentsOf_slash (cs : List Char) : componentsOf ('/' :: cs) = .root :: body cs := rfl

theorem isAbsolute_iff {p : Path} :
    p.isAbsolute = true ↔ ∃ cs, p = ⟨String.ofList ('/' :: cs)⟩ := by
  obtain ⟨text⟩ := p
  constructor
  · intro h
    obtain ⟨cs, hcs⟩ : ∃ cs, text.toList = '/' :: cs := by
      cases htext : text.toList with
      | nil => simp [isAbsolute, htext] at h
      | cons c cs => exact ⟨cs, by simpa [isAbsolute, htext] using h⟩
    exact ⟨cs, by rw [← hcs, String.ofList_toList]⟩
  · rintro ⟨cs, h⟩
    rw [h]
    simp [isAbsolute]

theorem components_slash (cs : List Char) :
    (⟨String.ofList ('/' :: cs)⟩ : Path).components = .root :: body cs := by
  rw [components, String.toList_ofList, componentsOf_slash]

theorem body_slash (cs : List Char) : body ('/' :: cs) = body cs := by
  have h := body_append_slash [] cs
  rwa [body_nil, List.nil_append, List.nil_append] at h

/-- Behind its leading component, a path goes on with the components of its text. -/
theorem components_eq_lead_body (p : Path) :
    p.components = (splitLead p.text.toList).1.toList ++ body p.text.toList := by
  rw [components, componentsOf]
  generalize p.text.toList = cs
  have hbody : body (splitLead cs).2 = body cs := by
    unfold splitLead
    split
    · next rest => exact (body_slash rest).symm
    · rfl
    · next rest =>
      have h := body_append_slash ['.'] rest
      rw [List.singleton_append] at h
      rw [h, body_slash]
      rfl
    · rfl
  rw [← hbody]
  rfl

private theorem head?_of_splitLead {cs : List Char} (h : (splitLead cs).1 = some .root) :
    cs.head? = some '/' := by
  unfold splitLead at h
  split at h <;> simp_all

/-- A path whose first component is the root starts at the root. -/
theorem isAbsolute_of_head?_components {p : Path} (h : p.components.head? = some .root) :
    p.isAbsolute = true := by
  have hsplit : p.components = (splitLead p.text.toList).1.toList ++
    body (splitLead p.text.toList).2 := rfl
  rw [hsplit] at h
  cases hlead : (splitLead p.text.toList).1 with
  | none =>
    rw [hlead, Option.toList_none, List.nil_append] at h
    exact (isProper_of_mem_body (List.mem_of_mem_head? h)).elim
  | some c =>
    rw [hlead, Option.toList_some, List.singleton_append, List.head?_cons] at h
    have hhead := head?_of_splitLead (hlead.trans h)
    simp [isAbsolute, hhead]

/-! ### Joining -/

theorem isAbsolute_join {p : Path} (h : p.isAbsolute = true) (text : String) :
    (p.join text).isAbsolute = true := by
  obtain ⟨cs, rfl⟩ := isAbsolute_iff.mp h
  simp only [join, joinChars, isAbsolute, String.toList_ofList]
  split_ifs <;> simp_all

/-- What follows a `/` does not matter for the leading component of a text. -/
private theorem lead_append_slash {front : List Char} (hne : front ≠ []) (back : List Char) :
    (splitLead (front ++ '/' :: back)).1 = (splitLead front).1 := by
  -- The leading component is told from the first two characters.
  obtain ⟨c, rest, rfl⟩ := List.exists_cons_of_ne_nil hne
  by_cases hroot : c = '/'
  · rw [hroot]
    rfl
  by_cases hdot : c = '.'
  · cases rest with
    | nil =>
      rw [hdot]
      rfl
    | cons e rest =>
      by_cases hslash : e = '/'
      · rw [hdot, hslash]
        rfl
      · simp [splitLead, hdot, hslash]
  · simp [splitLead, hroot, hdot]

/-- What is joined to a text adds its components, and the leading one stays as it is. -/
private theorem lead_body_joinChars {left right : List Char} (hne : left ≠ [])
    (h : right.head? ≠ some '/') :
    (splitLead (joinChars left right)).1 = (splitLead left).1 ∧
      body (joinChars left right) = body left ++ body right := by
  rw [joinChars, if_neg (by simpa using h), List.isEmpty_eq_false_iff.mpr hne]
  by_cases hlast : left.getLast? = some '/'
  · -- The text ends with a `/` already, which stands for an empty segment.
    obtain ⟨front, rfl⟩ := List.getLast?_eq_some_iff.mp hlast
    have hjoin : front ++ ['/'] ++ right = front ++ '/' :: right := by simp
    simp only [hlast, beq_self_eq_true, Bool.or_true, if_true, hjoin]
    rw [body_append_slash, body_append_slash, body_nil, List.append_nil]
    refine ⟨?_, rfl⟩
    by_cases hfront : front = []
    · rw [hfront]
      rfl
    · rw [lead_append_slash hfront, lead_append_slash hfront]
  · simp only [beq_eq_false_iff_ne.mpr hlast, Bool.false_eq_true, Bool.or_false, if_false]
    exact ⟨lead_append_slash hne _, body_append_slash _ _⟩

/-- A relative text adds its components to a path, unless the path has no text. -/
theorem components_join_relative {p : Path} {text : String} (hp : p.text ≠ "")
    (h : text.toList.head? ≠ some '/') :
    (p.join text).components = p.components ++ body text.toList := by
  have hne : p.text.toList ≠ [] := by simpa using hp
  obtain ⟨hlead, hbody⟩ := lead_body_joinChars hne h
  rw [components_eq_lead_body, components_eq_lead_body, join, String.toList_ofList, hlead, hbody,
    List.append_assoc]

/-- A name adds one component to a path, unless the path has no text. -/
theorem components_join {p : Path} {name : String} (hp : p.text ≠ "")
    (hname : IsSegment name.toList) :
    (p.join name).components = p.components ++ [.name name] := by
  have hproper : (Component.name name).IsProper := hname
  have hbody : body name.toList = [.name name] := body_chars hproper
  rw [components_join_relative hp fun hhead => hproper.slash_notMem (List.mem_of_mem_head? hhead),
    hbody]

theorem text_ne_of_isAbsolute {p : Path} (hp : p.isAbsolute = true) : p.text ≠ "" := by
  obtain ⟨cs, rfl⟩ := isAbsolute_iff.mp hp
  simp

theorem text_ne_of_components {p : Path} (hne : p.components ≠ []) : p.text ≠ "" := by
  rintro htext
  rw [components, htext] at hne
  exact hne rfl

/-- Names that are joined to a path one after the other add one component each. -/
theorem components_foldl_join {p : Path} (hp : p.text ≠ "") {names : List String}
    (h : ∀ name ∈ names, IsSegment name.toList) :
    (names.foldl join p).components = p.components ++ names.map .name := by
  induction names generalizing p with
  | nil => simp
  | cons name names ih =>
    have hjoin := components_join hp (h name List.mem_cons_self)
    rw [List.foldl_cons, ih (text_ne_of_components (by simp [hjoin]))
      (fun n hn => h n (List.mem_cons_of_mem name hn)), hjoin, List.append_assoc]
    rfl

/-! ### The path above -/

private theorem filterMap_ofSegment?_of_isVoid {segments : List (List Char)}
    (h : ∀ s ∈ segments, isVoid s = true) : segments.filterMap Component.ofSegment? = [] :=
  List.filterMap_eq_nil_iff.mpr fun s hs => Component.ofSegment?_eq_none_iff.mpr (h s hs)

/-- Segments fall into a beginning, the last segment that means something, and void ones behind
it, unless all of them are void. -/
private theorem exists_lastSegment {segments : List (List Char)} {segment : List Char}
    {before : List (List Char)} (h : segments.reverse.dropWhile isVoid = segment :: before) :
    isVoid segment = false ∧ ∃ voids, segments = before.reverse ++ segment :: voids ∧
      ∀ s ∈ voids, isVoid s = true := by
  refine ⟨?_, (segments.reverse.takeWhile isVoid).reverse, ?_, ?_⟩
  · have hhead := List.head?_dropWhile_not isVoid segments.reverse
    simpa [h] using hhead
  · have hsplit := congrArg List.reverse (List.takeWhile_append_dropWhile (p := isVoid)
      (l := segments.reverse))
    rw [h] at hsplit
    simpa using hsplit.symm
  · intro s hs
    exact List.mem_takeWhile_imp (List.mem_reverse.mp hs)

/-- Void segments at the end do not change what a joined text means. -/
private theorem body_joinSlash_trim {before : List (List Char)} (h : ∀ s ∈ before, '/' ∉ s) :
    body (joinSlash (before.dropWhile isVoid).reverse) =
      before.reverse.filterMap Component.ofSegment? := by
  have htrim : before.reverse.filterMap Component.ofSegment? =
      (before.dropWhile isVoid).reverse.filterMap Component.ofSegment? := by
    have hvoid : (before.takeWhile isVoid).reverse.filterMap Component.ofSegment? = [] :=
      filterMap_ofSegment?_of_isVoid fun s hs => List.mem_takeWhile_imp (List.mem_reverse.mp hs)
    conv_lhs => rw [← List.takeWhile_append_dropWhile (p := isVoid) (l := before)]
    rw [List.reverse_append, List.filterMap_append, hvoid, List.append_nil]
  rw [htrim]
  by_cases hnil : (before.dropWhile isVoid).reverse = []
  · rw [hnil]
    rfl
  · rw [body, splitSlash_joinSlash hnil fun s hs =>
      h s ((List.dropWhile_sublist isVoid).subset (List.mem_reverse.mp hs))]

private theorem length_joinSlash_trim (before : List (List Char)) {segment : List Char}
    (hne : segment ≠ []) (voids : List (List Char)) :
    (joinSlash (before.dropWhile isVoid).reverse).length <
      (joinSlash (before.reverse ++ segment :: voids)).length := by
  have hlen (front back : List (List Char)) (hback : back ≠ []) :
      (joinSlash front).length + (joinSlash back).length ≤ (joinSlash (front ++ back)).length := by
    by_cases hfront : front = []
    · simp [hfront, joinSlash]
    · rw [joinSlash_append hfront hback]
      simp only [List.length_append, List.length_cons]
      omega
  have hseg : segment.length ≤ (joinSlash (segment :: voids)).length := by
    cases voids with
    | nil => exact Nat.le_refl _
    | cons b more => rw [joinSlash_cons_cons]; simp
  have hpos : 0 < segment.length := List.length_pos_iff.mpr hne
  have hsplit : before.reverse ++ segment :: voids = (before.dropWhile isVoid).reverse ++
      ((before.takeWhile isVoid).reverse ++ segment :: voids) := by
    rw [← List.append_assoc, ← List.reverse_append, List.takeWhile_append_dropWhile]
  rw [hsplit]
  have h1 := hlen (before.dropWhile isVoid).reverse
    ((before.takeWhile isVoid).reverse ++ segment :: voids) (by simp)
  have h2 := hlen (before.takeWhile isVoid).reverse (segment :: voids) (by simp)
  omega

/-- A text whose segments are all void has no components. -/
private theorem body_eq_nil_of_dropWhile {cs : List Char}
    (h : (splitSlash cs).reverse.dropWhile isVoid = []) : body cs = [] := by
  refine filterMap_ofSegment?_of_isVoid fun s hs => ?_
  exact List.dropWhile_eq_nil_iff.mp h s (List.mem_reverse.mpr hs)

/-- The last segment of a text that is not void is its last component. -/
private theorem body_of_dropWhile {cs segment : List Char} {before : List (List Char)}
    (h : (splitSlash cs).reverse.dropWhile isVoid = segment :: before) :
    ∃ c, Component.ofSegment? segment = some c ∧
      body cs = before.reverse.filterMap Component.ofSegment? ++ [c] := by
  obtain ⟨hsegment, voids, hsplit, hvoids⟩ := exists_lastSegment h
  obtain ⟨c, hc⟩ : ∃ c, Component.ofSegment? segment = some c := by
    rw [← Option.ne_none_iff_exists', ne_eq, Component.ofSegment?_eq_none_iff, hsegment]
    simp
  refine ⟨c, hc, ?_⟩
  rw [body, hsplit, List.filterMap_append, List.filterMap_cons, hc,
    filterMap_ofSegment?_of_isVoid hvoids]

theorem splitLast?_slash_eq_none {cs : List Char} (h : splitLast? ('/' :: cs) = none) :
    body cs = [] := by
  cases hdrop : (splitSlash cs).reverse.dropWhile isVoid with
  | nil => exact body_eq_nil_of_dropWhile hdrop
  | cons segment before => simp [splitLast?, splitLead, hdrop] at h

/-- The text above an absolute text is absolute and shorter, and it lacks the last component. -/
theorem splitLast?_slash_eq_some {cs above : List Char} {c : Component}
    (h : splitLast? ('/' :: cs) = some (above, c)) :
    ∃ ds, above = '/' :: ds ∧ body cs = body ds ++ [c] ∧ ds.length < cs.length := by
  cases hdrop : (splitSlash cs).reverse.dropWhile isVoid with
  | nil => simp [splitLast?, splitLead, hdrop] at h
  | cons segment before =>
    obtain ⟨hsegment, voids, hsplit, hvoids⟩ := exists_lastSegment hdrop
    have hslash : ∀ s ∈ splitSlash cs, '/' ∉ s := fun s => slash_notMem_of_mem_splitSlash
    obtain ⟨rfl, rfl⟩ : above = '/' :: joinSlash (before.dropWhile isVoid).reverse ∧
        c = (Component.ofSegment? segment).getD .here := by
      simpa [splitLast?, splitLead, hdrop, eq_comm, Component.chars] using h
    refine ⟨_, rfl, ?_, ?_⟩
    · obtain ⟨c, hc, hbody⟩ := body_of_dropWhile hdrop
      rw [body_joinSlash_trim fun s hs => hslash s (by simp [hsplit, hs]), hbody, hc,
        Option.getD_some]
    · have hne : segment ≠ [] := by
        rintro rfl
        simp [isVoid] at hsegment
      have hlt := length_joinSlash_trim before hne voids
      rwa [← hsplit, joinSlash_splitSlash] at hlt

/-- The path above an absolute path is absolute and shorter, and it lacks the last component. -/
theorem parent?_eq_some {p q : Path} (hp : p.isAbsolute = true) (h : p.parent? = some q) :
    q.isAbsolute = true ∧
      (∃ c, p.last? = some c ∧ c.IsProper ∧ p.components = q.components ++ [c]) ∧
      q.text.length < p.text.length := by
  obtain ⟨cs, rfl⟩ := isAbsolute_iff.mp hp
  obtain ⟨⟨above, c⟩, hsplit, rfl⟩ := Option.map_eq_some_iff.mp h
  rw [String.toList_ofList] at hsplit
  obtain ⟨ds, rfl, hbody, hlen⟩ := splitLast?_slash_eq_some hsplit
  have hmem : c ∈ body cs := by simp [hbody]
  have hc : c.IsProper := isProper_of_mem_body hmem
  have hcomponents : (⟨String.ofList ('/' :: cs)⟩ : Path).components =
      (⟨String.ofList ('/' :: ds)⟩ : Path).components ++ [c] := by
    rw [components_slash, components_slash, hbody, List.cons_append]
  have hlast : (⟨String.ofList ('/' :: cs)⟩ : Path).last? = some c := by
    rw [last?, String.toList_ofList, hsplit]
    rfl
  refine ⟨isAbsolute_iff.mpr ⟨ds, rfl⟩, ⟨c, hlast, hc, hcomponents⟩, ?_⟩
  simpa using hlen

/-- The leading component of a text is no name. -/
private theorem lead_eq (cs : List Char) : (splitLead cs).1 = none ∨ (splitLead cs).1 = some .root ∨
    (splitLead cs).1 = some .here := by
  unfold splitLead
  split <;> simp

/-- The name at the end of a path is its last component. -/
theorem fileName?_eq_some_iff {p : Path} {name : String} :
    p.fileName? = some name ↔ p.components.getLast? = some (.name name) := by
  have hcomponents : p.components = (splitLead p.text.toList).1.toList ++
    body (splitLead p.text.toList).2 := rfl
  have hlead := lead_eq p.text.toList
  rw [fileName?, splitLast?, hcomponents]
  generalize splitLead p.text.toList = split at hlead ⊢
  obtain ⟨lead, cs⟩ := split
  dsimp only at hlead ⊢
  cases hdrop : (splitSlash cs).reverse.dropWhile isVoid with
  | nil =>
    rw [body_eq_nil_of_dropWhile hdrop, List.append_nil]
    rcases hlead with rfl | rfl | rfl <;> simp
  | cons segment before =>
    obtain ⟨c, hc, hbody⟩ := body_of_dropWhile hdrop
    simp only [hc, hbody, Option.getD_some, ← List.append_assoc, List.getLast?_concat]
    cases c <;> simp

/-- Only the root has no path above it. -/
theorem parent?_eq_none {p : Path} (hp : p.isAbsolute = true) (h : p.parent? = none) :
    p.components = [.root] := by
  obtain ⟨cs, rfl⟩ := isAbsolute_iff.mp hp
  rw [parent?, String.toList_ofList, Option.map_eq_none_iff] at h
  rw [components_slash, splitLast?_slash_eq_none h]

/-! ### Texts of components -/

theorem joinSlash_cons (a : List Char) (more : List (List Char)) :
    joinSlash (a :: more) = a ++ more.flatMap ('/' :: ·) := by
  induction more generalizing a with
  | nil => simp [joinSlash]
  | cons b more ih => rw [joinSlash_cons_cons, ih, List.flatMap_cons, List.cons_append]

private theorem foldl_joinChars {cs : List Component} (h : ∀ c ∈ cs, c.IsProper) {acc : List Char}
    (hne : acc ≠ []) (hlast : acc.getLast? ≠ some '/') :
    cs.foldl (fun acc c => joinChars acc c.chars) acc =
      acc ++ (cs.map Component.chars).flatMap ('/' :: ·) := by
  induction cs generalizing acc with
  | nil => simp
  | cons c cs ih =>
    have hc := h c List.mem_cons_self
    have hhead : c.chars.head? ≠ some '/' := fun hhead =>
      hc.slash_notMem (List.mem_of_mem_head? hhead)
    have hjoin : joinChars acc c.chars = acc ++ '/' :: c.chars := by
      simp [joinChars, hhead, hlast, hne]
    have hlast' : (acc ++ '/' :: c.chars).getLast? ≠ some '/' := by
      rw [List.getLast?_append, List.getLast?_cons_of_ne_nil hc.chars_ne_nil,
        List.getLast?_eq_some_getLast hc.chars_ne_nil]
      have hmem := List.getLast_mem hc.chars_ne_nil
      simp only [Option.some_or, ne_eq, Option.some.injEq]
      exact fun heq => hc.slash_notMem (heq ▸ hmem)
    rw [List.foldl_cons, hjoin, ih (fun d hd => h d (List.mem_cons_of_mem c hd)) (by simp) hlast',
      List.map_cons, List.flatMap_cons, List.append_assoc]

/-- The text of proper components has a `/` between neighbours. -/
theorem ofComponents_eq_joinSlash {cs : List Component} (h : ∀ c ∈ cs, c.IsProper) :
    ofComponents cs = ⟨String.ofList (joinSlash (cs.map Component.chars))⟩ := by
  cases cs with
  | nil => rfl
  | cons c cs =>
    have hc := h c List.mem_cons_self
    have hlast : c.chars.getLast? ≠ some '/' := fun hlast =>
      hc.slash_notMem (List.mem_of_getLast? hlast)
    have hfirst : joinChars [] c.chars = c.chars := by
      rw [joinChars]
      split_ifs <;> simp_all
    rw [ofComponents, List.foldl_cons, hfirst, foldl_joinChars
      (fun d hd => h d (List.mem_cons_of_mem c hd)) hc.chars_ne_nil hlast, List.map_cons,
      joinSlash_cons]

/-- The text that starts at the root and goes on with proper components. -/
theorem ofComponents_root_eq_joinSlash {cs : List Component} (h : ∀ c ∈ cs, c.IsProper) :
    ofComponents (.root :: cs) = ⟨String.ofList ('/' :: joinSlash (cs.map Component.chars))⟩ := by
  cases cs with
  | nil => rfl
  | cons c cs =>
    have hc := h c List.mem_cons_self
    have hhead : c.chars.head? ≠ some '/' := fun hhead =>
      hc.slash_notMem (List.mem_of_mem_head? hhead)
    have hlast : ('/' :: c.chars).getLast? ≠ some '/' := by
      rw [List.getLast?_cons_of_ne_nil hc.chars_ne_nil]
      exact fun hlast => hc.slash_notMem (List.mem_of_getLast? hlast)
    have hfirst : joinChars (joinChars [] Component.root.chars) c.chars = '/' :: c.chars := by
      change joinChars ['/'] c.chars = '/' :: c.chars
      simp [joinChars, hhead]
    rw [ofComponents, List.foldl_cons, List.foldl_cons, hfirst, foldl_joinChars
      (fun d hd => h d (List.mem_cons_of_mem c hd)) (List.cons_ne_nil _ _) hlast, List.map_cons,
      joinSlash_cons, List.cons_append]

theorem splitSlash_joinSlash_chars {cs : List Component} (hne : cs ≠ [])
    (h : ∀ c ∈ cs, c.IsProper) :
    splitSlash (joinSlash (cs.map Component.chars)) = cs.map Component.chars := by
  refine splitSlash_joinSlash (by simpa using hne) fun s hs => ?_
  obtain ⟨c, hc, rfl⟩ := List.mem_map.mp hs
  exact (h c hc).slash_notMem

/-- Proper components are read off the text that joins them. -/
theorem body_joinSlash {cs : List Component} (h : ∀ c ∈ cs, c.IsProper) :
    body (joinSlash (cs.map Component.chars)) = cs := by
  by_cases hne : cs = []
  · rw [hne]
    rfl
  · rw [body, splitSlash_joinSlash_chars hne h, List.filterMap_map]
    calc cs.filterMap (Component.ofSegment? ∘ Component.chars)
        = cs.filterMap some := List.filterMap_congr fun c hc => (h c hc).ofSegment?_chars
      _ = cs := List.filterMap_some

/-- The text that starts at the root and goes on with proper components has just these
components. -/
theorem components_ofComponents_root {cs : List Component} (h : ∀ c ∈ cs, c.IsProper) :
    (ofComponents (.root :: cs)).components = .root :: cs := by
  rw [ofComponents_root_eq_joinSlash h, components_slash, body_joinSlash h]

private theorem splitLead_eq_none {cs first : List Char} {more : List (List Char)}
    (hsplit : splitSlash cs = first :: more) (hfirst : isVoid first = false) :
    splitLead cs = (none, cs) := by
  unfold splitLead
  split
  · simp [splitSlash] at hsplit
    simp [isVoid, ← hsplit.1] at hfirst
  · simp [splitSlash] at hsplit
    simp [isVoid, ← hsplit.1] at hfirst
  · simp [splitSlash] at hsplit
    simp [isVoid, ← hsplit.1] at hfirst
  · rfl

/-- The text of proper components has just these components. -/
theorem components_ofComponents {cs : List Component} (hne : cs ≠ []) (h : ∀ c ∈ cs, c.IsProper) :
    (ofComponents cs).components = cs := by
  have hlead : splitLead (joinSlash (cs.map Component.chars)) =
      (none, joinSlash (cs.map Component.chars)) := by
    have hsplit := splitSlash_joinSlash_chars hne h
    obtain ⟨c, more, rfl⟩ := List.exists_cons_of_ne_nil hne
    refine splitLead_eq_none hsplit ?_
    have hc := (h c List.mem_cons_self).ofSegment?_chars
    rw [← Bool.not_eq_true, ← Component.ofSegment?_eq_none_iff, hc]
    simp
  rw [ofComponents_eq_joinSlash h, components, String.toList_ofList, componentsOf, hlead]
  exact body_joinSlash h

/-- The path above a text of the root and proper components lacks the last of them. -/
theorem parent?_ofComponents_root {cs : List Component} {c : Component}
    (h : ∀ d ∈ cs ++ [c], d.IsProper) :
    (ofComponents (.root :: (cs ++ [c]))).parent? = some (ofComponents (.root :: cs)) := by
  have hcs : ∀ d ∈ cs, d.IsProper := fun d hd => h d (List.mem_append_left _ hd)
  have hvoid : ∀ d ∈ cs ++ [c], isVoid d.chars = false := by
    intro d hd
    rw [← Bool.not_eq_true, ← Component.ofSegment?_eq_none_iff, (h d hd).ofSegment?_chars]
    simp
  have hlast : isVoid c.chars = false := hvoid c (by simp)
  have htrim : ((cs.map Component.chars).reverse.dropWhile isVoid).reverse =
      cs.map Component.chars := by
    rcases List.eq_nil_or_concat cs with rfl | ⟨front, e, rfl⟩
    · rfl
    · have he : isVoid e.chars = false := hvoid e (by simp)
      simp [he]
  rw [ofComponents_root_eq_joinSlash h, ofComponents_root_eq_joinSlash hcs, parent?,
    String.toList_ofList]
  have hsplit : splitLast? ('/' :: joinSlash ((cs ++ [c]).map Component.chars)) =
      some ('/' :: joinSlash (cs.map Component.chars), c) := by
    simp only [splitLast?, splitLead, splitSlash_joinSlash_chars (by simp) h]
    rw [List.map_append, List.reverse_append, List.map_singleton, List.reverse_singleton,
      List.singleton_append, List.dropWhile_cons_of_neg (by simp [hlast])]
    simp only [htrim, (h c (by simp)).ofSegment?_chars]
    rfl
  rw [hsplit]
  rfl

end ModuleGraph.Path

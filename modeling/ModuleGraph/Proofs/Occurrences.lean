import Mathlib.Data.List.Flatten
import Mathlib.Data.List.Nodup
import ModuleGraph.Extraction

/-!
# The calls in an expression

The search for calls goes from an expression to some of its parts, from these to some of theirs, and
so on.  Which parts these are is said here without reference to the search: an occurrence is a call
of `require` or an `import` expression that can be reached, together with the way to it.  Of one
expression the search finds each occurrence once, and nothing else, however calls are nested: a call
that is an argument or the callee of another one is reached in one way only.

## Main definitions

* `Source.Branch`, `Source.Expr.Child`: the parts that are looked into, and how they are reached.
* `Source.Expr.Reaches`: the parts of the parts, with the way to them.
* `Source.Expr.Names`: the expressions that name a module.
* `Source.Expr.occurrences`: the expressions that are reached and name a module.

## Main results

* `Source.Expr.dynamic_eq`: one step of the search.
* `Source.Expr.mem_occurrences_iff`, `Source.Expr.nodup_occurrences`,
  `Source.Expr.map_snd_occurrences`: each occurrence is found once.
* `Source.Expr.exists_occurrences`: what the search for calls adds to the specifiers of a program.
-/

namespace ModuleGraph.Source

/-! ### Occurrences -/

/-- The way from an expression to one of the parts that are looked into. -/
inductive Branch where
  | callee
  | argument (index : Nat)
  | operand
  | element (index : Nat)
  | value (index : Nat)
  | test
  | yes
  | no
  | right
  | inner
  deriving DecidableEq, Repr

namespace Expr

/-- The parts of an expression that are looked into. -/
inductive Child : Expr → Branch → Expr → Prop
  | callee (f : Expr) (arguments : List Expr) : Child (.call f arguments) .callee f
  | argument (f : Expr) {arguments : List Expr} {i : Nat} {e : Expr} (h : arguments[i]? = some e) :
    Child (.call f arguments) (.argument i) e
  | operand (e : Expr) : Child (.await e) .operand e
  | element {elements : List Expr} {i : Nat} {e : Expr} (h : elements[i]? = some e) :
    Child (.array elements) (.element i) e
  | value {values : List Expr} {i : Nat} {e : Expr} (h : values[i]? = some e) :
    Child (.object values) (.value i) e
  | test (test yes no : Expr) : Child (.conditional test yes no) .test test
  | yes (test yes no : Expr) : Child (.conditional test yes no) .yes yes
  | no (test yes no : Expr) : Child (.conditional test yes no) .no no
  | right (e : Expr) : Child (.assignment e) .right e
  | inner (e : Expr) : Child (.paren e) .inner e

/-- The expressions that are looked into from an expression on, with the way to them. -/
inductive Reaches : Expr → List Branch → Expr → Prop
  | here (e : Expr) : Reaches e [] e
  | step {e child part : Expr} {branch : Branch} {way : List Branch} (h : e.Child branch child)
    (more : child.Reaches way part) : Reaches e (branch :: way) part

/-- The expressions that name a module: a call of `require` with a string as its first argument, and
an `import` expression with a string as its source. -/
inductive Names : Expr → Literal → Prop
  | required (literal : Literal) (arguments : List Expr) :
    Names (.call (.name "require".toList) (.string literal :: arguments)) literal
  | imported (literal : Literal) : Names (.importCall (.string literal)) literal

theorem reaches_nil_iff {e part : Expr} : e.Reaches [] part ↔ part = e := by
  constructor
  · rintro ⟨⟩
    rfl
  · rintro rfl
    exact .here part

theorem reaches_cons_iff {e part : Expr} {branch : Branch} {way : List Branch} :
    e.Reaches (branch :: way) part ↔ ∃ child, e.Child branch child ∧ child.Reaches way part := by
  constructor
  · rintro (_ | ⟨hchild, hmore⟩)
    exact ⟨_, hchild, hmore⟩
  · rintro ⟨child, hchild, hmore⟩
    exact .step hchild hmore

/-! ### One step of the search -/

/-- The string by which an expression itself names a module. -/
def own : Expr → Option Literal
  | .call callee arguments => required? callee arguments
  | .importCall (.string literal) => some literal
  | _ => none

/-- The expressions of a list, with the ways to them. -/
def numbered (f : Nat → Branch) (es : List Expr) : List (Branch × Expr) :=
  es.zipIdx.map fun p => (f p.2, p.1)

/-- The parts of an expression that are looked into, in the order in which they are. -/
def parts : Expr → List (Branch × Expr)
  | .call callee arguments =>
    numbered .argument arguments ++ [(.callee, callee)]
  | .await e => [(.operand, e)]
  | .array elements => numbered .element elements
  | .object values => numbered .value values
  | .conditional test yes no => [(.test, test), (.yes, yes), (.no, no)]
  | .assignment e => [(.right, e)]
  | .paren e => [(.inner, e)]
  | _ => []

theorem required?_eq_some_iff {callee : Expr} {arguments : List Expr} {literal : Literal} :
    required? callee arguments = some literal ↔
      callee = .name "require".toList ∧ ∃ more, arguments = .string literal :: more := by
  constructor
  · intro h
    unfold required? at h
    split at h
    · next text l more =>
      split at h
      · next htext =>
        obtain rfl := Option.some.inj h
        exact ⟨congrArg name htext, more, rfl⟩
      · cases h
    · cases h
  · rintro ⟨rfl, more, rfl⟩
    rw [required?, if_pos rfl]

theorem own_eq_some_iff {e : Expr} {literal : Literal} :
    e.own = some literal ↔ e.Names literal := by
  constructor
  · intro h
    unfold own at h
    split at h
    · obtain ⟨rfl, more, rfl⟩ := required?_eq_some_iff.mp h
      exact .required literal more
    · obtain rfl := Option.some.inj h
      exact .imported _
    · simp at h
  · rintro (⟨_, more⟩ | _)
    · exact required?_eq_some_iff.mpr ⟨rfl, more, rfl⟩
    · rfl

section Numbered

variable {f : Nat → Branch} {es : List Expr}

theorem mem_numbered_iff {branch : Branch} {e : Expr} :
    (branch, e) ∈ numbered f es ↔ ∃ i, es[i]? = some e ∧ f i = branch := by
  simp only [numbered, List.mem_map, Prod.mk.injEq, Prod.exists, List.mem_zipIdx_iff_getElem?]
  constructor
  · rintro ⟨e', i, hi, hbranch, rfl⟩
    exact ⟨i, hi, hbranch⟩
  · rintro ⟨i, hi, hbranch⟩
    exact ⟨e, i, hi, hbranch, rfl⟩

theorem map_snd_numbered : (numbered f es).map Prod.snd = es := by
  rw [numbered, List.map_map]
  exact List.zipIdx_map_fst 0 es

theorem nodup_fst_numbered (hf : Function.Injective f) : ((numbered f es).map Prod.fst).Nodup := by
  have hfst : (numbered f es).map Prod.fst = (es.zipIdx.map Prod.snd).map f := by
    rw [numbered, List.map_map, List.map_map]
    rfl
  rw [hfst, List.zipIdx_map_snd]
  exact List.Nodup.map hf List.nodup_range'

end Numbered

/-- The parts that are looked into are those that the search goes to. -/
theorem mem_parts_iff {e e' : Expr} {branch : Branch} :
    (branch, e') ∈ e.parts ↔ e.Child branch e' := by
  constructor
  · intro h
    cases e with
    | call callee arguments =>
      rcases List.mem_append.mp h with h | h
      · obtain ⟨i, hi, rfl⟩ := mem_numbered_iff.mp h
        exact .argument callee hi
      · obtain ⟨rfl, rfl⟩ := by simpa using h
        exact .callee _ arguments
    | array es =>
      obtain ⟨i, hi, rfl⟩ := mem_numbered_iff.mp h
      exact .element hi
    | object es =>
      obtain ⟨i, hi, rfl⟩ := mem_numbered_iff.mp h
      exact .value hi
    | await e | assignment e | paren e =>
      obtain ⟨rfl, rfl⟩ := by simpa [parts] using h
      constructor
    | conditional test yes no =>
      simp only [parts, List.mem_cons, Prod.mk.injEq, List.not_mem_nil, or_false] at h
      rcases h with ⟨rfl, rfl⟩ | ⟨rfl, rfl⟩ | ⟨rfl, rfl⟩ <;> constructor
    | _ => simp [parts] at h
  · intro h
    cases h with
    | argument callee hi => exact List.mem_append_left _ (mem_numbered_iff.mpr ⟨_, hi, rfl⟩)
    | element hi | value hi => exact mem_numbered_iff.mpr ⟨_, hi, rfl⟩
    | _ => simp [parts]

/-- No two parts are reached in the same way. -/
theorem nodup_fst_parts (e : Expr) : (e.parts.map Prod.fst).Nodup := by
  cases e with
  | call callee arguments =>
    rw [parts, List.map_append, List.nodup_append]
    refine ⟨nodup_fst_numbered fun _ _ => Branch.argument.inj, List.nodup_singleton _, ?_⟩
    rintro branch hbranch branch' hbranch' rfl
    obtain rfl := List.mem_singleton.mp hbranch'
    obtain ⟨⟨_, e⟩, he, rfl⟩ := List.mem_map.mp hbranch
    obtain ⟨i, -, hi⟩ := mem_numbered_iff.mp he
    cases hi
  | array es => exact nodup_fst_numbered fun _ _ => Branch.element.inj
  | object es => exact nodup_fst_numbered fun _ _ => Branch.value.inj
  | _ => simp [parts]

theorem dynamicAll_eq (es : List Expr) : dynamicAll es = es.flatMap dynamic := by
  induction es with
  | nil => rw [dynamicAll, List.flatMap_nil]
  | cons e es ih => rw [dynamicAll, ih, List.flatMap_cons]

/-- One step of the search: the string of an expression itself, and then those of its parts. -/
theorem dynamic_eq (e : Expr) :
    e.dynamic = e.own.toList ++ e.parts.flatMap fun p => p.2.dynamic := by
  have hparts : (e.parts.map Prod.snd).flatMap dynamic = e.parts.flatMap fun p => p.2.dynamic :=
    List.flatMap_map ..
  rw [← hparts]
  cases e with
  | call callee arguments =>
    rw [dynamic, own, parts, List.map_append, map_snd_numbered, dynamicAll_eq]
    simp
  | array es | object es =>
    rw [dynamic, dynamicAll_eq]
    exact congrArg (List.flatMap dynamic) map_snd_numbered.symm
  | conditional test yes no => simp [dynamic, own, parts]
  | importCall e => cases e <;> simp [dynamic, own, parts]
  | _ => simp [dynamic, own, parts]

theorem sizeOf_lt_of_child {e e' : Expr} {branch : Branch} (h : e.Child branch e') :
    sizeOf e' < sizeOf e := by
  cases h with
  | argument _ hi | element hi | value hi =>
    have hsize := List.sizeOf_lt_of_mem (List.mem_of_getElem? hi)
    simp only [call.sizeOf_spec, array.sizeOf_spec, object.sizeOf_spec]
    omega
  | _ =>
    simp only [call.sizeOf_spec, await.sizeOf_spec, conditional.sizeOf_spec,
      assignment.sizeOf_spec, paren.sizeOf_spec]
    omega

/-! ### The whole search -/

/-- The strings of the expressions that can be reached and name a module, with the ways to them. -/
def occurrences (e : Expr) : List (List Branch × Literal) :=
  e.own.toList.map (fun literal => ([], literal)) ++
    e.parts.attach.flatMap fun p => p.1.2.occurrences.map fun o => (p.1.1 :: o.1, o.2)
termination_by sizeOf e
decreasing_by exact sizeOf_lt_of_child (mem_parts_iff.mp p.2)

theorem occurrences_eq (e : Expr) :
    e.occurrences = e.own.toList.map (fun literal => ([], literal)) ++
      e.parts.flatMap fun p => p.2.occurrences.map fun o => (p.1 :: o.1, o.2) := by
  conv_lhs => rw [occurrences]
  rw [← List.flatMap_map Subtype.val fun p : Branch × Expr =>
    p.2.occurrences.map fun o => (p.1 :: o.1, o.2), List.attach_map_subtype_val]

/-- An occurrence is the expression itself, or an occurrence in one of its parts. -/
theorem mem_occurrences_iff_own_or {e : Expr} {way : List Branch} {literal : Literal} :
    (way, literal) ∈ e.occurrences ↔ (way = [] ∧ e.own = some literal) ∨
      ∃ branch child more, (branch, child) ∈ e.parts ∧ way = branch :: more ∧
        (more, literal) ∈ child.occurrences := by
  rw [occurrences_eq, List.mem_append, List.mem_map, List.mem_flatMap]
  refine or_congr ?_ ?_
  · constructor
    · rintro ⟨l, hl, heq⟩
      obtain ⟨rfl, rfl⟩ := Prod.mk.inj heq
      exact ⟨rfl, Option.mem_toList.mp hl⟩
    · rintro ⟨rfl, howned⟩
      exact ⟨literal, Option.mem_toList.mpr howned, rfl⟩
  · constructor
    · rintro ⟨⟨branch, child⟩, hpart, hmem⟩
      obtain ⟨⟨more, l⟩, hmore, heq⟩ := List.mem_map.mp hmem
      obtain ⟨rfl, rfl⟩ := Prod.mk.inj heq
      exact ⟨branch, child, more, hpart, rfl, hmore⟩
    · rintro ⟨branch, child, more, hpart, rfl, hmore⟩
      exact ⟨(branch, child), hpart, List.mem_map.mpr ⟨(more, literal), hmore, rfl⟩⟩

/-- The occurrences are the expressions that can be reached and name a module. -/
theorem mem_occurrences_iff {e : Expr} {way : List Branch} {literal : Literal} :
    (way, literal) ∈ e.occurrences ↔ ∃ part, e.Reaches way part ∧ part.Names literal := by
  induction way generalizing e with
  | nil =>
    rw [mem_occurrences_iff_own_or]
    simp [reaches_nil_iff, own_eq_some_iff]
  | cons branch way ih =>
    rw [mem_occurrences_iff_own_or]
    simp only [reaches_cons_iff, mem_parts_iff, List.cons.injEq]
    constructor
    · rintro (⟨hnil, -⟩ | ⟨branch', child, more, hchild, ⟨rfl, rfl⟩, hmore⟩)
      · exact absurd hnil (List.cons_ne_nil _ _)
      · obtain ⟨part, hpart, hnames⟩ := ih.mp hmore
        exact ⟨part, ⟨child, hchild, hpart⟩, hnames⟩
    · rintro ⟨part, ⟨child, hchild, hpart⟩, hnames⟩
      exact .inr ⟨branch, child, way, hchild, ⟨rfl, rfl⟩, ih.mpr ⟨part, hpart, hnames⟩⟩

/-- No occurrence is listed twice: the ways into two parts differ in their first step. -/
theorem nodup_occurrences (e : Expr) : e.occurrences.Nodup := by
  induction e using occurrences.induct with
  | case1 e ih =>
    rw [occurrences_eq, List.nodup_append]
    refine ⟨?_, List.nodup_flatMap.mpr ⟨fun p hp => ?_, ?_⟩, ?_⟩
    · cases e.own <;> simp
    · refine List.Nodup.map (fun o o' h => ?_) (ih ⟨p, hp⟩)
      simpa [Prod.ext_iff] using h
    · have hparts : e.parts.Pairwise fun p q => p.1 ≠ q.1 := List.pairwise_map.mp e.nodup_fst_parts
      refine hparts.imp fun {p q} hne => List.disjoint_left.mpr fun o hp hq => hne ?_
      obtain ⟨o₁, -, rfl⟩ := List.mem_map.mp hp
      obtain ⟨o₂, -, heq⟩ := List.mem_map.mp hq
      exact (List.cons.inj (Prod.mk.inj heq).1).1.symm
    · rintro o ho o' ho' rfl
      obtain ⟨l, -, rfl⟩ := List.mem_map.mp ho
      obtain ⟨p, -, hmem⟩ := List.mem_flatMap.mp ho'
      obtain ⟨o', -, heq⟩ := List.mem_map.mp hmem
      exact List.cons_ne_nil _ _ (Prod.mk.inj heq).1

/-- The search finds the occurrences in the order in which they are listed. -/
theorem map_snd_occurrences (e : Expr) : e.occurrences.map Prod.snd = e.dynamic := by
  induction e using occurrences.induct with
  | case1 e ih =>
    rw [occurrences_eq, dynamic_eq, List.map_append, List.map_map, List.map_flatMap]
    congr 1
    · exact List.map_id _
    · refine List.flatMap_congr fun p hp => ?_
      rw [List.map_map, ← ih ⟨p, hp⟩]
      rfl

end Expr

/-- The specifiers that the search for calls adds to those of a program, where an expression stands
behind its statements, or is the initial value of a variable behind others.  There is one for each
occurrence in the expression, and the specifiers in front of them stay what they are. -/
theorem Expr.exists_occurrences (e : Expr) :
    ∃ occurrences : List (List Branch × Literal), occurrences.Nodup ∧
      (∀ way literal, (way, literal) ∈ occurrences ↔
        ∃ part, e.Reaches way part ∧ part.Names literal) ∧
      e.dynamic = occurrences.map Prod.snd ∧
      ∀ (before : List Stmt) (complete : Bool),
        (⟨before ++ [.expression e], complete⟩ : Program).specifiers true =
          (⟨before, complete⟩ : Program).specifiers true ++
            occurrences.map (fun o => ⟨o.2.value, .dynamic⟩) ∧
        ∀ initial : List Expr,
          (⟨before ++ [.declaration (initial ++ [e])], complete⟩ : Program).specifiers true =
            (⟨before ++ [.declaration initial], complete⟩ : Program).specifiers true ++
              occurrences.map (fun o => ⟨o.2.value, .dynamic⟩) := by
  refine ⟨e.occurrences, e.nodup_occurrences, fun _ _ => mem_occurrences_iff,
    e.map_snd_occurrences.symm, fun before complete => ?_⟩
  have hadded : e.occurrences.map (fun o => (⟨o.2.value, .dynamic⟩ : Specifier)) =
      e.dynamic.map fun l => ⟨l.value, .dynamic⟩ := by
    rw [← e.map_snd_occurrences, List.map_map]
    rfl
  rw [hadded]
  constructor
  · simp [Program.specifiers, Stmt.specifiers, Stmt.mentions]
  · intro initial
    simp [Program.specifiers, Stmt.specifiers, Stmt.mentions, dynamicAll_eq]

end ModuleGraph.Source

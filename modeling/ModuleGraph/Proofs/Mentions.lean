import Mathlib.Data.List.Flatten
import Mathlib.Data.List.Perm.Basic
import ModuleGraph.Extraction
import ModuleGraph.Proofs.Source.Statements

/-!
# The order of the strings that name modules

The strings by which a program names modules stand one behind the other in its text.  They are found
in another order: of a call, what its arguments name is found before what its callee names.  So they
are found in the order of the text if, and only if, no call that is looked into names modules both
through its callee and through its arguments.

## Main definitions

* `Source.Program.mentions`: the strings that a program names modules by, as they are found.
* `Source.Program.inOrder`: the same strings in the order of the text.
* `Source.Program.isStraight`: whether no call names modules through its callee and its arguments.

## Main results

* `Source.Program.perm_inOrder`: the two lists hold the same strings.
* `Source.pairwise_inOrder_of_parse?`: the strings in the order of the text.
* `extract_inOrder`: what is found in a text, and when it is found in the order of the text.
-/

namespace ModuleGraph

namespace Source

/-- A string stands in front of another one. -/
def Literal.Before (l m : Literal) : Prop := l.offset < m.offset

instance : DecidableRel Literal.Before :=
  fun l m => inferInstanceAs (Decidable (l.offset < m.offset))

theorem Literal.Before.asymm {l m : Literal} (h : l.Before m) : ¬ m.Before l := Nat.lt_asymm h

/-! ### Lists that are put together in another order -/

section Lists

variable {as as' bs bs' : List Literal}

theorem pairwise_append_iff_of_perm (h : (as ++ bs).Pairwise Literal.Before) (has : as'.Perm as)
    (hbs : bs'.Perm bs) : (as' ++ bs').Pairwise Literal.Before ↔
      as'.Pairwise Literal.Before ∧ bs'.Pairwise Literal.Before := by
  have hbefore := (List.pairwise_append.mp h).2.2
  rw [List.pairwise_append]
  refine ⟨fun h => ⟨h.1, h.2.1⟩, fun h => ⟨h.1, h.2, fun a ha b hb => ?_⟩⟩
  exact hbefore a (has.mem_iff.mp ha) b (hbs.mem_iff.mp hb)

/-- What stands behind can only be put in front if it is nothing, or put in front of nothing. -/
theorem pairwise_append_swap_iff (h : (as ++ bs).Pairwise Literal.Before) (has : as'.Perm as)
    (hbs : bs'.Perm bs) : (bs' ++ as').Pairwise Literal.Before ↔
      bs'.Pairwise Literal.Before ∧ as'.Pairwise Literal.Before ∧ (as' = [] ∨ bs' = []) := by
  have hbefore := (List.pairwise_append.mp h).2.2
  rw [List.pairwise_append]
  refine and_congr_right fun _ => and_congr_right fun _ => ⟨fun hswapped => ?_, ?_⟩
  · rcases as' with _ | ⟨a, as'⟩
    · exact .inl rfl
    rcases bs' with _ | ⟨b, bs'⟩
    · exact .inr rfl
    have hab := hbefore a (has.mem_iff.mp List.mem_cons_self) b (hbs.mem_iff.mp List.mem_cons_self)
    exact absurd (hswapped b List.mem_cons_self a List.mem_cons_self) hab.asymm
  · rintro (rfl | rfl) <;> simp

end Lists

/-! ### Expressions -/

mutual

/-- The strings of the calls of `require` and the `import` expressions in an expression, in the
order of its parts. -/
@[simp] def Expr.inOrder : Expr → List Literal
  | .call callee arguments =>
    callee.inOrder ++ ((Expr.required? callee arguments).toList ++ Expr.inOrderAll arguments)
  | .importCall (.string literal) => [literal]
  | .await e => e.inOrder
  | .array elements => Expr.inOrderAll elements
  | .object values => Expr.inOrderAll values
  | .conditional test yes no => test.inOrder ++ yes.inOrder ++ no.inOrder
  | .assignment right => right.inOrder
  | .paren e => e.inOrder
  | _ => []

/-- The strings of the calls of `require` and the `import` expressions in a list of expressions, in
the order of their parts. -/
@[simp] def Expr.inOrderAll : List Expr → List Literal
  | [] => []
  | e :: es => e.inOrder ++ Expr.inOrderAll es

end

mutual

/-- Whether no call that is looked into names modules both through its callee and through its
arguments. -/
@[simp] def Expr.isStraight : Expr → Bool
  | .call callee arguments =>
    (callee.dynamic.isEmpty || (Expr.dynamicAll arguments).isEmpty) &&
      (callee.isStraight && Expr.isStraightAll arguments)
  | .await e => e.isStraight
  | .array elements => Expr.isStraightAll elements
  | .object values => Expr.isStraightAll values
  | .conditional test yes no => test.isStraight && yes.isStraight && no.isStraight
  | .assignment right => right.isStraight
  | .paren e => e.isStraight
  | _ => true

/-- Whether no call in a list of expressions that is looked into names modules both through its
callee and through its arguments. -/
@[simp] def Expr.isStraightAll : List Expr → Bool
  | [] => true
  | e :: es => e.isStraight && Expr.isStraightAll es

end

mutual

/-- The order of the text and that of the search hold the same strings. -/
theorem Expr.perm_inOrder : (e : Expr) → e.dynamic.Perm e.inOrder
  | .call callee arguments => by
    rw [dynamic, inOrder]
    exact List.perm_append_comm.trans
      (callee.perm_inOrder.append ((perm_inOrderAll arguments).append_left _))
  | .await e | .assignment e | .paren e => by
    rw [dynamic, inOrder]
    exact e.perm_inOrder
  | .array es | .object es => by
    rw [dynamic, inOrder]
    exact perm_inOrderAll es
  | .conditional test yes no => by
    rw [dynamic, inOrder]
    exact (test.perm_inOrder.append yes.perm_inOrder).append no.perm_inOrder
  | .importCall e => by cases e <;> simp [dynamic]
  | .name _ | .string _ | .member | .typed _ | .instantiation _ | .spread _ | .hole | .shorthand
  | .other => by simp [dynamic]

theorem Expr.perm_inOrderAll : (es : List Expr) → (dynamicAll es).Perm (inOrderAll es)
  | [] => by simp [dynamicAll]
  | e :: es => by
    rw [dynamicAll, inOrderAll]
    exact e.perm_inOrder.append (perm_inOrderAll es)

end

/-- The string that a call of `require` names its module by is its first argument. -/
theorem Expr.required?_sublist (callee : Expr) {e : Expr} (es : List Expr)
    (h : e.inOrder.Sublist e.strings) :
    ((required? callee (e :: es)).toList ++ e.inOrder).Sublist e.strings := by
  cases e with
  | string literal =>
    cases callee with
    | name text =>
      rw [required?]
      split <;> simp
    | _ => exact h
  | _ => cases callee <;> exact h

/-- A call whose callee names modules does not name one of its own. -/
theorem Expr.dynamic_eq_nil_or_required? (callee : Expr) (arguments : List Expr) :
    callee.dynamic = [] ∨ required? callee arguments = none := by
  cases callee with
  | name text => exact .inl (by simp [dynamic])
  | _ => exact .inr rfl

mutual

/-- The strings that name modules are among the strings of an expression, in their order. -/
theorem Expr.inOrder_sublist : (e : Expr) → e.inOrder.Sublist e.strings
  | .call callee arguments => by
    rw [inOrder, strings]
    exact callee.inOrder_sublist.append (inOrderAll_sublist callee arguments)
  | .await e | .assignment e | .paren e => by
    rw [inOrder, strings]
    exact e.inOrder_sublist
  | .array es | .object es => by
    rw [inOrder, strings]
    exact (List.sublist_append_right _ _).trans (inOrderAll_sublist .other es)
  | .conditional test yes no => by
    rw [inOrder, strings]
    exact (test.inOrder_sublist.append yes.inOrder_sublist).append no.inOrder_sublist
  | .importCall e => by cases e <;> simp
  | .name _ | .string _ | .member | .typed _ | .instantiation _ | .spread _ | .hole | .shorthand
  | .other => by simp

/-- The same holds of the arguments of a call, together with the string that the call itself names a
module by. -/
theorem Expr.inOrderAll_sublist (callee : Expr) : (es : List Expr) →
    ((required? callee es).toList ++ inOrderAll es).Sublist (stringsAll es)
  | [] => by cases callee <;> simp [required?]
  | e :: es => by
    have hrest : (inOrderAll es).Sublist (stringsAll es) :=
      (List.sublist_append_right _ _).trans (inOrderAll_sublist callee es)
    rw [inOrderAll, stringsAll, ← List.append_assoc]
    exact (required?_sublist callee es e.inOrder_sublist).append hrest

end

mutual

/-- The strings are found in the order of the text if, and only if, the expression is straight. -/
theorem Expr.pairwise_dynamic_iff : (e : Expr) → e.inOrder.Pairwise Literal.Before →
    (e.dynamic.Pairwise Literal.Before ↔ e.isStraight = true)
  | .call callee arguments, h => by
    rw [inOrder] at h
    obtain ⟨hcallee, hown, -⟩ := List.pairwise_append.mp h
    obtain ⟨hself, harguments, -⟩ := List.pairwise_append.mp hown
    have hall := perm_inOrderAll arguments
    rw [dynamic, pairwise_append_swap_iff h callee.perm_inOrder (hall.append_left _),
      pairwise_append_iff_of_perm hown (.refl _) hall, callee.pairwise_dynamic_iff hcallee,
      pairwise_dynamicAll_iff arguments harguments, isStraight]
    have hnone := dynamic_eq_nil_or_required? callee arguments
    grind
  | .await e, h | .assignment e, h | .paren e, h => by
    rw [inOrder] at h
    rw [dynamic, isStraight]
    exact e.pairwise_dynamic_iff h
  | .array es, h | .object es, h => by
    rw [inOrder] at h
    rw [dynamic, isStraight]
    exact pairwise_dynamicAll_iff es h
  | .conditional test yes no, h => by
    rw [inOrder] at h
    obtain ⟨hfirst, hno, -⟩ := List.pairwise_append.mp h
    obtain ⟨htest, hyes, -⟩ := List.pairwise_append.mp hfirst
    rw [dynamic, isStraight,
      pairwise_append_iff_of_perm h (test.perm_inOrder.append yes.perm_inOrder) no.perm_inOrder,
      pairwise_append_iff_of_perm hfirst test.perm_inOrder yes.perm_inOrder,
      test.pairwise_dynamic_iff htest, yes.pairwise_dynamic_iff hyes, no.pairwise_dynamic_iff hno,
      Bool.and_eq_true, Bool.and_eq_true]
  | .importCall e, _ => by cases e <;> simp [dynamic]
  | .name _, _ | .string _, _ | .member, _ | .typed _, _ | .instantiation _, _ | .spread _, _
  | .hole, _ | .shorthand, _ | .other, _ => by simp [dynamic]

theorem Expr.pairwise_dynamicAll_iff : (es : List Expr) →
    (inOrderAll es).Pairwise Literal.Before →
    ((dynamicAll es).Pairwise Literal.Before ↔ isStraightAll es = true)
  | [], _ => by simp [dynamicAll]
  | e :: es, h => by
    rw [inOrderAll] at h
    obtain ⟨hfirst, hrest, -⟩ := List.pairwise_append.mp h
    rw [dynamicAll, isStraightAll,
      pairwise_append_iff_of_perm h e.perm_inOrder (perm_inOrderAll es),
      e.pairwise_dynamic_iff hfirst, pairwise_dynamicAll_iff es hrest, Bool.and_eq_true]

end

/-! ### Statements -/

/-- The strings that a statement names modules by, in the order of its parts. -/
def Stmt.inOrder : Stmt → List Literal
  | .importFrom _ source => [source]
  | .importEquals source => source.toList
  | .exportFrom source => [source]
  | .expression e => e.inOrder
  | .declaration initial => Expr.inOrderAll initial
  | .exportedDeclaration _ | .other => []

/-- Whether no call in a statement that is looked into names modules both through its callee and
through its arguments. -/
def Stmt.isStraight : Stmt → Bool
  | .expression e => e.isStraight
  | .declaration initial => Expr.isStraightAll initial
  | _ => true

theorem Stmt.inOrder_sublist (s : Stmt) : s.inOrder.Sublist s.strings := by
  cases s with
  | expression e => exact e.inOrder_sublist
  | declaration initial =>
    exact (List.sublist_append_right _ _).trans (Expr.inOrderAll_sublist .other initial)
  | exportedDeclaration initial => exact List.nil_sublist _
  | _ => exact List.Sublist.refl _

theorem Stmt.perm_inOrder (s : Stmt) : ((s.mentions true).map Prod.fst).Perm s.inOrder := by
  cases s with
  | expression e => simpa [mentions, inOrder, Function.comp_def] using e.perm_inOrder
  | declaration initial =>
    simpa [mentions, inOrder, Function.comp_def] using Expr.perm_inOrderAll initial
  | _ => simp [mentions, inOrder, Function.comp_def]

theorem Stmt.pairwise_mentions_iff {s : Stmt} (h : s.inOrder.Pairwise Literal.Before) :
    ((s.mentions true).map Prod.fst).Pairwise Literal.Before ↔ s.isStraight = true := by
  cases s with
  | expression e => simpa [mentions, isStraight, Function.comp_def] using e.pairwise_dynamic_iff h
  | declaration initial =>
    simpa [mentions, isStraight, Function.comp_def] using Expr.pairwise_dynamicAll_iff initial h
  | importEquals source => cases source <;> simp [mentions, isStraight]
  | _ => simp [mentions, isStraight]

/-! ### Programs -/

namespace Program

/-- The strings that a program names modules by, with the forms in which it does, as they are
found where calls count. -/
def mentions (p : Program) : List (Literal × Specifier.Form) := p.body.flatMap (Stmt.mentions true)

/-- The strings that a program names modules by, in the order of its parts. -/
def inOrder (p : Program) : List Literal := p.body.flatMap Stmt.inOrder

/-- Whether no call in a program that is looked into names modules both through its callee and
through its arguments. -/
def isStraight (p : Program) : Bool := p.body.all Stmt.isStraight

theorem specifiers_eq (p : Program) :
    p.specifiers true = p.mentions.map fun m => ⟨m.1.value, m.2⟩ := by
  rw [specifiers, mentions, List.map_flatMap]
  rfl

theorem perm_inOrder (p : Program) : (p.mentions.map Prod.fst).Perm p.inOrder := by
  rw [mentions, inOrder, List.map_flatMap]
  exact List.Perm.flatMap_left _ fun s _ => s.perm_inOrder

theorem inOrder_sublist (p : Program) : p.inOrder.Sublist (p.body.flatMap Stmt.strings) :=
  List.Sublist.flatMap_right _ fun s _ => s.inOrder_sublist

/-- The strings are found in the order of the text if, and only if, the program is straight. -/
theorem pairwise_mentions_iff {p : Program} (h : p.inOrder.Pairwise Literal.Before) :
    (p.mentions.map Prod.fst).Pairwise Literal.Before ↔ p.isStraight = true := by
  rw [inOrder, List.pairwise_flatMap] at h
  obtain ⟨hstatements, hbefore⟩ := h
  rw [mentions, List.map_flatMap, List.pairwise_flatMap, isStraight, List.all_eq_true]
  constructor
  · rintro ⟨hfound, -⟩ s hs
    exact (Stmt.pairwise_mentions_iff (hstatements s hs)).mp (hfound s hs)
  · refine fun hstraight => ⟨fun s hs => ?_, hbefore.imp fun hst l hl m hm => ?_⟩
    · exact (Stmt.pairwise_mentions_iff (hstatements s hs)).mpr (hstraight s hs)
    · exact hst l ((Stmt.perm_inOrder _).mem_iff.mp hl) m ((Stmt.perm_inOrder _).mem_iff.mp hm)

end Program

/-- The strings that a program names modules by stand one behind the other in its text. -/
theorem isRow_inOrder_of_parse? {dialect : Dialect} {text : List Char} {program : Program}
    (h : parse? dialect text = some program) :
    IsRow text.length text program.inOrder [] :=
  (isRow_of_parse? h).sublist program.inOrder_sublist

end Source

open Source

/-- The specifiers of a text that has a usable syntax tree stand at places of the text that increase
in the order of the tree.  They are found in that order if, and only if, no call that is looked into
names modules both through its callee and through its arguments. -/
theorem extract_inOrder {dialect : Dialect} {text : String} {program : Program}
    (h : (parse? dialect text.toList).filter Program.isUsable = some program) :
    extract dialect true text = (program.mentions.map fun m => ⟨m.1.value, m.2⟩) ∧
      (program.mentions.map Prod.fst).Perm program.inOrder ∧
      program.inOrder.Pairwise Literal.Before ∧
      (∀ l ∈ program.inOrder, ∃ value behind,
        IsString (text.toList.drop l.offset) value behind ∧ l.value = String.ofList value) ∧
      ((program.mentions.map Prod.fst).Pairwise Literal.Before ↔ program.isStraight = true) := by
  have hrow := isRow_inOrder_of_parse? (Option.filter_eq_some_iff.mp h).1
  have hbefore : program.inOrder.Pairwise Literal.Before := hrow.pairwise_offset (Nat.le_refl _)
  refine ⟨?_, program.perm_inOrder, hbefore, fun l hl => ?_, Program.pairwise_mentions_iff hbefore⟩
  · rw [extract, h]
    exact program.specifiers_eq
  · exact hrow.exists_isString (List.suffix_refl _) hl

section Sample

/-- A text whose calls stand inside each other, and none names modules on both sides. -/
def nestedCalls : String :=
  "f(require('./a'), [await import('./b')]); x = y ? require('./c')(1) : (require('./d'));"

/-- The syntax tree of that text. -/
def nestedProgram : Program :=
  ((parse? .typedModule nestedCalls.toList).filter Program.isUsable).get (by decide +kernel)

theorem extract_inOrder_nestedCalls :
    (parse? .typedModule nestedCalls.toList).filter Program.isUsable = some nestedProgram ∧
      nestedProgram.isStraight = true ∧
      nestedProgram.mentions = [(⟨"./a", 10⟩, .dynamic), (⟨"./b", 32⟩, .dynamic),
        (⟨"./c", 58⟩, .dynamic), (⟨"./d", 79⟩, .dynamic)] ∧
      extract .typedModule true nestedCalls =
        [⟨"./a", .dynamic⟩, ⟨"./b", .dynamic⟩, ⟨"./c", .dynamic⟩, ⟨"./d", .dynamic⟩] ∧
      (nestedProgram.mentions.map Prod.fst).Pairwise Literal.Before := by
  have hparse : (parse? .typedModule nestedCalls.toList).filter Program.isUsable =
      some nestedProgram := (Option.some_get _).symm
  obtain ⟨hstraight, hmentions⟩ : nestedProgram.isStraight = true ∧
      nestedProgram.mentions = [(⟨"./a", 10⟩, .dynamic), (⟨"./b", 32⟩, .dynamic),
        (⟨"./c", 58⟩, .dynamic), (⟨"./d", 79⟩, .dynamic)] := by decide +kernel
  obtain ⟨hfound, -, -, -, hordered⟩ := extract_inOrder hparse
  refine ⟨hparse, hstraight, hmentions, ?_, hordered.mpr hstraight⟩
  rw [hfound, hmentions]
  rfl

/-- A call whose callee and whose argument name modules. -/
def requiredCallee : String := "require('./a')(require('./b'));"

/-- The syntax tree of that call. -/
def requiredProgram : Program :=
  ((parse? .typedModule requiredCallee.toList).filter Program.isUsable).get (by decide +kernel)

/-- What the arguments of a call name is found before what its callee names, which stands in front
of it. -/
theorem extract_requiredCallee :
    (parse? .typedModule requiredCallee.toList).filter Program.isUsable = some requiredProgram ∧
      requiredProgram.mentions = [(⟨"./b", 23⟩, .dynamic), (⟨"./a", 8⟩, .dynamic)] ∧
      extract .typedModule true requiredCallee = [⟨"./b", .dynamic⟩, ⟨"./a", .dynamic⟩] ∧
      ¬ (requiredProgram.mentions.map Prod.fst).Pairwise Literal.Before := by
  refine ⟨(Option.some_get _).symm, ?_⟩
  decide +kernel

end Sample

end ModuleGraph

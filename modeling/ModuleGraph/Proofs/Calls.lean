import Mathlib.Data.List.Basic
import ModuleGraph.Dependencies

/-!
# Calls only add dependencies

Calls of `require` and `import` expressions count on request.  Whether they do changes nothing
else: the declarations of a text are found, in the same order and with the same forms, with the
calls between them or without.  Of a syntax tree this holds statement by statement, since a
statement is either a declaration, which does not ask about calls, or nothing but a place to look
for them.  Of a search it holds because the regions of a text are settled before any of them is
left out.

So the dependencies of a module without calls are some of those with calls, in their order.

## Main results

* `Source.Stmt.specifiers_false`, `Source.Program.specifiers_false`: the specifiers of a tree.
* `Scan.specifiers_false`: the specifiers of a search.
* `extract_false`: the specifiers of a text.
* `Dependencies.of_false`: the dependencies of a module.
* `Dependencies.calls_only_add`: all of these.
-/

namespace ModuleGraph

/-- Whether a specifier names a module otherwise than by a call. -/
def Specifier.isDeclared (s : Specifier) : Bool := s.form ≠ .dynamic

namespace Source

/-- What a call names is not declared. -/
theorem filter_isDeclared_calls (literals : List Literal) :
    (literals.map fun l => (⟨l.value, .dynamic⟩ : Specifier)).filter Specifier.isDeclared = [] := by
  rw [List.filter_eq_nil_iff]
  intro s hs
  obtain ⟨l, -, rfl⟩ := List.mem_map.mp hs
  simp [Specifier.isDeclared]

/-- The specifiers of a statement without calls. -/
theorem Stmt.specifiers_false (s : Stmt) :
    s.specifiers false = (s.specifiers true).filter Specifier.isDeclared := by
  cases s with
  | importFrom typeOnly source => cases typeOnly <;> rfl
  | importEquals source => cases source <;> rfl
  | exportFrom source => rfl
  | expression e =>
    have hcalls := filter_isDeclared_calls e.dynamic
    simpa [specifiers, mentions, List.map_map, Function.comp_def] using hcalls.symm
  | declaration initial =>
    have hcalls := filter_isDeclared_calls (Expr.dynamicAll initial)
    simpa [specifiers, mentions, List.map_map, Function.comp_def] using hcalls.symm
  | exportedDeclaration initial => rfl
  | other => rfl

/-- The specifiers of a program without calls. -/
theorem Program.specifiers_false (p : Program) :
    p.specifiers false = (p.specifiers true).filter Specifier.isDeclared := by
  rw [specifiers, specifiers, List.filter_flatMap]
  exact List.flatMap_congr fun s _ => s.specifiers_false

end Source

/-- What a search finds without calls. -/
theorem Scan.specifiers_false (text : String) :
    specifiers text false = (specifiers text true).filter Specifier.isDeclared := by
  rw [specifiers, specifiers, List.filter_filter]
  refine List.filter_congr fun s _ => ?_
  cases hform : s.form <;> simp [wanted, Specifier.isDeclared, hform]

/-- The specifiers of a text without calls.  Whether the text has a syntax tree that can be used
does not depend on calls. -/
theorem extract_false (dialect : Source.Dialect) (text : String) :
    extract dialect false text = (extract dialect true text).filter Specifier.isDeclared := by
  rw [extract, extract]
  cases (Source.parse? dialect text.toList).filter Source.Program.isUsable with
  | some program => exact program.specifiers_false
  | none => exact Scan.specifiers_false text

namespace Dependencies

variable (suffixes : List String) (d : Files.Disk)

/-- Fewer specifiers give fewer dependencies, in the same order. -/
theorem resolvedAll_sublist (dynamic dynamic' : Bool) (config : Alias.Config) (dir : Path)
    {part all : List Specifier} (h : part.Sublist all) :
    (resolvedAll ⟨suffixes, dynamic⟩ d config dir part).Sublist
      (resolvedAll ⟨suffixes, dynamic'⟩ d config dir all) :=
  (h.filterMap _).filterMap _

/-- A module cannot be analysed without calls just if it cannot be analysed with them, and otherwise
its dependencies without calls are some of those with calls, in their order. -/
theorem of_false (file : Path) :
    (∃ fault, of ⟨suffixes, false⟩ d file = .error fault ∧
      of ⟨suffixes, true⟩ d file = .error fault) ∨
    ∃ found all, of ⟨suffixes, false⟩ d file = .ok found ∧ of ⟨suffixes, true⟩ d file = .ok all ∧
      found.value.Sublist all.value := by
  rw [of, of]
  cases located d file with
  | error fault => exact .inl ⟨fault, rfl, rfl⟩
  | ok found =>
    obtain ⟨place, contents⟩ := found
    dsimp only
    cases String.fromUTF8? contents with
    | none => exact .inl ⟨_, rfl, rfl⟩
    | some text =>
      refine .inr ⟨_, _, rfl, rfl, resolvedAll_sublist suffixes d false true _ _ ?_⟩
      rw [extract_false]
      exact List.filter_sublist

/-- **Calls only add.**  Without calls, a text has those of its specifiers with calls that are no
calls, whether it has a syntax tree or is searched.  A module can then be analysed just if it can be
analysed with calls, and its dependencies are some of those with calls, in their order. -/
theorem calls_only_add :
    (∀ program : Source.Program,
      program.specifiers false = (program.specifiers true).filter Specifier.isDeclared) ∧
    (∀ text, Scan.specifiers text false =
      (Scan.specifiers text true).filter Specifier.isDeclared) ∧
    (∀ dialect text, extract dialect false text =
      (extract dialect true text).filter Specifier.isDeclared) ∧
    ∀ suffixes d file,
      (∃ fault, of ⟨suffixes, false⟩ d file = .error fault ∧
        of ⟨suffixes, true⟩ d file = .error fault) ∨
      ∃ found all, of ⟨suffixes, false⟩ d file = .ok found ∧ of ⟨suffixes, true⟩ d file = .ok all ∧
        found.value.Sublist all.value :=
  ⟨Source.Program.specifiers_false, Scan.specifiers_false, extract_false, of_false⟩

end Dependencies

end ModuleGraph

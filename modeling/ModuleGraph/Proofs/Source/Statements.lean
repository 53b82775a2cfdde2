import Mathlib.Data.List.Flatten
import ModuleGraph.Proofs.Source.Expressions

/-!
# The strings of statements and programs

What is read of a statement keeps its strings in order, given that the rules for the phrases inside
it do.  The rules for phrases of any depth therefore do, and the strings of a program stand one
behind the other in its text.

## Main results

* `Source.keeps_statement`: statements keep their strings in order.
* `Source.Rules.isOrderly_deep`: so do the phrases of any depth.
* `Source.isRow_of_parse?`: the strings of a program.
-/

namespace ModuleGraph.Source

open Reader

variable {r : Rules}

/-! ### Imports and exports -/

theorem keeps_moduleSource : (moduleSource r).Keeps (fun l => [l]) [] := by
  unfold moduleSource
  exact .seq keeps_stringLiteral fun l => .idle _ fun _ => .idle _ fun _ =>
    .pure (List.Sublist.refl _)

theorem keeps_importEqualsRest : (importEqualsRest r).Keeps Stmt.strings [] := by
  have hend (source : Option Literal) : (do
      endStatement
      return .importEquals source : Reader Stmt).Keeps Stmt.strings source.toList :=
    .idle _ fun _ => .pure (List.Sublist.refl _)
  unfold importEqualsRest
  exact .idle _ fun _ => .idle _ fun required => .ite
    (fun _ => .idle _ fun _ => .seq keeps_stringLiteral fun l => .idle _ fun _ =>
      .bind (.pure (f := Option.toList) (List.Sublist.refl _)) hend)
    fun _ => .idle _ fun _ => .idle _ fun _ =>
      .bind (.pure (f := Option.toList) (List.Sublist.refl _)) hend

theorem keeps_importFrom (typeOnly : Bool) : (do
    return .importFrom typeOnly (← moduleSource r) : Reader Stmt).Keeps Stmt.strings [] :=
  .seq keeps_moduleSource fun _ => .pure (List.Sublist.refl _)

theorem keeps_exportFrom : (do
    return .exportFrom (← moduleSource r) : Reader Stmt).Keeps Stmt.strings [] :=
  .seq keeps_moduleSource fun _ => .pure (List.Sublist.refl _)

theorem keeps_importClauseRest (named typeOnly : Bool) :
    (importClauseRest r named typeOnly).Keeps Stmt.strings [] := by
  have hsource : (do
      expectWord .from_
      return .importFrom typeOnly (← moduleSource r) : Reader Stmt).Keeps Stmt.strings [] :=
    .idle _ fun _ => keeps_importFrom typeOnly
  unfold importClauseRest
  exact .idle _ fun more => .ite (fun _ => .idle _ fun whole => .ite
    (fun _ => .idle _ fun _ => hsource) fun _ => .idle _ fun _ => hsource) fun _ => hsource

theorem keeps_importRest : (importRest r).Keeps Stmt.strings [] := by
  unfold importRest
  exact .idle _ fun t => .ite (fun _ => keeps_importFrom false) fun _ => .idle _ fun phase =>
    .option _ (.idle _ fun typeOnly => .option _ (.idle _ fun t => .ite
      (fun _ => .idle _ fun _ => .idle _ fun t => .ite (fun _ => keeps_importFrom typeOnly)
        fun _ => .idle _ fun more => .idle _ fun source => .ite
          (fun _ => keeps_importClauseRest true typeOnly) fun _ => keeps_importEqualsRest)
      fun _ => keeps_importClauseRest false typeOnly))

theorem keeps_importStatement : (importStatement r).Keeps Stmt.strings [] := by
  unfold importStatement
  exact .idle _ fun _ => keeps_importRest

theorem keeps_declaredImport : (declaredImport r).Keeps Stmt.strings [] := by
  unfold declaredImport
  exact .idle _ fun _ => .idle _ fun d => .idle _ fun typeWord => .idle _ fun n =>
    .option _ (.idle _ fun _ => keeps_importEqualsRest)

theorem keeps_exportList : (exportList r).Keeps Stmt.strings [] := by
  have hend : (do
      endStatement
      return .other : Reader Stmt).Keeps Stmt.strings [] := .leaf _ rfl
  unfold exportList
  exact .idle _ fun _ => .idle _ fun _ => .idle _ fun _ => .idle _ fun source =>
    .ite (fun _ => .idle _ fun t => .ite (fun _ => keeps_exportFrom) fun _ => .guard hend)
      fun _ => hend

theorem keeps_exportAll : (exportAll r).Keeps Stmt.strings [] := by
  unfold exportAll
  exact .idle _ fun _ => .idle _ fun named => .option _ (.idle _ fun _ => keeps_exportFrom)

theorem keeps_exportDefault : (exportDefault r).Keeps Stmt.strings [] := by
  unfold exportDefault
  exact .idle _ fun t => .idle _ fun n => .ite (fun _ => .leaf _ rfl) fun _ =>
    .ite (fun _ => .leaf _ rfl) fun _ => .ite (fun _ => .idle _ fun _ => .leaf _ rfl) fun _ =>
      .ite (fun _ => .leaf _ rfl) fun _ => .idle _ fun announced => .ite (fun _ => .leaf _ rfl)
        fun _ => .idle _ fun _ => .leaf _ rfl

/-! ### Declarations -/

section Orderly

variable (hr : r.IsOrderly)
include hr

theorem keeps_declaredVariable : (declaredVariable r).Keeps Expr.optionalStrings [] := by
  have hend : (do
      r.annotation
      r.initializer : Reader (Option Expr)).Keeps Expr.optionalStrings [] :=
    .idle _ fun _ => keeps_initializer hr
  have hmark : (do
      let _ ← eat .question
      r.annotation
      r.initializer : Reader (Option Expr)).Keeps Expr.optionalStrings [] := .idle _ fun _ => hend
  unfold declaredVariable
  exact .idle _ fun t => .idle _ fun _ => .idle _ fun d => .ite (fun _ => .idle _ fun n =>
    .option _ hmark) fun _ => hend

omit hr in
/-- The strings of the values that are there. -/
theorem Expr.stringsAll_filterMap (found : List (Option Expr)) :
    Expr.stringsAll (found.filterMap id) = found.flatMap Expr.optionalStrings := by
  induction found with
  | nil => rfl
  | cons e found ih =>
    cases e with
    | none => simpa [Expr.optionalStrings] using ih
    | some e =>
      have hfound : (some e :: found).filterMap id = e :: found.filterMap id :=
        List.filterMap_cons_some rfl
      rw [hfound, List.flatMap_cons, Expr.stringsAll, ih]
      simp [Expr.optionalStrings]

theorem keeps_declarators : (declarators r).Keeps Expr.stringsAll [] := by
  unfold declarators
  refine .seq (.listOne (keeps_declaredVariable hr) _) fun found => .pure ?_
  rw [List.nil_append, Expr.stringsAll_filterMap]

theorem keeps_variableStatement : (variableStatement r).Keeps Stmt.strings [] := by
  unfold variableStatement
  exact .seq (keeps_declarators hr) fun initial => .idle _ fun _ => .pure (List.Sublist.refl _)

theorem keeps_usingStatement : (usingStatement r).Keeps Stmt.strings [] := by
  unfold usingStatement
  exact .idle _ fun _ => .idle _ fun _ => keeps_variableStatement hr

theorem keeps_declaration (found : List Keyword) : (declaration r found).Keeps Stmt.strings [] := by
  unfold declaration
  refine .idle _ fun t => ?_
  split
  · split
    any_goals exact .leaf _ rfl
    · exact keeps_declaredImport
    · exact .idle _ fun _ => .idle _ fun n => .idle _ fun _ => .ite (fun _ => .leaf _ rfl)
        fun _ => keeps_variableStatement hr
    · exact .idle _ fun _ => keeps_variableStatement hr
    · exact .idle _ fun _ => keeps_variableStatement hr
    · exact .refuse
  · exact .refuse

omit hr in
/-- Exporting a declaration adds no string. -/
theorem Stmt.strings_exported (s : Stmt) : s.exported.strings.Sublist s.strings := by
  cases s <;> simp [exported, strings]

theorem keeps_exportDeclaration : (exportDeclaration r).Keeps Stmt.strings [] := by
  unfold exportDeclaration
  refine .within _ (.idle _ fun d => .ite (fun _ => .idle _ fun found => .idle _ fun t => ?_)
    fun _ => .idle _ fun found => .idle _ fun t => ?_)
  all_goals
    exact .guard (.seq (keeps_declaration hr _) fun s => .pure s.strings_exported)

theorem keeps_exportStatement : (exportStatement r).Keeps Stmt.strings [] := by
  unfold exportStatement
  refine .idle _ fun _ => .idle _ fun t => .idle _ fun n => .idle _ fun d => ?_
  dsimp only
  split
  · exact keeps_exportList
  · exact keeps_exportAll
  · exact .guard (.idle _ fun _ => .idle _ fun _ => .leaf _ rfl)
  · exact .leaf _ rfl
  · exact keeps_declaredImport
  · exact .guard (.idle _ fun _ => .idle _ fun _ => .idle _ fun _ => .leaf _ rfl)
  · exact .idle _ fun _ => keeps_exportDefault
  · exact .ite (fun _ => .idle _ fun _ => keeps_exportList) fun _ =>
      .ite (fun _ => .idle _ fun _ => keeps_exportAll) fun _ => keeps_exportDeclaration hr
  · exact keeps_exportDeclaration hr

/-! ### Statements -/

theorem keeps_expressionStatement : (expressionStatement r).Keeps Stmt.strings [] := by
  unfold expressionStatement
  exact .seq (keeps_expression hr) fun e => .idle _ fun labelled =>
    .ite (fun _ => .idle _ fun _ => .leaf _ rfl) fun _ => .idle _ fun _ =>
      .pure (List.Sublist.refl _)

theorem keeps_letStatement (alone : Bool) : (letStatement r alone).Keeps Stmt.strings [] := by
  unfold letStatement
  refine .idle _ fun n => .ite (fun _ => .seq (hr.assignment true) fun e => .idle _ fun _ =>
    .pure (List.Sublist.refl _)) fun _ => .ite (fun _ => .seq (keeps_expression hr) fun e =>
      .pure (List.Sublist.refl _)) fun _ => .ite (fun _ => .idle _ fun t => .idle _ fun _ =>
        .leaf _ rfl) fun _ => .idle _ fun _ => keeps_variableStatement hr

theorem keeps_decoratedStatement : (decoratedStatement r).Keeps Stmt.strings [] := by
  unfold decoratedStatement
  exact .idle _ fun _ => .idle _ fun exported => .ite (fun _ => keeps_exportStatement hr) fun _ =>
    .idle _ fun _ => .leaf _ rfl

theorem keeps_modifiedStatement : (modifiedStatement r).Keeps Stmt.strings [] := by
  unfold modifiedStatement
  exact .idle _ fun declares => .ite
    (fun _ => .within _ (.idle _ fun found => keeps_declaration hr found))
    fun _ => keeps_expressionStatement hr

theorem keeps_wordStatement (alone : Bool) (word : Keyword) :
    (wordStatement r alone word).Keeps Stmt.strings [] := by
  unfold wordStatement
  refine .idle _ fun t => .idle _ fun n => ?_
  split
  any_goals exact .leaf _ rfl
  any_goals exact keeps_modifiedStatement hr
  any_goals exact .idle _ fun _ => .idle _ fun _ => .leaf _ rfl
  · exact .idle _ fun _ => .leaf _ rfl
  · exact keeps_exportStatement hr
  · exact .ite (fun _ => keeps_expressionStatement hr) fun _ => keeps_importStatement
  · exact .idle _ fun _ => keeps_variableStatement hr
  · exact keeps_declaration hr []
  · exact .ite (fun _ => keeps_expressionStatement hr) fun _ => keeps_letStatement hr alone
  · exact .idle _ fun _ => .ite (fun _ => .leaf _ rfl) fun _ => keeps_modifiedStatement hr
  · exact .idle _ fun _ => .ite (fun _ => keeps_usingStatement hr)
      fun _ => keeps_expressionStatement hr
  · exact .idle _ fun _ => .ite (fun _ => keeps_usingStatement hr)
      fun _ => keeps_expressionStatement hr
  · exact keeps_expressionStatement hr

theorem keeps_statement (alone : Bool) : (statement r alone).Keeps Stmt.strings [] := by
  unfold statement
  refine .idle _ fun t => ?_
  split
  · exact .leaf _ rfl
  · exact .leaf _ rfl
  · exact keeps_decoratedStatement hr
  · exact keeps_wordStatement hr alone _
  · exact keeps_expressionStatement hr

theorem Rules.isOrderly_next : r.next.IsOrderly where
  assignment arrowType := keeps_assignment hr arrowType
  unary := keeps_unary hr
  statement alone := keeps_statement hr alone

theorem Rules.isOrderly_delayed (budget : Nat) : (Rules.delayed budget fun _ => r).IsOrderly where
  assignment arrowType := .delay (p := fun _ => r.assignment arrowType) (hr.assignment arrowType)
  unary := .delay (p := fun _ => r.unary) hr.unary
  statement alone := .delay (p := fun _ => r.statement alone) (hr.statement alone)

theorem keeps_statements (fuel : Nat) :
    (statements r fuel).Keeps (List.flatMap Stmt.strings) [] := by
  induction fuel with
  | zero => exact .refuse
  | succ fuel ih =>
    exact .idle _ fun t => .ite (fun _ => .pure (List.Sublist.refl _)) fun _ =>
      .seq (hr.statement false) fun s => .seq ih fun ss => .pure (by simp)

end Orderly

/-! ### Programs -/

theorem Rules.isOrderly_exhausted : exhausted.IsOrderly where
  assignment _ := .refuse
  unary := .refuse
  statement _ := .refuse

theorem Rules.isOrderly_deep (depth : Nat) : (deep depth).IsOrderly := by
  induction depth with
  | zero => exact isOrderly_exhausted
  | succ depth ih => exact isOrderly_next (isOrderly_delayed ih depth)

/-- The strings of a program stand one behind the other in its text. -/
theorem isRow_of_parse? {dialect : Dialect} {text : List Char} {program : Program}
    (h : parse? dialect text = some program) :
    IsRow text.length text (program.body.flatMap Stmt.strings) [] := by
  obtain ⟨⟨found, c⟩, hrun, rfl⟩ := Option.map_eq_some_iff.mp h
  have hfound := (keeps_statements (Rules.isOrderly_deep _) _).row
    (Cursor.isSound_start dialect text) (.nil (Cursor.start_here_suffix dialect text)) hrun
  rw [Cursor.start_size] at hfound
  have hbody := (List.dropWhile_sublist (l := found) Stmt.isDirective).flatMap Stmt.strings
  simpa only [List.append_nil] using (hfound.sublist hbody).append (.nil List.nil_suffix)

end ModuleGraph.Source

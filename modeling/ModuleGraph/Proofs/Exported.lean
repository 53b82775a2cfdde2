import Mathlib.Data.List.Basic
import ModuleGraph.Proofs.Source.Program

/-!
# Exported variables

A declaration of variables may be exported, by one word in front of it.  In a module the word
changes nothing of how the declaration and everything behind it are read.  It does change what is
found: the initial values of variables are looked into for calls, and those of exported variables
are not.  So an exported declaration hides the modules that its initial values name, and nothing
else, and it hides none if, and only if, its initial values name none.

To compare with the text without the word, blanks take its place (`Source.Cursor.blanked`), so that
everything else stands where it stood, and the same rules are followed.

## Main definitions

* `Source.Cursor.AtExportedVariables`: a place where a declaration of variables is exported.

## Main results

* `Source.exportStatement_apply`, `Source.statement_apply`: the declaration that is read with the
  word and without it.
* `Source.exists_of_statements`, `Source.statements_apply_of_next`: the statements that are read
  from there on.
* `Source.extract_blanked`: what is found in the text without the word.
* `extract_exported`: what is found in a module with an exported declaration of variables.
-/

namespace ModuleGraph

namespace Source

open Reader

/-! ### Places -/

/-- A cursor at the word that exports a declaration of variables.  The word `const` announces
variables, unless it announces an enumeration. -/
structure Cursor.AtExportedVariables (c : Cursor) : Prop where
  exports : c.token.kind = .keyword .export_
  announces : c.next.token.kind = .keyword .const_
  declares : c.next.next.token.kind ≠ .keyword .enum_

instance (c : Cursor) : Decidable c.AtExportedVariables :=
  decidable_of_iff
    (c.token.kind = .keyword .export_ ∧ c.next.token.kind = .keyword .const_ ∧
      c.next.next.token.kind ≠ .keyword .enum_)
    ⟨fun h => ⟨h.1, h.2.1, h.2.2⟩, fun h => ⟨h.exports, h.announces, h.declares⟩⟩

theorem Cursor.IsSound.next {c : Cursor} (h : c.IsSound) : c.next.IsSound ∧ c.Shares c.next :=
  ⟨(c.leads_next h).1, (c.leads_next h).2.2⟩

/-! ### The declaration -/

section Declaration

variable {r : Rules} {c : Cursor}

/-- In front of variables, `const` is no modifier. -/
theorem modifiers_apply (hr : r.budget ≠ 0) (hconst : c.token.kind = .keyword .const_)
    (henum : c.next.token.kind ≠ .keyword .enum_) : modifiers r .declaration c = some ([], c) := by
  have hhere : isModifierHere .const_ c = some (false, c) := by
    simp [isModifierHere, Token.isWord, henum]
  have hnone : modifier? .declaration [] c = some (none, c) := by
    simp [modifier?, hconst, Keyword.isModifier, ModifierPlace.declaration, hhere]
  obtain ⟨budget, hbudget⟩ := Nat.exists_eq_succ_of_ne_zero hr
  rw [modifiers, hbudget, modifiersFrom, bind_apply, hnone]
  rfl

/-- What `const` announces are variables, unless it announces an enumeration. -/
theorem declaration_apply (hconst : c.token.kind = .keyword .const_)
    (henum : c.next.token.kind ≠ .keyword .enum_) (found : List Keyword) :
    declaration r found c = variableStatement r c.next := by
  rw [declaration, bind_apply, token_apply, Option.bind_some, hconst]
  simp [Token.isWord, henum]

theorem exists_of_variableStatement {s : Stmt} {c' : Cursor}
    (h : variableStatement r c = some (s, c')) : ∃ initial, s = .declaration initial := by
  obtain ⟨initial, c₁, -, h⟩ := bind_eq_some_iff.mp h
  obtain ⟨-, c₂, -, h⟩ := bind_eq_some_iff.mp h
  exact ⟨initial, (Prod.mk.inj (Option.some.inj h)).1.symm⟩

/-- Without the word that exports it, the declaration is a statement. -/
theorem statement_apply (hconst : c.token.kind = .keyword .const_)
    (henum : c.next.token.kind ≠ .keyword .enum_) (alone : Bool) :
    statement r alone c = variableStatement r c.next := by
  rw [← declaration_apply hconst henum [], statement, bind_apply, token_apply, Option.bind_some,
    hconst]
  rfl

/-- With the word, it is the export of that statement. -/
theorem exportStatement_apply (hr : r.budget ≠ 0) (hsound : c.IsSound)
    (hawait : c.scope.inAwait = true) (hc : c.AtExportedVariables) :
    exportStatement r c =
      (variableStatement r c.next.next).map fun found => (found.1.exported, found.2) := by
  obtain ⟨hsound', hshares⟩ := hsound.next
  have hscope : { c.next.scope with inAwait := true } = c.next.scope := by
    rw [hshares.scope, ← hawait]
  have hexport : exportStatement r c = exportDeclaration r c.next := by
    rw [exportStatement, bind_apply, expectWord_apply, Token.isWord, hc.exports, if_pos (by simp),
      Option.bind_some]
    simp [hc.announces]
  have hmodifiers := modifiers_apply hr hc.announces hc.declares
  rw [hexport, exportDeclaration, within_eq_of_scope hsound' hscope]
  cases htyped : c.next.dialect.typed <;>
    simp [htyped, hc.announces, hmodifiers, declaration_apply hc.announces hc.declares]

end Declaration

/-! ### The statements around it -/

section Statements

variable {r : Rules} {c c' : Cursor} {body : List Stmt}

/-- Where a declaration of variables is exported, the word that exports it marks the declaration
and changes nothing else of what is read. -/
theorem exists_of_statements {rules : Rules} (hrules : rules.statement = statement r)
    (hr : r.budget ≠ 0) (hsound : c.IsSound) (hawait : c.scope.inAwait = true)
    (hc : c.AtExportedVariables) {fuel : Nat} (hrun : statements rules fuel c = some (body, c')) :
    ∃ initial back, body = .exportedDeclaration initial :: back ∧
      statements rules fuel c.next = some (.declaration initial :: back, c') := by
  cases fuel with
  | zero => simp [statements] at hrun
  | succ fuel =>
    have hexport : statement r false c = exportStatement r c := by
      rw [statement, bind_apply, token_apply, Option.bind_some, hc.exports]
      rfl
    rw [statements_succ_apply, if_neg (by simp [Token.isLast, hc.exports]), hrules, hexport,
      exportStatement_apply hr hsound hawait hc] at hrun
    rw [statements_succ_apply, if_neg (by simp [Token.isLast, hc.announces]), hrules,
      statement_apply hc.announces hc.declares]
    obtain ⟨⟨_, _⟩, hexported, hrest⟩ := Option.bind_eq_some_iff.mp hrun
    obtain ⟨⟨s, c₁⟩, hs, heq⟩ := Option.map_eq_some_iff.mp hexported
    obtain ⟨rfl, rfl⟩ := Prod.mk.inj heq
    obtain ⟨initial, rfl⟩ := exists_of_variableStatement hs
    obtain ⟨⟨back, _⟩, hback, heq⟩ := Option.map_eq_some_iff.mp hrest
    obtain ⟨rfl, rfl⟩ := Prod.mk.inj heq
    refine ⟨initial, back, rfl, ?_⟩
    rw [hs, Option.bind_some, hback]
    rfl

/-- Nothing but what stands behind `const` matters to what is read from there. -/
theorem statements_apply_of_next {rules : Rules} (hrules : rules.statement = statement r)
    (hconst : c.token.kind = .keyword .const_) (hconst' : c'.token.kind = .keyword .const_)
    (henum : c.next.token.kind ≠ .keyword .enum_) (hnext : c'.next = c.next) (fuel : Nat) :
    statements rules fuel c' = statements rules fuel c := by
  cases fuel with
  | zero => rfl
  | succ fuel =>
    rw [statements_succ_apply, statements_succ_apply, hrules, statement_apply hconst henum,
      statement_apply hconst' (hnext ▸ henum), hnext, if_neg (by simp [Token.isLast, hconst']),
      if_neg (by simp [Token.isLast, hconst])]

end Statements

/-! ### Modules -/

/-- What is found in a text of which a statement is no string. -/
theorem extract_of_parse? {dialect : Dialect} {text : String} {body : List Stmt} {complete : Bool}
    (h : parse? dialect text.toList = some ⟨body.dropWhile Stmt.isDirective, complete⟩) {s : Stmt}
    (hs : s ∈ body) (hdirective : s.isDirective = false) (dynamic : Bool) :
    extract dialect dynamic text = body.flatMap (Stmt.specifiers dynamic) := by
  have hne : body.dropWhile Stmt.isDirective ≠ [] := by
    intro h
    have hnone := List.dropWhile_eq_nil_iff.mp h s hs
    simp [hdirective] at hnone
  rw [extract, h, Option.filter_some, if_pos (by simp [Program.isUsable, hne])]
  exact flatMap_dropWhile_isDirective body dynamic

/-- What is found in the text without the word, if reading comes to the declaration there. -/
theorem extract_blanked {dialect : Dialect} {text : String} {count fuel : Nat}
    {front front' back : List Stmt} {initial : List Expr} {c c' c₁ : Cursor}
    (hfront : leading (rulesFor text.toList) count (Cursor.start dialect text.toList) =
      some (front, c)) (hc : c.AtExportedVariables)
    (hbare : statements (rulesFor text.toList) fuel c.next =
      some (.declaration initial :: back, c₁)) (hfuel : text.toList.length + 1 = fuel + count)
    (hfront' : leading (rulesFor (c.blanked text.toList)) count
      (Cursor.start dialect (c.blanked text.toList)) = some (front', c'))
    (hconst : c'.token.kind = .keyword .const_) (hnext : c'.next = c.next.next) (dynamic : Bool) :
    extract dialect dynamic (String.ofList (c.blanked text.toList)) =
      (front' ++ .declaration initial :: back).flatMap (Stmt.specifiers dynamic) := by
  obtain ⟨hsound, hhere, hshares⟩ :=
    (leading _ _).onward hfront (Cursor.isSound_start dialect text.toList)
  -- Both texts are read by the same rules, since they have the same length.
  have hlength : (c.blanked text.toList).length = text.toList.length :=
    Cursor.length_blanked hsound (by rw [hshares.size, Cursor.start_size])
      (hhere.trans (Cursor.start_here_suffix dialect text.toList))
  have hback : statements (rulesFor (c.blanked text.toList)) fuel c' =
      some (.declaration initial :: back, c₁) := by
    rw [rulesFor, hlength, ← hbare]
    exact statements_apply_of_next (r := Rules.delayed _ fun _ => Rules.deep _) rfl hc.announces
      hconst hc.declares hnext fuel
  have hparse := parse?_of_leading hfront' hback (hlength ▸ hfuel)
  rw [← String.toList_ofList (l := c.blanked text.toList)] at hparse
  exact extract_of_parse? hparse (s := .declaration initial) (by simp) rfl dynamic

end Source

open Source

/-- **Exporting variables hides their calls.**  Where a declaration of variables is exported, in any
place of a module behind whole statements, the same is read without the word that exports it, but
for a mark on the declaration.  All that is found without the word is found with it, except for the
modules that calls in the initial values name.  So the same is found only if these name none.

Without the word means both: from the place behind it on, and in the text that has blanks in its
place, if reading comes to the declaration there as well, and has found the same in front of it.  It
does so if there is nothing in front of it. -/
theorem extract_exported {dialect : Dialect} (hmodule : dialect.isModule = true) {text : String}
    {program : Program} (hprogram : parse? dialect text.toList = some program) {count : Nat}
    {front : List Stmt} {c : Cursor}
    (hfront : leading (rulesFor text.toList) count (Cursor.start dialect text.toList) =
      some (front, c)) (hc : c.AtExportedVariables) :
    ∃ fuel initial back,
      (statements (rulesFor text.toList) fuel c).map Prod.fst =
        some (.exportedDeclaration initial :: back) ∧
      (statements (rulesFor text.toList) fuel c.next).map Prod.fst =
        some (.declaration initial :: back) ∧
      (∀ front' c', leading (rulesFor (c.blanked text.toList)) count
            (Cursor.start dialect (c.blanked text.toList)) = some (front', c') →
          front'.flatMap (Stmt.specifiers true) = front.flatMap (Stmt.specifiers true) →
          c'.token.kind = .keyword .const_ → c'.next = c.next.next →
          extract dialect true (String.ofList (c.blanked text.toList)) =
            (front ++ .declaration initial :: back).flatMap (Stmt.specifiers true)) ∧
      (count = 0 → c.token.flawed = false →
          extract dialect true (String.ofList (c.blanked text.toList)) =
            (front ++ .declaration initial :: back).flatMap (Stmt.specifiers true)) ∧
      extract dialect true text = (front ++ back).flatMap (Stmt.specifiers true) ∧
      (front ++ .declaration initial :: back).flatMap (Stmt.specifiers true) =
        front.flatMap (Stmt.specifiers true) ++
          ((Expr.dynamicAll initial).map (fun l => ⟨l.value, .dynamic⟩) ++
            back.flatMap (Stmt.specifiers true)) ∧
      (extract dialect true text =
          (front ++ .declaration initial :: back).flatMap (Stmt.specifiers true) ↔
        Expr.dynamicAll initial = []) := by
  obtain ⟨⟨body, c₁⟩, hrun, rfl⟩ := Option.map_eq_some_iff.mp hprogram
  obtain ⟨fuel, later, hfuel, hlater, rfl⟩ := exists_of_leading hfront hrun
  -- The grammar remembers the same at the place as in front of the text.
  have hstart := Cursor.isSound_start dialect text.toList
  obtain ⟨hsound, -, hshares⟩ := (leading _ _).onward hfront hstart
  have hawait : c.scope.inAwait = true := by
    rw [hshares.scope, ← hmodule]
    exact congrArg Scope.inAwait (Cursor.moveTo_isSound _ true).2.2.scope
  obtain ⟨initial, back, rfl, hbare⟩ := exists_of_statements
    (r := Rules.delayed _ fun _ => Rules.deep _) rfl (Nat.succ_ne_zero _) hsound hawait hc hlater
  have hfound : extract dialect true text = (front ++ back).flatMap (Stmt.specifiers true) := by
    rw [extract_of_parse? hprogram (s := .exportedDeclaration initial) (by simp) rfl]
    simp [Stmt.specifiers, Stmt.mentions]
  have hblanked : ∀ front' c', leading (rulesFor (c.blanked text.toList)) count
        (Cursor.start dialect (c.blanked text.toList)) = some (front', c') →
      front'.flatMap (Stmt.specifiers true) = front.flatMap (Stmt.specifiers true) →
      c'.token.kind = .keyword .const_ → c'.next = c.next.next →
      extract dialect true (String.ofList (c.blanked text.toList)) =
        (front ++ .declaration initial :: back).flatMap (Stmt.specifiers true) := by
    intro front' c' hfront' hsame hconst hnext
    rw [extract_blanked hfront hc hbare hfuel hfront' hconst hnext, List.flatMap_append, hsame,
      List.flatMap_append]
  have hfirst : count = 0 → c.token.flawed = false →
      extract dialect true (String.ofList (c.blanked text.toList)) =
        (front ++ .declaration initial :: back).flatMap (Stmt.specifiers true) := by
    rintro rfl hflawed
    obtain ⟨rfl, rfl⟩ := Prod.mk.inj (Option.some.inj hfront)
    obtain ⟨newline, hplace⟩ :=
      Cursor.start_blanked hmodule (by simp [Token.isLast, hc.exports]) hflawed
    refine hblanked [] _ rfl rfl (hplace ▸ hc.announces) ?_
    rw [hplace]
    exact Cursor.next_newline (by simp [Token.isLast, hc.announces]) newline
  have hwithout : (front ++ .declaration initial :: back).flatMap (Stmt.specifiers true) =
      front.flatMap (Stmt.specifiers true) ++
        ((Expr.dynamicAll initial).map (fun l => ⟨l.value, .dynamic⟩) ++
          back.flatMap (Stmt.specifiers true)) := by
    simp [Stmt.specifiers, Stmt.mentions]
  refine ⟨fuel, initial, back, by rw [hlater]; rfl, by rw [hbare]; rfl, hblanked, hfirst, hfound,
    hwithout, ?_⟩
  rw [hfound, hwithout, List.flatMap_append, List.append_cancel_left_eq,
    List.self_eq_append_left, List.map_eq_nil_iff]

/-- A module with exported variables between other statements. -/
def exportedCalls : String :=
  "import a from './a';\nexport const b = require('./b'), c = [import('./c')];\nf(require('./d'));"

/-- The place of these variables, and the statement in front of them. -/
def exportedPlace : List Stmt × Cursor :=
  (leading (rulesFor exportedCalls.toList) 1
    (Cursor.start .typedModule exportedCalls.toList)).get (by decide +kernel)

/-- The same text with blanks in the place of the word that exports them. -/
def blankedCalls : List Char := exportedPlace.2.blanked exportedCalls.toList

/-- The modules `./b` and `./c` are hidden. -/
theorem extract_exportedCalls :
    (∃ front c, leading (rulesFor exportedCalls.toList) 1
        (Cursor.start .typedModule exportedCalls.toList) = some (front, c) ∧
      c.AtExportedVariables ∧ ∃ initial back,
        extract .typedModule true (String.ofList (c.blanked exportedCalls.toList)) =
          (front ++ .declaration initial :: back).flatMap (Stmt.specifiers true) ∧
        extract .typedModule true exportedCalls = (front ++ back).flatMap (Stmt.specifiers true) ∧
        (extract .typedModule true exportedCalls =
            (front ++ .declaration initial :: back).flatMap (Stmt.specifiers true) ↔
          Expr.dynamicAll initial = [])) ∧
      extract .typedModule true exportedCalls = [⟨"./a", .static⟩, ⟨"./d", .dynamic⟩] := by
  have htree : (parse? .typedModule exportedCalls.toList).isSome = true := by decide +kernel
  obtain ⟨program, hprogram⟩ := Option.isSome_iff_exists.mp htree
  have hfront : leading (rulesFor exportedCalls.toList) 1
      (Cursor.start .typedModule exportedCalls.toList) = some exportedPlace :=
    (Option.some_get _).symm
  have hc : exportedPlace.2.AtExportedVariables := by decide +kernel
  -- The reading of the other text comes to the same place.
  have hplace : ((leading (rulesFor blankedCalls) 1
      (Cursor.start .typedModule blankedCalls)).filter fun found =>
        found.1.flatMap (Stmt.specifiers true) = exportedPlace.1.flatMap (Stmt.specifiers true) ∧
          found.2.token.kind = .keyword .const_ ∧
          found.2.next = exportedPlace.2.next.next).isSome = true := by decide +kernel
  obtain ⟨⟨front', c'⟩, hplace⟩ := Option.isSome_iff_exists.mp hplace
  obtain ⟨hfront', hplace⟩ := Option.filter_eq_some_iff.mp hplace
  obtain ⟨hsame, hconst, hnext⟩ := of_decide_eq_true hplace
  obtain ⟨fuel, initial, back, -, -, hblanked, -, hfound, -, hiff⟩ :=
    extract_exported rfl hprogram hfront hc
  exact ⟨⟨exportedPlace.1, exportedPlace.2, hfront, hc, initial, back,
    hblanked front' c' hfront' hsame hconst hnext, hfound, hiff⟩, by decide +kernel⟩

/-- A call that is found in the initial value of a variable, and is not found if the variable is
exported. -/
theorem extract_exportedCall :
    extract .typedModule true "const b = require('./b');" = [⟨"./b", .dynamic⟩] ∧
      extract .typedModule true "export const b = require('./b');" = [] := by
  decide +kernel

end ModuleGraph

import ModuleGraph.Proofs.Source.Rows

/-!
# The strings of expressions

What is read of an expression keeps its strings in the order of its parts, given that the rules for
the expressions inside it do.  Most readers are sequences of idle ones with a few that give strings
between them; only the parts behind an operand and the operators put what was read so far into a
larger expression, and may drop it, so their rules speak of the strings in front of them.

## Main definitions

* `Source.Rules.IsOrderly`: rules under which strings are kept in order.

## Main results

* `Source.keeps_assignment`, `Source.keeps_unary`: expressions keep their strings in order.
* `Source.keeps_operandParts`, `Source.keeps_binaryRest`: what is read behind an operand.
-/

namespace ModuleGraph.Source

open Reader

/-- The strings of an expression that may be missing. -/
def Expr.optionalStrings (e : Option Expr) : List Literal := e.toList.flatMap Expr.strings

/-- Rules under which the strings of every phrase are kept in order. -/
structure Rules.IsOrderly (r : Rules) : Prop where
  assignment : ∀ arrowType, (r.assignment arrowType).Keeps Expr.strings []
  unary : r.unary.Keeps Expr.strings []
  statement : ∀ alone, (r.statement alone).Keeps Stmt.strings []

variable {r : Rules} (hr : r.IsOrderly)
include hr

theorem keeps_plain : r.plain.Keeps Expr.strings [] := .withIn (hr.assignment true)

theorem keeps_expression : r.expression.Keeps Expr.strings [] := by
  unfold Rules.expression
  refine .seq (.within _ (.listOne (hr.assignment true) _)) fun es => ?_
  split
  · exact .pure (by simp)
  · exact .pure (List.nil_sublist _)

theorem keeps_anyExpression : r.anyExpression.Keeps Expr.strings [] := .withIn (keeps_expression hr)

theorem keeps_initializer : r.initializer.Keeps Expr.optionalStrings [] := by
  unfold Rules.initializer
  exact .idle _ fun found => .ite (fun _ => .seq (hr.assignment true) fun e =>
    .pure (by simp [Expr.optionalStrings])) fun _ => .pure (List.nil_sublist _)

theorem keeps_arrayElement : (arrayElement r).Keeps Expr.strings [] := by
  unfold arrayElement
  refine .idle _ fun missing => .ite (fun _ => .pure (List.nil_sublist _)) fun _ =>
    .idle _ fun spread => .ite (fun _ => ?_) fun _ => hr.assignment true
  exact .seq (hr.assignment true) fun e => .pure (by simp)

theorem keeps_arrayLiteral : (arrayLiteral r).Keeps Expr.strings [] := by
  unfold arrayLiteral
  refine .idle _ fun _ => .seq (.withIn (.listUntil (keeps_arrayElement hr) _ _)) fun es =>
    .idle _ fun _ => .pure ?_
  simp [Expr.stringsAll_eq]

theorem keeps_objectProperty (async : Bool) : (objectProperty r async).Keeps Expr.strings [] := by
  unfold objectProperty
  refine .idle _ fun generator => .idle _ fun t => .idle _ fun _ => .idle _ fun called =>
    .idle _ fun generic => .ite (fun _ => .leaf _ rfl) fun _ =>
      .idle _ fun valued => .ite (fun _ => hr.assignment true) fun _ => ?_
  exact .idle _ fun _ => .ite (fun _ => .leaf _ rfl) fun _ => .refuse

theorem keeps_objectMember : (objectMember r).Keeps Expr.strings [] := by
  unfold objectMember
  refine .idle _ fun spread => .ite (fun _ => ?_) fun _ => .idle _ fun found => .idle _ fun word =>
    .ite (fun _ => .idle _ fun _ => .leaf _ rfl) fun _ => keeps_objectProperty hr _
  exact .seq (hr.assignment true) fun e => .pure (by simp)

theorem keeps_objectLiteral : (objectLiteral r).Keeps Expr.strings [] := by
  unfold objectLiteral
  refine .idle _ fun _ => .seq (.withIn (.listUntil (keeps_objectMember hr) _ _)) fun es =>
    .idle _ fun _ => .pure ?_
  simp [Expr.stringsAll_eq]

theorem keeps_parenthesized : (parenthesized r).Keeps Expr.strings [] := by
  unfold parenthesized
  exact .idle _ fun _ => .seq (keeps_anyExpression hr) fun e => .idle _ fun _ =>
    .pure (by simp)

theorem keeps_importExpression : (importExpression r).Keeps Expr.strings [] := by
  have hclose (e : Expr) : (do
      expect .rightParen
      return .importCall e : Reader Expr).Keeps Expr.strings ([] ++ e.strings) :=
    .idle _ fun _ => .pure (by simp)
  have hsource : (do
      expect .leftParen
      let source ← r.plain
      if ← eat .comma then
        if !(← at? .rightParen) then
          let _ ← r.plain
        let _ ← eat .comma
      expect .rightParen
      return .importCall source : Reader Expr).Keeps Expr.strings [] :=
    .idle _ fun _ => .seq (keeps_plain hr) fun e => .idle _ fun more =>
      .ite (fun _ => .idle _ fun closed => .option _ (.idle _ fun _ => hclose e)) fun _ => hclose e
  unfold importExpression
  exact .idle _ fun _ => .idle _ fun property => .ite (fun _ => .idle _ fun isMeta =>
    .ite (fun _ => .pure (List.nil_sublist _)) fun _ => .idle _ fun isSource =>
      .idle _ fun isDefer => .guard hsource) fun _ => hsource

theorem keeps_callArguments : (callArguments r).Keeps Expr.stringsAll [] := by
  unfold callArguments
  refine .idle _ fun _ => .seq (.within _ (.listUntil (f := Expr.strings) ?_ _ _)) fun es =>
    .idle _ fun _ => .pure ?_
  · exact .idle _ fun spread => .ite (fun _ => .seq (hr.assignment true) fun e =>
      .pure (by simp)) fun _ => hr.assignment true
  · simp [Expr.stringsAll_eq]

theorem keeps_primary : (primary r).Keeps Expr.strings [] := by
  unfold primary
  refine .idle _ fun c => ?_
  split
  · exact .seq keeps_stringLiteral fun l => .pure (by simp)
  · exact .leaf _ rfl
  · exact .leaf _ rfl
  · exact .leaf _ rfl
  · exact .leaf _ rfl
  · exact keeps_parenthesized hr
  · exact keeps_arrayLiteral hr
  · exact keeps_objectLiteral hr
  · exact .leaf _ rfl
  · exact .leaf _ rfl
  · exact .leaf _ rfl
  · split
    all_goals try exact .leaf _ rfl
    · exact keeps_importExpression hr
    · exact .idle _ fun announced => .ite (fun _ => .leaf _ rfl) fun _ => .leaf _ rfl
    · exact .ite (fun _ => .refuse) fun _ => .leaf _ rfl
  · exact .refuse

/-! ### Members and calls -/

omit hr in
theorem Expr.strings_withoutArguments (e : Expr) : e.withoutArguments.strings = e.strings := by
  cases e <;> rfl

theorem keeps_optionalPart (e : Expr) : (optionalPart r e).Keeps Expr.strings e.strings := by
  unfold optionalPart
  refine .idle _ fun t => .ite (fun _ => .idle _ fun _ => .idle _ fun _ => .leaf _ rfl) fun _ =>
    .ite (fun _ => .leaf _ rfl) fun _ => .idle _ fun _ => .idle _ fun t =>
      .ite (fun _ => .leaf _ rfl) fun _ => ?_
  exact .seq (keeps_callArguments hr) fun args => .pure (by simp)

/-- The parts that follow an operand keep its strings in front of theirs, or drop them. -/
theorem keeps_operandParts (fuel : Nat) (chain : Chain) (e : Expr) :
    (operandParts r fuel chain e).Keeps (fun part => part.1.strings) e.strings := by
  induction fuel generalizing chain e with
  | zero => exact .refuse
  | succ fuel ih =>
    have hstop (optional : Bool) : (Pure.pure (e, optional) : Reader (Expr × Bool)).Keeps
        (fun part => part.1.strings) e.strings := .pure (List.Sublist.refl _)
    have hleaf {leaf : Expr} (h : leaf.strings = []) (chain : Chain) :
        (operandParts r fuel chain leaf).Keeps (fun part => part.1.strings) e.strings :=
      .forget (h ▸ ih chain leaf)
    unfold operandParts
    refine .idle _ fun t => ?_
    split
    · exact .idle _ fun _ => .idle _ fun t => .ite (fun _ => .idle _ fun _ => hleaf rfl _) fun _ =>
        .idle _ fun _ => hleaf rfl _
    · refine .ite (fun _ => .idle _ fun n => .ite (fun _ => .refuse) fun _ => hstop _) fun _ =>
        .idle _ fun _ => ?_
      exact .bind (keeps_optionalPart hr e) fun part => ih _ part
    · exact .idle _ fun s => .ite (fun _ => hstop _) fun _ => .idle _ fun _ => .idle _ fun _ =>
        .idle _ fun _ => hleaf rfl _
    · exact .idle _ fun d => .ite (fun _ => hstop _) fun _ => .idle _ fun _ => ih _ (.typed e)
    · exact .idle _ fun _ => hleaf rfl _
    · exact .idle _ fun _ => hleaf rfl _
    · exact .idle _ fun found => .ite (fun _ => ih _ (.instantiation e)) fun _ => hstop _
    · exact .idle _ fun found => .ite (fun _ => ih _ (.instantiation e)) fun _ => hstop _
    · refine .ite (fun _ => hstop _) fun _ => .seq (keeps_callArguments hr) fun args => ?_
      have hcall := ih chain (.call e.withoutArguments args)
      rwa [Expr.strings, Expr.strings_withoutArguments] at hcall
    · exact hstop _

omit hr in
/-- A construction is a leaf. -/
theorem keeps_construction (fuel : Nat) : (construction r fuel).Keeps Expr.strings [] := by
  cases fuel with
  | zero => exact .refuse
  | succ fuel =>
    have hleaf (head : Expr) : (do
        let _ ← operandParts r r.budget ⟨false, false⟩ head
        if ← at? .leftParen then
          let _ ← callArguments r
        return .other : Reader Expr).Keeps Expr.strings [] :=
      .idle _ fun _ => .idle _ fun called => .option _ (.pure (List.nil_sublist _))
    unfold construction
    exact .idle _ fun _ => .idle _ fun target => .ite (fun _ => .leaf _ rfl) fun _ =>
      .idle _ fun nested => .ite (fun _ => .idle _ hleaf) fun _ => .idle _ hleaf

/-- An operand with an optional part is a leaf; any other one keeps its strings. -/
theorem keeps_operand : (operand r).Keeps Expr.strings [] := by
  have hparts (head : Expr) : (do
      let part ← operandParts r r.budget ⟨true, false⟩ head
      return if part.2 then .other else part.1 : Reader Expr).Keeps Expr.strings
        ([] ++ head.strings) := by
    refine .bind (keeps_operandParts hr _ _ head) fun part => .pure ?_
    split
    · exact List.nil_sublist _
    · exact List.Sublist.refl _
  unfold operand
  exact .idle _ fun nested => .ite (fun _ => .seq (keeps_construction _) hparts) fun _ =>
    .seq (keeps_primary hr) hparts

/-! ### Operators -/

theorem keeps_update : (update r).Keeps Expr.strings [] := by
  have hbehind : (do
      if (← at? .less) && (← dialect).markup then
        r.element false
        return .other
      let e ← operand r
      let t ← token
      if (t.isSymbol .increment || t.isSymbol .decrement) && !t.newline then
        advance
        if e.isSimpleTarget then return .other else refuse
      return e : Reader Expr).Keeps Expr.strings [] := by
    refine .idle _ fun opens => .idle _ fun d => .ite (fun _ => .leaf _ rfl) fun _ =>
      .seq (keeps_operand hr) fun e => .idle _ fun t => .ite (fun _ => ?_) fun _ => ?_
    · exact .idle _ fun _ => .ite (fun _ => .pure (List.nil_sublist _)) fun _ => .idle _ fun _ =>
        .pure (List.Sublist.refl _)
    · exact .pure (List.Sublist.refl _)
  unfold update
  exact .idle _ fun up => .idle _ fun down => .ite (fun _ => .idle _ fun e =>
    .ite (fun _ => .pure (List.nil_sublist _)) fun _ => .idle _ fun _ => hbehind) fun _ => hbehind

theorem keeps_unary : (unary r).Keeps Expr.strings [] := by
  unfold unary
  refine .idle _ fun t => ?_
  split
  any_goals exact .idle _ fun _ => .leaf _ rfl
  · exact .idle _ fun d => .ite (fun _ => .idle _ fun _ => .idle _ fun _ => .idle _ fun _ =>
      .seq hr.unary fun e => .pure (by simp)) fun _ => keeps_update hr
  · exact .idle _ fun waits => .ite (fun _ => .idle _ fun _ => .seq (.within _ hr.unary) fun e =>
      .pure (by simp)) fun _ => keeps_update hr
  · exact keeps_update hr

omit hr in
/-- Behind an operator nothing is kept, but an annotation keeps the strings in front of it. -/
theorem keeps_binaryRest (least fuel : Nat) (e : Expr) :
    (binaryRest r least fuel e).Keeps Expr.strings e.strings := by
  induction fuel generalizing e with
  | zero => exact .refuse
  | succ fuel ih =>
    have hstop : (Pure.pure e : Reader Expr).Keeps Expr.strings e.strings :=
      .pure (List.Sublist.refl _)
    unfold binaryRest
    refine .idle _ fun _ => .idle _ fun t => ?_
    split
    · exact hstop
    · exact .idle _ fun s => .ite (fun _ => hstop) fun _ => .ite (fun _ => .ite (fun _ => hstop)
        fun _ => .idle _ fun _ => .idle _ fun _ => ih (.typed e)) fun _ => .idle _ fun _ =>
          .idle _ fun _ => .forget (ih .other)

omit hr in
theorem keeps_privateTest : (privateTest r).Keeps Expr.strings [] := by
  unfold privateTest
  exact .idle _ fun s => .guard (.idle _ fun _ => .idle _ fun _ => .idle _ fun t =>
    .guard (.leaf _ rfl))

theorem keeps_binary (least : Nat) : (binary r least).Keeps Expr.strings [] := by
  unfold binary
  exact .idle _ fun t => .ite (fun _ => .seq keeps_privateTest fun e => keeps_binaryRest _ _ e)
    fun _ => .seq (keeps_unary hr) fun e => keeps_binaryRest _ _ e

/-! ### Whole expressions -/

theorem keeps_assignmentRest (arrowType : Bool) (left : Expr) :
    (assignmentRest r arrowType left).Keeps Expr.strings left.strings := by
  have hstop : (Pure.pure left : Reader Expr).Keeps Expr.strings left.strings :=
    .pure (List.Sublist.refl _)
  unfold assignmentRest
  refine .idle _ fun t => ?_
  split
  · exact .idle _ fun _ => .seq (.withIn (hr.assignment false)) fun yes => .idle _ fun _ =>
      .seq (hr.assignment arrowType) fun no => .pure (by simp)
  · refine .ite (fun _ => hstop) fun _ => ?_
    exact .guard (.idle _ fun _ => .seq (hr.assignment arrowType) fun right =>
      .pure (by simp))
  · exact hstop

/-- The strings of an expression stand one behind the other, in the order of its parts. -/
theorem keeps_assignment (arrowType : Bool) : (assignment r arrowType).Keeps Expr.strings [] := by
  unfold assignment
  exact .idle _ fun yields => .ite (fun _ => .leaf _ rfl) fun _ => .idle _ fun arrow =>
    .ite (fun _ => .pure (List.nil_sublist _)) fun _ => .idle _ fun async =>
      .ite (fun _ => .idle _ fun _ => .idle _ fun _ => .leaf _ rfl) fun _ =>
        .seq (keeps_binary hr 0) fun left => .idle _ fun isArrow =>
          .ite (fun _ => .leaf _ rfl) fun _ => keeps_assignmentRest hr arrowType left

end ModuleGraph.Source

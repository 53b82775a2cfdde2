import Mathlib.Tactic.Common
import ModuleGraph.Source.Grammar.Program

/-!
# Running readers

What a reader does at a cursor, by what stands there.  The equations here unfold the readers that
the grammar is written with, so that a phrase can be followed token by token.

## Main results

* `Source.Reader.bind_apply`, `Source.Reader.bind_eq_some_iff`: readers in sequence.
* `Source.Reader.expect_apply`, `Source.Reader.eat_apply`: reading tokens.
* `Source.Reader.within_eq_of_scope`: reading while the grammar remembers what it does anyway.
* `Source.Reader.listUntil_succ_apply`, `Source.statements_succ_apply`: one element of a list, and
  one statement of a text.
-/

namespace ModuleGraph.Source

namespace Reader

@[simp] theorem bind_apply {α β : Type} (p : Reader α) (q : α → Reader β) (c : Cursor) :
    (p >>= q) c = (p c).bind fun a => q a.1 a.2 := rfl

@[simp] theorem pure_apply {α : Type} (a : α) (c : Cursor) :
    (pure a : Reader α) c = some (a, c) := rfl

@[simp] theorem map_apply {α β : Type} (f : α → β) (p : Reader α) (c : Cursor) :
    (f <$> p) c = (p c).map fun a => (f a.1, a.2) := by
  rw [← bind_pure_comp, bind_apply]
  cases p c <;> rfl

@[simp] theorem ite_apply {α : Type} (p : Prop) [Decidable p] (q r : Reader α) (c : Cursor) :
    (if p then q else r) c = if p then q c else r c := by
  split <;> rfl

@[simp] theorem refuse_apply {α : Type} (c : Cursor) : (refuse : Reader α) c = none := rfl

theorem bind_eq_some_iff {α β : Type} {p : Reader α} {q : α → Reader β} {c : Cursor}
    {b : β × Cursor} :
    (p >>= q) c = some b ↔ ∃ a c', p c = some (a, c') ∧ q a c' = some b := by
  rw [bind_apply, Option.bind_eq_some_iff, Prod.exists]

@[simp] theorem cursor_apply (c : Cursor) : cursor c = some (c, c) := rfl

@[simp] theorem token_apply (c : Cursor) : token c = some (c.token, c) := rfl

@[simp] theorem nextToken_apply (c : Cursor) : nextToken c = some (c.next.token, c) := rfl

@[simp] theorem dialect_apply (c : Cursor) : dialect c = some (c.dialect, c) := rfl

@[simp] theorem advance_apply (c : Cursor) : advance c = some ((), c.next) := rfl

@[simp] theorem at?_apply (s : Symbol) (c : Cursor) : at? s c = some (c.token.isSymbol s, c) := rfl

@[simp] theorem atWord_apply (k : Keyword) (c : Cursor) :
    atWord k c = some (c.token.isWord k, c) := rfl

@[simp] theorem eat_apply (s : Symbol) (c : Cursor) :
    eat s c = if c.token.isSymbol s then some (true, c.next) else some (false, c) := by
  rw [eat, bind_apply, at?_apply, Option.bind_some]
  split <;> rfl

@[simp] theorem eatWord_apply (k : Keyword) (c : Cursor) :
    eatWord k c = if c.token.isWord k then some (true, c.next) else some (false, c) := by
  rw [eatWord, bind_apply, atWord_apply, Option.bind_some]
  split <;> rfl

@[simp] theorem expect_apply (s : Symbol) (c : Cursor) :
    expect s c = if c.token.isSymbol s then some ((), c.next) else none := by
  rw [expect, bind_apply, at?_apply, Option.bind_some]
  split <;> rfl

@[simp] theorem expectWord_apply (k : Keyword) (c : Cursor) :
    expectWord k c = if c.token.isWord k then some ((), c.next) else none := by
  rw [expectWord, bind_apply, atWord_apply, Option.bind_some]
  split <;> rfl

@[simp] theorem lookahead_apply (p : Reader Bool) (c : Cursor) :
    lookahead p c = some (((p c).map Prod.fst).getD false, c) := rfl

@[simp] theorem overlook_apply (c : Cursor) :
    overlook c = some ((), { c with bindingFlawed := true }) := rfl

/-- Reading the name of a binding moves to the next token, perhaps with a note on the binding. -/
theorem bindingName_apply (c : Cursor) :
    bindingName c =
      if c.token.isBindingName then
        if (c.token.isWord .await_ && c.scope.inAwait) ||
            (c.token.isWord .yield_ && c.scope.inYield) then
          some ((), ({ c with bindingFlawed := true } : Cursor).next)
        else some ((), c.next)
      else none := by
  have hoperator : isOperatorWord c.token c = some ((c.token.isWord .await_ && c.scope.inAwait) ||
      (c.token.isWord .yield_ && c.scope.inYield), c) := rfl
  cases h : c.token.isBindingName with
  | false => simp [bindingName, h]
  | true => simp [bindingName, h, hoperator]

theorem listUntil_succ_apply {α : Type} (close : Symbol) (item : Reader α) (fuel : Nat)
    (c : Cursor) :
    listUntil close item (fuel + 1) c =
      if c.token.isSymbol close then some ([], c)
      else (item c).bind fun a =>
        if a.2.token.isSymbol close then some ([a.1], a.2)
        else if a.2.token.isSymbol .comma then
          (listUntil close item fuel a.2.next).map fun b => (a.1 :: b.1, b.2)
        else none := by
  rw [listUntil, bind_apply, at?_apply, Option.bind_some, ite_apply]
  refine ite_congr rfl (fun _ => rfl) fun _ => ?_
  rw [bind_apply]
  refine congrArg (Option.bind (item c)) (funext fun a => ?_)
  rw [bind_apply, at?_apply, Option.bind_some, ite_apply]
  refine ite_congr rfl (fun _ => rfl) fun _ => ?_
  rw [bind_apply, expect_apply]
  split
  · rw [Option.bind_some, bind_pure_comp, map_apply]
  · rfl

/-- Where the grammar remembers the same anyway, remembering it makes no difference. -/
theorem within_eq_of_scope {α : Type} {change : Scope → Scope} {p : Reader α} {c : Cursor}
    (hc : c.IsSound) (h : change c.scope = c.scope) : within change p c = p c := by
  have hscoped : c.withScope (change c.scope) = c := by rw [h]; rfl
  change (p (c.withScope (change c.scope))).map (fun r => (r.1, r.2.withScope c.scope)) = p c
  rw [hscoped]
  cases hp : p c with
  | none => rfl
  | some found =>
    have hscope : found.2.scope = c.scope := (p.onward hp hc).2.2.scope
    rw [Option.map_some, ← hscope]
    rfl

end Reader

theorem statements_succ_apply (r : Rules) (fuel : Nat) (c : Cursor) :
    statements r (fuel + 1) c =
      if c.token.isLast then some ([], c)
      else (r.statement false c).bind fun a =>
        (statements r fuel a.2).map fun b => (a.1 :: b.1, b.2) := by
  rw [statements, Reader.bind_apply, Reader.token_apply, Option.bind_some, Reader.ite_apply]
  refine ite_congr rfl (fun _ => rfl) fun _ => ?_
  rw [Reader.bind_apply]
  refine congrArg (Option.bind (r.statement false c)) (funext fun a => ?_)
  rw [bind_pure_comp, Reader.map_apply]

end ModuleGraph.Source

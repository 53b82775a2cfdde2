import Mathlib.Data.List.Basic
import ModuleGraph.Proofs.Source.Readers

/-!
# Where the strings of a syntax tree stand

The strings that are read between two places of a text stand there one behind the other.  A reader
keeps this if the strings of what it gives, together with those that were read before, still do; and
since every reader moves onward, a reader that gives no strings keeps those that were read before.

## Main definitions

* `Source.IsRow`: strings that stand one behind the other between two places of a text.
* `Source.Expr.strings`, `Source.Stmt.strings`: the strings of a syntax tree, in its order.
* `Source.Reader.Keeps`: the strings of what a reader gives stand one behind the other.

## Main results

* `Source.IsRow.pairwise_offset`, `Source.IsRow.exists_isString`: the strings stand at their
  offsets, which increase.
* `Source.Reader.Keeps.idle`, `Source.Reader.Keeps.seq`: readers in sequence.
-/

namespace ModuleGraph.Source

/-! ### Places -/

theorem IsString.suffix {here value behind : List Char} (h : IsString here value behind) :
    behind <:+ here := by
  obtain ⟨-, h⟩ := h
  exact suffix_cons_of_suffix (readQuoted_suffix h) _

theorem IsString.length_lt {here value behind : List Char} (h : IsString here value behind) :
    behind.length < here.length := by
  obtain ⟨-, h⟩ := h
  exact Nat.lt_succ_of_le (readQuoted_suffix h).length_le

/-- Strings that stand one behind the other between two places of a text of a given size.  A place
is given by the text from there on. -/
inductive IsRow (size : Nat) : List Char → List Literal → List Char → Prop
  | nil {cs ds : List Char} (h : ds <:+ cs) : IsRow size cs [] ds
  | cons {cs here value behind ds : List Char} {ls : List Literal} (hhere : here <:+ cs)
    (hstring : IsString here value behind) (h : IsRow size behind ls ds) :
    IsRow size cs (⟨String.ofList value, size - here.length⟩ :: ls) ds

namespace IsRow

variable {size : Nat} {cs ds es : List Char} {ls ms : List Literal}

theorem refl (size : Nat) (cs : List Char) : IsRow size cs [] cs := .nil (List.suffix_refl cs)

theorem of_suffix (h : IsRow size ds ls es) (hcs : ds <:+ cs) : IsRow size cs ls es := by
  cases h with
  | nil h => exact .nil (h.trans hcs)
  | cons hhere hstring h => exact .cons (hhere.trans hcs) hstring h

theorem suffix (h : IsRow size cs ls ds) : ds <:+ cs := by
  induction h with
  | nil h => exact h
  | cons hhere hstring _ ih => exact ih.trans (hstring.suffix.trans hhere)

theorem append (h₁ : IsRow size cs ls ds) (h₂ : IsRow size ds ms es) :
    IsRow size cs (ls ++ ms) es := by
  induction h₁ with
  | nil h => exact h₂.of_suffix h
  | cons hhere hstring _ ih => exact .cons hhere hstring (ih h₂)

/-- Some of the strings stand one behind the other as well. -/
theorem sublist (h : IsRow size cs ls ds) (hms : ms.Sublist ls) : IsRow size cs ms ds := by
  induction h generalizing ms with
  | nil h =>
    obtain rfl := List.sublist_nil.mp hms
    exact .nil h
  | cons hhere hstring h ih =>
    cases hms with
    | cons _ hms => exact (ih hms).of_suffix (hstring.suffix.trans hhere)
    | cons_cons _ hms => exact .cons hhere hstring (ih hms)

/-- A string stands between the two places. -/
theorem offset_mem (h : IsRow size cs ls ds) (hsize : cs.length ≤ size) {l : Literal}
    (hl : l ∈ ls) : size - cs.length ≤ l.offset ∧ l.offset < size - ds.length := by
  induction h with
  | nil h => cases hl
  | cons hhere hstring h ih =>
    have hhere := hhere.length_le
    have hstring := hstring.length_lt
    rcases List.mem_cons.mp hl with rfl | hl
    · have hbehind := h.suffix.length_le
      dsimp only
      omega
    · have := ih (by omega) hl
      omega

/-- The offsets of the strings increase. -/
theorem pairwise_offset (h : IsRow size cs ls ds) (hsize : cs.length ≤ size) :
    ls.Pairwise fun l m => l.offset < m.offset := by
  induction h with
  | nil h => exact .nil
  | cons hhere hstring h ih =>
    have hhere := hhere.length_le
    have hstring := hstring.length_lt
    refine .cons (fun m hm => ?_) (ih (by omega))
    have := h.offset_mem (by omega) hm
    dsimp only
    omega

/-- At the offset of each string the text goes on with the string as it is written. -/
theorem exists_isString {text : List Char} (h : IsRow text.length cs ls ds) (hcs : cs <:+ text)
    {l : Literal} (hl : l ∈ ls) :
    ∃ value behind, IsString (text.drop l.offset) value behind ∧
      l.value = String.ofList value := by
  induction h with
  | nil h => cases hl
  | cons hhere hstring h ih =>
    have htext := hhere.trans hcs
    rcases List.mem_cons.mp hl with rfl | hl
    · have hdrop := List.suffix_iff_eq_drop.mp htext
      exact ⟨_, _, hdrop ▸ hstring, rfl⟩
    · exact ih (hstring.suffix.trans htext) hl

end IsRow

/-! ### The strings of a tree -/

mutual

/-- The strings of an expression, in the order of its parts. -/
@[simp] def Expr.strings : Expr → List Literal
  | .string literal => [literal]
  | .call callee arguments => callee.strings ++ Expr.stringsAll arguments
  | .importCall source => source.strings
  | .await e | .assignment e | .paren e | .typed e | .instantiation e | .spread e => e.strings
  | .array es | .object es => Expr.stringsAll es
  | .conditional test yes no => test.strings ++ yes.strings ++ no.strings
  | .name _ | .member | .hole | .shorthand | .other => []

/-- The strings of a list of expressions. -/
@[simp] def Expr.stringsAll : List Expr → List Literal
  | [] => []
  | e :: es => e.strings ++ Expr.stringsAll es

end

theorem Expr.stringsAll_eq (es : List Expr) : Expr.stringsAll es = es.flatMap Expr.strings := by
  induction es with
  | nil => rfl
  | cons e es ih => rw [stringsAll, ih, List.flatMap_cons]

/-- The strings of a statement. -/
def Stmt.strings : Stmt → List Literal
  | .importFrom _ source => [source]
  | .importEquals source => source.toList
  | .exportFrom source => [source]
  | .expression e => e.strings
  | .declaration initial | .exportedDeclaration initial => Expr.stringsAll initial
  | .other => []

/-! ### Readers that keep strings in order -/

namespace Reader

variable {α β : Type} {f : α → List Literal} {g : β → List Literal} {before : List Literal}

/-- The strings of what a reader gives stand one behind the other, given that those do which were
read before. -/
structure Keeps (f : α → List Literal) (before : List Literal) (p : Reader α) : Prop where
  /-- What stood between a place and the cursor goes over into what stands in front of the next. -/
  row : ∀ {cs : List Char} {c : Cursor} {a : α} {c' : Cursor}, c.IsSound →
    IsRow c.size cs before c.here → p c = some (a, c') → IsRow c.size cs (f a) c'.here

namespace Keeps

/-- A reader that gives no strings but some of those that were read before. -/
theorem of_sublist (p : Reader α) (h : ∀ a, (f a).Sublist before) : p.Keeps f before where
  row {cs c a c'} hsound hbefore hrun := by
    have hsuffix := (p.onward hrun hsound).2.1
    simpa using (hbefore.sublist (h a)).append (.nil hsuffix)

/-- Strings that were read before may be forgotten. -/
theorem forget {p : Reader α} (h : p.Keeps f []) : p.Keeps f before where
  row hsound hbefore hrun := h.row hsound (hbefore.sublist (List.nil_sublist _)) hrun

/-- What was read before is kept in front of what is read. -/
theorem behind {p : Reader α} (h : p.Keeps f []) : p.Keeps (fun a => before ++ f a) before where
  row hsound hbefore hrun := hbefore.append (h.row hsound (.refl _ _) hrun)

theorem pure {a : α} (h : (f a).Sublist before) : (Pure.pure a : Reader α).Keeps f before where
  row hsound hbefore hrun := by
    obtain ⟨rfl, rfl⟩ := Prod.mk.inj (Option.some.inj hrun)
    exact hbefore.sublist h

theorem refuse : (Reader.refuse : Reader α).Keeps f before := ⟨fun _ _ hrun => nomatch hrun⟩

/-- What is read behind something else keeps what that has kept. -/
theorem bind {p : Reader α} {q : α → Reader β} (hp : p.Keeps f before)
    (hq : ∀ a, (q a).Keeps g (f a)) : (p >>= q).Keeps g before where
  row {cs c b c'} hsound hbefore hrun := by
    obtain ⟨a, c₁, hfirst, hrest⟩ := bind_eq_some_iff.mp hrun
    obtain ⟨hsound₁, -, hshares⟩ := p.onward hfirst hsound
    have hmiddle := hp.row hsound hbefore hfirst
    rw [← hshares.size] at hmiddle ⊢
    exact (hq a).row hsound₁ hmiddle hrest

/-- What is read between strings without giving any makes no difference. -/
theorem idle (p : Reader α) {q : α → Reader β} (hq : ∀ a, (q a).Keeps g before) :
    (p >>= q).Keeps g before :=
  bind (of_sublist (f := fun _ => before) p fun _ => List.Sublist.refl _) hq

/-- Strings that are read are kept behind those that were read before. -/
theorem seq {p : Reader α} {q : α → Reader β} (hp : p.Keeps f [])
    (hq : ∀ a, (q a).Keeps g (before ++ f a)) : (p >>= q).Keeps g before :=
  bind hp.behind hq

theorem ite {P : Prop} [Decidable P] {p q : Reader α} (hp : P → p.Keeps f before)
    (hq : ¬ P → q.Keeps f before) : (if P then p else q).Keeps f before := by
  split
  · next h => exact hp h
  · next h => exact hq h

/-- What is given without strings of its own. -/
theorem leaf (p : Reader α) {b : β} (h : g b = []) : (p >>= fun _ => Pure.pure b).Keeps g before :=
  .idle p fun _ => .pure (by simp [h])

/-- What is only read under a condition. -/
theorem guard {P : Prop} [Decidable P] {q : Reader β} (hq : q.Keeps g before) :
    (if P then Reader.refuse >>= fun _ : Unit => q else q).Keeps g before :=
  .ite (fun _ => .idle _ fun _ => hq) fun _ => hq

/-- What may be read between strings without giving any. -/
theorem option {P : Prop} [Decidable P] (p : Reader α) {q : Reader β} (hq : q.Keeps g before) :
    (if P then p >>= fun _ => q else q).Keeps g before :=
  .ite (fun _ => .idle p fun _ => hq) fun _ => hq

theorem delay {p : Unit → Reader α} (h : (p ()).Keeps f before) : (Reader.delay p).Keeps f before :=
  ⟨h.row⟩

theorem within {p : Reader α} (change : Scope → Scope) (h : p.Keeps f []) :
    (Reader.within change p).Keeps f [] where
  row {cs c a c'} hsound hbefore hrun := by
    obtain ⟨⟨a, c₁⟩, hp, heq⟩ := Option.map_eq_some_iff.mp hrun
    obtain ⟨rfl, rfl⟩ := Prod.mk.inj heq
    have hrow := h.row (hsound.withScope (change c.scope)) hbefore hp
    exact hrow

theorem withIn {p : Reader α} (h : p.Keeps f []) : (Reader.withIn p).Keeps f [] := within _ h

/-! ### Lists -/

theorem listUntil {item : Reader α} (h : item.Keeps f []) (close : Symbol) (fuel : Nat) :
    (Reader.listUntil close item fuel).Keeps (List.flatMap f) [] := by
  induction fuel with
  | zero => exact refuse
  | succ fuel ih =>
    refine .idle _ fun closed => .ite (fun _ => .pure (List.Sublist.refl _)) fun _ => ?_
    exact .seq h fun a => .idle _ fun closed => .ite (fun _ => .pure (by simp)) fun _ =>
      .idle _ fun _ => .seq ih fun as => .pure (by simp)

theorem listOne {item : Reader α} (h : item.Keeps f []) (fuel : Nat) :
    (Reader.listOne item fuel).Keeps (List.flatMap f) [] := by
  induction fuel with
  | zero => exact refuse
  | succ fuel ih =>
    exact .seq h fun a => .idle _ fun more =>
      .ite (fun _ => .seq ih fun as => .pure (by simp)) fun _ => .pure (by simp)

end Keeps

/-- A string that has to be there. -/
theorem keeps_stringLiteral : stringLiteral.Keeps (fun l => [l]) [] where
  row {cs c l c'} hsound hbefore hrun := by
    rw [stringLiteral, bind_apply, cursor_apply, Option.bind_some] at hrun
    dsimp only at hrun
    split at hrun
    · next hkind =>
      rw [bind_apply, advance_apply, Option.bind_some] at hrun
      obtain ⟨rfl, rfl⟩ := Prod.mk.inj (Option.some.inj hrun)
      have hkind := eq_of_beq hkind
      have hnext : c.next.here <:+ c.rest := by
        rw [Cursor.next, if_neg (by simp [Token.isLast, hkind])]
        exact (c.moveTo_isSound false).2.1
      exact .cons hbefore.suffix (hsound.string hkind) (.nil hnext)
    · cases hrun

end Reader

end ModuleGraph.Source

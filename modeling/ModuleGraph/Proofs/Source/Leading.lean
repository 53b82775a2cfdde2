import ModuleGraph.Proofs.Source.Readers

/-!
# The first statements of a text

The statements of a text are read one after the other, up to a token behind which nothing is read.
So the reading of a text may be cut behind any number of its statements: what stands behind them is
read from there as it is read in the whole text.  Both ways of saying this are needed.  A text that
has been read is cut in two, and a text whose first statements are known is put together again.

## Main definitions

* `Source.rulesFor`: the rules by which a text is read.
* `Source.leading`: the first statements of a text.

## Main results

* `Source.statements_add_apply`: all statements are the first ones and those behind them.
* `Source.exists_of_leading`: a text that has been read, cut behind its first statements.
* `Source.leading_of_statements`: where the reading of a text ends.
* `Source.parse?_of_leading`: the syntax tree of a text that is put together.
-/

namespace ModuleGraph.Source

open Reader

/-- The rules by which a text is read. -/
def rulesFor (text : List Char) : Rules := Rules.deep (depthBound text.length)

/-- Read a number of statements, each of them in front of the end of the text. -/
def leading (r : Rules) : Nat → Reader (List Stmt)
  | 0 => return []
  | count + 1 => do
    if (← token).isLast then refuse
    let s ← r.statement false
    return s :: (← leading r count)

variable {r : Rules} {c c' c'' : Cursor} {front body : List Stmt} {count fuel : Nat}

theorem leading_succ_apply (r : Rules) (count : Nat) (c : Cursor) :
    leading r (count + 1) c =
      if c.token.isLast then none
      else (r.statement false c).bind fun a =>
        (leading r count a.2).map fun b => (a.1 :: b.1, b.2) := by
  cases hlast : c.token.isLast with
  | true => simp [leading, hlast]
  | false => simp [leading, hlast, Option.map_eq_bind]

/-- One statement is read, and the others behind it. -/
theorem leading_succ_eq_some_iff :
    leading r (count + 1) c = some (front, c') ↔
      c.token.isLast = false ∧ ∃ s c₁ more, r.statement false c = some (s, c₁) ∧
        leading r count c₁ = some (more, c') ∧ front = s :: more := by
  rw [leading_succ_apply]
  cases hlast : c.token.isLast with
  | true => simp
  | false =>
    rw [if_neg (by simp), Option.bind_eq_some_iff]
    constructor
    · rintro ⟨⟨s, c₁⟩, hs, hrest⟩
      obtain ⟨⟨more, _⟩, hmore, heq⟩ := Option.map_eq_some_iff.mp hrest
      obtain ⟨rfl, rfl⟩ := Prod.mk.inj heq
      exact ⟨rfl, s, c₁, more, hs, hmore, rfl⟩
    · rintro ⟨-, s, c₁, more, hs, hmore, rfl⟩
      exact ⟨(s, c₁), hs, Option.map_eq_some_iff.mpr ⟨(more, c'), hmore, rfl⟩⟩

/-- The statements of a text are the first ones and those that are read behind them. -/
theorem statements_add_apply (hfront : leading r count c = some (front, c')) (fuel : Nat) :
    statements r (fuel + count) c = (statements r fuel c').map fun b => (front ++ b.1, b.2) := by
  induction count generalizing c front with
  | zero =>
    obtain ⟨rfl, rfl⟩ := Prod.mk.inj (Option.some.inj hfront)
    simp
  | succ count ih =>
    obtain ⟨hlast, s, c₁, more, hs, hmore, rfl⟩ := leading_succ_eq_some_iff.mp hfront
    rw [← Nat.add_assoc, statements_succ_apply, if_neg (by simp [hlast]), hs, Option.bind_some,
      ih hmore, Option.map_map]
    rfl

/-- A text that has been read holds its first statements. -/
theorem le_of_leading {found : List Stmt × Cursor}
    (hfront : leading r count c = some (front, c')) (hrun : statements r fuel c = some found) :
    count ≤ fuel := by
  induction count generalizing c front fuel found with
  | zero => exact Nat.zero_le fuel
  | succ count ih =>
    obtain ⟨hlast, s, c₁, more, hs, hmore, rfl⟩ := leading_succ_eq_some_iff.mp hfront
    cases fuel with
    | zero => simp [statements] at hrun
    | succ fuel =>
      rw [statements_succ_apply, if_neg (by simp [hlast]), hs, Option.bind_some] at hrun
      obtain ⟨later, hlater, -⟩ := Option.map_eq_some_iff.mp hrun
      exact Nat.succ_le_succ (ih hmore hlater)

/-- A text that has been read is cut behind its first statements. -/
theorem exists_of_leading (hfront : leading r count c = some (front, c'))
    (hrun : statements r fuel c = some (body, c'')) :
    ∃ fuel' back, fuel = fuel' + count ∧ statements r fuel' c' = some (back, c'') ∧
      body = front ++ back := by
  obtain ⟨fuel', rfl⟩ := Nat.exists_eq_add_of_le' (le_of_leading hfront hrun)
  rw [statements_add_apply hfront] at hrun
  obtain ⟨⟨back, _⟩, hback, heq⟩ := Option.map_eq_some_iff.mp hrun
  obtain ⟨rfl, rfl⟩ := Prod.mk.inj heq
  exact ⟨fuel', back, rfl, hback, rfl⟩

/-- The statements of a text are its first ones up to a token behind which nothing is read. -/
theorem leading_of_statements (hrun : statements r fuel c = some (body, c')) :
    leading r body.length c = some (body, c') ∧ c'.token.isLast = true := by
  induction fuel generalizing c body with
  | zero => simp [statements] at hrun
  | succ fuel ih =>
    rw [statements_succ_apply] at hrun
    cases hlast : c.token.isLast with
    | true =>
      rw [if_pos hlast] at hrun
      obtain ⟨rfl, rfl⟩ := Prod.mk.inj (Option.some.inj hrun)
      exact ⟨rfl, hlast⟩
    | false =>
      rw [if_neg (by simp [hlast])] at hrun
      obtain ⟨⟨s, c₁⟩, hs, hrest⟩ := Option.bind_eq_some_iff.mp hrun
      obtain ⟨⟨more, _⟩, hmore, heq⟩ := Option.map_eq_some_iff.mp hrest
      obtain ⟨rfl, rfl⟩ := Prod.mk.inj heq
      obtain ⟨hleading, hend⟩ := ih hmore
      exact ⟨leading_succ_eq_some_iff.mpr ⟨hlast, s, c₁, more, hs, hleading, rfl⟩, hend⟩

/-- The syntax tree of a text of which the first statements are known. -/
theorem parse?_of_leading {dialect : Dialect} {text : List Char} {back : List Stmt}
    (hfront : leading (rulesFor text) count (Cursor.start dialect text) = some (front, c'))
    (hback : statements (rulesFor text) fuel c' = some (back, c''))
    (hfuel : text.length + 1 = fuel + count) :
    parse? dialect text = some ⟨(front ++ back).dropWhile Stmt.isDirective,
      c''.token.kind == .finished true && !c''.lexicallyFlawed⟩ := by
  have hrun := statements_add_apply hfront fuel
  rw [hback, ← hfuel, rulesFor] at hrun
  simp [parse?, hrun]

end ModuleGraph.Source

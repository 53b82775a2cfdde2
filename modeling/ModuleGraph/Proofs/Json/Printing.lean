import ModuleGraph.Json.Writer
import ModuleGraph.Proofs.Json.Reading

/-!
# Written data text is read back

A written value is plain data text: it has a syntax tree, whose tokens stand on lines of their own.
Each character of a string becomes one piece of it, a character that may not stand for itself an
escape, and so the syntax tree has the value that was written.

Not every value can be told from its text.  A number must be spelled as numbers are, and fit into
the reader, and a value that cannot be represented is written like the absent value.

## Main definitions

* `Json.Value.IsWritable`: the values that can be told from their text.

## Main results

* `Json.exists_piece`: each character of a string becomes one piece.
* `Json.exists_tree`: a written value is plain data text.
* `Json.readWithin?_write`: a written value is read back, also from a line of its own.
-/

namespace ModuleGraph.Json

/-! ### Strings -/

theorem hexUnit?_control : ∀ n < 32,
    hexUnit? '0' '0' (hexChar (n / 16)) (hexChar (n % 16)) = some n := by decide

/-- Each character of a string is written as one piece that stands for it. -/
theorem exists_piece (c : Char) : ∃ p : StringPiece, p.chars = escape c ∧ p.code = c.toNat := by
  fun_cases escape c with
  | case1 h =>
    obtain rfl : c = '"' := by simpa using h
    exact ⟨.short '"' '"' rfl, rfl, rfl⟩
  | case2 _ h =>
    obtain rfl : c = '\\' := by simpa using h
    exact ⟨.short '\\' '\\' rfl, rfl, rfl⟩
  | case3 _ _ h =>
    obtain rfl : c = '\n' := by simpa using h
    exact ⟨.short 'n' '\n' rfl, rfl, rfl⟩
  | case4 _ _ _ h =>
    obtain rfl : c = '\r' := by simpa using h
    exact ⟨.short 'r' '\r' rfl, rfl, rfl⟩
  | case5 _ _ _ _ h =>
    obtain rfl : c = '\t' := by simpa using h
    exact ⟨.short 't' '\t' rfl, rfl, rfl⟩
  | case6 _ _ _ _ _ h => exact ⟨.short 'b' (Char.ofNat 8) rfl, rfl, (beq_iff_eq.mp h).symm⟩
  | case7 _ _ _ _ _ _ h => exact ⟨.short 'f' (Char.ofNat 12) rfl, rfl, (beq_iff_eq.mp h).symm⟩
  | case8 _ _ _ _ _ _ _ hcontrol =>
    exact ⟨.unit _ _ _ _ _ (hexUnit?_control c.toNat hcontrol), rfl, rfl⟩
  | case9 hquote hback _ _ _ _ _ hcontrol =>
    have hlegal : 32 ≤ c.toNat ∧ c ≠ '"' ∧ c ≠ '\\' :=
      ⟨Nat.le_of_not_lt hcontrol, by simpa using hquote, by simpa using hback⟩
    exact ⟨.plain c hlegal, rfl, rfl⟩

/-- The characters of a text are no halves of surrogate pairs, and stand for themselves. -/
theorem pairUnits?_toNat (half : Option Char) (cs : List Char) :
    pairUnits? half (cs.map Char.toNat) = some cs := by
  have hwhole : ∀ c : Char, isHighHalf c.toNat = false ∧ isLowHalf c.toNat = false := by
    intro c
    have hvalid : c.toNat < 0xD800 ∨ 0xDFFF < c.toNat := by
      rcases c.valid with hlow | ⟨hhigh, -⟩
      · exact .inl hlow
      · exact .inr hhigh
    constructor
    · simp only [isHighHalf, Bool.and_eq_false_iff]
      simp only [← Bool.not_eq_true, Nat.ble_eq]
      omega
    · simp only [isLowHalf, Bool.and_eq_false_iff]
      simp only [← Bool.not_eq_true, Nat.ble_eq]
      omega
  induction cs with
  | nil => rfl
  | cons c cs ih =>
    cases cs with
    | nil => simp [pairUnits?, hwhole]
    | cons d cs =>
      rw [List.map_cons] at ih
      simp [pairUnits?, hwhole, ih]

/-- Characters are written as pieces that stand for them, one for each. -/
theorem exists_pieces_escape (cs : List Char) : ∃ pieces : List StringPiece,
    pieces.flatMap StringPiece.chars = cs.flatMap escape ∧
      pieces.map StringPiece.code = cs.map Char.toNat := by
  induction cs with
  | nil => exact ⟨[], rfl, rfl⟩
  | cons c cs ih =>
    obtain ⟨p, hchars, hcode⟩ := exists_piece c
    obtain ⟨pieces, hpieces, hcodes⟩ := ih
    exact ⟨p :: pieces, by simp [hchars, hpieces], by simp [hcode, hcodes]⟩

/-- A text between its quotes is written as a string that stands for it. -/
theorem exists_pieces (limits : Limits) (text : String) :
    ∃ pieces, (Token.string pieces).chars = quote text.toList ∧
      Tree.stringValue? limits pieces = some text := by
  obtain ⟨pieces, hchars, hcodes⟩ := exists_pieces_escape text.toList
  refine ⟨pieces, by simp [Token.chars, quote, hchars], ?_⟩
  simp [Tree.stringValue?, hcodes, pairUnits?_toNat]

/-! ### Values -/

mutual

/-- Whether a value can be told from its text by a reader. -/
def Value.IsWritable (limits : Limits) : Value → Prop
  | .number literal =>
    ∃ n : Numeral, n.chars = literal.toList ∧ limits.fits n.literal = true
  | .array items => Value.AreWritable limits items
  | .object members => Value.MembersWritable limits members
  | .unreadable => False
  | _ => True

/-- Whether all values of a list can be told from their text. -/
def Value.AreWritable (limits : Limits) : List Value → Prop
  | [] => True
  | v :: vs => v.IsWritable limits ∧ Value.AreWritable limits vs

/-- Whether the values of all members can be told from their text. -/
def Value.MembersWritable (limits : Limits) : List (String × Value) → Prop
  | [] => True
  | m :: ms => m.2.IsWritable limits ∧ Value.MembersWritable limits ms

end

/-- A line begins with blanks. -/
theorem IsPlainText.newline {ts : List Token} {cs : List Char} (level : Nat)
    (h : IsPlainText ts cs) : IsPlainText ts (newline level ++ cs) := by
  refine .blank rfl ?_
  induction 2 * level with
  | zero => exact h
  | succ n ih => exact .blank rfl ih

/-- The tokens of an entry of an object. -/
def Tree.entryTokens (m : List StringPiece × Tree) : List Token :=
  .string m.1 :: .sign .colon :: m.2.tokens false

theorem Tree.itemTokens_cons (trailing : Bool) (t : Tree) (us : List Tree) :
    itemTokens false trailing (t :: us) =
      t.tokens false ++ us.flatMap fun u => .sign .comma :: u.tokens false := by
  induction us generalizing t with
  | nil => simp [itemTokens, commaIf]
  | cons u us ih => rw [itemTokens, ih u]; simp

theorem Tree.memberTokens_cons (trailing : Bool) (m : List StringPiece × Tree)
    (ms : List (List StringPiece × Tree)) :
    memberTokens false trailing (m :: ms) =
      entryTokens m ++ ms.flatMap fun m => .sign .comma :: entryTokens m := by
  induction ms generalizing m with
  | nil => simp [memberTokens, entryTokens, commaIf]
  | cons n ms ih => rw [memberTokens, ih n]; simp [entryTokens]

/-- A key and its value make an entry of an object. -/
theorem IsPlainText.entry {key : String} {pieces : List StringPiece}
    (hkey : (Token.string pieces).chars = quote key.toList) {t : Tree} {ts : List Token}
    {cs : List Char} (h : IsPlainText (t.tokens false ++ ts) cs) :
    IsPlainText (Tree.entryTokens (pieces, t) ++ ts) (quote key.toList ++ ':' :: ' ' :: cs) := by
  rw [← hkey]
  exact .token (.string pieces) (.token (.sign .colon) (.blank rfl h))

theorem objectOf_some (ms : List (String × Value)) :
    objectOf (ms.map fun m => (some m.1, m.2)) = .object ms := by
  have hkeys : (ms.map fun m => (some m.1, m.2)).mapM (fun m => m.1.map fun key => (key, m.2)) =
      some ms := by
    induction ms with
    | nil => rfl
    | cons m ms ih => rw [List.map_cons, List.mapM_cons, ih]; rfl
  rw [objectOf, hkeys]

mutual

/-- A value that can be told from its text is written, at any level, as the tokens of a syntax tree
of it. -/
theorem exists_tree (limits : Limits) (v : Value) (h : v.IsWritable limits) :
    ∃ t : Tree, t.value limits = v ∧ ∀ level {ts cs}, IsPlainText ts cs →
      IsPlainText (t.tokens false ++ ts) (writeAt level v ++ cs) := by
  match v with
  | .null => exact ⟨.word .null, rfl, fun _ _ _ hcs => .token (.word .null) hcs⟩
  | .bool true => exact ⟨.word (.bool true), rfl, fun _ _ _ hcs => .token (.word (.bool true)) hcs⟩
  | .bool false =>
    exact ⟨.word (.bool false), rfl, fun _ _ _ hcs => .token (.word (.bool false)) hcs⟩
  | .number literal =>
    obtain ⟨n, hchars, hfits⟩ := h
    refine ⟨.number n, by simp [Tree.value, hfits, hchars], fun level ts cs hcs => ?_⟩
    rw [writeAt, ← hchars]
    exact .token (.number n) hcs
  | .string text =>
    obtain ⟨pieces, hchars, hvalue⟩ := exists_pieces limits text
    refine ⟨.string pieces, by simp [Tree.value, hvalue], fun level ts cs hcs => ?_⟩
    rw [writeAt, ← hchars]
    exact .token (.string pieces) hcs
  | .array [] =>
    exact ⟨.array [] false, rfl, fun _ _ _ hcs =>
      .token (.sign .openList) (.token (.sign .closeList) hcs)⟩
  | .array (v :: vs) =>
    obtain ⟨t, hvalue, htext⟩ := exists_tree limits v h.1
    obtain ⟨us, hvalues, htexts⟩ := exists_items limits vs h.2
    refine ⟨.array (t :: us) false, by rw [Tree.value, Tree.itemValues, hvalue, hvalues], ?_⟩
    intro level ts cs hcs
    have hclose := (IsPlainText.token (.sign .closeList) hcs).newline level
    have hitems := (htext (level + 1) (htexts (level + 1) hclose)).newline (level + 1)
    simpa [Tree.tokens, Tree.itemTokens_cons, writeAt, Token.chars, Sign.char] using
      IsPlainText.token (.sign .openList) hitems
  | .object [] =>
    exact ⟨.object [] false, rfl, fun _ _ _ hcs =>
      .token (.sign .openObject) (.token (.sign .closeObject) hcs)⟩
  | .object ((key, v) :: ms) =>
    obtain ⟨pieces, hchars, hkey⟩ := exists_pieces limits key
    obtain ⟨t, hvalue, htext⟩ := exists_tree limits v h.1
    obtain ⟨us, hvalues, htexts⟩ := exists_members limits ms h.2
    refine ⟨.object ((pieces, t) :: us) false, ?_, ?_⟩
    · rw [Tree.value, Tree.memberValues, hkey, hvalue, hvalues]
      exact objectOf_some ((key, v) :: ms)
    · intro level ts cs hcs
      have hclose := (IsPlainText.token (.sign .closeObject) hcs).newline level
      have hentry := IsPlainText.entry hchars (htext (level + 1) (htexts (level + 1) hclose))
      simpa [Tree.tokens, Tree.memberTokens_cons, writeAt, Token.chars, Sign.char] using
        IsPlainText.token (.sign .openObject) (hentry.newline (level + 1))

/-- The further values of a list are written as the tokens of syntax trees of them. -/
theorem exists_items (limits : Limits) (vs : List Value) (h : Value.AreWritable limits vs) :
    ∃ us : List Tree, Tree.itemValues limits us = vs ∧ ∀ level {ts cs}, IsPlainText ts cs →
      IsPlainText ((us.flatMap fun u => .sign .comma :: u.tokens false) ++ ts)
        (writeItems level vs ++ cs) := by
  match vs with
  | [] => exact ⟨[], rfl, fun _ _ _ hcs => hcs⟩
  | v :: vs =>
    obtain ⟨t, hvalue, htext⟩ := exists_tree limits v h.1
    obtain ⟨us, hvalues, htexts⟩ := exists_items limits vs h.2
    refine ⟨t :: us, by rw [Tree.itemValues, hvalue, hvalues], fun level ts cs hcs => ?_⟩
    have hentry := htext level (htexts level hcs)
    simpa [writeItems, Token.chars, Sign.char] using
      IsPlainText.token (.sign .comma) (hentry.newline level)

/-- The further members of an object are written as keys and the tokens of syntax trees of them. -/
theorem exists_members (limits : Limits) (ms : List (String × Value))
    (h : Value.MembersWritable limits ms) :
    ∃ us : List (List StringPiece × Tree),
      Tree.memberValues limits us = ms.map (fun m => (some m.1, m.2)) ∧
        ∀ level {ts cs}, IsPlainText ts cs →
          IsPlainText ((us.flatMap fun m => .sign .comma :: Tree.entryTokens m) ++ ts)
            (writeMembers level ms ++ cs) := by
  match ms with
  | [] => exact ⟨[], rfl, fun _ _ _ hcs => hcs⟩
  | (key, v) :: ms =>
    obtain ⟨pieces, hchars, hkey⟩ := exists_pieces limits key
    obtain ⟨t, hvalue, htext⟩ := exists_tree limits v h.1
    obtain ⟨us, hvalues, htexts⟩ := exists_members limits ms h.2
    refine ⟨(pieces, t) :: us, ?_, fun level ts cs hcs => ?_⟩
    · rw [Tree.memberValues, hkey, hvalue, hvalues, List.map_cons]
    · have hentry := IsPlainText.entry hchars (htext level (htexts level hcs))
      simpa [writeMembers, Token.chars, Sign.char] using
        IsPlainText.token (.sign .comma) (hentry.newline level)

end

/-- Blanks are plain data text without tokens. -/
theorem isPlainText_nil_of_isGap {cs : List Char} (h : ∀ c ∈ cs, isGap c = true) :
    IsPlainText [] cs := by
  induction cs with
  | nil => exact .nil
  | cons c cs ih => exact .blank (h c List.mem_cons_self) (ih fun d hd => h d (.tail c hd))

/-- A value that can be told from its text is read back, with blanks behind it or without. -/
theorem readWithin?_write {limits : Limits} {v : Value} (h : v.IsWritable limits)
    (behind : List Char) (hbehind : ∀ c ∈ behind, isGap c = true) :
    readWithin? limits (write v ++ behind) = some v := by
  obtain ⟨t, hvalue, htext⟩ := exists_tree limits v h
  have hplain := htext 0 (isPlainText_nil_of_isGap hbehind)
  rw [List.append_nil] at hplain
  exact (readWithin?_tokens limits t hplain).trans (congrArg some hvalue)

end ModuleGraph.Json

import ModuleGraph.Source.Onward
import ModuleGraph.Source.Tree

/-!
# A place in program text

A cursor stands at a token, with the text behind it and what the grammar has to remember.  A parser
moves a cursor and either gives a result or fails; a failure means that the text has no syntax tree.
Since a cursor is a value, looking ahead and trying an alternative cost nothing but the attempt.

A reader carries the proof that it moves its cursor onward: what is read never stands in front of
what has been read before.  So nothing has to be said about a phrase of the grammar to know where it
stands in the text.

## Main definitions

* `Source.Scope`, `Source.Cursor`: what is remembered, and the place.
* `Source.Cursor.Leads`: a cursor stands at or behind another one in the same text.
* `Source.Reader`: functions that move a cursor onward.
* `Source.Reader.advance`, `Source.Reader.eat`, `Source.Reader.expect`: reading tokens.
* `Source.Reader.bindingName`, `Source.Reader.overlook`: names of bindings, and the rules on
  bindings that a text may break.
* `Source.Reader.lookahead`, `Source.Reader.attempt`: reading without or with a way back.
* `Source.Reader.listUntil`: elements with commas between them, up to a closing symbol.
* `Source.Reader.endStatement`: the end of a statement, which may be left unwritten.
-/

namespace ModuleGraph.Source

/-- What the grammar has to remember. -/
structure Scope where
  allowIn : Bool := true
  inYield : Bool := false
  inAwait : Bool := false
  inDecorator : Bool := false
  /-- Whether a type may not go on with a condition here. -/
  plainTypes : Bool := false
  deriving DecidableEq, Repr

/-- A place in program text. -/
structure Cursor where
  token : Token
  /-- The text from the first character of the token. -/
  here : List Char
  rest : List Char
  /-- The number of characters of the whole text. -/
  size : Nat
  dialect : Dialect
  scope : Scope
  lexicallyFlawed : Bool := false
  /-- Whether a binding has been read that breaks a rule that is overlooked. -/
  bindingFlawed : Bool := false
  deriving DecidableEq, Repr

namespace Cursor

/-- Move to the first token of a text. -/
def moveTo (c : Cursor) (newline : Bool) (text : List Char) : Cursor :=
  let gap := skipGap (!c.dialect.isModule) .open newline text
  if gap.closed then
    let (token, rest) := readBare gap.newline gap.rest
    { c with
      token, rest, here := gap.rest, lexicallyFlawed := c.lexicallyFlawed || token.flawed }
  else
    { c with token := { kind := .finished false, newline := gap.newline }, here := [], rest := [] }

/-- Move to the next token.  Nothing is read behind a piece of text that is no token. -/
def next (c : Cursor) : Cursor := if c.token.isLast then c else c.moveTo false c.rest

/-- The first place of a text. -/
def start (dialect : Dialect) (text : List Char) : Cursor :=
  let c : Cursor :=
    { token := { kind := .finished true }, here := text, rest := text, size := text.length, dialect,
      scope := { inAwait := dialect.isModule } }
  c.moveTo true (skipInterpreterLine text)

/-- The number of characters in front of the token. -/
def offset (c : Cursor) : Nat := c.size - c.here.length

/-- The same place, where the grammar remembers something else. -/
def withScope (c : Cursor) (scope : Scope) : Cursor := { c with scope }

/-- Take a token of another kind at the same place. -/
def retake (c : Cursor) (kind : Token.Kind) (rest : List Char) : Cursor :=
  { c with token := { c.token with kind }, rest }

/-! ### Going onward -/

/-- The text behind the token is what is left of the text from the token on, and a token that is a
string is written there. -/
structure IsSound (c : Cursor) : Prop where
  behind : c.rest <:+ c.here
  string : c.token.kind = .string → IsString c.here c.token.text c.rest

/-- Two cursors stand in the same text, and the grammar remembers the same at both. -/
structure Shares (c c' : Cursor) : Prop where
  size : c'.size = c.size
  dialect : c'.dialect = c.dialect
  scope : c'.scope = c.scope

theorem Shares.refl (c : Cursor) : c.Shares c := ⟨rfl, rfl, rfl⟩

theorem Shares.trans {c₁ c₂ c₃ : Cursor} (h₁ : c₁.Shares c₂) (h₂ : c₂.Shares c₃) : c₁.Shares c₃ :=
  ⟨h₂.size.trans h₁.size, h₂.dialect.trans h₁.dialect, h₂.scope.trans h₁.scope⟩

/-- A cursor stands at or behind another one, and shares the text and its scope with it. -/
def Leads (c c' : Cursor) : Prop := c.IsSound → c'.IsSound ∧ c'.here <:+ c.here ∧ c.Shares c'

namespace Leads

theorem refl (c : Cursor) : c.Leads c := fun h => ⟨h, List.suffix_refl _, .refl c⟩

theorem trans {c₁ c₂ c₃ : Cursor} (h₁ : c₁.Leads c₂) (h₂ : c₂.Leads c₃) : c₁.Leads c₃ := by
  intro hsound
  obtain ⟨hsound, hsuffix, hshares⟩ := h₁ hsound
  obtain ⟨hsound', hsuffix', hshares'⟩ := h₂ hsound
  exact ⟨hsound', hsuffix'.trans hsuffix, hshares.trans hshares'⟩

end Leads

/-- A note on the flaws of a text makes no difference to the place in it. -/
theorem leads_note (c : Cursor) (lexicallyFlawed bindingFlawed : Bool) :
    c.Leads { c with lexicallyFlawed, bindingFlawed } :=
  fun h => ⟨⟨h.behind, h.string⟩, List.suffix_refl _, rfl, rfl, rfl⟩

/-- Neither does what the grammar remembers. -/
theorem IsSound.withScope {c : Cursor} (h : c.IsSound) (scope : Scope) :
    (c.withScope scope).IsSound :=
  ⟨h.behind, h.string⟩

/-- The first token of what is left of a text. -/
theorem moveTo_isSound (c : Cursor) (newline : Bool) {text : List Char} :
    (c.moveTo newline text).IsSound ∧ (c.moveTo newline text).here <:+ text ∧
      c.Shares (c.moveTo newline text) := by
  unfold moveTo
  dsimp only
  split
  · exact ⟨⟨readBare_suffix _ _, isString_of_readBare⟩, skipGap_suffix _ _ _ _, rfl, rfl, rfl⟩
  · exact ⟨⟨List.suffix_refl _, nofun⟩, List.nil_suffix, rfl, rfl, rfl⟩

theorem leads_moveTo (c : Cursor) (newline : Bool) {text : List Char} (h : text <:+ c.here) :
    c.Leads (c.moveTo newline text) := by
  obtain ⟨hsound, hsuffix, hshares⟩ := @moveTo_isSound c newline text
  exact fun _ => ⟨hsound, hsuffix.trans h, hshares⟩

theorem leads_next (c : Cursor) : c.Leads c.next := by
  unfold next
  split
  · exact .refl c
  · exact fun h => c.leads_moveTo false h.behind h

/-- A token of another kind, at the same place or behind it. -/
theorem leads_token (c : Cursor) {token : Token} {here rest : List Char}
    (hhere : here <:+ c.here) (hrest : rest <:+ here) (hkind : token.kind ≠ .string) :
    c.Leads { c with token, here, rest } :=
  fun _ => ⟨⟨hrest, fun h => absurd h hkind⟩, hhere, rfl, rfl, rfl⟩

theorem leads_retake (c : Cursor) {kind : Token.Kind} {rest : List Char} (hrest : rest <:+ c.here)
    (hkind : kind ≠ .string) : c.Leads (c.retake kind rest) :=
  c.leads_token (List.suffix_refl _) hrest hkind

/-- The first token behind a piece of text that is no token. -/
theorem leads_skip (c : Cursor) {rest : List Char} (h : c.IsSound → rest <:+ c.here) :
    c.Leads ({ c with rest } : Cursor).next := by
  intro hsound
  unfold next
  split
  · next hlast =>
    refine ⟨⟨h hsound, fun hkind => ?_⟩, List.suffix_refl _, rfl, rfl, rfl⟩
    change c.token.kind = .string at hkind
    simp [Token.isLast, hkind] at hlast
  · obtain ⟨hsound', hsuffix, hshares⟩ := @moveTo_isSound { c with rest } false rest
    exact ⟨hsound', hsuffix.trans (h hsound), hshares.size, hshares.dialect, hshares.scope⟩

theorem isSound_start (dialect : Dialect) (text : List Char) : (start dialect text).IsSound :=
  (moveTo_isSound _ true).1

theorem start_here_suffix (dialect : Dialect) (text : List Char) :
    (start dialect text).here <:+ text :=
  (moveTo_isSound _ true).2.1.trans (skipInterpreterLine_suffix text)

@[simp] theorem start_size (dialect : Dialect) (text : List Char) :
    (start dialect text).size = text.length :=
  (moveTo_isSound _ true).2.2.size

end Cursor

/-! ### Readers -/

/-- Functions that move a cursor onward, or fail. -/
structure Reader (α : Type) where
  run : Cursor → Option (α × Cursor)
  onward : ∀ {c : Cursor} {a : α} {c' : Cursor}, run c = some (a, c') → c.Leads c'

namespace Reader

variable {α β : Type}

instance : CoeFun (Reader α) fun _ => Cursor → Option (α × Cursor) := ⟨Reader.run⟩

@[ext] theorem ext {p q : Reader α} (h : ∀ c, p c = q c) : p = q := by
  cases p
  cases q
  congr
  exact funext h

/-- Read nothing. -/
protected def pure (a : α) : Reader α where
  run c := some (a, c)
  onward h := by
    rw [← (Prod.mk.inj (Option.some.inj h)).2]
    exact .refl _

/-- Read one thing behind another. -/
protected def bind (p : Reader α) (q : α → Reader β) : Reader β where
  run c := (p c).bind fun a => q a.1 a.2
  onward h := by
    obtain ⟨a, hp, hq⟩ := Option.bind_eq_some_iff.mp h
    exact (p.onward hp).trans ((q a.1).onward hq)

instance : Monad Reader where
  pure := Reader.pure
  bind := Reader.bind

instance : LawfulMonad Reader := LawfulMonad.mk' Reader
  (fun p => ext fun c => by
    change ((p c).bind fun a => some (a.1, a.2)) = p c
    cases p c <;> rfl)
  (fun _ _ => rfl)
  (fun p q r => ext fun c => by
    change ((p c).bind fun a => q a.1 a.2).bind (fun b => r b.1 b.2) =
      (p c).bind fun a => (q a.1 a.2).bind fun b => r b.1 b.2
    cases p c <;> rfl)

/-- The place itself. -/
def cursor : Reader Cursor where
  run c := some (c, c)
  onward h := by
    rw [← (Prod.mk.inj (Option.some.inj h)).2]
    exact .refl _

/-- Move onward, or fail. -/
def leap (f : Cursor → Option Cursor) (h : ∀ {c c'}, f c = some c' → c.Leads c') : Reader Unit where
  run c := (f c).map fun c' => ((), c')
  onward hrun := by
    obtain ⟨c', hf, heq⟩ := Option.map_eq_some_iff.mp hrun
    rw [← (Prod.mk.inj heq).2]
    exact h hf

/-- Move onward. -/
def move (f : Cursor → Cursor) (h : ∀ c : Cursor, c.Leads (f c)) : Reader Unit where
  run c := some ((), f c)
  onward hrun := by
    rw [← (Prod.mk.inj (Option.some.inj hrun)).2]
    exact h _

/-- Move behind a piece of text that is no token, or fail. -/
def skip (f : Cursor → Option (List Char))
    (h : ∀ {c rest}, c.IsSound → f c = some rest → rest <:+ c.here) : Reader Unit :=
  leap (fun c => (f c).map fun rest => ({ c with rest } : Cursor).next) fun {c c'} hrun => by
    obtain ⟨rest, hf, heq⟩ := Option.map_eq_some_iff.mp hrun
    rw [← heq]
    exact c.leads_skip fun hsound => h hsound hf

/-- A reader that is worked out only when it is used. -/
def delay (p : Unit → Reader α) : Reader α where
  run c := p () c
  onward h := (p ()).onward h

/-- The token at the cursor. -/
def token : Reader Token := do return (← cursor).token

/-- The dialect of the text. -/
def dialect : Reader Dialect := do return (← cursor).dialect

/-- What the grammar remembers. -/
def scope : Reader Scope := do return (← cursor).scope

/-- The token behind the one at the cursor. -/
def nextToken : Reader Token := do return (← cursor).next.token

/-- Move to the next token. -/
def advance : Reader Unit := move Cursor.next Cursor.leads_next

/-- The text has no syntax tree. -/
def refuse : Reader α := ⟨fun _ => none, nofun⟩

/-- Whether the cursor stands at a symbol. -/
def at? (s : Symbol) : Reader Bool := do return (← token).isSymbol s

/-- Whether the cursor stands at a word. -/
def atWord (k : Keyword) : Reader Bool := do return (← token).isWord k

/-- Read a symbol if it is there. -/
def eat (s : Symbol) : Reader Bool := do
  if ← at? s then advance; return true
  else return false

/-- Read a word if it is there. -/
def eatWord (k : Keyword) : Reader Bool := do
  if ← atWord k then advance; return true
  else return false

/-- Read a symbol, which has to be there. -/
def expect (s : Symbol) : Reader Unit := do
  if ← at? s then advance else refuse

/-- Read a word, which has to be there. -/
def expectWord (k : Keyword) : Reader Unit := do
  if ← atWord k then advance else refuse

/-- Read a name of any kind. -/
def anyName : Reader Unit := do
  if (← token).isName then advance else refuse

/-- Read a string, which has to be there. -/
def stringLiteral : Reader Literal := do
  let c ← cursor
  if c.token.kind == .string then
    advance
    return ⟨String.ofList c.token.text, c.offset⟩
  else refuse

/-- Note that a binding breaks a rule that is overlooked. -/
def overlook : Reader Unit :=
  move (fun c => { c with bindingFlawed := true }) fun c => c.leads_note _ _

/-- Whether a token is a word that is an operator here. -/
def isOperatorWord (t : Token) : Reader Bool := do
  let s ← scope
  return (t.isWord .await_ && s.inAwait) || (t.isWord .yield_ && s.inYield)

/-- Read a name that may name a binding.  That it should not be an operator here is overlooked. -/
def bindingName : Reader Unit := do
  let t ← token
  if !t.isBindingName then refuse
  if ← isOperatorWord t then overlook
  advance

/-- Ask a question about the text from here on, without moving.  A failure counts as the given
answer. -/
def peek (failed : α) (p : Reader α) : Reader α where
  run c := some (((p c).map Prod.fst).getD failed, c)
  onward h := by
    rw [← (Prod.mk.inj (Option.some.inj h)).2]
    exact .refl _

/-- Ask a question about the text from here on, without moving.  A failure counts as a no. -/
def lookahead (p : Reader Bool) : Reader Bool := peek false p

/-- Try to read something, and stay here if that fails. -/
def attempt (p : Reader α) : Reader (Option α) where
  run c := some ((p c).elim (none, c) fun r => (some r.1, r.2))
  onward {c a c'} h := by
    cases hp : p c with
    | none =>
      rw [hp] at h
      rw [← (Prod.mk.inj (Option.some.inj h)).2]
      exact .refl c
    | some r =>
      rw [hp] at h
      rw [← (Prod.mk.inj (Option.some.inj h)).2]
      exact p.onward hp

/-- Read something, and come back here unless it turns out well. -/
def unlessIdle (p : Reader Bool) : Reader Bool where
  run c := (p c).map fun r => if r.1 then r else (false, c)
  onward {c a c'} h := by
    obtain ⟨⟨found, moved⟩, hp, heq⟩ := Option.map_eq_some_iff.mp h
    cases found with
    | true =>
      rw [← (Prod.mk.inj heq).2]
      exact p.onward hp
    | false =>
      rw [← (Prod.mk.inj heq).2]
      exact .refl c

/-- Read something while the grammar remembers something else. -/
def within (change : Scope → Scope) (p : Reader α) : Reader α where
  run c := (p (c.withScope (change c.scope))).map fun r => (r.1, r.2.withScope c.scope)
  onward {c a c'} h := by
    obtain ⟨⟨b, c₁⟩, hp, heq⟩ := Option.map_eq_some_iff.mp h
    obtain ⟨rfl, rfl⟩ := Prod.mk.inj heq
    intro hsound
    obtain ⟨hsound', hsuffix, hshares⟩ := p.onward hp (hsound.withScope _)
    exact ⟨hsound'.withScope _, hsuffix, hshares.size, hshares.dialect, rfl⟩

/-- Read something while `in` is an operator. -/
def withIn (p : Reader α) : Reader α := within (fun s => { s with allowIn := true }) p

/-- Read elements with commas between them, up to a closing symbol that is not read.  A comma may
follow the last element. -/
def listUntil (close : Symbol) (item : Reader α) : Nat → Reader (List α)
  | 0 => refuse
  | fuel + 1 => do
    if ← at? close then return []
    let a ← item
    if ← at? close then return [a]
    expect .comma
    return a :: (← listUntil close item fuel)

/-- Read elements as long as a test says so. -/
def repeatWhile (test : Reader Bool) (item : Reader α) : Nat → Reader (List α)
  | 0 => refuse
  | fuel + 1 => do
    if ← test then
      let a ← item
      return a :: (← repeatWhile test item fuel)
    else return []

/-- Read elements with commas between them, at least one. -/
def listOne (item : Reader α) : Nat → Reader (List α)
  | 0 => refuse
  | fuel + 1 => do
    let a ← item
    if ← eat .comma then return a :: (← listOne item fuel)
    else return [a]

/-- Whether a statement may end here without a mark. -/
def canEnd : Reader Bool := do
  let t ← token
  return t.newline || t.isSymbol .semicolon || t.isSymbol .rightBrace ||
    (match t.kind with
      | .finished _ => true
      | _ => false)

/-- The end of a statement. -/
def endStatement : Reader Unit := do
  if ← canEnd then
    let _ ← eat .semicolon
  else refuse

end Reader

end ModuleGraph.Source

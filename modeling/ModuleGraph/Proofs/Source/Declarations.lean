import ModuleGraph.Proofs.Source.Readers
import ModuleGraph.Proofs.Source.Tokens

/-!
# What the grammar makes of declarations

The tokens of a declaration decide what a reader of statements makes of it, whatever names it binds:
words such as `type`, `as` or `from` are taken for names where they are names.  If a statement is
read where a declaration stands, it is the statement of the declaration, and what is left to read is
its end: attributes and the mark that ends it.

Nothing is said about whether a statement is read.  A declaration that binds a reserved word has no
syntax tree, and neither has one whose end runs into what follows.

## Main definitions

* `Source.ending`: what is read behind the last token of a declaration.
* `Source.IsRead`: a statement that a reader makes of a declaration.

## Main results

* `Source.reads_of_listUntil`: the members of a list in braces.
* `Source.isRead_of_importRest`, `Source.isRead_of_exportStatement`: imports and exports.
* `Source.isRead_of_statement`: a statement that is read where a declaration stands.
-/

namespace ModuleGraph.Source

open Declaration (keyword Request Member Members Bindings Clause typeTokens memberTokens
  sourceTokens)

variable {behind : List Char} {ts : List Declaration.Token} {d : Declaration} {n : Declaration.Name}
  {clause : Clause} {q : Request} {typeOnly exported : Bool} {r : Rules} {c c' : Cursor} {s : Stmt}

/-! ### Kinds of words and signs -/

section Kinds

open Declaration.Token

theorem kind_import : (keyword "import").kind = .keyword .import_ := by decide

theorem kind_as : (keyword "as").kind = .keyword .as_ := by decide

theorem kind_from : (keyword "from").kind = .keyword .from_ := by decide

theorem kind_require : (keyword "require").kind = .keyword .require_ := by decide

theorem kind_export : (modifier "export".toList).kind = .keyword .export_ := by decide

theorem kind_type : (modifier "type".toList).kind = .keyword .type_ := by decide

theorem kind_comma : (sign ',').kind = .symbol .comma := by decide

theorem kind_leftBrace : (sign '{').kind = .symbol .leftBrace := by decide

theorem kind_rightBrace : (sign '}').kind = .symbol .rightBrace := by decide

theorem kind_star : (sign '*').kind = .symbol .star := by decide

theorem kind_assign : (sign '=').kind = .symbol .assign := by decide

theorem kind_leftParen : (sign '(').kind = .symbol .leftParen := by decide

theorem kind_rightParen : (sign ')').kind = .symbol .rightParen := by decide

end Kinds

theorem isName_of_kind {t : Token} (h : t.kind = n.token.kind) : t.isName = true := by
  rw [Token.isName, h, Declaration.Name.token, Declaration.Token.kind, nameKind]
  cases Keyword.ofChars? n.chars <;> rfl

theorem isSymbol_eq_false_of_isName {t : Token} (h : t.isName = true) (s : Symbol) :
    t.isSymbol s = false := by
  rw [Token.isName] at h
  split at h
  all_goals simp_all [Token.isSymbol]

theorem isWord_of_kind {t : Token} {k : Keyword} (h : t.kind = .keyword k) : t.isWord k = true := by
  simp [Token.isWord, h]

theorem isSymbol_of_kind {t : Token} {s : Symbol} (h : t.kind = .symbol s) :
    t.isSymbol s = true := by
  simp [Token.isSymbol, h]

/-! ### Lists in braces -/

/-- What follows a member of a list is neither a name nor a string. -/
theorem not_isName_of_kind {t : Declaration.Token} (ht : t = .sign ',' ∨ t = .sign '}') {u : Token}
    (hu : u.kind = t.kind) :
    u.isName = false ∧ (u.kind == .string) = false ∧ u.isWord .as_ = false := by
  rcases ht with rfl | rfl
  · rw [kind_comma] at hu
    simp [Token.isName, Token.isWord, hu]
  · rw [kind_rightBrace] at hu
    simp [Token.isName, Token.isWord, hu]

theorem listedTypeModifier_apply (hc : c.dialect = .typedModule) :
    listedTypeModifier c = some (c.token.isWord .type_ &&
      if c.next.token.isWord .as_ then
        if c.next.next.token.isWord .as_ then
          c.next.next.next.token.isName || c.next.next.next.token.kind == .string
        else !(c.next.next.token.isName || c.next.next.token.kind == .string)
      else c.next.token.isName || c.next.token.kind == .string, c) := by
  cases htype : c.token.isWord .type_ <;> cases has : c.next.token.isWord .as_ <;>
    cases has' : c.next.next.token.isWord .as_ <;>
    simp [listedTypeModifier, hc, Dialect.typedModule, htype, has, has']

/-- In a list, `type` is taken for a modifier where it is one, even in front of names that are
written `as` or `type`. -/
theorem listedTypeModifier_member {m : Member} {t : Declaration.Token}
    (ht : t = .sign ',' ∨ t = .sign '}') (h : c.Reads behind (m.tokens ++ t :: ts)) :
    listedTypeModifier c = some (m.typeOnly, c) := by
  have has {u : Token} (hu : u.kind = (keyword "as").kind) : u.isWord .as_ = true :=
    isWord_of_kind (hu.trans kind_as)
  have htype {u : Token} (hu : u.kind = (Declaration.Token.modifier "type".toList).kind) :
      u.isWord .type_ = true := isWord_of_kind (hu.trans kind_type)
  rcases m with ⟨_ | _, n, _ | renamed⟩
  · -- `n`
    obtain ⟨⟨hd, -, -⟩, ⟨-, hk, -⟩, -⟩ := h
    rw [listedTypeModifier_apply hd]
    simp [not_isName_of_kind ht hk]
  · -- `n as renamed`
    obtain ⟨⟨hd, -, -⟩, ⟨-, hk₁, -⟩, ⟨-, hk₂, -⟩, ⟨-, hk₃, -⟩, -⟩ := h
    rw [listedTypeModifier_apply hd]
    simp [has hk₁, isName_of_kind hk₂, not_isName_of_kind ht hk₃]
  · -- `type n`
    obtain ⟨⟨hd, hk, -⟩, ⟨-, hk₁, -⟩, ⟨-, hk₂, -⟩, -⟩ := h
    rw [listedTypeModifier_apply hd]
    simp [htype hk, isName_of_kind hk₁, not_isName_of_kind ht hk₂]
  · -- `type n as renamed`
    obtain ⟨⟨hd, hk, -⟩, ⟨-, hk₁, -⟩, ⟨-, hk₂, -⟩, ⟨-, hk₃, -⟩, -⟩ := h
    rw [listedTypeModifier_apply hd]
    simp [htype hk, isName_of_kind hk₁, has hk₂, isName_of_kind hk₃]

theorem exportName_apply (h : c.token.kind = n.token.kind) : exportName c = some ((), c.next) := by
  simp [exportName, isName_of_kind h]

/-- A name, perhaps with the name that takes its place, is read up to the sign behind it. -/
theorem exists_renamed_apply {renamed : Option Declaration.Name} {t : Declaration.Token}
    (ht : t = .sign ',' ∨ t = .sign '}')
    (h : c.Reads behind
      (n.token :: (renamed.map fun m => [keyword "as", m.token]).getD [] ++ t :: ts)) :
    ∃ c', (do exportName; if ← Reader.eatWord .as_ then exportName : Reader Unit) c =
      some ((), c') ∧ c'.Reads behind (t :: ts) := by
  cases renamed with
  | none =>
    obtain ⟨⟨-, hk, -⟩, hrest⟩ := h
    refine ⟨c.next, ?_, hrest⟩
    simp [exportName_apply hk, not_isName_of_kind ht hrest.1.2.1]
  | some m =>
    obtain ⟨⟨-, hk, -⟩, ⟨-, hk₁, -⟩, ⟨-, hk₂, -⟩, hrest⟩ := h
    refine ⟨c.next.next.next, ?_, hrest⟩
    simp [exportName_apply hk, isWord_of_kind (hk₁.trans kind_as), exportName_apply hk₂]

/-- A member of a list is read up to the sign behind it. -/
theorem exists_listedName_apply {m : Member} {t : Declaration.Token}
    (ht : t = .sign ',' ∨ t = .sign '}') (h : c.Reads behind (m.tokens ++ t :: ts)) :
    ∃ c', listedName c = some ((), c') ∧ c'.Reads behind (t :: ts) := by
  have hmodifier := listedTypeModifier_member ht h
  rcases m with ⟨_ | _, n, renamed⟩
  · obtain ⟨c', hrun, hc'⟩ := exists_renamed_apply ht h
    refine ⟨c', ?_, hc'⟩
    rw [← hrun, listedName, Reader.bind_apply, hmodifier]
    rfl
  · obtain ⟨c', hrun, hc'⟩ := exists_renamed_apply ht h.2
    refine ⟨c', ?_, hc'⟩
    rw [← hrun, listedName, Reader.bind_apply, hmodifier]
    rfl

theorem isName_of_reads_member {m : Member} (h : c.Reads behind (m.tokens ++ ts)) :
    c.token.isName = true := by
  rcases m with ⟨_ | _, n, renamed⟩
  · exact isName_of_kind h.1.2.1
  · exact isName_of_kind (n := Declaration.typeName) h.1.2.1

/-- Behind a member and a comma, the rest of the list is read. -/
theorem exists_listUntil_of_comma {m : Member} {fuel : Nat} {units : List Unit}
    (h : c.Reads behind (m.tokens ++ .sign ',' :: ts))
    (hrun : Reader.listUntil .rightBrace listedName (fuel + 1) c = some (units, c')) :
    ∃ c₁ units', c₁.Reads behind ts ∧
      Reader.listUntil .rightBrace listedName fuel c₁ = some (units', c') := by
  have hfirst := isSymbol_eq_false_of_isName (isName_of_reads_member h) .rightBrace
  obtain ⟨c₁, hitem, h₁⟩ := exists_listedName_apply (.inl rfl) h
  have hcomma := h₁.1.2.1.trans kind_comma
  rw [Reader.listUntil_succ_apply, if_neg (by simp [hfirst]), hitem, Option.bind_some,
    if_neg (by simp [Token.isSymbol, hcomma]), if_pos (isSymbol_of_kind hcomma)] at hrun
  obtain ⟨p, hmore, hp⟩ := Option.map_eq_some_iff.mp hrun
  obtain ⟨-, rfl⟩ : () :: p.1 = units ∧ p.2 = c' := by simpa using hp
  exact ⟨c₁.next, p.1, h₁.2, hmore⟩

/-- The members of a list are read up to the closing brace. -/
theorem reads_of_listUntil {trailing : Bool} {ms : List Member} {fuel : Nat} {units : List Unit}
    (h : c.Reads behind (memberTokens trailing ms ++ .sign '}' :: ts))
    (hrun : Reader.listUntil .rightBrace listedName fuel c = some (units, c')) :
    c'.Reads behind (.sign '}' :: ts) := by
  have hclose {c : Cursor} (h : c.Reads behind (.sign '}' :: ts)) :
      c.token.isSymbol .rightBrace = true := isSymbol_of_kind (h.1.2.1.trans kind_rightBrace)
  induction fuel generalizing ms c units with
  | zero => simp [Reader.listUntil] at hrun
  | succ fuel ih =>
    rcases ms with _ | ⟨m, _ | ⟨n, more⟩⟩
    · rw [Reader.listUntil_succ_apply, if_pos (hclose h)] at hrun
      obtain ⟨-, rfl⟩ : [] = units ∧ c = c' := by simpa using hrun
      exact h
    · rw [memberTokens, List.append_assoc] at h
      cases trailing with
      | false =>
        have hfirst := isSymbol_eq_false_of_isName (isName_of_reads_member h) .rightBrace
        obtain ⟨c₁, hitem, h₁⟩ := exists_listedName_apply (.inr rfl) h
        rw [Reader.listUntil_succ_apply, if_neg (by simp [hfirst]), hitem, Option.bind_some,
          if_pos (hclose h₁)] at hrun
        obtain ⟨-, rfl⟩ : [()] = units ∧ c₁ = c' := by simpa using hrun
        exact h₁
      | true =>
        obtain ⟨c₁, units', h₁, hmore⟩ := exists_listUntil_of_comma h hrun
        have h₁ : c₁.Reads behind (memberTokens true [] ++ .sign '}' :: ts) := h₁
        exact ih h₁ hmore
    · rw [memberTokens, List.append_assoc] at h
      obtain ⟨c₁, units', h₁, hmore⟩ := exists_listUntil_of_comma h hrun
      exact ih h₁ hmore

/-- The list of an import is read up to the token behind it. -/
theorem reads_of_importList {ms : Members} {u : Unit} (h : c.Reads behind (ms.tokens ++ ts))
    (hrun : importList r c = some (u, c')) : c'.Reads behind ts := by
  rw [Members.tokens, List.cons_append, List.cons_append, List.append_assoc] at h
  have hopen := isSymbol_of_kind (h.1.2.1.trans kind_leftBrace)
  rw [importList, Reader.bind_apply, Reader.expect_apply, if_pos hopen, Option.bind_some] at hrun
  obtain ⟨units, c₂, hlist, hrun⟩ := Reader.bind_eq_some_iff.mp hrun
  have h₂ := reads_of_listUntil h.2 hlist
  have hclose := isSymbol_of_kind (h₂.1.2.1.trans kind_rightBrace)
  obtain rfl : c₂.next = c' := by simpa [hclose] using hrun
  exact h₂.2

/-! ### Import clauses -/

theorem Cursor.moveTo_overlook (c : Cursor) (newline : Bool) (text : List Char) :
    ({ c with bindingFlawed := true } : Cursor).moveTo newline text =
      { c.moveTo newline text with bindingFlawed := true } := by
  simp only [Cursor.moveTo]
  split <;> rfl

/-- A note on a binding does not change what a cursor meets. -/
theorem Cursor.Reads.overlook (h : c.Reads behind ts) :
    ({ c with bindingFlawed := true } : Cursor).Reads behind ts := by
  induction ts generalizing c with
  | nil =>
    obtain ⟨before, newline, hbefore, rfl⟩ := h
    exact ⟨{ before with bindingFlawed := true }, newline, hbefore,
      (Cursor.moveTo_overlook before newline behind).symm⟩
  | cons t ts ih =>
    have hnext : ({ c with bindingFlawed := true } : Cursor).next =
        { c.next with bindingFlawed := true } := by
      simp only [Cursor.next]
      split
      · rfl
      · exact Cursor.moveTo_overlook c false c.rest
    exact ⟨h.1, hnext ▸ ih h.2⟩

theorem reads_of_bindingName {t : Declaration.Token} {u : Unit} (h : c.Reads behind (t :: ts))
    (hrun : Reader.bindingName c = some (u, c')) : c'.Reads behind ts := by
  rw [Reader.bindingName_apply] at hrun
  split at hrun
  · split at hrun
    · obtain rfl : ({ c with bindingFlawed := true } : Cursor).next = c' := by simpa using hrun
      exact h.overlook.2
    · obtain rfl : c.next = c' := by simpa using hrun
      exact h.2
  · simp at hrun

/-- The name of a whole module is read up to the token behind it. -/
theorem reads_of_wholeImport {u : Unit} (h : c.Reads behind ((Bindings.star n).tokens ++ ts))
    (hrun : wholeImport c = some (u, c')) : c'.Reads behind ts := by
  obtain ⟨⟨-, hstar, -⟩, ⟨-, has, -⟩, h⟩ := h
  have hstar := isSymbol_of_kind (hstar.trans kind_star)
  have has := isWord_of_kind (has.trans kind_as)
  rw [wholeImport, Reader.bind_apply, Reader.expect_apply, if_pos hstar, Option.bind_some,
    Reader.bind_apply, Reader.expectWord_apply, if_pos has, Option.bind_some] at hrun
  exact reads_of_bindingName h hrun

/-! ### Sources -/

/-- What is read behind the last token of a declaration: attributes, except behind a renaming
import, and the end of the statement. -/
def ending (r : Rules) : Declaration → Reader Unit
  | .importEquals _ _ _ => Reader.endStatement
  | _ => do
    importAttributes r
    Reader.endStatement

/-- A statement that a reader makes of a declaration, up to the end of the declaration. -/
def IsRead (r : Rules) (behind : List Char) (d : Declaration) (s : Stmt) (c' : Cursor) : Prop :=
  (∃ offset, s = d.statement offset) ∧ ∃ c, c.IsAt behind ∧ ending r d c = some ((), c')

theorem stringLiteral_apply (h : c.Reads behind (.request q :: ts)) :
    Reader.stringLiteral c = some (⟨String.ofList q.chars, c.offset⟩, c.next) := by
  have hkind : c.token.kind = .string := h.1.2.1
  have htext : c.token.text = q.chars := h.1.2.2
  simp [Reader.stringLiteral, hkind, htext]

/-- The source of a declaration is read up to the end of the declaration. -/
theorem isRead_of_moduleSource (h : c.Reads behind [.request d.request]) {make : Literal → Stmt}
    (hmake : ∀ offset, make ⟨String.ofList d.request.chars, offset⟩ = d.statement offset)
    (hending : ending r d = do importAttributes r; Reader.endStatement)
    (hrun : (make <$> moduleSource r) c = some (s, c')) : IsRead r behind d s c' := by
  rw [Reader.map_apply, moduleSource, Reader.bind_apply, stringLiteral_apply h, Option.bind_some,
    Option.map_eq_some_iff] at hrun
  obtain ⟨⟨source, c₃⟩, hrun, hs⟩ := hrun
  obtain ⟨⟨⟩, c₁, hattributes, hrun⟩ := Reader.bind_eq_some_iff.mp hrun
  obtain ⟨⟨⟩, c₂, hend, hrun⟩ := Reader.bind_eq_some_iff.mp hrun
  obtain ⟨rfl, rfl⟩ : ⟨String.ofList d.request.chars, c.offset⟩ = source ∧ c₂ = c₃ := by
    simpa using hrun
  obtain ⟨rfl, rfl⟩ : make ⟨String.ofList d.request.chars, c.offset⟩ = s ∧ c₂ = c' := by
    simpa using hs
  refine ⟨⟨c.offset, hmake c.offset⟩, c.next, h.2, ?_⟩
  rw [hending, Reader.bind_apply, hattributes]
  exact hend

/-! ### Imports -/

theorem phaseModifier_apply (c : Cursor) :
    phaseModifier c = some (if c.token.isWord .defer_ then c.next.token.isSymbol .star
      else c.token.isWord .source_ && c.next.token.isBindingName &&
        c.next.next.token.isWord .from_, c) := by
  cases hdefer : c.token.isWord .defer_ with
  | true => simp [phaseModifier, hdefer]
  | false => cases hsource : c.token.isWord .source_ <;> simp [phaseModifier, hdefer, hsource]

theorem typeModifier_apply (hc : c.dialect = .typedModule) :
    typeModifier c = some (c.token.isWord .type_ &&
      (c.next.token.isSymbol .leftBrace || c.next.token.isSymbol .star ||
        (c.next.token.isBindingName &&
          !(c.next.token.isWord .from_ && c.next.next.token.kind == .string))), c) := by
  cases htype : c.token.isWord .type_ with
  | false => simp [typeModifier, htype]
  | true =>
    cases hlist : c.next.token.isSymbol .leftBrace || c.next.token.isSymbol .star <;>
      simp_all [typeModifier, Dialect.typedModule]

/-- An import behind its announcing word and its modifiers, unless it has no bindings. -/
def importBindings (r : Rules) (typeOnly : Bool) : Reader Stmt := do
  if (← Reader.token).isBindingName then
    Reader.advance
    if (← Reader.token).kind == .string then return .importFrom typeOnly (← moduleSource r)
    else if (← Reader.at? .comma) || (← Reader.atWord .from_) then importClauseRest r true typeOnly
    else importEqualsRest r
  else importClauseRest r false typeOnly

theorem importRest_apply (hstring : (c.token.kind == .string) = false)
    (hphase : phaseModifier c = some (false, c)) (htype : typeModifier c = some (typeOnly, c)) :
    importRest r c = importBindings r typeOnly (if typeOnly then c.next else c) := by
  rw [importRest, Reader.bind_apply, Reader.token_apply, Option.bind_some]
  simp only [hstring, Bool.false_eq_true, if_false]
  rw [Reader.bind_apply, hphase, Option.bind_some]
  simp only [Bool.false_eq_true, if_false]
  rw [Reader.bind_apply, htype, Option.bind_some]
  cases typeOnly <;> rfl

/-- The source of an import is read behind its bindings. -/
theorem isRead_of_importSource (h : c.Reads behind (sourceTokens q))
    (hrun : (do
      Reader.expectWord .from_
      return .importFrom typeOnly (← moduleSource r) : Reader Stmt) c = some (s, c')) :
    IsRead r behind (.importFrom typeOnly clause q) s c' := by
  rw [Reader.bind_apply, Reader.expectWord_apply,
    if_pos (isWord_of_kind (h.1.2.1.trans kind_from)), Option.bind_some, bind_pure_comp] at hrun
  have h₂ : c.next.Reads behind [.request (Declaration.importFrom typeOnly clause q).request] := h.2
  exact isRead_of_moduleSource h₂ (fun _ => rfl) rfl hrun

/-- The clause of an import is read from its star or its bindings in braces on. -/
theorem isRead_of_clauseBindings {b : Bindings} (h : c.Reads behind (b.tokens ++ sourceTokens q))
    (hrun : (do
      if ← Reader.at? .star then wholeImport else importList r
      Reader.expectWord .from_
      return .importFrom typeOnly (← moduleSource r) : Reader Stmt) c = some (s, c')) :
    IsRead r behind (.importFrom typeOnly clause q) s c' := by
  rw [Reader.bind_apply, Reader.at?_apply, Option.bind_some, Reader.ite_apply] at hrun
  cases b with
  | star n =>
    rw [if_pos (isSymbol_of_kind (h.1.2.1.trans kind_star))] at hrun
    obtain ⟨u, c₁, hwhole, hrun⟩ := Reader.bind_eq_some_iff.mp hrun
    exact isRead_of_importSource (reads_of_wholeImport h hwhole) hrun
  | named ms =>
    have hbrace := h.1.2.1.trans kind_leftBrace
    rw [if_neg (by simp [Token.isSymbol, hbrace])] at hrun
    obtain ⟨u, c₁, hlist, hrun⟩ := Reader.bind_eq_some_iff.mp hrun
    exact isRead_of_importSource (reads_of_importList h hlist) hrun

/-- The clause of an import is read from its beginning on, if it has no default name. -/
theorem isRead_of_importClauseRest_false {b : Bindings}
    (h : c.Reads behind (b.tokens ++ sourceTokens q))
    (hrun : importClauseRest r false typeOnly c = some (s, c')) :
    IsRead r behind (.importFrom typeOnly clause q) s c' := by
  have hcomma : c.token.isSymbol .comma = false := by
    cases b with
    | star n =>
      have hkind := h.1.2.1.trans kind_star
      simp [Token.isSymbol, hkind]
    | named ms =>
      have hkind := h.1.2.1.trans kind_leftBrace
      simp [Token.isSymbol, hkind]
  rw [importClauseRest, Reader.bind_apply, Reader.eat_apply, if_neg (by simp [hcomma]),
    Option.bind_some] at hrun
  exact isRead_of_clauseBindings h hrun

/-- The clause of an import is read from behind its default name on. -/
theorem isRead_of_importClauseRest_true {more : Option Bindings}
    (h : c.Reads behind ((more.map fun b => .sign ',' :: b.tokens).getD [] ++ sourceTokens q))
    (hrun : importClauseRest r true typeOnly c = some (s, c')) :
    IsRead r behind (.importFrom typeOnly clause q) s c' := by
  rw [importClauseRest, Reader.bind_apply, Reader.eat_apply] at hrun
  cases more with
  | none =>
    have hfrom := h.1.2.1.trans kind_from
    rw [if_neg (by simp [Token.isSymbol, hfrom]), Option.bind_some] at hrun
    exact isRead_of_importSource h hrun
  | some b =>
    rw [if_pos (isSymbol_of_kind (h.1.2.1.trans kind_comma)), Option.bind_some] at hrun
    exact isRead_of_clauseBindings h.2 hrun

theorem importBindings_apply (hname : c.token.isBindingName = true)
    (hstring : c.next.token.kind ≠ .string) :
    importBindings r typeOnly c =
      if c.next.token.isSymbol .comma || c.next.token.isWord .from_ then
        importClauseRest r true typeOnly c.next
      else importEqualsRest r c.next := by
  simp [importBindings, hname, hstring]

/-- A name that may not name a binding begins no clause. -/
theorem importBindings_eq_none (hname : c.token.isName = true)
    (hbinding : c.token.isBindingName = false) : importBindings r typeOnly c = none := by
  have hsymbol := isSymbol_eq_false_of_isName hname
  simp [importBindings, hbinding, importClauseRest, importList, hsymbol]

/-- The clause of an import is read behind the modifiers of the import. -/
theorem isRead_of_importBindings (h : c.Reads behind (clause.tokens ++ sourceTokens q))
    (hrun : importBindings r typeOnly c = some (s, c')) :
    IsRead r behind (.importFrom typeOnly clause q) s c' := by
  rcases clause with ⟨n, more⟩ | b
  · have hname := isName_of_kind h.1.2.1
    cases hbinding : c.token.isBindingName with
    | false => simp [importBindings_eq_none hname hbinding] at hrun
    | true =>
      -- The name is followed by a comma or by `from`.
      have hnext : c.next.token.kind ≠ .string ∧
          (c.next.token.isSymbol .comma || c.next.token.isWord .from_) = true := by
        cases more with
        | none =>
          have hkind := h.2.1.2.1.trans kind_from
          simp [Token.isWord, hkind]
        | some b =>
          have hkind := h.2.1.2.1.trans kind_comma
          simp [Token.isSymbol, hkind]
      rw [importBindings_apply hbinding hnext.1, if_pos hnext.2] at hrun
      exact isRead_of_importClauseRest_true h.2 hrun
  · have hbinding : c.token.isBindingName = false := by
      cases b with
      | star n => simp [Token.isBindingName, h.1.2.1.trans kind_star]
      | named ms => simp [Token.isBindingName, h.1.2.1.trans kind_leftBrace]
    have hrest : importBindings r typeOnly c = importClauseRest r false typeOnly c := by
      simp [importBindings, hbinding]
    exact isRead_of_importClauseRest_false h (hrest ▸ hrun)

/-- A renaming import is read behind its name. -/
theorem isRead_of_importEqualsRest
    (h : c.Reads behind [.sign '=', keyword "require", .sign '(', .request q, .sign ')'])
    (hrun : importEqualsRest r c = some (s, c')) :
    IsRead r behind (.importEquals exported n q) s c' := by
  obtain ⟨⟨-, h₁, -⟩, ⟨-, h₂, -⟩, ⟨-, h₃, -⟩, h₄⟩ := h
  have hclose := isSymbol_of_kind (h₄.2.1.2.1.trans kind_rightParen)
  have hrest : importEqualsRest r c = (Reader.endStatement c.next.next.next.next.next).map fun a =>
      (.importEquals (some ⟨String.ofList q.chars, c.next.next.next.offset⟩), a.2) := by
    simp [importEqualsRest, isSymbol_of_kind (h₁.trans kind_assign),
      isWord_of_kind (h₂.trans kind_require), isSymbol_of_kind (h₃.trans kind_leftParen),
      stringLiteral_apply h₄, hclose]
  rw [hrest] at hrun
  obtain ⟨⟨⟨⟩, c₁⟩, hend, hrun⟩ := Option.map_eq_some_iff.mp hrun
  obtain ⟨rfl, rfl⟩ : .importEquals (some ⟨String.ofList q.chars, c.next.next.next.offset⟩) = s ∧
      c₁ = c' := by
    simpa using hrun
  exact ⟨⟨_, rfl⟩, _, h₄.2.2, hend⟩

/-- No phase is announced in front of a clause. -/
theorem phaseModifier_clause (h : c.Reads behind (clause.tokens ++ sourceTokens q)) :
    phaseModifier c = some (false, c) := by
  rw [phaseModifier_apply]
  rcases clause with ⟨n, _ | b⟩ | _ | ms
  · have hfrom := h.2.1.2.1.trans kind_from
    have hstring : c.next.next.token.kind = .string := h.2.2.1.2.1
    simp [Token.isSymbol, Token.isWord, hfrom, hstring]
  · have hcomma := h.2.1.2.1.trans kind_comma
    simp [Token.isSymbol, Token.isWord, Token.isBindingName, hcomma]
  · have hstar := h.1.2.1.trans kind_star
    simp [Token.isWord, hstar]
  · have hbrace := h.1.2.1.trans kind_leftBrace
    simp [Token.isWord, hbrace]

/-- A clause is not taken for one behind the modifier `type`, even if its default name is written
so. -/
theorem typeModifier_clause (h : c.Reads behind (clause.tokens ++ sourceTokens q)) :
    typeModifier c = some (false, c) := by
  have hdialect : c.dialect = .typedModule := by
    rcases clause with ⟨n, more⟩ | _ | ms <;> exact h.1.1
  rw [typeModifier_apply hdialect]
  rcases clause with ⟨n, _ | b⟩ | _ | ms
  · have hfrom := h.2.1.2.1.trans kind_from
    have hstring : c.next.next.token.kind = .string := h.2.2.1.2.1
    simp [Token.isSymbol, Token.isWord, hfrom, hstring]
  · have hcomma := h.2.1.2.1.trans kind_comma
    simp [Token.isSymbol, Token.isBindingName, hcomma]
  · have hstar := h.1.2.1.trans kind_star
    simp [Token.isWord, hstar]
  · have hbrace := h.1.2.1.trans kind_leftBrace
    simp [Token.isWord, hbrace]

theorem kind_clause_ne_string (h : c.Reads behind (clause.tokens ++ sourceTokens q)) :
    c.token.kind ≠ .string := by
  rcases clause with ⟨n, more⟩ | _ | ms
  · have hname := isName_of_kind h.1.2.1
    intro hkind
    simp [Token.isName, hkind] at hname
  · simp [h.1.2.1.trans kind_star]
  · simp [h.1.2.1.trans kind_leftBrace]

/-- In front of a name that no string follows soon, `type` is a modifier.  Where the name is
reserved, `type` is taken for a name itself, and nothing is read. -/
theorem importRest_type (hc : c.dialect = .typedModule) (hkind : c.token.kind = .keyword .type_)
    (hname : c.next.token.isName = true) (hstring : c.next.next.token.kind ≠ .string) :
    importRest r c = if c.next.token.isBindingName then importBindings r true c.next else none := by
  have hlist := isSymbol_eq_false_of_isName hname
  have hself : (c.token.kind == .string) = false := by simp [hkind]
  have hphase : phaseModifier c = some (false, c) := by
    rw [phaseModifier_apply]
    simp [Token.isWord, hkind]
  have hmodifier := typeModifier_apply hc
  rw [isWord_of_kind hkind, Bool.true_and, hlist, hlist] at hmodifier
  cases hbinding : c.next.token.isBindingName with
  | true =>
    rw [hbinding, beq_false_of_ne hstring, Bool.and_false] at hmodifier
    rw [importRest_apply hself hphase hmodifier]
    rfl
  | false =>
    have hfrom : c.next.token.isWord .from_ = false := by
      by_contra hfrom
      rw [Bool.not_eq_false, Token.isWord, beq_iff_eq] at hfrom
      simp [Token.isBindingName, hfrom, Keyword.isReserved] at hbinding
    have htype : c.token.isBindingName = true := by
      simp [Token.isBindingName, hkind, Keyword.isReserved]
    have hnext : c.next.token.kind ≠ .string := by
      intro hnext
      simp [Token.isName, hnext] at hname
    simp only [hbinding, Bool.false_and, Bool.or_false] at hmodifier
    rw [importRest_apply hself hphase hmodifier, if_neg Bool.false_ne_true,
      importBindings_apply htype hnext, hlist, hfrom]
    simp [importEqualsRest, hlist]

/-- Behind the modifier `type`, the clause of an import is read, or nothing is. -/
theorem isRead_of_typeModifier
    (h : c.Reads behind (.modifier "type".toList :: clause.tokens ++ sourceTokens q))
    (hrun : importRest r c = some (s, c')) : IsRead r behind (.importFrom true clause q) s c' := by
  have hkind := h.1.2.1.trans kind_type
  rcases clause with ⟨n, more⟩ | b
  · have hnext : c.next.next.token.kind ≠ .string := by
      cases more with
      | none => simp [h.2.2.1.2.1.trans kind_from]
      | some b => simp [h.2.2.1.2.1.trans kind_comma]
    rw [importRest_type h.1.1 hkind (isName_of_kind h.2.1.2.1) hnext] at hrun
    split at hrun
    · exact isRead_of_importBindings h.2 hrun
    · simp at hrun
  · have hphase : phaseModifier c = some (false, c) := by
      rw [phaseModifier_apply]
      simp [Token.isWord, hkind]
    have hlist : (c.next.token.isSymbol .leftBrace || c.next.token.isSymbol .star) = true := by
      cases b with
      | star n => simp [Token.isSymbol, h.2.1.2.1.trans kind_star]
      | named ms => simp [Token.isSymbol, h.2.1.2.1.trans kind_leftBrace]
    have hmodifier := typeModifier_apply h.1.1
    rw [isWord_of_kind hkind, Bool.true_and, hlist, Bool.true_or] at hmodifier
    rw [importRest_apply (by simp [hkind]) hphase hmodifier] at hrun
    exact isRead_of_importBindings h.2 hrun

/-- An import is read behind its announcing word. -/
theorem isRead_of_importRest
    (h : c.Reads behind (typeTokens typeOnly ++ clause.tokens ++ sourceTokens q))
    (hrun : importRest r c = some (s, c')) :
    IsRead r behind (.importFrom typeOnly clause q) s c' := by
  cases typeOnly with
  | true => exact isRead_of_typeModifier h hrun
  | false =>
    have h : c.Reads behind (clause.tokens ++ sourceTokens q) := h
    have hstring : (c.token.kind == .string) = false := beq_false_of_ne (kind_clause_ne_string h)
    rw [importRest_apply hstring (phaseModifier_clause h) (typeModifier_clause h)] at hrun
    exact isRead_of_importBindings h hrun

/-- A renaming import is read behind its announcing word. -/
theorem isRead_of_importRest_equals
    (h : c.Reads behind [n.token, .sign '=', keyword "require", .sign '(', .request q, .sign ')'])
    (hrun : importRest r c = some (s, c')) : IsRead r behind (.importEquals exported n q) s c' := by
  have hname := isName_of_kind h.1.2.1
  have hequals := h.2.1.2.1.trans kind_assign
  have hstring : (c.token.kind == .string) = false := by
    rw [beq_eq_false_iff_ne]
    intro hkind
    simp [Token.isName, hkind] at hname
  have hphase : phaseModifier c = some (false, c) := by
    rw [phaseModifier_apply]
    simp [Token.isSymbol, Token.isBindingName, hequals]
  have hmodifier : typeModifier c = some (false, c) := by
    rw [typeModifier_apply h.1.1]
    simp [Token.isSymbol, Token.isBindingName, hequals]
  rw [importRest_apply hstring hphase hmodifier, if_neg Bool.false_ne_true] at hrun
  cases hbinding : c.token.isBindingName with
  | false => simp [importBindings_eq_none hname hbinding] at hrun
  | true =>
    rw [importBindings_apply hbinding (by simp [hequals]),
      if_neg (by simp [Token.isSymbol, Token.isWord, hequals])] at hrun
    exact isRead_of_importEqualsRest h.2 hrun

/-- A renaming import is read behind `export`. -/
theorem isRead_of_declaredImport
    (h : c.Reads behind
      [keyword "import", n.token, .sign '=', keyword "require", .sign '(', .request q, .sign ')'])
    (hrun : declaredImport r c = some (s, c')) :
    IsRead r behind (.importEquals exported n q) s c' := by
  have himport := isWord_of_kind (h.1.2.1.trans kind_import)
  have hequals := h.2.2.1.2.1.trans kind_assign
  have hrest : declaredImport r c = (do
      Reader.bindingName
      importEqualsRest r : Reader Stmt) c.next := by
    simp [declaredImport, himport, Token.isBindingName, hequals]
  rw [hrest] at hrun
  obtain ⟨u, c₁, hname, hrun⟩ := Reader.bind_eq_some_iff.mp hrun
  exact isRead_of_importEqualsRest (reads_of_bindingName h.2 hname) hrun

/-! ### Exports -/

/-- The export of all names is read from its star on. -/
theorem isRead_of_exportAll {renamed : Option Declaration.Name}
    (h : c.Reads behind
      (.sign '*' :: (renamed.map fun n => [keyword "as", n.token]).getD [] ++ sourceTokens q))
    (hrun : exportAll r c = some (s, c')) :
    IsRead r behind (.exportAll typeOnly renamed q) s c' := by
  have hstar := isSymbol_of_kind (h.1.2.1.trans kind_star)
  -- The source follows the star, or the name that the star is given.
  obtain ⟨c₁, h₁, hrest⟩ : ∃ c₁, c₁.Reads behind (sourceTokens q) ∧
      exportAll r c = (do
        Reader.expectWord .from_
        return .exportFrom (← moduleSource r) : Reader Stmt) c₁ := by
    cases renamed with
    | none =>
      have hfrom := h.2.1.2.1.trans kind_from
      refine ⟨c.next, h.2, ?_⟩
      simp [exportAll, hstar, Token.isWord, hfrom]
    | some n =>
      have has := isWord_of_kind (h.2.1.2.1.trans kind_as)
      have hname := exportName_apply h.2.2.1.2.1
      refine ⟨c.next.next.next, h.2.2.2, ?_⟩
      simp [exportAll, hstar, has, hname]
  rw [hrest, Reader.bind_apply, Reader.expectWord_apply,
    if_pos (isWord_of_kind (h₁.1.2.1.trans kind_from)), Option.bind_some, bind_pure_comp] at hrun
  have h₂ : c₁.next.Reads behind [.request (Declaration.exportAll typeOnly renamed q).request] :=
    h₁.2
  exact isRead_of_moduleSource h₂ (fun _ => rfl) rfl hrun

/-- The export of listed names is read from its opening brace on. -/
theorem isRead_of_exportList {ms : Members} (h : c.Reads behind (ms.tokens ++ sourceTokens q))
    (hrun : exportList r c = some (s, c')) : IsRead r behind (.exportNamed typeOnly ms q) s c' := by
  have hlist : exportList r = (do
      importList r
      if ← Reader.eatWord .from_ then
        let t ← Reader.token
        if t.kind == .string then return .exportFrom (← moduleSource r)
        if t.isOtherLiteral then Reader.refuse
      Reader.endStatement
      return .other) := by
    simp only [exportList, importList, bind_assoc]
  rw [hlist] at hrun
  obtain ⟨u, c₁, hlist, hrun⟩ := Reader.bind_eq_some_iff.mp hrun
  have h₁ := reads_of_importList h hlist
  have hfrom := isWord_of_kind (h₁.1.2.1.trans kind_from)
  have hstring : c₁.next.token.kind = .string := h₁.2.1.2.1
  have hsource : (Stmt.exportFrom <$> moduleSource r) c₁.next = some (s, c') := by
    simpa [hfrom, hstring] using hrun
  have h₂ : c₁.next.Reads behind [.request (Declaration.exportNamed typeOnly ms q).request] := h₁.2
  exact isRead_of_moduleSource h₂ (fun _ => rfl) rfl hsource

theorem ne_import_of_kind {t : Declaration.Token} (hkind : c.token.kind = .keyword .export_)
    (h : c.Reads behind (t :: ts)) : t ≠ keyword "import" := by
  rintro rfl
  simp [h.1.2.1.trans kind_import] at hkind

theorem ne_export_of_kind {t : Declaration.Token} (hkind : c.token.kind = .keyword .import_)
    (h : c.Reads behind (t :: ts)) : t ≠ .modifier "export".toList := by
  rintro rfl
  simp [h.1.2.1.trans kind_export] at hkind

/-- A declaration that begins with `export` is read from that word on. -/
theorem isRead_of_exportStatement (hkind : c.token.kind = .keyword .export_)
    (h : c.Reads behind d.tokens) (hrun : exportStatement r c = some (s, c')) :
    IsRead r behind d s c' := by
  have hexport := isWord_of_kind hkind
  cases d with
  | bare q => exact absurd rfl (ne_import_of_kind hkind h)
  | importFrom typeOnly clause q => exact absurd rfl (ne_import_of_kind hkind h)
  | importEquals exported n q =>
    cases exported with
    | false => exact absurd rfl (ne_import_of_kind hkind h)
    | true =>
      have himport := h.2.1.2.1.trans kind_import
      have hrest : exportStatement r c = declaredImport r c.next := by
        simp [exportStatement, hexport, himport]
      exact isRead_of_declaredImport h.2 (hrest ▸ hrun)
  | exportAll typeOnly renamed q =>
    cases typeOnly with
    | false =>
      have hstar := h.2.1.2.1.trans kind_star
      have hrest : exportStatement r c = exportAll r c.next := by
        simp [exportStatement, hexport, hstar]
      exact isRead_of_exportAll h.2 (hrest ▸ hrun)
    | true =>
      have htype := h.2.1.2.1.trans kind_type
      have hstar := h.2.2.1.2.1.trans kind_star
      have hrest : exportStatement r c = exportAll r c.next.next := by
        simp [exportStatement, hexport, htype, hstar, Token.isSymbol, h.2.1.1, Dialect.typedModule]
      exact isRead_of_exportAll h.2.2 (hrest ▸ hrun)
  | exportNamed typeOnly ms q =>
    cases typeOnly with
    | false =>
      have hbrace := h.2.1.2.1.trans kind_leftBrace
      have hrest : exportStatement r c = exportList r c.next := by
        simp [exportStatement, hexport, hbrace]
      exact isRead_of_exportList h.2 (hrest ▸ hrun)
    | true =>
      have htype := h.2.1.2.1.trans kind_type
      have hbrace := h.2.2.1.2.1.trans kind_leftBrace
      have hrest : exportStatement r c = exportList r c.next.next := by
        simp [exportStatement, hexport, htype, hbrace, Token.isSymbol, h.2.1.1,
          Dialect.typedModule]
      exact isRead_of_exportList h.2.2 (hrest ▸ hrun)

/-- A declaration that begins with `import` is read behind that word. -/
theorem isRead_of_importStatement (hkind : c.token.kind = .keyword .import_)
    (h : c.Reads behind d.tokens) (hrun : importRest r c.next = some (s, c')) :
    IsRead r behind d s c' := by
  cases d with
  | bare q =>
    have hstring : c.next.token.kind = .string := h.2.1.2.1
    have hsource : (Stmt.importFrom false <$> moduleSource r) c.next = some (s, c') := by
      simpa [importRest, hstring] using hrun
    have h₁ : c.next.Reads behind [.request (Declaration.bare q).request] := h.2
    exact isRead_of_moduleSource h₁ (fun _ => rfl) rfl hsource
  | importFrom typeOnly clause q => exact isRead_of_importRest h.2 hrun
  | importEquals exported n q =>
    cases exported with
    | false => exact isRead_of_importRest_equals h.2 hrun
    | true => exact absurd rfl (ne_export_of_kind hkind h)
  | exportAll typeOnly renamed q => exact absurd rfl (ne_export_of_kind hkind h)
  | exportNamed typeOnly ms q => exact absurd rfl (ne_export_of_kind hkind h)

theorem kind_first (h : c.Reads behind d.tokens) :
    c.token.kind = .keyword .import_ ∨ c.token.kind = .keyword .export_ := by
  cases d with
  | bare q => exact .inl (h.1.2.1.trans kind_import)
  | importFrom typeOnly clause q => exact .inl (h.1.2.1.trans kind_import)
  | importEquals exported n q =>
    cases exported with
    | false => exact .inl (h.1.2.1.trans kind_import)
    | true => exact .inr (h.1.2.1.trans kind_export)
  | exportAll typeOnly renamed q => exact .inr (h.1.2.1.trans kind_export)
  | exportNamed typeOnly ms q => exact .inr (h.1.2.1.trans kind_export)

/-- No declaration looks like an expression that begins with `import`. -/
theorem isSymbol_second (hkind : c.token.kind = .keyword .import_) (h : c.Reads behind d.tokens) :
    c.next.token.isSymbol .dot = false ∧ c.next.token.isSymbol .leftParen = false := by
  have hname (hname : c.next.token.isName = true) := And.intro
    (isSymbol_eq_false_of_isName hname .dot) (isSymbol_eq_false_of_isName hname .leftParen)
  cases d with
  | bare q =>
    have hstring : c.next.token.kind = .string := h.2.1.2.1
    simp [Token.isSymbol, hstring]
  | importFrom typeOnly clause q =>
    cases typeOnly with
    | true => exact hname (isName_of_kind (n := Declaration.typeName) h.2.1.2.1)
    | false =>
      rcases clause with ⟨n, more⟩ | _ | ms
      · exact hname (isName_of_kind h.2.1.2.1)
      · simp [Token.isSymbol, h.2.1.2.1.trans kind_star]
      · simp [Token.isSymbol, h.2.1.2.1.trans kind_leftBrace]
  | importEquals exported n q =>
    cases exported with
    | false => exact hname (isName_of_kind h.2.1.2.1)
    | true => exact absurd rfl (ne_export_of_kind hkind h)
  | exportAll typeOnly renamed q => exact absurd rfl (ne_export_of_kind hkind h)
  | exportNamed typeOnly ms q => exact absurd rfl (ne_export_of_kind hkind h)

/-- A statement that is read where a declaration stands is the statement of the declaration. -/
theorem isRead_of_statement {alone : Bool} (h : c.Reads behind d.tokens)
    (hrun : statement r alone c = some (s, c')) : IsRead r behind d s c' := by
  rcases kind_first h with hkind | hkind
  · have hrest : statement r alone c = importRest r c.next := by
      simp [statement, wordStatement, hkind, importStatement, isSymbol_second hkind h,
        isWord_of_kind hkind]
    exact isRead_of_importStatement hkind h (hrest ▸ hrun)
  · have hrest : statement r alone c = exportStatement r c := by
      simp [statement, wordStatement, hkind]
    exact isRead_of_exportStatement hkind h (hrest ▸ hrun)

end ModuleGraph.Source

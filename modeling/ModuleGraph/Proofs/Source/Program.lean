import ModuleGraph.Proofs.Scan.ModuleText
import ModuleGraph.Proofs.Source.Declarations
import ModuleGraph.Proofs.Source.Leading

/-!
# Programs that begin with declarations

A text that begins with declarations, kept apart by gaps and marks that end statements, has a syntax
tree that begins with the statements of these declarations, if it has a syntax tree at all.  It does
not matter what follows the declarations, nor whether the tree is complete: what has been read stays
read.

## Main definitions

* `Scan.Part.IsPlain`: a declaration with nothing but gaps and marks that end statements in front of
  it, in a layout that the reader understands.
* `Source.Cursor.HasReached`: a cursor has gone as far as to a text.

## Main results

* `Source.leading_parts`, `Source.statements_parts`: the statements that are read begin with those
  of the declarations.
* `Source.specifiers_of_parse?`: the specifiers of a syntax tree begin with those of the
  declarations that the text begins with.
* `Source.specifiers_of_leading`: they go on with those of the declarations that reading comes to.
-/

namespace ModuleGraph

open Scan

/-- A part of what stands between declarations that is no statement of its own: a piece of a gap, or
the mark that ends a statement. -/
def Scan.Between.IsPlain : Between → Prop
  | .piece p => p.IsPlain
  | .filler f => f.chars = [';']

/-- A declaration that the reader understands, with nothing but gaps and marks that end statements
in front of it. -/
structure Scan.Part.IsPlain (p : Part) : Prop where
  before : ∀ b ∈ p.before, b.IsPlain
  layout : p.layout.IsPlain

namespace Source

/-! ### The end of a statement -/

theorem endStatement_apply {c c' : Cursor} (h : Reader.endStatement c = some ((), c')) :
    c' = if c.token.isSymbol .semicolon then c.next else c := by
  obtain ⟨canEnd, c₁, hcan, h⟩ := Reader.bind_eq_some_iff.mp h
  obtain ⟨-, rfl⟩ : _ = canEnd ∧ c = c₁ := by simpa [Reader.canEnd] using hcan
  cases canEnd with
  | false => simp at h
  | true =>
    split <;> simp_all

theorem ending_apply {r : Rules} {d : Declaration} {c c' : Cursor}
    (hwith : c.token.isWord .with_ = false) (hassert : c.token.isWord .assert_ = false)
    (h : ending r d c = some ((), c')) :
    c' = if c.token.isSymbol .semicolon then c.next else c := by
  have hattributes : importAttributes r c = some ((), c) := by
    simp [importAttributes, hwith, hassert]
  cases d with
  | importEquals exported n q => exact endStatement_apply h
  | bare q | importFrom typeOnly clause q | exportAll typeOnly n q | exportNamed typeOnly ms q =>
    rw [ending, Reader.bind_apply, hattributes] at h
    · exact endStatement_apply h
    · simp

/-! ### Between declarations -/

theorem kind_semicolon : (Declaration.Token.sign ';').kind = .symbol .semicolon := by decide

/-- A cursor in front of a mark that ends a statement stands at it. -/
theorem Cursor.IsAt.semicolon {c : Cursor} {text : List Char} (h : c.IsAt (';' :: text)) :
    c.token.kind = .symbol .semicolon ∧ c.next.IsAt text := by
  have hplain : (Declaration.Token.sign ';').IsPlain := by simp [Declaration.Token.IsPlain]
  have h : c.IsAt ((Declaration.Token.sign ';').chars ++ text) := h
  obtain ⟨hc, hkind, -, hrest⟩ := h.token hplain fun d _ => rfl
  exact ⟨hkind.trans kind_semicolon, hrest ▸ Cursor.isAt_next hplain hc hkind⟩

/-- A piece of a gap in front of a token does not matter to a cursor. -/
theorem Cursor.IsAt.of_piece {c : Cursor} {p : Comment.Piece} (hp : p.IsPlain) {text : List Char}
    (h : c.IsAt (p.text ++ text)) : c.IsAt text := by
  have h : c.IsAt (Comment.Gap.text [p] ++ text) := by simpa [Comment.Gap.text] using h
  exact h.of_gap (by simpa using hp)

/-- A cursor has gone as far as to a text that ends the whole text, or nothing is read behind it. -/
def Cursor.HasReached (text : List Char) (c : Cursor) : Prop :=
  c.token.isLast = true ∨ c.here.length ≤ text.length

theorem Cursor.HasReached.append {c : Cursor} {text : List Char} (h : c.HasReached text)
    (front : List Char) : c.HasReached (front ++ text) :=
  h.imp_right fun h => h.trans (List.length_append ▸ Nat.le_add_left _ _)

theorem Cursor.IsAt.hasReached {c : Cursor} {text : List Char} (h : c.IsAt text) :
    c.HasReached text :=
  .inr h.here_suffix.length_le

/-- A cursor at a token has not reached what stands behind the token. -/
theorem Cursor.IsAt.not_hasReached {c : Cursor} {d : Char} {ds text : List Char}
    (hd : startsToken d = true) (hlast : c.token.isLast = false) (h : c.IsAt (d :: (ds ++ text))) :
    ¬ c.HasReached text := by
  rintro (hc | hc)
  · simp [hlast] at hc
  · rw [h.here_eq hd, List.length_cons, List.length_append] at hc
    omega

/-- What stands in front of a declaration is read as statements that name no module. -/
theorem leading_between {r rules : Rules} (hrules : rules.statement = statement r)
    {bs : List Between} (hbs : ∀ b ∈ bs, b.IsPlain) {text : List Char} {count : Nat}
    {c c' : Cursor} {front : List Stmt} (h : c.IsAt (bs.flatMap Between.text ++ text))
    (hrun : leading rules count c = some (front, c')) (hend : c'.HasReached text)
    (dynamic : Bool) :
    ∃ count₁ c₁ front₁, c₁.IsAt text ∧ leading rules count₁ c₁ = some (front₁, c') ∧
      front.flatMap (Stmt.specifiers dynamic) = front₁.flatMap (Stmt.specifiers dynamic) := by
  induction bs generalizing count c front with
  | nil => exact ⟨count, c, front, h, hrun, rfl⟩
  | cons b bs ih =>
    have hbs' : ∀ b ∈ bs, b.IsPlain := fun a ha => hbs a (List.mem_cons_of_mem b ha)
    have hb := hbs b List.mem_cons_self
    rw [List.flatMap_cons, List.append_assoc] at h
    cases b with
    | piece p => exact ih hbs' (h.of_piece hb) hrun
    | filler f =>
      have htext : (Between.filler f).text = [';'] := hb
      rw [htext] at h
      obtain ⟨hkind, hnext⟩ := h.semicolon
      have hlast : c.token.isLast = false := by simp [Token.isLast, hkind]
      cases count with
      | zero =>
        obtain ⟨-, rfl⟩ := Prod.mk.inj (Option.some.inj hrun)
        exact absurd hend (h.not_hasReached (by decide) hlast)
      | succ count =>
        have hstatement : rules.statement false c = some (.other, c.next) := by
          simp [hrules, statement, hkind]
        obtain ⟨-, s, c₁, more, hs, hmore, rfl⟩ := leading_succ_eq_some_iff.mp hrun
        obtain ⟨rfl, rfl⟩ := Prod.mk.inj (Option.some.inj (hstatement.symm.trans hs))
        obtain ⟨count₁, c₁, front₁, h₁, hrun₁, hfront⟩ := ih hbs' hnext hmore
        exact ⟨count₁, c₁, front₁, h₁, hrun₁, hfront⟩

/-- The end of a declaration goes at most up to the mark that ends it, if another declaration
follows. -/
theorem exists_between_of_ending {r : Rules} {d d' : Declaration} {l : d'.Layout} (hl : l.IsPlain)
    {bs : List Between} (hbs : ∀ b ∈ bs, b.IsPlain) {text : List Char} {c c' : Cursor}
    (h : c.IsAt (bs.flatMap Between.text ++ (l.text ++ text)))
    (hrun : ending r d c = some ((), c')) :
    ∃ bs' : List Between, (∀ b ∈ bs', b.IsPlain) ∧
      c'.IsAt (bs'.flatMap Between.text ++ (l.text ++ text)) := by
  induction bs with
  | nil =>
    have hkind := kind_first (Cursor.reads_layout hl h)
    have hc' := ending_apply (by rcases hkind with h | h <;> simp [Token.isWord, h])
      (by rcases hkind with h | h <;> simp [Token.isWord, h]) hrun
    rw [if_neg (by rcases hkind with h | h <;> simp [Token.isSymbol, h])] at hc'
    exact ⟨[], hbs, hc' ▸ h⟩
  | cons b bs ih =>
    have hbs' : ∀ b ∈ bs, b.IsPlain := fun a ha => hbs a (List.mem_cons_of_mem b ha)
    have hb := hbs b List.mem_cons_self
    rw [List.flatMap_cons, List.append_assoc] at h
    cases b with
    | piece p => exact ih hbs' (h.of_piece hb)
    | filler f =>
      have htext : (Between.filler f).text = [';'] := hb
      rw [htext] at h
      obtain ⟨hkind, hnext⟩ := h.semicolon
      have hc' := ending_apply (by simp [Token.isWord, hkind]) (by simp [Token.isWord, hkind]) hrun
      rw [if_pos (isSymbol_of_kind hkind)] at hc'
      exact ⟨bs, hbs', hc' ▸ hnext⟩

/-! ### The beginning of a declaration -/

/-- Whether tokens begin with one of the words that announce declarations. -/
def IsAnnounced (ts : List Declaration.Token) : Prop :=
  ts.head? = some (Declaration.keyword "import") ∨ ts.head? = some (.modifier "export".toList)

theorem isAnnounced_tokens (d : Declaration) : IsAnnounced d.tokens := by
  cases d with
  | bare q => exact .inl rfl
  | importFrom typeOnly clause q => exact .inl rfl
  | importEquals exported n q =>
    cases exported with
    | false => exact .inl rfl
    | true => exact .inr rfl
  | exportAll typeOnly n q => exact .inr rfl
  | exportNamed typeOnly ms q => exact .inr rfl

/-- A declaration begins with a letter. -/
theorem exists_writing_text_eq_cons {ts : List Declaration.Token} (h : IsAnnounced ts)
    (w : Declaration.Writing ts) : ∃ c cs, w.text = c :: cs ∧ c ≠ '#' ∧ startsToken c = true := by
  obtain ⟨first, later, rfl, hapart⟩ := w
  rcases h with h | h
  · obtain rfl : first = Declaration.keyword "import" := Option.some.inj h
    exact ⟨'i', _, rfl, by decide, by decide⟩
  · obtain rfl : first = .modifier "export".toList := Option.some.inj h
    exact ⟨'e', _, rfl, by decide, by decide⟩

theorem isLast_of_isAnnounced {ts : List Declaration.Token} (h : IsAnnounced ts) {c : Cursor}
    {behind : List Char} (hreads : c.Reads behind ts) : c.token.isLast = false := by
  cases ts with
  | nil => simp [IsAnnounced] at h
  | cons t ts =>
    rcases h with h | h
    · obtain rfl : t = Declaration.keyword "import" := Option.some.inj h
      simp [Token.isLast, hreads.1.2.1.trans kind_import]
    · obtain rfl : t = .modifier "export".toList := Option.some.inj h
      simp [Token.isLast, hreads.1.2.1.trans kind_export]

/-- In front of a declaration, a cursor has not reached what stands behind it. -/
theorem not_hasReached_of_isAt_writing {ts : List Declaration.Token} (w : Declaration.Writing ts)
    (hts : IsAnnounced ts) {c : Cursor} {behind : List Char} (hreads : c.Reads behind ts)
    (h : c.IsAt (w.text ++ behind)) : ¬ c.HasReached behind := by
  obtain ⟨d, ds, htext, -, hd⟩ := exists_writing_text_eq_cons hts w
  rw [htext] at h
  exact h.not_hasReached hd (isLast_of_isAnnounced hts hreads)

/-! ### Declarations in sequence -/

/-- The statements that are read begin with those of the declarations, if reading goes on behind
these. -/
theorem leading_parts {r rules : Rules} (hrules : rules.statement = statement r)
    {ps : List Part} (hps : ∀ p ∈ ps, p.IsPlain) {text : List Char} {count : Nat}
    {c c' : Cursor} {front : List Stmt} (h : c.IsAt (ps.flatMap Part.text ++ text))
    (hrun : leading rules count c = some (front, c')) (hend : c'.HasReached text)
    (dynamic : Bool) :
    ps.map (fun p => p.declaration.specifier) <+: front.flatMap (Stmt.specifiers dynamic) := by
  -- On the number of declarations: the end of one may take the mark in front of the next.
  induction hlength : ps.length generalizing ps count c front with
  | zero =>
    obtain rfl := List.length_eq_zero_iff.mp hlength
    exact List.nil_prefix
  | succ length ih =>
    obtain ⟨p, ps, rfl⟩ := List.exists_cons_of_length_eq_add_one hlength
    obtain ⟨hp, hps⟩ := List.forall_mem_cons.mp hps
    rw [List.flatMap_cons, Part.text, List.append_assoc, List.append_assoc] at h
    have hend' := hend.append (ps.flatMap Part.text)
    obtain ⟨count₁, c₁, front₁, h₁, hrun₁, hfront⟩ :=
      leading_between hrules hp.before h hrun (hend'.append p.layout.text) dynamic
    have hreads := Cursor.reads_layout hp.layout h₁
    cases count₁ with
    | zero =>
      obtain ⟨-, rfl⟩ := Prod.mk.inj (Option.some.inj hrun₁)
      exact absurd hend' (not_hasReached_of_isAt_writing p.layout.writing
        (isAnnounced_tokens p.declaration) hreads h₁)
    | succ count₁ =>
      obtain ⟨-, s, c₂, more, hstatement, hmore, rfl⟩ := leading_succ_eq_some_iff.mp hrun₁
      rw [hrules] at hstatement
      obtain ⟨⟨offset, rfl⟩, c₄, h₄, hending⟩ := isRead_of_statement hreads hstatement
      rw [hfront, List.flatMap_cons, Declaration.specifiers_statement, List.map_cons,
        List.singleton_append, List.cons_prefix_cons]
      refine ⟨rfl, ?_⟩
      cases ps with
      | nil => exact List.nil_prefix
      | cons q qs =>
        obtain ⟨hq, hqs⟩ := List.forall_mem_cons.mp hps
        rw [List.flatMap_cons, Part.text, List.append_assoc, List.append_assoc] at h₄
        obtain ⟨before, hbefore, h₂⟩ := exists_between_of_ending hq.layout hq.before h₄ hending
        let q' : Part := { q with before }
        have hq' : q'.IsPlain := ⟨hbefore, hq.layout⟩
        have h₂ : c₂.IsAt ((q' :: qs).flatMap Part.text ++ text) := by
          simpa [Part.text] using h₂
        exact ih (List.forall_mem_cons.mpr ⟨hq', hqs⟩) h₂ hmore (by simpa using hlength)

/-- All statements begin with those of the declarations, whatever follows. -/
theorem statements_parts {r rules : Rules} (hrules : rules.statement = statement r)
    {ps : List Part} (hps : ∀ p ∈ ps, p.IsPlain) {text : List Char} {fuel : Nat}
    {c c' : Cursor} {body : List Stmt} (h : c.IsAt (ps.flatMap Part.text ++ text))
    (hrun : statements rules fuel c = some (body, c')) (dynamic : Bool) :
    ps.map (fun p => p.declaration.specifier) <+: body.flatMap (Stmt.specifiers dynamic) := by
  obtain ⟨hleading, hlast⟩ := leading_of_statements hrun
  exact leading_parts hrules hps h hleading (.inl hlast) dynamic

/-! ### Programs -/

/-- A statement that consists of a string names no module. -/
theorem specifiers_of_isDirective {s : Stmt} (h : s.isDirective = true) (dynamic : Bool) :
    s.specifiers dynamic = [] := by
  fun_cases Stmt.isDirective s with
  | case1 literal => cases dynamic <;> rfl
  | case2 => simp_all [Stmt.isDirective]

theorem flatMap_dropWhile_isDirective (body : List Stmt) (dynamic : Bool) :
    (body.dropWhile Stmt.isDirective).flatMap (Stmt.specifiers dynamic) =
      body.flatMap (Stmt.specifiers dynamic) := by
  induction body with
  | nil => rfl
  | cons s body ih =>
    cases hs : s.isDirective with
    | true => simp [hs, ih, specifiers_of_isDirective hs]
    | false => simp [hs]

theorem skipInterpreterLine_cons {c : Char} (h : c ≠ '#') (cs : List Char) :
    skipInterpreterLine (c :: cs) = c :: cs := by
  rw [skipInterpreterLine]
  simp [h]

theorem isAt_start {c : Char} (hc : c ≠ '#') (cs : List Char) :
    (Cursor.start .typedModule (c :: cs)).IsAt (c :: cs) :=
  ⟨_, true, rfl, by rw [Cursor.start, skipInterpreterLine_cons hc]⟩

theorem exists_part_text_eq_cons {p : Part} (hp : p.IsPlain) :
    ∃ c cs, p.text = c :: cs ∧ c ≠ '#' := by
  obtain ⟨before, d, l⟩ := p
  cases before with
  | nil =>
    obtain ⟨c, cs, htext, hc, -⟩ := exists_writing_text_eq_cons (isAnnounced_tokens d) l.writing
    exact ⟨c, cs, htext, hc⟩
  | cons b before =>
    have hb := hp.before b List.mem_cons_self
    cases b with
    | piece q =>
      obtain ⟨c, cs, htext, hc⟩ := Declaration.exists_text_eq_cons q
      refine ⟨c, _, by rw [Part.text, List.flatMap_cons, Between.text, htext]; rfl, ?_⟩
      rintro rfl
      simp at hc
    | filler f =>
      have htext : (Between.filler f).text = [';'] := hb
      exact ⟨';', _, by rw [Part.text, List.flatMap_cons, htext]; rfl, by decide⟩

theorem isAt_start_parts {p : Part} (hp : p.IsPlain) (ps : List Part) (text : List Char) :
    (Cursor.start .typedModule ((p :: ps).flatMap Part.text ++ text)).IsAt
      ((p :: ps).flatMap Part.text ++ text) := by
  obtain ⟨d, ds, hcons, hd⟩ := exists_part_text_eq_cons hp
  rw [List.flatMap_cons, hcons]
  exact isAt_start hd _

/-- The specifiers of a syntax tree begin with those of the declarations that the text begins with,
whatever follows them. -/
theorem specifiers_of_parse? {ps : List Part} (hps : ∀ p ∈ ps, p.IsPlain) {text : List Char}
    {program : Program}
    (h : parse? .typedModule (ps.flatMap Part.text ++ text) = some program) (dynamic : Bool) :
    ps.map (fun p => p.declaration.specifier) <+: program.specifiers dynamic := by
  cases ps with
  | nil => exact List.nil_prefix
  | cons p ps =>
    obtain ⟨⟨body, c'⟩, hrun, rfl⟩ := Option.map_eq_some_iff.mp h
    rw [Program.specifiers, flatMap_dropWhile_isDirective]
    exact statements_parts rfl hps (isAt_start_parts (hps p List.mem_cons_self) ps text) hrun
      dynamic

/-- If reading comes to a place where further declarations stand, the specifiers of a syntax tree
go on with theirs. -/
theorem specifiers_of_leading {ps qs : List Part} (hps : ∀ p ∈ ps, p.IsPlain)
    (hqs : ∀ q ∈ qs, q.IsPlain) {text middle behind : List Char}
    (htext : text = ps.flatMap Part.text ++ (middle ++ (qs.flatMap Part.text ++ behind)))
    {program : Program} (h : parse? .typedModule text = some program) {count : Nat}
    {front : List Stmt} {c : Cursor}
    (hfront : leading (rulesFor text) count (Cursor.start .typedModule text) = some (front, c))
    (hc : c.IsAt (qs.flatMap Part.text ++ behind)) (dynamic : Bool) :
    ∃ between, ps.map (fun p => p.declaration.specifier) ++
      (between ++ qs.map fun q => q.declaration.specifier) <+: program.specifiers dynamic := by
  obtain ⟨⟨body, c'⟩, hrun, rfl⟩ := Option.map_eq_some_iff.mp h
  obtain ⟨fuel, back, -, hback, rfl⟩ := exists_of_leading hfront hrun
  have hfirst : ps.map (fun p => p.declaration.specifier) <+:
      front.flatMap (Stmt.specifiers dynamic) := by
    cases ps with
    | nil => exact List.nil_prefix
    | cons p ps =>
      subst htext
      exact leading_parts rfl hps (isAt_start_parts (hps p List.mem_cons_self) ps _) hfront
        (hc.hasReached.append middle) dynamic
  have hsecond := statements_parts rfl hqs hc hback dynamic
  obtain ⟨between, hbetween⟩ := hfirst
  refine ⟨between, ?_⟩
  rw [Program.specifiers, flatMap_dropWhile_isDirective, List.flatMap_append, ← hbetween,
    List.append_assoc, List.prefix_append_right_inj, List.prefix_append_right_inj]
  exact hsecond

/-! ### A single declaration -/

/-- A cursor at the end of the text has read all of it. -/
theorem Cursor.IsAt.kind_nil {c : Cursor} (h : c.IsAt []) : c.token.kind = .finished true := by
  obtain ⟨before, newline, hbefore, rfl⟩ := h
  have hskip : skipGap (!before.dialect.isModule) .open newline [] = ⟨newline, true, []⟩ := by
    rw [hbefore]
    rfl
  rw [moveTo, hskip]
  rfl

theorem statements_of_isLast {r : Rules} {fuel : Nat} {c c' : Cursor} {body : List Stmt}
    (h : c.token.isLast = true) (hrun : statements r fuel c = some (body, c')) : body = [] := by
  cases fuel with
  | zero => simp [statements] at hrun
  | succ fuel =>
    rw [statements_succ_apply, if_pos h] at hrun
    exact (Prod.mk.inj (Option.some.inj hrun)).1.symm

/-- Where tokens that are read as a declaration are all that a text holds, the statement of the
declaration is the whole syntax tree. -/
theorem specifiers_of_isRead {d : Declaration} {ts : List Declaration.Token} (hts : IsAnnounced ts)
    {w : Declaration.Writing ts} (hreads : ∀ {c : Cursor}, c.IsAt (w.text ++ []) → c.Reads [] ts)
    (hread : ∀ {r : Rules} {c c' : Cursor} {s : Stmt}, c.Reads [] ts →
      statement r false c = some (s, c') → IsRead r [] d s c')
    {program : Program} (h : parse? .typedModule w.text = some program) (dynamic : Bool) :
    program.specifiers dynamic = [d.specifier] := by
  obtain ⟨first, rest, htext, hfirst, -⟩ := exists_writing_text_eq_cons hts w
  have hstart := isAt_start hfirst rest
  rw [← htext, ← List.append_nil w.text] at hstart
  have hreads := hreads hstart
  rw [List.append_nil] at hreads
  obtain ⟨⟨body, c'⟩, hrun, rfl⟩ := Option.map_eq_some_iff.mp h
  rw [Program.specifiers, flatMap_dropWhile_isDirective]
  rw [statements_succ_apply, if_neg (by simp [isLast_of_isAnnounced hts hreads])] at hrun
  obtain ⟨⟨s, c₁⟩, hstatement, hrest⟩ := Option.bind_eq_some_iff.mp hrun
  obtain ⟨⟨more, c₂⟩, hmore, hpair⟩ := Option.map_eq_some_iff.mp hrest
  obtain ⟨rfl, -⟩ : s :: more = body ∧ c₂ = c' := by simpa using hpair
  obtain ⟨⟨offset, rfl⟩, c₃, h₃, hending⟩ := hread hreads hstatement
  have hend := h₃.kind_nil
  have hc₁ := ending_apply (by simp [Token.isWord, hend]) (by simp [Token.isWord, hend]) hending
  rw [if_neg (by simp [Token.isSymbol, hend])] at hc₁
  have hlast : c₁.token.isLast = true := by simp [hc₁, Token.isLast, hend]
  rw [statements_of_isLast hlast hmore, List.flatMap_cons, Declaration.specifiers_statement]
  rfl

/-- The syntax tree of a declaration, however it is written, gives its specifier. -/
theorem specifiers_of_parse?_writing {d : Declaration} {w : Declaration.Writing d.tokens}
    (hw : w.IsPlain) {program : Program} (h : parse? .typedModule w.text = some program)
    (dynamic : Bool) : program.specifiers dynamic = [d.specifier] :=
  specifiers_of_isRead (isAnnounced_tokens d) (Cursor.reads_writing hw)
    (fun hreads hrun => isRead_of_statement hreads hrun) h dynamic

end Source

end ModuleGraph

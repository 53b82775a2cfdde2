import ModuleGraph.Proofs.Scan.ReExports

/-!
# The word `type` in imports

The word `type` is a modifier of an import, or the default name that an import binds.  The grammar
tells the two apart by the tokens that follow.  The search for shapes goes by blanks, and so by the
way in which an import is written: `Scan.looksTyped` says what it takes an import for.  An import
that renames, with the modifier `type`, fits no shape of a declaration at all, and what is found of
it is the call of `require` at its end.

## Main definitions

* `Declaration.typedEquals`: the tokens of a renaming import with the modifier `type`.

## Main results

* `Source.isRead_of_typedEquals`: what the grammar makes of such an import.
* `Scan.hits_typedEquals`: what the search makes of it.
* `Scan.specifiers_typeWord`: imports in every writing, by the search and by the syntax tree.
-/

namespace ModuleGraph

open Comment Declaration

/-- The tokens of `import type name = require("x")`, perhaps exported. -/
def Declaration.typedEquals (exported : Bool) (n : Name) (r : Request) : List Token :=
  (if exported then [.modifier "export".toList] else []) ++
    [keyword "import", .modifier "type".toList, n.token, .sign '=', keyword "require", .sign '(',
      .request r, .sign ')']

/-- The modifier apart, the tokens are those of a renaming import. -/
theorem Declaration.isMadeOf_typedEquals {P : Char → Prop} {Q : Request → Prop}
    (hsigns : ∀ c ∈ [',', '{', '}', '*', '=', '(', ')'], P c) {exported : Bool} {n : Name}
    {r : Request} (hrequest : Q r) {t : Token} (h : t ∈ typedEquals exported n r) :
    t.IsMadeOf P Q := by
  have hmem : t = .modifier "type".toList ∨ t ∈ (importEquals exported n r).tokens := by
    simp only [typedEquals, tokens, List.mem_append, List.mem_cons] at h ⊢
    tauto
  rcases hmem with rfl | hmem
  · exact ⟨typeName, rfl⟩
  · exact isMadeOf_tokens hsigns hrequest t hmem

/-! ### The syntax tree -/

namespace Source

section TypedEquals

variable {behind : List Char} {n : Declaration.Name} {q : Request} {exported : Bool} {r : Rules}
  {c c' : Cursor} {s : Stmt}

theorem isRead_of_importRest_typedEquals
    (h : c.Reads behind [.modifier "type".toList, n.token, .sign '=', keyword "require", .sign '(',
      .request q, .sign ')'])
    (hrun : importRest r c = some (s, c')) : IsRead r behind (.importEquals exported n q) s c' := by
  have hequals := h.2.2.1.2.1.trans kind_assign
  rw [importRest_type h.1.1 (h.1.2.1.trans kind_type) (isName_of_kind h.2.1.2.1)
    (by simp [hequals])] at hrun
  split at hrun
  · next hbinding =>
    rw [importBindings_apply hbinding (by simp [hequals]),
      if_neg (by simp [Token.isSymbol, Token.isWord, hequals])] at hrun
    exact isRead_of_importEqualsRest h.2.2 hrun
  · simp at hrun

theorem isRead_of_declaredImport_typedEquals
    (h : c.Reads behind [keyword "import", .modifier "type".toList, n.token, .sign '=',
      keyword "require", .sign '(', .request q, .sign ')'])
    (hrun : declaredImport r c = some (s, c')) :
    IsRead r behind (.importEquals exported n q) s c' := by
  have himport := isWord_of_kind (h.1.2.1.trans kind_import)
  have htype := isWord_of_kind (h.2.1.2.1.trans kind_type)
  cases hbinding : c.next.next.token.isBindingName with
  | true =>
    have hrest : declaredImport r c = (do
        Reader.bindingName
        importEqualsRest r : Reader Stmt) c.next.next := by
      simp [declaredImport, himport, htype, hbinding, h.2.1.1, Dialect.typedModule]
    rw [hrest] at hrun
    obtain ⟨u, c₁, hname, hrun⟩ := Reader.bind_eq_some_iff.mp hrun
    exact isRead_of_importEqualsRest (reads_of_bindingName h.2.2 hname) hrun
  | false =>
    -- The name is reserved, so `type` is taken for the name, and no equals sign follows it.
    have hrest : declaredImport r c = (do
        Reader.bindingName
        importEqualsRest r : Reader Stmt) c.next := by
      simp [declaredImport, himport, hbinding]
    rw [hrest] at hrun
    obtain ⟨u, c₁, hname, hrun⟩ := Reader.bind_eq_some_iff.mp hrun
    have h₁ := reads_of_bindingName h.2 hname
    have hsymbol := isSymbol_eq_false_of_isName (isName_of_kind h₁.1.2.1) .assign
    simp [importEqualsRest, hsymbol] at hrun

/-- A statement that is read where a renaming import with the modifier `type` stands is that of a
renaming import. -/
theorem isRead_of_typedEquals {alone : Bool} (h : c.Reads behind (typedEquals exported n q))
    (hrun : statement r alone c = some (s, c')) :
    IsRead r behind (.importEquals exported n q) s c' := by
  cases exported with
  | false =>
    have hkind := h.1.2.1.trans kind_import
    have hnext := isSymbol_eq_false_of_isName
      (isName_of_kind (n := Declaration.typeName) h.2.1.2.1)
    have hrest : statement r alone c = importRest r c.next := by
      simp [statement, wordStatement, hkind, importStatement, hnext, isWord_of_kind hkind]
    exact isRead_of_importRest_typedEquals h.2 (hrest ▸ hrun)
  | true =>
    have hkind := h.1.2.1.trans kind_export
    have himport := h.2.1.2.1.trans kind_import
    have hrest : statement r alone c = declaredImport r c.next := by
      simp [statement, wordStatement, hkind, exportStatement, isWord_of_kind hkind, himport]
    exact isRead_of_declaredImport_typedEquals h.2 (hrest ▸ hrun)

/-- The syntax tree of a renaming import with the modifier `type`, however it is written, gives the
specifier of a renaming import. -/
theorem specifiers_of_parse?_typedEquals {w : Writing (typedEquals exported n q)} (hw : w.IsPlain)
    {program : Program} (h : parse? .typedModule w.text = some program) (dynamic : Bool) :
    program.specifiers dynamic = [(Declaration.importEquals exported n q).specifier] := by
  have hrequest : .request q ∈ typedEquals exported n q :=
    List.mem_append_right _ (.tail _ (.tail _ (.tail _ (.tail _ (.tail _ (.tail _ (.head _)))))))
  have hplain : ∀ t ∈ typedEquals exported n q, t.IsPlain := fun _ ht =>
    (isMadeOf_typedEquals (fun _ hc => hc) (hw.requests q hrequest) ht).isPlain
  have hopen : (typedEquals exported n q).countP Declaration.Token.isOpen ≤ 1 := by
    cases exported <;> exact Nat.le_refl 1
  have hlast : ∀ t ∈ (typedEquals exported n q).getLast?, ∀ e, t.takes e = false := by
    intro t ht e
    obtain rfl : .sign ')' = t := by cases exported <;> simpa [typedEquals] using ht
    rfl
  have hannounced : IsAnnounced (typedEquals exported n q) := by
    cases exported with
    | false => exact .inl rfl
    | true => exact .inr rfl
  exact specifiers_of_isRead hannounced (Cursor.reads_tokens hplain hw.gaps hopen hlast)
    (fun hreads hrun => isRead_of_typedEquals hreads hrun) h dynamic

end TypedEquals

end Source

/-! ### The search -/

namespace Scan

open Text

/-- Words and blanks with an equals sign behind them. -/
def IsEquated (cs : List Char) : Prop :=
  ∃ words rest, cs = words ++ '=' :: rest ∧
    ∀ c ∈ words, isBindingChar c = true ∨ isBlank c = true

theorem IsEquated.after? {word cs behind : List Char} (hcs : IsEquated cs) (hword : '=' ∉ word)
    (h : after? word cs = some behind) : IsEquated behind := by
  obtain ⟨words, rest, rfl, hwords⟩ := hcs
  rcases List.append_eq_append_iff.mp (eq_append_of_after? h) with ⟨as, rfl, has⟩ | ⟨bs, rfl, rfl⟩
  · cases as with
    | nil => exact ⟨[], rest, has.symm, by simp⟩
    | cons a as =>
      obtain rfl : '=' = a := (List.cons.inj has).1
      simp at hword
  · exact ⟨bs, rest, rfl, fun c hc => hwords c (List.mem_append_right word hc)⟩

theorem IsEquated.dropWhile {cs : List Char} (hcs : IsEquated cs) {p : Char → Bool}
    (hp : p '=' = false) : IsEquated (cs.dropWhile p) := by
  obtain ⟨words, rest, rfl, hwords⟩ := hcs
  induction words with
  | nil => exact ⟨[], rest, by simp [hp], by simp⟩
  | cons c words ih =>
    rw [List.cons_append, List.dropWhile_cons]
    split
    · exact ih fun d hd => hwords d (List.mem_cons_of_mem c hd)
    · exact ⟨c :: words, rest, rfl, hwords⟩

theorem IsEquated.blanks? {cs behind : List Char} (hcs : IsEquated cs)
    (h : blanks? cs = some behind) : IsEquated behind := by
  rw [Scan.blanks?] at h
  split at h
  · obtain rfl : trimBlanks cs = behind := Option.some.inj h
    exact hcs.dropWhile rfl
  · simp at h

theorem IsEquated.head {cs : List Char} (hcs : IsEquated cs) :
    ∃ c rest, cs = c :: rest ∧ (isBindingChar c = true ∨ isBlank c = true ∨ c = '=') := by
  obtain ⟨words, rest, rfl, hwords⟩ := hcs
  cases words with
  | nil => exact ⟨'=', rest, rfl, .inr (.inr rfl)⟩
  | cons c words => exact ⟨c, _, rfl, (hwords c List.mem_cons_self).imp_right .inl⟩

theorem callArgument?_of_isEquated {cs : List Char} (hcs : IsEquated cs) :
    callArgument? cs = none := by
  obtain ⟨c, rest, htrim, hc⟩ := (hcs.dropWhile (p := isBlank) rfl).head
  have hopen : '(' ≠ c := by
    rintro rfl
    revert hc
    decide
  rw [callArgument?, trimBlanks, htrim, after?_eq_none hopen]
  rfl

theorem reExport?_of_isEquated {cs : List Char} (hcs : IsEquated cs) : reExport? cs = none := by
  rw [Option.eq_none_iff_forall_not_mem]
  intro found h
  obtain ⟨behind, hexport, h⟩ := Option.bind_eq_some_iff.mp h
  obtain ⟨spaced, hblanks, h⟩ := Option.bind_eq_some_iff.mp h
  have hspaced := (hcs.after? (by decide) hexport).blanks? hblanks
  have hnamed : IsEquated (((after? "type".toList spaced).bind blanks?).getD spaced) := by
    cases htype : (after? "type".toList spaced).bind blanks? with
    | none => exact hspaced
    | some named =>
      obtain ⟨typed, htyped, hnamed⟩ := Option.bind_eq_some_iff.mp htype
      exact (hspaced.after? (by decide) htyped).blanks? hnamed
  obtain ⟨c, rest, hcons, hc⟩ := hnamed.head
  rw [hcons] at h
  dsimp only at h
  split at h
  · next heq =>
    obtain rfl := (List.cons.inj heq).1
    revert hc
    decide
  · next heq =>
    obtain rfl := (List.cons.inj heq).1
    revert hc
    decide
  · simp at h

theorem static?_of_isEquated {cs : List Char} (hcs : IsEquated cs) : static? cs = none := by
  rw [Option.eq_none_iff_forall_not_mem]
  intro found h
  obtain ⟨behind, himport, h⟩ := Option.bind_eq_some_iff.mp h
  obtain ⟨⟨request, rest⟩, hliteral, -⟩ := Option.bind_eq_some_iff.mp h
  have hbehind := (hcs.after? (by decide) himport).dropWhile (p := isClauseChar) rfl
  obtain ⟨c, rest', hcons, hc⟩ := hbehind.head
  have hmark : isMark c = false := by
    rcases hc with hc | hc | rfl
    · have hplain := isPlainChar_of_isBindingChar hc
      simp_all [isPlainChar]
    · by_contra hmark
      rw [Bool.not_eq_false] at hmark
      have hquote : c = '"' ∨ c = '\'' := by simpa [isMark] using hmark
      rcases hquote with rfl | rfl <;> simp [isBlank] at hc
    · rfl
  simp [hcons, literal?, hmark] at hliteral

/-- In front of an equals sign, no shape fits but that of a renaming import. -/
theorem shape?_of_isEquated {cs : List Char} (hcs : IsEquated cs) (h : importEquals? cs = none) :
    shape? cs = none := by
  have hdynamic : dynamic? cs = none := by
    rw [dynamic?]
    split
    · next behind hrequire => exact callArgument?_of_isEquated (hcs.after? (by decide) hrequire)
    · rw [Option.bind_eq_none_iff]
      exact fun behind himport => callArgument?_of_isEquated (hcs.after? (by decide) himport)
  simp only [shape?, h, reExport?_of_isEquated hcs, static?_of_isEquated hcs, hdynamic,
    Option.map_none, Option.or_none]

/-- What a text holds that the shape of a renaming import fits, up to the equals sign. -/
theorem exists_of_importEquals? {cs : List Char} {found : List Char × List Char}
    (h : importEquals? cs = some found) :
    ∃ front blanks name more rest,
      cs = front ++ 't' :: (blanks ++ (name ++ more)) ++ '=' :: rest ∧ '=' ∉ front ∧
      (∀ c ∈ blanks, isBlank c = true) ∧ blanks ≠ [] ∧
      (∀ c ∈ name, isBindingChar c = true) ∧ name ≠ [] ∧ ∀ c ∈ more, isBlank c = true := by
  obtain ⟨front, hcs, hfront⟩ : ∃ front,
      cs = front ++ ((after? "export".toList cs).bind blanks?).getD cs ∧ '=' ∉ front := by
    cases hexport : (after? "export".toList cs).bind blanks? with
    | none => exact ⟨[], rfl, by simp⟩
    | some spaced =>
      obtain ⟨behind, hbehind, hblanks⟩ := Option.bind_eq_some_iff.mp hexport
      obtain ⟨blanks, rfl, -, hblank⟩ := exists_append_of_blanks? hblanks
      refine ⟨"export".toList ++ blanks, by simp [eq_append_of_after? hbehind], fun hmem => ?_⟩
      rcases List.mem_append.mp hmem with hmem | hmem
      · revert hmem
        decide
      · exact absurd (hblank '=' hmem) (by decide)
  obtain ⟨behind, himport, h⟩ := Option.bind_eq_some_iff.mp h
  obtain ⟨spaced, hblanks, h⟩ := Option.bind_eq_some_iff.mp h
  obtain ⟨named, hname, h⟩ := Option.bind_eq_some_iff.mp h
  obtain ⟨rest, hequals, -⟩ := Option.bind_eq_some_iff.mp h
  obtain ⟨blanks, rfl, hne, hblank⟩ := exists_append_of_blanks? hblanks
  obtain ⟨name, rfl, hne', hbinding⟩ := exists_append_of_name? hname
  obtain ⟨more, rfl, hmore⟩ :
      ∃ more, named = more ++ '=' :: rest ∧ ∀ c ∈ more, isBlank c = true := by
    refine ⟨named.takeWhile isBlank, ?_, fun c hc => List.mem_takeWhile_imp hc⟩
    rw [← List.singleton_append, ← eq_append_of_after? hequals, trimBlanks,
      List.takeWhile_append_dropWhile]
  refine ⟨front ++ "impor".toList, blanks, name, more, rest, ?_, by simpa using hfront, hblank, hne,
    hbinding, hne', hmore⟩
  rw [hcs, eq_append_of_after? himport]
  simp

/-- The text in front of the last word of a text, read backwards from the end of the word before
it. -/
def beforeLastWord (cs : List Char) : List Char :=
  ((cs.reverse.dropWhile isBlank).dropWhile isBindingChar).dropWhile isBlank

theorem beforeLastWord_append {front blanks name more : List Char} {c : Char}
    (hc : isBindingChar c = true) (hblanks : ∀ e ∈ blanks, isBlank e = true) (hne : blanks ≠ [])
    (hname : ∀ e ∈ name, isBindingChar e = true) (hname' : name ≠ [])
    (hmore : ∀ e ∈ more, isBlank e = true) :
    beforeLastWord (front ++ c :: (blanks ++ (name ++ more))) = c :: front.reverse := by
  have hblank {e : Char} (he : isBindingChar e = true) : isBlank e = false := by
    by_contra hblank
    simp [isBindingChar_of_isBlank (by simpa using hblank)] at he
  obtain ⟨n, ns, hns⟩ := List.exists_cons_of_ne_nil (List.reverse_ne_nil_iff.mpr hname')
  obtain ⟨b, bs, hbs⟩ := List.exists_cons_of_ne_nil (List.reverse_ne_nil_iff.mpr hne)
  have hn : isBindingChar n = true := hname n (List.mem_reverse.mp (by simp [hns]))
  have hb : isBlank b = true := hblanks b (List.mem_reverse.mp (by simp [hbs]))
  have hreverse : (front ++ c :: (blanks ++ (name ++ more))).reverse =
      more.reverse ++ (name.reverse ++ (blanks.reverse ++ c :: front.reverse)) := by simp
  rw [beforeLastWord, hreverse,
    List.dropWhile_append_of_pos fun e he => hmore e (List.mem_reverse.mp he), hns,
    List.cons_append, List.dropWhile_cons_of_neg (by simp [hblank hn]), ← List.cons_append, ← hns,
    List.dropWhile_append_of_pos fun e he => hname e (List.mem_reverse.mp he), hbs,
    List.cons_append, List.dropWhile_cons_of_neg (by simp [isBindingChar_of_isBlank hb]),
    ← List.cons_append, ← hbs,
    List.dropWhile_append_of_pos fun e he => hblanks e (List.mem_reverse.mp he),
    List.dropWhile_cons_of_neg (by simp [hblank hc])]

theorem takeWhile_ne_equals {cs : List Char} (h : '=' ∉ cs) (rest : List Char) :
    (cs ++ '=' :: rest).takeWhile (· != '=') = cs := by
  have hne : ∀ c ∈ cs, (c != '=') = true := fun c hc => bne_iff_ne.mpr fun heq => h (heq ▸ hc)
  rw [List.takeWhile_append_of_pos hne]
  simp

/-- Two words in front of an equals sign fit the shape of a renaming import from no place on, if the
first of them does not end like `import`. -/
theorem importEquals?_suffix {front : List Char} {c : Char} (hc : isBindingChar c = true)
    (hct : c ≠ 't') {g₁ : Gap} (hg₁ : g₁ ≠ []) (n : Name) (g₂ : Gap) {cs : List Char}
    (hcs : cs <:+ front ++ c :: (Gap.bare g₁ ++ (n.chars ++ Gap.bare g₂)))
    (hequals : '=' ∉ cs) (rest : List Char) : importEquals? (cs ++ '=' :: rest) = none := by
  rw [Option.eq_none_iff_forall_not_mem]
  intro found h
  obtain ⟨front', blanks, name, more, rest', htext, hfront, hblanks, hne, hname, hne', hmore⟩ :=
    exists_of_importEquals? h
  have hequals' : '=' ∉ front' ++ 't' :: (blanks ++ (name ++ more)) := by
    intro hmem
    simp only [List.mem_append, List.mem_cons] at hmem
    rcases hmem with hmem | hmem | hmem | hmem | hmem
    · exact hfront hmem
    · exact absurd hmem (by decide)
    · exact absurd (hblanks _ hmem) (by decide)
    · exact absurd (hname _ hmem) (by decide)
    · exact absurd (hmore _ hmem) (by decide)
  obtain rfl : cs = front' ++ 't' :: (blanks ++ (name ++ more)) := by
    rw [← takeWhile_ne_equals hequals rest, htext, takeWhile_ne_equals hequals']
  obtain ⟨start, hstart⟩ := hcs
  have hfound : beforeLastWord (start ++ front' ++ 't' :: (blanks ++ (name ++ more))) =
      't' :: (start ++ front').reverse :=
    beforeLastWord_append rfl hblanks hne hname hne' hmore
  have hwords : beforeLastWord (front ++ c :: (Gap.bare g₁ ++ (n.chars ++ Gap.bare g₂))) =
      c :: front.reverse := beforeLastWord_append hc
    (fun e he => isBlank_of_isGap (Gap.isGap_of_mem_bare he)) (Gap.bare_ne_nil hg₁)
    (fun e he => n.isBindingChar_of_mem he) (List.cons_ne_nil _ _)
    (fun e he => isBlank_of_isGap (Gap.isGap_of_mem_bare (g := g₂) he))
  rw [List.append_assoc, hstart, hwords] at hfound
  exact hct (List.cons.inj hfound).1

/-- The call at the end of a renaming import is found as a call. -/
theorem shape?_require (g₁ g₂ g₃ : Gap) (r : Request) :
    shape? ("require".toList ++
        spacedBare [(g₁, .sign '('), (g₂, .request r), (g₃, .sign ')')]) =
      some (⟨String.ofList r.chars, .dynamic⟩, []) := by
  have hcall := callArgument?_spaced g₁ g₂ g₃ r []
  rw [List.append_nil] at hcall
  have hdynamic : dynamic? ("require".toList ++
      spacedBare [(g₁, .sign '('), (g₂, .request r), (g₃, .sign ')')]) = some (r.chars, []) := by
    rw [dynamic?, after?_append]
    exact hcall
  have hothers (cs : List Char) : importEquals? ("require".toList ++ cs) = none ∧
      reExport? ("require".toList ++ cs) = none ∧ static? ("require".toList ++ cs) = none :=
    ⟨rfl, rfl, rfl⟩
  obtain ⟨hequals, hexport, hstatic⟩ := hothers
    (spacedBare [(g₁, .sign '('), (g₂, .request r), (g₃, .sign ')')])
  rw [shape?, hequals, hexport, hstatic, hdynamic]
  rfl

/-- Where words fit no shape of a renaming import, the call behind their equals sign is all that is
found. -/
theorem hits_equated {words : List Char}
    (hwords : ∀ c ∈ words, isBindingChar c = true ∨ isBlank c = true)
    (hequals : ∀ cs, cs <:+ words → ∀ rest, importEquals? (cs ++ '=' :: rest) = none)
    (g₁ g₂ g₃ g₄ : Gap) (r : Request) :
    (hits (words ++ ('=' :: Gap.bare g₁ ++ ("require".toList ++
        spacedBare [(g₂, .sign '('), (g₃, .request r), (g₄, .sign ')')])))).map Hit.specifier =
      [⟨String.ofList r.chars, .dynamic⟩] := by
  have hshape := shape?_require g₂ g₃ g₄ r
  set call := "require".toList ++
    spacedBare [(g₂, .sign '('), (g₃, .request r), (g₄, .sign ')')] with hcall
  have hpass (cs : List Char) (hcs : cs <:+ words) (_ : cs ≠ []) :
      shape? (cs ++ ('=' :: Gap.bare g₁ ++ call)) = none :=
    shape?_of_isEquated ⟨cs, _, rfl, fun c hc => hwords c (hcs.subset hc)⟩ (hequals cs hcs _)
  have hsilent : IsSilent ('=' :: Gap.bare g₁) := by
    refine isSilent_of_forall fun c hc => ?_
    rcases List.mem_cons.mp hc with rfl | hc
    · rfl
    · exact isWordChar_of_isGap (Gap.isGap_of_mem_bare hc)
  have hboundary (boundary : Bool) : boundaryAfter boundary ('=' :: Gap.bare g₁) = true := by
    rw [boundaryAfter_cons]
    exact boundaryAfter_true fun c hc =>
      isWordChar_of_isGap (Gap.isGap_of_mem_bare (List.mem_of_getLast? hc))
  have hregion (pos : Nat) := @hitsFrom_hit call [] (by simp [hcall]) _
    (by simpa using hshape) pos
  rw [hits, hitsFrom_pass hpass, hitsFrom_silent hsilent, hboundary, ← List.append_nil call,
    hregion]
  rfl

section TypedEquals

variable {exported : Bool} {n : Name} {r : Request}

/-- A writing of a renaming import with the modifier `type` begins with words and blanks up to the
word `import`. -/
theorem exists_behind_import (w : Writing (typedEquals exported n r)) :
    ∃ front later, w.bare = front ++ spacedBare later ∧
      (∀ c ∈ front, isBindingChar c = true ∨ isBlank c = true) ∧
      later.map Prod.snd = [.modifier "type".toList, n.token, .sign '=', keyword "require",
        .sign '(', .request r, .sign ')'] ∧ IsApart (keyword "import") later := by
  have hword (text : String) (h : text.toList.all isBindingChar = true) :
      ∀ c ∈ text.toList, isBindingChar c = true ∨ isBlank c = true := fun c hc =>
    .inl (List.all_eq_true.mp h c hc)
  obtain ⟨first, later, htokens, hapart⟩ := w
  cases exported with
  | false =>
    obtain ⟨rfl, hlater⟩ := List.cons.inj htokens
    exact ⟨"import".toList, later, rfl, hword "import" (by decide), hlater, hapart⟩
  | true =>
    obtain ⟨rfl, hlater⟩ := List.cons.inj htokens
    obtain ⟨g, later, rfl, hbehind⟩ := exists_of_map_snd_eq_cons hlater
    refine ⟨"export".toList ++ (Gap.bare g ++ "import".toList), later, ?_, ?_, hbehind, hapart.2⟩
    · simp [Writing.bare, keyword, Token.chars]
    · intro c hc
      simp only [List.mem_append] at hc
      rcases hc with hc | hc | hc
      · exact hword "export" (by decide) c hc
      · exact .inr (isBlank_of_isGap (Gap.isGap_of_mem_bare hc))
      · exact hword "import" (by decide) c hc

/-- Of a renaming import with the modifier `type`, the search finds the call at its end. -/
theorem hits_typedEquals (w : Writing (typedEquals exported n r)) :
    (hits w.bare).map Hit.specifier = [⟨String.ofList r.chars, .dynamic⟩] := by
  obtain ⟨front, later, hbare, hfront, htokens, hapart⟩ := exists_behind_import w
  obtain ⟨g, later, rfl, h₁⟩ := exists_of_map_snd_eq_cons htokens
  obtain ⟨g₁, g₂, g₃, g₄, g₅, g₆, rfl⟩ := exists_of_map_snd_eq_renaming h₁
  have hg₁ : g₁ ≠ [] := hapart.2.1 rfl rfl
  have hgap {g : Gap} {c : Char} (hc : c ∈ Gap.bare g) :
      isBindingChar c = true ∨ isBlank c = true :=
    .inr (isBlank_of_isGap (Gap.isGap_of_mem_bare hc))
  have hwords : ∀ c ∈ (front ++ (Gap.bare g ++ "typ".toList)) ++
      'e' :: (Gap.bare g₁ ++ (n.chars ++ Gap.bare g₂)),
      isBindingChar c = true ∨ isBlank c = true := by
    intro c hc
    simp only [List.mem_append, List.mem_cons] at hc
    rcases hc with (hc | hc | hc) | rfl | hc | hc | hc
    · exact hfront c hc
    · exact hgap hc
    · exact .inl (List.all_eq_true.mp (by decide : "typ".toList.all isBindingChar = true) c hc)
    · exact .inl rfl
    · exact hgap hc
    · exact .inl (n.isBindingChar_of_mem hc)
    · exact hgap hc
  have hequals (cs : List Char) (hcs : cs <:+ (front ++ (Gap.bare g ++ "typ".toList)) ++
      'e' :: (Gap.bare g₁ ++ (n.chars ++ Gap.bare g₂))) (rest : List Char) :
      importEquals? (cs ++ '=' :: rest) = none := by
    refine importEquals?_suffix rfl (by decide) hg₁ n g₂ hcs (fun hmem => ?_) rest
    exact absurd (hwords '=' (hcs.subset hmem)) (by decide)
  rw [hbare, ← hits_equated hwords hequals g₃ g₄ g₅ g₆ r]
  simp [keyword, Name.token, Token.chars]

end TypedEquals

/-- The word `type` in imports, however they are written.  An import declaration is found as one
specifier with its request; its form is right where it looks like what it is.  A renaming import is
found as such, unless it has the modifier `type`: then only the call in it is found, where calls
count. -/
theorem specifiers_typeWord (dynamic : Bool) :
    (∀ (typeOnly : Bool) (clause : Clause) (r : Request)
        (w : Writing (importFrom typeOnly clause r).tokens),
      (w.IsPlain → ∀ program, Source.parse? .typedModule w.text = some program →
        program.specifiers dynamic =
          [⟨String.ofList r.chars, if typeOnly then .typeOnly else .static⟩]) ∧
      specifiers (String.ofList w.text) dynamic =
        [⟨String.ofList r.chars,
          if looksTyped typeOnly clause (secondGap w.later) then .typeOnly else .static⟩]) ∧
    (∀ (exported : Bool) (n : Name) (r : Request) (w : Writing (importEquals exported n r).tokens),
      (w.IsPlain → ∀ program, Source.parse? .typedModule w.text = some program →
        program.specifiers dynamic = [⟨String.ofList r.chars, .importEquals⟩]) ∧
      specifiers (String.ofList w.text) dynamic = [⟨String.ofList r.chars, .importEquals⟩]) ∧
    (∀ (exported : Bool) (n : Name) (r : Request) (w : Writing (typedEquals exported n r)),
      (w.IsPlain → ∀ program, Source.parse? .typedModule w.text = some program →
        program.specifiers dynamic = [⟨String.ofList r.chars, .importEquals⟩]) ∧
      specifiers (String.ofList w.text) dynamic =
        if dynamic then [⟨String.ofList r.chars, .dynamic⟩] else []) := by
  refine ⟨fun typeOnly clause r w => ⟨fun hw program h => ?_, ?_⟩,
    fun exported n r w =>
      ⟨fun hw program h => Source.specifiers_of_parse?_writing hw h dynamic, ?_⟩,
    fun exported n r w =>
      ⟨fun hw program h => Source.specifiers_of_parse?_typedEquals hw h dynamic, ?_⟩⟩
  · have htree := Source.specifiers_of_parse?_writing hw h dynamic
    cases typeOnly <;> exact htree
  · obtain ⟨first, later, htokens, hapart⟩ := w
    obtain ⟨rfl, hlater⟩ := List.cons.inj htokens
    have hshape := shape?_importFrom hlater hapart []
    rw [List.append_nil] at hshape
    refine specifiers_of_shape? ⟨_, later, htokens, hapart⟩ (fun _ => isCopied_of_mem_tokens)
      hshape ?_
    cases looksTyped typeOnly clause (secondGap later) <;> simp [wanted]
  · have hwords : modifiesWords (w.first :: w.later.map Prod.snd) = true := by
      rw [w.tokens_eq]
      cases exported <;> rfl
    exact specifiers_of_isSpaced w (isSpaced_of_isApart w.isApart hwords) (by simp [defaultName?])
      dynamic
  · have hcopied : ∀ t ∈ typedEquals exported n r, t.IsCopied := fun _ ht =>
      (isMadeOf_typedEquals isQuiet_of_mem_signs trivial ht).isCopied
    rw [specifiers, String.toList_ofList, w.stripChars_text hcopied, hits_typedEquals]
    cases dynamic <;> rfl

section Sample

private def nameT : Name := ⟨'T', [], by decide, Name.continues_nil⟩

private def requestT : Request :=
  ⟨'\'', "./t".toList, isMark_apostrophe, by decide, List.all_iff_forall_prop.mp (by decide)⟩

private def blank : Piece := .blank ' ' isGap_space

/-- An import of types in braces, with a gap behind the modifier or without. -/
def bracedTypes (gap : Gap) :
    Writing (importFrom true (.bindings (.named ⟨[⟨false, nameT, none⟩], false⟩)) requestT).tokens
    where
  first := keyword "import"
  later := [([blank], .modifier "type".toList), (gap, .sign '{'), ([], nameT.token),
    ([], .sign '}'), ([], keyword "from"), ([], .request requestT)]
  tokens_eq := rfl
  isApart := by simp [IsApart, Token.isWord, keyword, Name.token]

/-- An import under the default name `type`, with two blanks behind the name. -/
def wideDefault : Writing (importFrom false (.default typeName none) requestT).tokens where
  first := keyword "import"
  later := [([blank], typeName.token), ([blank, blank], keyword "from"), ([], .request requestT)]
  tokens_eq := rfl
  isApart := by simp [IsApart, Token.isWord, keyword]

/-- A renaming import with the modifier `type`. -/
def renamedType : Writing (typedEquals false nameT requestT) where
  first := keyword "import"
  later := [([blank], .modifier "type".toList), ([blank], nameT.token), ([], .sign '='),
    ([], keyword "require"), ([], .sign '('), ([], .request requestT), ([], .sign ')')]
  tokens_eq := rfl
  isApart := by simp [IsApart, Token.isWord, keyword]

theorem specifiers_bracedTypes :
    String.ofList (bracedTypes [blank]).text = "import type \x7bT\x7dfrom'./t'" ∧
      (∃ program, Source.parse? .typedModule (bracedTypes [blank]).text = some program ∧
        program.specifiers true = [⟨"./t", .typeOnly⟩]) ∧
      specifiers (String.ofList (bracedTypes [blank]).text) true = [⟨"./t", .typeOnly⟩] ∧
      specifiers (String.ofList (bracedTypes []).text) true = [⟨"./t", .static⟩] ∧
      specifiers (String.ofList wideDefault.text) true = [⟨"./t", .typeOnly⟩] ∧
      specifiers (String.ofList renamedType.text) true = [⟨"./t", .dynamic⟩] := by
  have hplain : (bracedTypes [blank]).IsPlain := by
    refine ⟨by simp [bracedTypes, blank, Piece.IsPlain], fun r hr => ?_⟩
    obtain rfl : r = requestT := by
      simpa [tokens, typeTokens, Clause.tokens, Bindings.tokens, Members.tokens, memberTokens,
        Member.tokens, sourceTokens, keyword, Name.token] using hr
    decide
  obtain ⟨program, hprogram⟩ : ∃ program,
      Source.parse? .typedModule (bracedTypes [blank]).text = some program :=
    Option.isSome_iff_exists.mp (by decide +kernel)
  obtain ⟨himport, -, hequals⟩ := specifiers_typeWord true
  exact ⟨by decide +kernel,
    ⟨program, hprogram, (himport _ _ _ (bracedTypes [blank])).1 hplain program hprogram⟩,
    (himport _ _ _ (bracedTypes [blank])).2, (himport _ _ _ (bracedTypes [])).2,
    (himport _ _ _ wideDefault).2, (hequals _ _ _ renamedType).2⟩

/-- The syntax trees and the search disagree: on types in braces without a gap in front of them, on
the default name `type` with two blanks behind it, and on a renaming import of a type. -/
theorem extract_ne_specifiers_typeWord :
    (String.ofList (bracedTypes []).text = "import type\x7bT\x7dfrom'./t'" ∧
      extract .typedModule false (String.ofList (bracedTypes []).text) = [⟨"./t", .typeOnly⟩] ∧
      specifiers (String.ofList (bracedTypes []).text) false = [⟨"./t", .static⟩]) ∧
    (String.ofList wideDefault.text = "import type  from'./t'" ∧
      extract .typedModule false (String.ofList wideDefault.text) = [⟨"./t", .static⟩] ∧
      specifiers (String.ofList wideDefault.text) false = [⟨"./t", .typeOnly⟩]) ∧
    (String.ofList renamedType.text = "import type T=require('./t')" ∧
      extract .typedModule false (String.ofList renamedType.text) = [⟨"./t", .importEquals⟩] ∧
      specifiers (String.ofList renamedType.text) false = []) := by
  decide +kernel

end Sample

end Scan

end ModuleGraph

import ModuleGraph.Proofs.Scan.Literals
import ModuleGraph.Proofs.Source.Program

/-!
# Exports that forward, in every writing

An export that forwards the names of another module may be written without a gap between its
announcing words and the sign behind them.  The syntax tree does not depend on that.  The search for
shapes does: it finds such an export exactly where a gap stands in front of the sign.  The shape
asks for a blank there, and no other place of the text could stand in for the sign, since behind the
sign it asks for the two quote marks of the request as well.

## Main definitions

* `Scan.isPlainChar`: the characters of the tokens in front of the request, the sign apart.

## Main results

* `Scan.exists_of_reExport?`: what a text holds that the shape of a forwarding export fits.
* `Scan.specifiers_reExport`: what the search finds in a forwarding export.
-/

namespace ModuleGraph.Scan

open Text Comment Declaration

/-! ### What the shape asks for -/

/-- The shape of a forwarding export asks for a blank, a star or an opening brace right behind it,
and two quote marks behind that. -/
theorem exists_of_reExport? {cs : List Char} {found : List Char × List Char}
    (h : reExport? cs = some found) :
    ∃ front blank c back, cs = front ++ blank :: c :: back ∧ isBlank blank = true ∧
      (c = '*' ∨ c = '{') ∧ 2 ≤ back.countP isMark := by
  obtain ⟨behind, hexport, h⟩ := Option.bind_eq_some_iff.mp h
  obtain ⟨spaced, hblanks, h⟩ := Option.bind_eq_some_iff.mp h
  obtain ⟨front, blank, hfront, hblank⟩ : ∃ front blank, cs = front ++ blank ::
      ((after? "type".toList spaced).bind blanks?).getD spaced ∧ isBlank blank = true := by
    obtain ⟨front, blank, hbehind, hblank⟩ := exists_of_blanks? hblanks
    rw [eq_append_of_after? hexport, hbehind]
    cases htype : (after? "type".toList spaced).bind blanks? with
    | none => exact ⟨"export".toList ++ front, blank, by simp, hblank⟩
    | some named =>
      obtain ⟨typed, htyped, hnamed⟩ := Option.bind_eq_some_iff.mp htype
      obtain ⟨front', blank', hbehind', hblank'⟩ := exists_of_blanks? hnamed
      rw [eq_append_of_after? htyped, hbehind']
      exact ⟨"export".toList ++ (front ++ blank :: ("type".toList ++ front')), blank', by simp,
        hblank'⟩
  generalize ((after? "type".toList spaced).bind blanks?).getD spaced = named at hfront h
  dsimp only at h
  split at h
  · exact ⟨front, blank, '*', _, hfront, hblank, .inl rfl, (leadsTo_of_starSource? h).two_le_countP⟩
  · exact ⟨front, blank, '{', _, hfront, hblank, .inr rfl, (leadsTo_of_listSource? h).two_le_countP⟩
  · simp at h

theorem exists_reExport?_of_shape? {cs rest : List Char} {s : Specifier}
    (h : shape? cs = some (s, rest)) (hs : s.form = .reExport) :
    ∃ found, reExport? cs = some found := by
  cases hexport : reExport? cs with
  | some found => exact ⟨found, rfl⟩
  | none =>
    simp only [shape?, hexport, Option.map_none, Option.none_or, Option.or_eq_some_iff,
      Option.map_eq_some_iff, Prod.mk.injEq] at h
    rcases h with ⟨found, -, rfl, -⟩ | ⟨-, ⟨⟨⟨request, form⟩, rest⟩, hstatic, rfl, -⟩ |
      ⟨-, found, -, rfl, -⟩⟩
    · simp at hs
    · obtain ⟨-, -, -, rfl | rfl⟩ := leadsTo_of_static? hstatic <;> simp at hs
    · simp at hs

/-! ### The sign of a forwarding export -/

/-- Whether a character is no quote mark and no sign that a forwarding export begins its names
with. -/
def isPlainChar (c : Char) : Bool := !isMark c && c != '*' && c != '{'

theorem isPlainChar_of_isBindingChar {c : Char} (h : isBindingChar c = true) :
    isPlainChar c = true := by
  have hother : ∀ d ∈ ['"', '\'', '*', '{'], isBindingChar d = false :=
    List.all_iff_forall_prop.mp (by decide)
  have hne : ∀ d ∈ ['"', '\'', '*', '{'], c ≠ d := by
    rintro d hd rfl
    simp [hother c hd] at h
  simp [isPlainChar, isMark, hne '"' (by simp), hne '\'' (by simp), hne '*' (by simp),
    hne '{' (by simp)]

theorem isPlainChar_of_isGap {c : Char} (h : Json.isGap c = true) : isPlainChar c = true := by
  simp only [Json.isGap, Bool.or_eq_true, beq_iff_eq] at h
  rcases h with ((rfl | rfl) | rfl) | rfl <;> rfl

/-- The tokens of a forwarding export: its announcing words, its sign, and the request behind tokens
without another such sign. -/
theorem exists_tokens_of_reExport {d : Declaration} (h : d.form = .reExport) :
    ∃ typeOnly c inner, d.tokens = .modifier "export".toList ::
        (typeTokens typeOnly ++ .sign c :: (inner ++ [.request d.request])) ∧
      (c = '*' ∨ c = '{') ∧ modifiesWords inner = true ∧
      ∀ t ∈ inner, t.IsMadeOf (isPlainChar · = true) fun _ => False := by
  cases d with
  | bare r => simp [form] at h
  | importFrom typeOnly clause r => cases typeOnly <;> simp [form] at h
  | importEquals exported n r => simp [form] at h
  | exportAll typeOnly n r =>
    refine ⟨typeOnly, '*', (n.map fun n => [keyword "as", n.token]).getD [] ++ [keyword "from"],
      by simp [tokens, sourceTokens, request], .inl rfl, by cases n <;> rfl, ?_⟩
    exact List.forall_mem_append.mpr
      ⟨isMadeOf_renamed n, List.forall_mem_singleton.mpr (isMadeOf_keyword (by decide))⟩
  | exportNamed typeOnly ms r =>
    refine ⟨typeOnly, '{', memberTokens ms.trailing ms.list ++ [.sign '}', keyword "from"],
      by simp [tokens, Members.tokens, sourceTokens, request], .inr rfl,
      modifiesWords_append (modifiesWords_memberTokens ms.trailing ms.list) rfl, ?_⟩
    exact List.forall_mem_append.mpr ⟨isMadeOf_memberTokens (by decide) ms.trailing ms.list,
      List.forall_mem_cons.mpr
        ⟨rfl, List.forall_mem_singleton.mpr (isMadeOf_keyword (by decide))⟩⟩

theorem countP_isMark_request (r : Request) : (Token.request r).chars.countP isMark = 2 := by
  have hbody : r.chars.countP isMark = 0 := by
    rw [List.countP_eq_zero]
    intro c hc hmark
    have hplain := (r.plain c hc).1
    simp [isRequestChar, hmark] at hplain
  rw [Token.chars, List.cons_append, List.countP_cons_of_pos r.isMark, List.countP_append, hbody,
    List.countP_singleton, if_pos r.isMark]

/-- Of a sign, tokens without another, and a request, the sign is the only star or opening brace
with two quote marks behind it. -/
theorem eq_of_two_marks {before inner front back : List Char} {s c : Char} {r : Request}
    (hbefore : ∀ e ∈ before, isPlainChar e = true) (hinner : ∀ e ∈ inner, isPlainChar e = true)
    (hc : c = '*' ∨ c = '{')
    (h : before ++ s :: (inner ++ (Token.request r).chars) = front ++ c :: back)
    (hmarks : 2 ≤ back.countP isMark) : front = before := by
  have hplain : isPlainChar c = false := by rcases hc with rfl | rfl <;> rfl
  have hmark : c ≠ r.mark := by
    rintro rfl
    rcases r.mark_eq with h | h <;> rcases hc with hc | hc <;> simp [h] at hc
  rcases List.append_eq_append_iff.mp h with ⟨as, rfl, has⟩ | ⟨bs, rfl, hbs⟩
  · cases as with
    | nil => simp
    | cons a as =>
      -- The sign found stands behind the sign of the export: among the tokens there, or in the
      -- request, where one mark at most is left behind it.
      exfalso
      rcases List.append_eq_append_iff.mp (List.cons.inj has).2 with ⟨x, -, hx⟩ | ⟨y, rfl, hy⟩
      · cases x with
        | nil => exact hmark (List.cons.inj hx).1.symm
        | cons m x =>
          obtain rfl : r.mark = m := (List.cons.inj hx).1
          have hcount := countP_isMark_request r
          rw [hx, List.cons_append, List.countP_cons_of_pos r.isMark, List.countP_append] at hcount
          have hback := (List.sublist_cons_self c back).countP_le (p := isMark)
          omega
      · cases y with
        | nil => exact hmark (List.cons.inj hy).1
        | cons e y =>
          obtain rfl : c = e := (List.cons.inj hy).1
          simp [hinner c (by simp)] at hplain
  · cases bs with
    | nil => simp
    | cons b bs =>
      obtain rfl : c = b := (List.cons.inj hbs).1
      simp [hbefore c (by simp)] at hplain

section Export

variable {typeOnly : Bool} {s : Char} {inner : List Token} {r : Request}
  {ts us : List (Gap × Token)} {g g' : Gap} (hts : ts.map Prod.snd = typeTokens typeOnly)
  (hus : us.map Prod.snd = inner)

include hts hus

/-- Behind its announcing words, a gap in front of the sign is all that an export needs. -/
theorem isSpaced_of_gap_ne_nil (hwords : modifiesWords inner = true) (hg : g ≠ [])
    (hapart : IsApart (.modifier "export".toList)
      (ts ++ (g, .sign s) :: (us ++ [(g', .request r)]))) :
    IsSpaced (.modifier "export".toList) (ts ++ (g, .sign s) :: (us ++ [(g', .request r)])) := by
  have hinner : modifiesWords ((us ++ [(g', Token.request r)]).map Prod.snd) = true := by
    rw [List.map_append, hus]
    exact modifiesWords_append hwords rfl
  have hbehind : IsSpaced (.sign s) (us ++ [(g', .request r)]) :=
    isSpaced_of_isApart hapart.behind hinner
  cases typeOnly with
  | false =>
    obtain rfl : ts = [] := List.map_eq_nil_iff.mp hts
    exact ⟨fun _ => hg, hbehind⟩
  | true =>
    obtain ⟨g₁, rfl⟩ := exists_of_map_snd_eq_singleton hts
    exact ⟨fun _ => hapart.1 rfl rfl, fun _ => hg, hbehind⟩

/-- Where the shape of a forwarding export fits a part of such an export, a gap stands in front of
its sign. -/
theorem gap_ne_nil_of_reExport?
    (hinner : ∀ t ∈ inner, t.IsMadeOf (isPlainChar · = true) fun _ => False) {cs : List Char}
    (hcs : cs <:+ "export".toList ++ spacedBare (ts ++ (g, .sign s) :: (us ++ [(g', .request r)])))
    {found : List Char × List Char} (h : reExport? cs = some found) : g ≠ [] := by
  have hword : ∀ e, isBindingChar e = true → isPlainChar e = true := fun _ =>
    isPlainChar_of_isBindingChar
  have hgap : ∀ e, Json.isGap e = true → isPlainChar e = true := fun _ => isPlainChar_of_isGap
  obtain ⟨start, hstart⟩ := hcs
  obtain ⟨front, blank, c, back, rfl, hblank, hc, hmarks⟩ := exists_of_reExport? h
  have hsplit : "export".toList ++ spacedBare ts ++ Gap.bare g ++
      s :: (spacedBare us ++ Gap.bare g' ++ (Token.request r).chars) =
      (start ++ front ++ [blank]) ++ c :: back := by
    simp only [List.append_assoc, spacedBare_append, spacedBare_cons, spacedBare_nil,
      List.append_nil, List.singleton_append] at hstart ⊢
    exact hstart.symm
  have hwords : ∀ e ∈ "export".toList ++ spacedBare ts ++ Gap.bare g, isPlainChar e = true := by
    simp only [List.forall_mem_append]
    exact ⟨⟨isMadeOf_export.forall_chars hword,
      forall_spacedBare hword hgap (hts ▸ isMadeOf_typeTokens typeOnly)⟩,
      fun e he => hgap e (Gap.isGap_of_mem_bare he)⟩
  have hnames : ∀ e ∈ spacedBare us ++ Gap.bare g', isPlainChar e = true :=
    List.forall_mem_append.mpr ⟨forall_spacedBare hword hgap (hus ▸ hinner),
      fun e he => hgap e (Gap.isGap_of_mem_bare he)⟩
  have hbefore := eq_of_two_marks hwords hnames hc hsplit hmarks
  -- Without a gap, the sign would follow a letter of `export` or `type`.
  rintro rfl
  have hlast := congrArg List.getLast? hbefore
  cases typeOnly with
  | false =>
    obtain rfl : ts = [] := List.map_eq_nil_iff.mp hts
    obtain rfl : blank = 't' := by simpa [Gap.bare] using hlast
    simp [isBlank] at hblank
  | true =>
    obtain ⟨g₁, rfl⟩ := exists_of_map_snd_eq_singleton hts
    obtain rfl : blank = 'e' := by simpa [Gap.bare, Token.chars, List.getLast?_cons] using hlast
    simp [isBlank] at hblank

end Export

/-- However an export that forwards the exports of a module is written, its syntax tree gives its
specifier.  The search finds just that specifier where a gap follows each modifier, and no
forwarding export at all elsewhere. -/
theorem specifiers_reExport {d : Declaration} (hd : d.form = .reExport) (w : Writing d.tokens)
    (dynamic : Bool) :
    (w.IsPlain → ∀ program, Source.parse? .typedModule w.text = some program →
      program.specifiers dynamic = [d.specifier]) ∧
    (IsSpaced w.first w.later → specifiers (String.ofList w.text) dynamic = [d.specifier]) ∧
    (¬ IsSpaced w.first w.later →
      ∀ s ∈ specifiers (String.ofList w.text) dynamic, s.form ≠ .reExport) := by
  have hbare : stripChars w.text = w.bare := w.stripChars_text fun t => isCopied_of_mem_tokens
  refine ⟨fun hw program h => Source.specifiers_of_parse?_writing hw h dynamic, fun hspaced => ?_,
    fun hspaced s hs hform => hspaced ?_⟩
  · have hn : ∀ n ∈ d.defaultName?, n.chars ≠ "type".toList := by
      rcases d with _ | ⟨_ | _, clause, r⟩ | _ | _ | _ <;> simp_all [form, defaultName?]
    exact specifiers_of_isSpaced w hspaced hn dynamic
  · rw [specifiers, String.toList_ofList, hbare] at hs
    obtain ⟨hit, hhit, rfl⟩ := List.mem_map.mp (List.mem_of_mem_filter hs)
    obtain ⟨cs, rest, hcs, hshape⟩ := exists_shape?_of_mem_hitsFrom hhit
    obtain ⟨found, hfound⟩ := exists_reExport?_of_shape? hshape hform
    obtain ⟨typeOnly, s, inner, htokens, -, hwords, hinner⟩ := exists_tokens_of_reExport hd
    obtain ⟨first, later, hlater, hapart⟩ := w
    obtain ⟨rfl, hbehind⟩ := List.cons.inj (hlater.trans htokens)
    obtain ⟨ts, us, rfl, hts, hsign⟩ := List.map_eq_append_iff.mp hbehind
    obtain ⟨g, us, rfl, hnames⟩ := exists_of_map_snd_eq_cons hsign
    obtain ⟨us, vs, rfl, hus, hrequest⟩ := List.map_eq_append_iff.mp hnames
    obtain ⟨g', rfl⟩ := exists_of_map_snd_eq_singleton hrequest
    exact isSpaced_of_gap_ne_nil hts hus hwords (gap_ne_nil_of_reExport? hts hus hinner hcs hfound)
      hapart

section Sample

private theorem starts_a : 'a'.toNat < 128 ∧ Text.isNameStart 'a' = true := by decide

private theorem nonempty_a : "./a".toList ≠ [] := by decide

private theorem plain_a : ∀ c ∈ "./a".toList, isRequestChar c = true ∧ c ≠ '\\' :=
  List.all_iff_forall_prop.mp (by decide)

private def nameA : Name := ⟨'a', [], starts_a, Name.continues_nil⟩

private def requestA : Request := ⟨'\'', "./a".toList, isMark_apostrophe, nonempty_a, plain_a⟩

private def line : Gap := [.blank '\n' rfl]

private def comment : Gap := [.block "*".toList (by decide +kernel)]

/-- An export of types, with gaps behind its modifiers and between words alone. -/
def spacedExport :
    Writing (exportNamed true ⟨[⟨true, nameA, some typeName⟩], true⟩ requestA).tokens where
  first := .modifier "export".toList
  later := [(comment, .modifier "type".toList), (line, .sign '{'), ([], .modifier "type".toList),
    (line, nameA.token), (line, keyword "as"), (comment, typeName.token), ([], .sign ','),
    ([], .sign '}'), ([], keyword "from"), ([], .request requestA)]
  tokens_eq := rfl
  isApart := by simp [IsApart, line, comment, Token.isWord, keyword, Name.token]

/-- An export of all names, without a gap. -/
def tightExport : Writing (exportAll false none requestA).tokens where
  first := .modifier "export".toList
  later := [([], .sign '*'), ([], keyword "from"), ([], .request requestA)]
  tokens_eq := rfl
  isApart := by simp [IsApart, Token.isWord, keyword]

theorem specifiers_spacedExport :
    String.ofList spacedExport.text = "export/***/type\n\x7btype\na\nas/***/type,\x7dfrom'./a'" ∧
      (∃ program, Source.parse? .typedModule spacedExport.text = some program ∧
        program.specifiers true = [⟨"./a", .reExport⟩]) ∧
      specifiers (String.ofList spacedExport.text) true = [⟨"./a", .reExport⟩] ∧
      ∀ s ∈ specifiers (String.ofList tightExport.text) true, s.form ≠ .reExport := by
  have hplain : spacedExport.IsPlain := by
    refine ⟨by simp [spacedExport, line, comment, Piece.IsPlain], fun r hr => ?_⟩
    obtain rfl : r = requestA := by
      simpa [tokens, typeTokens, Members.tokens, memberTokens, Member.tokens, sourceTokens,
        keyword, Name.token] using hr
    decide
  have hspaced : IsSpaced spacedExport.first spacedExport.later := by
    simp [spacedExport, IsSpaced, line, comment, needsGap, Token.isWord, keyword, Name.token]
  have htight : ¬ IsSpaced tightExport.first tightExport.later := by
    simp [tightExport, IsSpaced, needsGap]
  obtain ⟨program, hprogram⟩ : ∃ program,
      Source.parse? .typedModule spacedExport.text = some program :=
    Option.isSome_iff_exists.mp (by decide +kernel)
  have hexport := specifiers_reExport rfl spacedExport true
  exact ⟨by decide +kernel, ⟨program, hprogram, hexport.1 hplain program hprogram⟩,
    hexport.2.1 hspaced, (specifiers_reExport rfl tightExport true).2.2 htight⟩

/-- Without a gap behind `export`, the search loses what the syntax tree gives. -/
theorem specifiers_tightExport :
    String.ofList tightExport.text = "export*from'./a'" ∧
      extract .typedModule true (String.ofList tightExport.text) = [⟨"./a", .reExport⟩] ∧
      specifiers (String.ofList tightExport.text) true = [] := by
  decide +kernel

end Sample

end ModuleGraph.Scan

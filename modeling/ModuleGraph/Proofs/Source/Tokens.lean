import ModuleGraph.Proofs.Scan.Writing
import ModuleGraph.Proofs.Source.Gaps

/-!
# Reading the tokens of a declaration

A reader that stands in front of a laid out declaration sees its tokens one after the other, however
they are laid out.  Gaps are skipped, a word ends where no character of a name follows, a sign ends
where no longer symbol goes on, and a request ends at its closing mark.  So what the grammar makes
of a declaration can be followed on its tokens alone.

The reader ends a line at two characters more than the search for shapes does.  A line comment that
holds one of them is no comment to the reader up to its end, and a request that holds a carriage
return is no string; such layouts are left out.

## Main definitions

* `Comment.Piece.IsPlain`, `Declaration.Layout.IsPlain`: what the reader and the search understand
  alike.
* `Declaration.Token.kind`, `Declaration.Token.text`: what the reader makes of a token.
* `Source.Cursor.IsAt`: a cursor stands at the first token of a text.
* `Source.Cursor.Reads`: the tokens that a cursor meets, up to a text behind them.

## Main results

* `Source.Cursor.reads_layout`: in front of a laid out declaration, a cursor meets its tokens.
-/

namespace ModuleGraph

open Comment

/-! ### Gaps -/

/-- A piece of a gap in which no line ends that a comment goes beyond. -/
def Comment.Piece.IsPlain : Piece → Prop
  | .blank _ _ | .block _ _ => True
  | .line body _ _ _ => ∀ c ∈ body, Source.endsLine c = false

namespace Source

theorem skipGap_line {body : List Char} (h : ∀ c ∈ body, endsLine c = false) {ending : Char}
    (hend : endsLine ending = true) (newline : Bool) (rest : List Char) :
    skipGap false .line newline (body ++ ending :: rest) = skipGap false .open true rest := by
  induction body with
  | nil => rw [List.nil_append, skipGap, if_pos hend]
  | cons c body ih =>
    rw [List.cons_append, skipGap, if_neg (by simp [h c List.mem_cons_self]),
      ih fun d hd => h d (List.mem_cons_of_mem c hd)]

theorem skipGap_block {body : List Char} (h : ¬ ['*', '/'] <:+: body) (newline : Bool)
    (rest : List Char) :
    ∃ newline', skipGap false .block newline (body ++ '*' :: '/' :: rest) =
      skipGap false .open newline' rest := by
  induction body generalizing newline with
  | nil => exact ⟨newline, by rw [List.nil_append, skipGap]⟩
  | cons c body ih =>
    have htail : ¬ ['*', '/'] <:+: body := fun hinner =>
      h (hinner.trans (List.suffix_cons c body).isInfix)
    obtain ⟨newline', ih⟩ := ih htail (newline || endsLine c)
    refine ⟨newline', ?_⟩
    rw [List.cons_append, skipGap, ih]
    exact ne_closing_of_not_isInfix h rest

theorem skipGap_piece {p : Piece} (h : p.IsPlain) (newline : Bool) (rest : List Char) :
    ∃ newline', skipGap false .open newline (p.text ++ rest) =
      skipGap false .open newline' rest := by
  cases p with
  | blank c hc =>
    simp only [Json.isGap, Bool.or_eq_true, beq_iff_eq] at hc
    rcases hc with ((rfl | rfl) | rfl) | rfl
    · exact ⟨newline, rfl⟩
    · exact ⟨true, rfl⟩
    · exact ⟨newline, rfl⟩
    · exact ⟨true, rfl⟩
  | line body ending hbody hend =>
    have hends : endsLine ending = true := by
      simp only [isLineEnd, Bool.or_eq_true, beq_iff_eq] at hend
      rcases hend with rfl | rfl <;> rfl
    have htext : (Piece.line body ending hbody hend).text ++ rest =
      '/' :: '/' :: (body ++ ending :: rest) := by simp [Piece.text]
    exact ⟨true, by rw [htext, skipGap, skipGap_line h hends]⟩
  | block body hbody =>
    have htext : (Piece.block body hbody).text ++ rest =
      '/' :: '*' :: (body ++ '*' :: '/' :: rest) := by simp [Piece.text]
    rw [htext, skipGap]
    exact skipGap_block hbody newline rest

/-- A gap is skipped, and all that is left of it is whether a line ends in it. -/
theorem skipGap_gap {g : Comment.Gap} (h : ∀ p ∈ g, p.IsPlain) (newline : Bool)
    (rest : List Char) :
    ∃ newline', skipGap false .open newline (Comment.Gap.text g ++ rest) =
      skipGap false .open newline' rest := by
  induction g generalizing newline with
  | nil => exact ⟨newline, rfl⟩
  | cons p g ih =>
    obtain ⟨middle, hpiece⟩ :=
      skipGap_piece (h p List.mem_cons_self) newline (Comment.Gap.text g ++ rest)
    obtain ⟨newline', hgap⟩ := ih (fun q hq => h q (List.mem_cons_of_mem p hq)) middle
    refine ⟨newline', ?_⟩
    rw [Comment.Gap.text, List.flatMap_cons, List.append_assoc]
    exact hpiece.trans hgap

/-- The characters that no gap begins with. -/
def startsToken (c : Char) : Bool :=
  !endsLine c && !separates c && c != '/' && c != '<' && c != '-'

theorem skipGap_of_startsToken {c : Char} (h : startsToken c = true) (newline : Bool)
    (rest : List Char) :
    skipGap false .open newline (c :: rest) = ⟨newline, true, c :: rest⟩ := by
  simp only [startsToken, Bool.and_eq_true, Bool.not_eq_true', bne_iff_ne] at h
  obtain ⟨⟨⟨⟨hline, hblank⟩, hslash⟩, hless⟩, hminus⟩ := h
  rw [skipGap]
  · simp [hline, hblank]
  all_goals simp_all

/-! ### Words, signs and requests -/

theorem readName_append {cs rest : List Char} (h : ∀ c ∈ cs, c ≠ '\\' ∧ Text.isNamePart c = true)
    (hrest : ∀ c ∈ rest.head?, c ≠ '\\' ∧ Text.isNamePart c = false) :
    readName false 0 (cs ++ rest) = ⟨cs, false, false, rest⟩ := by
  induction cs with
  | nil =>
    cases rest with
    | nil => rfl
    | cons c rest =>
      obtain ⟨hback, hpart⟩ := hrest c rfl
      simp [readName, hback, hpart]
  | cons c cs ih =>
    obtain ⟨hback, hpart⟩ := h c List.mem_cons_self
    simp [readName, hback, hpart, ih fun d hd => h d (List.mem_cons_of_mem c hd)]

theorem readQuoted_append {mark : Char} {cs : List Char}
    (h : ∀ c ∈ cs, c ≠ '\\' ∧ c ≠ mark ∧ c ≠ '\n' ∧ c ≠ '\r') (hmark : mark ≠ '\\')
    (rest : List Char) :
    readQuoted mark 0 (cs ++ mark :: rest) = some ⟨cs.map Char.toNat, false, rest⟩ := by
  induction cs with
  | nil => simp [readQuoted, hmark]
  | cons c cs ih =>
    obtain ⟨hback, hmark', hline, hreturn⟩ := h c List.mem_cons_self
    simp [readQuoted, hback, hmark', hline, hreturn, ih fun d hd => h d (List.mem_cons_of_mem c hd)]

/-- Code points of characters are no halves of surrogate pairs. -/
theorem charsOfPoints_map_toNat (cs : List Char) : charsOfPoints (cs.map Char.toNat) = cs := by
  have hhalf : (cs.map Char.toNat).any isHalf = false := by
    rw [List.any_eq_false]
    intro n hn
    obtain ⟨c, -, rfl⟩ := List.mem_map.mp hn
    have hvalid := c.valid
    simp only [UInt32.isValidChar, Nat.isValidChar] at hvalid
    simp only [isHalf, Bool.and_eq_true, Nat.ble_eq, Char.toNat]
    omega
  rw [charsOfPoints, if_neg (by simp [hhalf]), List.map_map]
  exact List.map_id'' (fun c => Char.ofNat_toNat c) cs

end Source

namespace Declaration

/-- What the reader takes a token for. -/
def Token.kind : Token → Source.Token.Kind
  | .modifier text | .word text => Source.nameKind text
  | .sign c => ((Source.readSymbol? Source.symbols [c]).map fun s => .symbol s.1).getD .broken
  | .request _ => .string

/-- The text that the reader keeps of a token. -/
def Token.text : Token → List Char
  | .modifier text | .word text => text
  | .sign _ => []
  | .request r => r.chars

/-- A token that the reader understands. -/
def Token.IsPlain : Token → Prop
  | .modifier text | .word text => ∃ n : Name, text = n.chars
  | .sign c => c ∈ [',', '{', '}', '*', '=', '(', ')', ';']
  | .request r => '\r' ∉ r.chars

/-- Whether a token is a sign that longer symbols begin with. -/
def Token.isOpen : Token → Bool
  | .sign c => c == '*' || c == '='
  | _ => false

/-- Whether a character right behind a token would belong to it. -/
def Token.takes : Token → Char → Bool
  | .modifier _, c | .word _, c => Text.isNamePart c || c == '\\'
  | .sign s, c => (Token.sign s).isOpen && (c == '*' || c == '=' || c == '>')
  | .request _, _ => false

theorem Name.startsToken_first (n : Name) : Source.startsToken n.first = true :=
  n.first_of_ascii (by decide +kernel)

theorem Token.exists_chars_eq_cons {t : Token} (h : t.IsPlain) :
    ∃ c cs, t.chars = c :: cs ∧ Source.startsToken c = true := by
  cases t with
  | modifier text | word text =>
    obtain ⟨n, rfl⟩ := h
    exact ⟨n.first, n.later, rfl, n.startsToken_first⟩
  | sign c =>
    have hsigns : ∀ c ∈ [',', '{', '}', '*', '=', '(', ')', ';'], Source.startsToken c = true :=
      List.all_iff_forall_prop.mp (by decide)
    exact ⟨c, [], rfl, hsigns c h⟩
  | request r => exact ⟨r.mark, _, rfl, by rcases r.mark_eq with h | h <;> rw [h] <;> rfl⟩

theorem readBare_name (n : Name) {rest : List Char}
    (hrest : ∀ c ∈ rest.head?, (Text.isNamePart c || c == '\\') = false) (newline : Bool) :
    Source.readBare newline (n.chars ++ rest) =
      (⟨Source.nameKind n.chars, n.chars, newline, false, false⟩, rest) := by
  have hfirst : n.first ≠ '\\' := by
    intro h
    have hstart := n.starts.2
    simp [h, Text.isNameStart] at hstart
  have hlater : ∀ c ∈ n.later, c ≠ '\\' ∧ Text.isNamePart c = true := by
    intro c hc
    refine ⟨?_, (n.continues c hc).2⟩
    rintro rfl
    have hpart := (n.continues _ hc).2
    simp [Text.isNamePart, Text.isAsciiWord] at hpart
  have hend : ∀ c ∈ rest.head?, c ≠ '\\' ∧ Text.isNamePart c = false := by
    intro c hc
    have hc := hrest c hc
    simp only [Bool.or_eq_false_iff, beq_eq_false_iff_ne] at hc
    exact ⟨hc.2, hc.1⟩
  have hname : Source.readName true 0 (n.chars ++ rest) = ⟨n.chars, false, false, rest⟩ := by
    simp [Name.chars, Source.readName, hfirst, n.starts.2, Source.readName_append hlater hend]
  rw [Name.chars, List.cons_append] at hname ⊢
  simp [Source.readBare, Source.startsName, n.starts.2, hname]

/-- A sign is read alone unless it begins a longer symbol. -/
theorem readPunctuation?_sign {c : Char} (h : c ∈ [',', '{', '}', '*', '=', '(', ')', ';'])
    {rest : List Char} (hrest : ∀ d ∈ rest.head?, (Token.sign c).takes d = false) :
    Source.readPunctuation? (c :: rest) =
      (Source.readSymbol? Source.symbols [c]).map fun s => (s.1, rest) := by
  simp only [List.mem_cons, List.not_mem_nil, or_false] at h
  rcases h with rfl | rfl | rfl | rfl | rfl | rfl | rfl | rfl
  case inr.inr.inr.inl | inr.inr.inr.inr.inl =>
    cases rest with
    | nil => rfl
    | cons d rest =>
      have hd := hrest d rfl
      simp only [Token.takes, Token.isOpen, beq_self_eq_true, Bool.or_true, Bool.true_or,
        Bool.true_and, Bool.or_eq_false_iff, beq_eq_false_iff_ne] at hd
      obtain ⟨⟨hstar, hequals⟩, hangle⟩ := hd
      simp [Source.readPunctuation?, Source.readSymbol?, Source.symbols, List.find?,
        List.isPrefixOf, beq_false_of_ne hstar.symm, beq_false_of_ne hequals.symm,
        beq_false_of_ne hangle.symm]
  all_goals rfl

theorem readBare_sign {c : Char} (h : c ∈ [',', '{', '}', '*', '=', '(', ')', ';'])
    {rest : List Char} (hrest : ∀ d ∈ rest.head?, (Token.sign c).takes d = false) (newline : Bool) :
    Source.readBare newline (c :: rest) = ({ kind := (Token.sign c).kind, newline }, rest) := by
  have hpunctuation := readPunctuation?_sign h hrest
  simp only [List.mem_cons, List.not_mem_nil, or_false] at h
  rcases h with rfl | rfl | rfl | rfl | rfl | rfl | rfl | rfl
  all_goals
    simp only [Source.readBare, hpunctuation]
    rfl

theorem readBare_request {r : Request} (h : '\r' ∉ r.chars) (rest : List Char) (newline : Bool) :
    Source.readBare newline ((Token.request r).chars ++ rest) =
      (⟨.string, r.chars, newline, false, false⟩, rest) := by
  have hchars : ∀ c ∈ r.chars, c ≠ '\\' ∧ c ≠ r.mark ∧ c ≠ '\n' ∧ c ≠ '\r' := by
    intro c hc
    obtain ⟨hrequest, hback⟩ := r.plain c hc
    refine ⟨hback, ?_, ?_, fun hreturn => h (hreturn ▸ hc)⟩
    · rintro rfl
      simp [Scan.isRequestChar, r.isMark] at hrequest
    · rintro rfl
      simp [Scan.isRequestChar] at hrequest
  have hquoted : Source.readQuoted r.mark 0 (r.chars ++ r.mark :: rest) =
      some ⟨r.chars.map Char.toNat, false, rest⟩ := by
    refine Source.readQuoted_append hchars ?_ rest
    rcases r.mark_eq with h | h <;> rw [h] <;> decide
  have htext : (Token.request r).chars ++ rest = r.mark :: (r.chars ++ r.mark :: rest) := by
    simp [Token.chars]
  have hname : Source.startsName (r.mark :: (r.chars ++ r.mark :: rest)) = false := by
    rcases r.mark_eq with h | h <;> rw [h] <;> rfl
  have hmark : (r.mark == '"' || r.mark == '\'') = true := r.isMark
  simp only [htext, Source.readBare, hname, hmark, hquoted, Source.charsOfPoints_map_toNat,
    Bool.false_eq_true, if_false, if_true]

/-- A token that the reader understands is read back, if nothing follows that would belong to it. -/
theorem exists_readBare_eq {t : Token} (h : t.IsPlain) {rest : List Char}
    (hrest : ∀ c ∈ rest.head?, t.takes c = false) (newline : Bool) :
    ∃ token : Source.Token, Source.readBare newline (t.chars ++ rest) = (token, rest) ∧
      token.kind = t.kind ∧ token.text = t.text := by
  cases t with
  | modifier text | word text =>
    obtain ⟨n, rfl⟩ := h
    exact ⟨_, readBare_name n hrest newline, rfl, rfl⟩
  | sign c => exact ⟨_, readBare_sign h hrest newline, rfl, rfl⟩
  | request r => exact ⟨_, readBare_request h rest newline, rfl, rfl⟩

/-- Behind a token that the reader understands there may be more to read. -/
theorem Token.isLast_eq_false {t : Token} (h : t.IsPlain) {token : Source.Token}
    (hkind : token.kind = t.kind) : token.isLast = false := by
  rw [Source.Token.isLast, hkind]
  cases t with
  | modifier text | word text =>
    rw [kind, Source.nameKind]
    cases Source.Keyword.ofChars? text <;> rfl
  | sign c =>
    simp only [IsPlain, List.mem_cons, List.not_mem_nil, or_false] at h
    rcases h with rfl | rfl | rfl | rfl | rfl | rfl | rfl | rfl <;> rfl
  | request r => rfl

/-! ### Neighbours -/

theorem Token.takes_eq_false_of_mem_gap (t : Token) {c : Char}
    (h : c ∈ [' ', '\n', '\t', '\r', '/']) : t.takes c = false := by
  have hword : ∀ c ∈ [' ', '\n', '\t', '\r', '/'], (Text.isNamePart c || c == '\\') = false :=
    List.all_iff_forall_prop.mp (by decide)
  have hsign : ∀ c ∈ [' ', '\n', '\t', '\r', '/'], (c == '*' || c == '=' || c == '>') = false :=
    List.all_iff_forall_prop.mp (by decide)
  cases t with
  | modifier text | word text => exact hword c h
  | sign s => rw [takes, hsign c h, Bool.and_false]
  | request r => rfl

theorem exists_text_eq_cons (p : Piece) :
    ∃ c cs, p.text = c :: cs ∧ c ∈ [' ', '\n', '\t', '\r', '/'] := by
  cases p with
  | blank c h =>
    refine ⟨c, [], rfl, ?_⟩
    simp only [Json.isGap, Bool.or_eq_true, beq_iff_eq] at h
    rcases h with ((rfl | rfl) | rfl) | rfl <;> simp
  | line body ending _ _ => exact ⟨'/', _, rfl, by simp⟩
  | block body _ => exact ⟨'/', _, rfl, by simp⟩

/-- The first character of a sign or a request does not continue a name. -/
theorem Token.takes_eq_false_of_isWord {t u : Token} (hu : u.IsPlain) (ht : t.isWord = true)
    (hword : u.isWord = false) : ∀ c ∈ u.chars.head?, t.takes c = false := by
  have hsigns : ∀ c ∈ [',', '{', '}', '*', '=', '(', ')', ';'],
      (Text.isNamePart c || c == '\\') = false :=
    List.all_iff_forall_prop.mp (by decide)
  have hother : ∀ c ∈ u.chars.head?, (Text.isNamePart c || c == '\\') = false := by
    intro c hc
    cases u with
    | modifier text | word text => simp [isWord] at hword
    | sign s =>
      obtain rfl : s = c := by simpa [chars] using hc
      exact hsigns s hu
    | request r =>
      obtain rfl : r.mark = c := by simpa [chars] using hc
      rcases r.mark_eq with h | h <;> rw [h] <;> rfl
  cases t with
  | modifier text | word text => exact hother
  | sign s | request r => simp [isWord] at ht

/-- The first character of a token makes no longer symbol with a sign, unless the token is a sign
that longer symbols begin with. -/
theorem Token.head?_ne_of_isOpen_eq_false {u : Token} (hu : u.IsPlain) (hopen : u.isOpen = false) :
    ∀ c ∈ u.chars.head?, (c == '*' || c == '=' || c == '>') = false := by
  intro c hc
  cases u with
  | modifier text | word text =>
    obtain ⟨n, rfl⟩ := hu
    obtain rfl : n.first = c := by simpa [chars, Name.chars] using hc
    have hstart := n.starts.2
    have hfirst : ∀ d ∈ ['*', '=', '>'], n.first ≠ d := by
      rintro d hd hfirst
      simp only [List.mem_cons, List.not_mem_nil, or_false] at hd
      rcases hd with rfl | rfl | rfl <;> simp [hfirst, Text.isNameStart] at hstart
    simp [hfirst '*' (by simp), hfirst '=' (by simp), hfirst '>' (by simp)]
  | sign s =>
    obtain rfl : s = c := by simpa [chars] using hc
    simp only [IsPlain, List.mem_cons, List.not_mem_nil, or_false] at hu
    rcases hu with rfl | rfl | rfl | rfl | rfl | rfl | rfl | rfl <;>
      first | rfl | simp [isOpen] at hopen
  | request r =>
    obtain rfl : r.mark = c := by simpa [chars] using hc
    rcases r.mark_eq with h | h <;> rw [h] <;> rfl

/-- No token takes the first character of a neighbour that it may touch. -/
theorem Token.takes_eq_false_of_touches {t u : Token} (hu : u.IsPlain)
    (hword : t.isWord = true → u.isWord = false) (hopen : t.isOpen = true → u.isOpen = false) :
    ∀ c ∈ u.chars.head?, t.takes c = false := by
  intro c hc
  cases t with
  | modifier text | word text => exact takes_eq_false_of_isWord hu rfl (hword rfl) c hc
  | sign s =>
    rw [takes]
    cases hs : (Token.sign s).isOpen with
    | false => rfl
    | true => exact head?_ne_of_isOpen_eq_false hu (hopen hs) c hc
  | request r => rfl

theorem spacedText_cons (gap : Comment.Gap) (t : Token) (ts : List (Comment.Gap × Token)) :
    spacedText ((gap, t) :: ts) = Comment.Gap.text gap ++ (t.chars ++ spacedText ts) := by
  simp [spacedText]

/-- No token takes a character of what follows it in a writing. -/
theorem Token.takes_eq_false_of_apart {t u : Token} (hu : u.IsPlain) {gap : Comment.Gap}
    (hgap : t.isWord = true → u.isWord = true → gap ≠ [])
    (hopen : t.isOpen = true → u.isOpen = false)
    (rest : List Char) :
    ∀ c ∈ (Comment.Gap.text gap ++ (u.chars ++ rest)).head?, t.takes c = false := by
  intro c hc
  cases gap with
  | nil =>
    obtain ⟨d, ds, hchars, -⟩ := u.exists_chars_eq_cons hu
    have hword : t.isWord = true → u.isWord = false := fun ht =>
      Bool.eq_false_iff.mpr fun hu => hgap ht hu rfl
    refine takes_eq_false_of_touches hu hword hopen c ?_
    simpa [hchars, Comment.Gap.text] using hc
  | cons p gap =>
    obtain ⟨d, ds, htext, hd⟩ := exists_text_eq_cons p
    obtain rfl : d = c := by simpa [Comment.Gap.text, htext] using hc
    exact t.takes_eq_false_of_mem_gap hd

/-! ### The tokens of declarations -/

theorem Token.IsMadeOf.isPlain {t : Token}
    (h : t.IsMadeOf (· ∈ [',', '{', '}', '*', '=', '(', ')']) fun r => '\r' ∉ r.chars) :
    t.IsPlain := by
  cases t with
  | modifier text | word text | request r => exact h
  | sign c => exact List.mem_append_left [';'] h

/-- The reader understands all tokens of a declaration whose request holds no carriage return. -/
theorem isPlain_of_mem_tokens {d : Declaration} (hd : '\r' ∉ d.request.chars) {t : Token}
    (h : t ∈ d.tokens) : t.IsPlain :=
  (isMadeOf_tokens (fun _ hc => hc) hd t h).isPlain

section Open

/-! A declaration holds at most one sign that longer symbols begin with, so no two of them touch. -/

theorem countP_isOpen_typeTokens (typeOnly : Bool) :
    (typeTokens typeOnly).countP Token.isOpen = 0 := by
  cases typeOnly <;> rfl

theorem countP_isOpen_renamed (renamed : Option Name) :
    ((renamed.map fun n => [keyword "as", n.token]).getD []).countP Token.isOpen = 0 := by
  cases renamed <;> rfl

theorem countP_isOpen_member (m : Member) : m.tokens.countP Token.isOpen = 0 := by
  rw [Member.tokens, List.countP_append, countP_isOpen_typeTokens, List.countP_cons,
    countP_isOpen_renamed]
  rfl

theorem countP_isOpen_memberTokens (trailing : Bool) (ms : List Member) :
    (memberTokens trailing ms).countP Token.isOpen = 0 := by
  fun_induction memberTokens trailing ms with
  | case1 => rfl
  | case2 m =>
    rw [List.countP_append, countP_isOpen_member]
    cases trailing <;> rfl
  | case3 m n more ih =>
    rw [List.countP_append, countP_isOpen_member, List.countP_cons, ih]
    rfl

theorem countP_isOpen_members (ms : Members) : ms.tokens.countP Token.isOpen = 0 := by
  rw [Members.tokens, List.countP_append, List.countP_cons, countP_isOpen_memberTokens]
  rfl

theorem countP_isOpen_bindings (b : Bindings) : b.tokens.countP Token.isOpen ≤ 1 := by
  cases b with
  | star n => exact Nat.le_of_eq rfl
  | named ms => exact Nat.le_trans (Nat.le_of_eq (countP_isOpen_members ms)) (Nat.zero_le 1)

theorem countP_isOpen_clause (clause : Clause) : clause.tokens.countP Token.isOpen ≤ 1 := by
  rcases clause with ⟨n, _ | b⟩ | b
  · exact Nat.zero_le 1
  · exact countP_isOpen_bindings b
  · exact countP_isOpen_bindings b

theorem countP_isOpen_tokens (d : Declaration) : d.tokens.countP Token.isOpen ≤ 1 := by
  have hsource (r : Request) : (sourceTokens r).countP Token.isOpen = 0 := rfl
  cases d with
  | bare r => exact Nat.zero_le 1
  | importFrom typeOnly clause r =>
    rw [tokens, List.countP_append, List.countP_append, List.countP_cons, countP_isOpen_typeTokens,
      hsource]
    simpa [keyword, Token.isOpen] using countP_isOpen_clause clause
  | importEquals exported n r => cases exported <;> exact Nat.le_of_eq rfl
  | exportAll typeOnly n r =>
    rw [tokens, List.countP_append, List.countP_append, List.countP_cons, List.countP_cons,
      countP_isOpen_typeTokens, countP_isOpen_renamed, hsource]
    exact Nat.le_of_eq rfl
  | exportNamed typeOnly ms r =>
    rw [tokens, List.countP_append, List.countP_append, List.countP_cons, countP_isOpen_typeTokens,
      countP_isOpen_members, hsource]
    exact Nat.zero_le 1

end Open

/-- The last token of a declaration takes nothing of what follows. -/
theorem takes_eq_false_of_mem_getLast? {d : Declaration} {t : Token} (h : t ∈ d.tokens.getLast?)
    (c : Char) : t.takes c = false := by
  have hlast : t = .request d.request ∨ t = .sign ')' := by
    cases d with
    | bare r => exact .inl (by simpa [tokens, request, eq_comm] using h)
    | importEquals exported n r =>
      rw [tokens, List.getLast?_append] at h
      exact .inr (Option.some.inj h).symm
    | importFrom typeOnly clause r | exportAll typeOnly n r | exportNamed typeOnly ms r =>
      rw [tokens, List.getLast?_append] at h
      exact .inl (by simpa [sourceTokens, request, eq_comm] using h)
  rcases hlast with rfl | rfl <;> rfl

/-- A layout that the reader understands: no line ends inside of a line comment or the request. -/
structure Layout.IsPlain {d : Declaration} (l : d.Layout) : Prop where
  gaps : ∀ t ∈ l.later, ∀ p ∈ t.1, p.IsPlain
  request : '\r' ∉ d.request.chars

/-- A writing that the reader understands: no line ends inside of a line comment or a request. -/
structure Writing.IsPlain {ts : List Token} (w : Writing ts) : Prop where
  gaps : ∀ t ∈ w.later, ∀ p ∈ t.1, p.IsPlain
  requests : ∀ r, .request r ∈ ts → '\r' ∉ r.chars

theorem request_mem_tokens (d : Declaration) : .request d.request ∈ d.tokens := by
  have hsource (r : Request) : .request r ∈ sourceTokens r := .tail _ (.head _)
  cases d with
  | bare r => exact .tail _ (.head _)
  | importEquals exported n r =>
    exact List.mem_append_right _ (.tail _ (.tail _ (.tail _ (.tail _ (.tail _ (.head _))))))
  | importFrom typeOnly clause r | exportAll typeOnly n r | exportNamed typeOnly ms r =>
    exact List.mem_append_right _ (hsource r)

end Declaration

/-! ### Cursors -/

namespace Source.Cursor

/-- A cursor stands at the first token of a text. -/
def IsAt (text : List Char) (c : Cursor) : Prop :=
  ∃ (before : Cursor) (newline : Bool),
    before.dialect = .typedModule ∧ c = before.moveTo newline text

/-- A cursor meets tokens of declarations, one after the other, and then stands in front of a
text. -/
def Reads (behind : List Char) : List Declaration.Token → Cursor → Prop
  | [], c => c.IsAt behind
  | t :: ts, c => (c.dialect = .typedModule ∧ c.token.kind = t.kind ∧ c.token.text = t.text) ∧
      c.next.Reads behind ts

theorem dialect_moveTo (c : Cursor) (newline : Bool) (text : List Char) :
    (c.moveTo newline text).dialect = c.dialect := by
  rw [moveTo]
  split <;> rfl

/-- What a cursor meets behind a gap does not depend on the gap. -/
theorem IsAt.of_gap {c : Cursor} {g : Comment.Gap} (hg : ∀ p ∈ g, p.IsPlain) {text : List Char}
    (h : c.IsAt (Comment.Gap.text g ++ text)) : c.IsAt text := by
  obtain ⟨before, newline, hbefore, rfl⟩ := h
  obtain ⟨newline', hskip⟩ := skipGap_gap hg newline text
  exact ⟨before, newline', hbefore, moveTo_eq_of_skipGap (by rw [hbefore]; rfl) hskip⟩

/-- Only gaps are passed over in front of a cursor. -/
theorem IsAt.here_suffix {c : Cursor} {text : List Char} (h : c.IsAt text) : c.here <:+ text := by
  obtain ⟨before, newline, -, rfl⟩ := h
  exact (moveTo_isSound before newline).2.1

/-- A character that starts a token is not passed over. -/
theorem IsAt.here_eq {c : Cursor} {d : Char} {ds : List Char} (hd : startsToken d = true)
    (h : c.IsAt (d :: ds)) : c.here = d :: ds := by
  obtain ⟨before, newline, hbefore, rfl⟩ := h
  have hskip : skipGap (!before.dialect.isModule) .open newline (d :: ds) =
      ⟨newline, true, d :: ds⟩ := by
    rw [hbefore]
    exact skipGap_of_startsToken hd newline ds
  simp only [moveTo, hskip, if_true]

/-- A cursor in front of a token that the reader understands stands at it. -/
theorem IsAt.token {c : Cursor} {t : Declaration.Token} (ht : t.IsPlain) {rest : List Char}
    (hrest : ∀ d ∈ rest.head?, t.takes d = false) (h : c.IsAt (t.chars ++ rest)) :
    c.dialect = .typedModule ∧ c.token.kind = t.kind ∧ c.token.text = t.text ∧ c.rest = rest := by
  obtain ⟨before, newline, hbefore, rfl⟩ := h
  obtain ⟨d, ds, hchars, hd⟩ := t.exists_chars_eq_cons ht
  have hskip : skipGap (!before.dialect.isModule) .open newline (t.chars ++ rest) =
      ⟨newline, true, t.chars ++ rest⟩ := by
    rw [hbefore, hchars, List.cons_append]
    exact skipGap_of_startsToken hd newline (ds ++ rest)
  obtain ⟨token, hread, hkind, htext⟩ := Declaration.exists_readBare_eq ht hrest newline
  refine ⟨(dialect_moveTo ..).trans hbefore, ?_⟩
  simp only [moveTo, hskip, hread, if_true]
  exact ⟨hkind, htext, trivial⟩

/-- Behind a token that the reader understands, a cursor goes on with the rest of the text. -/
theorem isAt_next {c : Cursor} {t : Declaration.Token} (ht : t.IsPlain)
    (hc : c.dialect = .typedModule) (hkind : c.token.kind = t.kind) : c.next.IsAt c.rest :=
  ⟨c, false, hc, by rw [next, Declaration.Token.isLast_eq_false ht hkind]; rfl⟩

theorem reads_of_isAt {behind : List Char} {later : List (Comment.Gap × Declaration.Token)}
    {t : Declaration.Token} (hplain : ∀ u ∈ t :: later.map Prod.snd, u.IsPlain)
    (hgaps : ∀ u ∈ later, ∀ p ∈ u.1, p.IsPlain) (hapart : Declaration.IsApart t later)
    (hopen : (t :: later.map Prod.snd).countP Declaration.Token.isOpen ≤ 1)
    (hlast : ∀ u ∈ (t :: later.map Prod.snd).getLast?, ∀ d, u.takes d = false) {c : Cursor}
    (h : c.IsAt (t.chars ++ (Declaration.spacedText later ++ behind))) :
    c.Reads behind (t :: later.map Prod.snd) := by
  have ht := hplain t List.mem_cons_self
  induction later generalizing t c with
  | nil =>
    obtain ⟨hc, hkind, htext, hrest⟩ := h.token ht fun d _ => hlast t rfl d
    have hnext := isAt_next ht hc hkind
    rw [hrest] at hnext
    exact ⟨⟨hc, hkind, htext⟩, hnext⟩
  | cons u later ih =>
    obtain ⟨gap, u⟩ := u
    have hu : u.IsPlain := hplain u (List.mem_cons_of_mem t List.mem_cons_self)
    have hopen' : t.isOpen = true → u.isOpen = false := by
      intro hopened
      simp only [List.map_cons, List.countP_cons, hopened, if_true] at hopen
      by_contra hu
      simp [hu] at hopen
    rw [Declaration.spacedText_cons, List.append_assoc, List.append_assoc] at h
    obtain ⟨hc, hkind, htext, hrest⟩ := h.token ht
      (Declaration.Token.takes_eq_false_of_apart hu hapart.1 hopen' _)
    have hnext := isAt_next ht hc hkind
    rw [hrest] at hnext
    refine ⟨⟨hc, hkind, htext⟩, ih (fun v hv => hplain v (List.mem_cons_of_mem t hv))
      (fun v hv => hgaps v (List.mem_cons_of_mem _ hv)) hapart.2 ?_ ?_
      (hnext.of_gap (hgaps _ List.mem_cons_self)) hu⟩
    · exact Nat.le_trans (List.Sublist.countP_le (List.sublist_cons_self ..)) hopen
    · rwa [List.map_cons, List.getLast?_cons_cons] at hlast

/-- In front of written tokens, a cursor meets these tokens. -/
theorem reads_tokens {ts : List Declaration.Token} {w : Declaration.Writing ts}
    (hplain : ∀ t ∈ ts, t.IsPlain) (hgaps : ∀ t ∈ w.later, ∀ p ∈ t.1, p.IsPlain)
    (hopen : ts.countP Declaration.Token.isOpen ≤ 1)
    (hlast : ∀ t ∈ ts.getLast?, ∀ e, t.takes e = false) {behind : List Char} {c : Cursor}
    (h : c.IsAt (w.text ++ behind)) : c.Reads behind ts := by
  rw [Declaration.Writing.text, List.append_assoc] at h
  rw [← w.tokens_eq] at hplain hopen hlast ⊢
  exact reads_of_isAt hplain hgaps w.isApart hopen hlast h

/-- In front of a written declaration, a cursor meets the tokens of the declaration. -/
theorem reads_writing {d : Declaration} {w : Declaration.Writing d.tokens} (hw : w.IsPlain)
    {behind : List Char} {c : Cursor} (h : c.IsAt (w.text ++ behind)) : c.Reads behind d.tokens :=
  reads_tokens
    (fun _ ht => Declaration.isPlain_of_mem_tokens (hw.requests _ d.request_mem_tokens) ht) hw.gaps
    (Declaration.countP_isOpen_tokens d)
    (fun _ ht => Declaration.takes_eq_false_of_mem_getLast? ht) h

/-- In front of a laid out declaration, a cursor meets the tokens of the declaration. -/
theorem reads_layout {d : Declaration} {l : d.Layout} (hl : l.IsPlain) {behind : List Char}
    {c : Cursor} (h : c.IsAt (l.text ++ behind)) : c.Reads behind d.tokens :=
  reads_tokens (w := l.writing)
    (fun _ ht => Declaration.isPlain_of_mem_tokens hl.request ht) hl.gaps
    (Declaration.countP_isOpen_tokens d)
    (fun _ ht => Declaration.takes_eq_false_of_mem_getLast? ht) h

end Source.Cursor

end ModuleGraph

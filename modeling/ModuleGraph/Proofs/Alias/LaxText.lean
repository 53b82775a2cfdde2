import ModuleGraph.Alias.Load
import ModuleGraph.Proofs.Alias.Commas
import ModuleGraph.Proofs.Comment.Gap
import ModuleGraph.Proofs.Json.Reading

/-!
# Lax data text

A configuration is lax data text: tokens with gaps of blanks and comments between them, and commas
behind last entries.  Removing comments leaves the tokens with blanks between them, and dropping the
commas in front of closing brackets then leaves the plain data text of the same syntax tree.  Both
steps copy tokens: a string is passed over by each of them from its opening quote to its closing
quote, so its contents never count as a comment or as a comma.

So loading a configuration depends only on the value that is written, and plain data text is not
changed at all.

## Main definitions

* `Alias.IsLaxText`: tokens with gaps between them.

## Main results

* `Alias.isPlainText_stripFrom`: removing comments leaves blanks between the tokens.
* `Alias.isPlainText_dropTrailing`: dropping commas from the text drops them from the tokens.
* `Alias.load_laxText`: loading lax data text.
-/

namespace ModuleGraph.Alias

open Comment Json

/-- Lax data text: tokens with gaps between them.  A line comment may end with the text. -/
inductive IsLaxText : List Token → List Char → Prop
  | nil : IsLaxText [] []
  /-- A line comment is left that no line end closes. -/
  | remark {body : List Char} (inLine : ∀ c ∈ body, isLineEnd c = false) :
      IsLaxText [] ('/' :: '/' :: body)
  | piece {ts : List Token} {cs : List Char} (p : Piece) (more : IsLaxText ts cs) :
      IsLaxText ts (p.text ++ cs)
  | token {ts : List Token} {cs : List Char} (t : Token) (more : IsLaxText ts cs) :
      IsLaxText (t :: ts) (t.chars ++ cs)

/-! ### Characters of tokens -/

theorem plain_of_hexDigit? {c : Char} {k : Nat} (h : hexDigit? c = some k) :
    c ≠ '"' ∧ c ≠ '\\' ∧ c ≠ '\n' := by
  refine ⟨?_, ?_, ?_⟩ <;> rintro rfl <;> simp [hexDigit?] at h

theorem quotedBody_hexUnit {a b c d : Char} {n : Nat} (h : hexUnit? a b c d = some n)
    {body : List Char} (hbody : QuotedBody '"' body) :
    QuotedBody '"' (a :: b :: c :: d :: body) := by
  obtain ⟨ka, ha, h⟩ := Option.bind_eq_some_iff.mp h
  obtain ⟨kb, hb, h⟩ := Option.bind_eq_some_iff.mp h
  obtain ⟨kc, hc, h⟩ := Option.bind_eq_some_iff.mp h
  obtain ⟨kd, hd, -⟩ := Option.bind_eq_some_iff.mp h
  obtain ⟨haq, hab, hal⟩ := plain_of_hexDigit? ha
  obtain ⟨hbq, hbb, hbl⟩ := plain_of_hexDigit? hb
  obtain ⟨hcq, hcb, hcl⟩ := plain_of_hexDigit? hc
  obtain ⟨hdq, hdb, hdl⟩ := plain_of_hexDigit? hd
  exact .plain haq hab hal (.plain hbq hbb hbl (.plain hcq hcb hcl (.plain hdq hdb hdl hbody)))

theorem quotedBody_pieces (pieces : List StringPiece) :
    QuotedBody '"' (pieces.flatMap StringPiece.chars) := by
  induction pieces with
  | nil => exact .nil
  | cons p pieces ih =>
    cases p with
    | plain c legal =>
      obtain ⟨hcontrol, hquote, hback⟩ := legal
      have hline : c ≠ '\n' := by
        rintro rfl
        simp at hcontrol
      exact .plain hquote hback hline ih
    | short c escaped legal => exact .escaped ih
    | unit a b c d n legal => exact .escaped (quotedBody_hexUnit legal ih)

/-- The characters of a number. -/
theorem mem_numeral {n : Numeral} {c : Char} (h : c ∈ n.chars) :
    c.isDigit = true ∨ c ∈ ['-', '+', '.', 'e', 'E'] := by
  simp only [Numeral.chars, List.mem_append] at h
  rcases h with h | h | h | h
  · obtain rfl : c = '-' := by
      cases hsign : n.negative <;> simp_all
    simp
  · exact .inl (n.whole.isDigit c h)
  · cases hfraction : n.fraction with
    | none => simp [Numeral.fractionChars, hfraction] at h
    | some ds =>
      rw [Numeral.fractionChars, hfraction] at h
      rcases List.mem_cons.mp h with rfl | h
      · simp
      · exact .inl (ds.isDigit c h)
  · cases hexponent : n.exponent with
    | none => simp [Numeral.exponentChars, hexponent] at h
    | some e =>
      simp only [Numeral.exponentChars, hexponent, Option.map_some, Option.getD_some,
        Exponent.chars, List.cons_append, List.mem_cons, List.mem_append, Option.mem_toList] at h
      rcases h with rfl | h | h
      · rcases e.isMark with hmark | hmark <;> simp [hmark]
      · rcases e.isSign c h with rfl | rfl <;> simp
      · exact .inl (e.digits.isDigit c h)

/-- A character that both steps copy outside of strings. -/
def IsCopied (c : Char) : Prop := IsQuiet c ∧ c ≠ ','

instance (c : Char) : Decidable (IsCopied c) := inferInstanceAs (Decidable (_ ∧ _))

theorem isCopied_numeral (n : Numeral) : ∀ c ∈ n.chars, IsCopied c := by
  intro c hc
  have hother : ∀ d ∈ ['/', '"', '\'', Char.ofNat 0x60, ','], c ≠ d := by
    rintro d hd rfl
    simp only [List.mem_cons, List.not_mem_nil, or_false] at hd
    rcases hd with rfl | rfl | rfl | rfl | rfl <;> exact absurd (mem_numeral hc) (by decide)
  refine ⟨isQuiet_of_ne fun d hd => hother d ?_, hother ',' (by simp)⟩
  exact List.mem_of_mem_take (i := 4) hd

theorem isCopied_word (w : Word) : ∀ c ∈ w.chars, IsCopied c := by
  rcases w with _ | (_ | _) <;> exact List.all_iff_forall_prop.mp (by decide)

/-- A sign other than the comma is copied by both steps. -/
theorem isCopied_sign {s : Sign} (h : s ≠ .comma) : IsCopied s.char := by
  cases s <;> first | exact absurd rfl h | simp [Sign.char, IsCopied, IsQuiet, isQuote]

/-! ### Removing comments -/

theorem stripFrom_dataToken (t : Token) (rest : List Char) :
    stripFrom .code (t.chars ++ rest) = t.chars ++ stripFrom .code rest := by
  cases t with
  | sign s =>
    apply stripFrom_quiet
    cases s <;> simp [Token.chars, Sign.char, IsQuiet, isQuote]
  | word w => exact stripFrom_quiet (fun c hc => (isCopied_word w c hc).1) rest
  | number n => exact stripFrom_quiet (fun c hc => (isCopied_numeral n c hc).1) rest
  | string pieces =>
    have hstrip := stripFrom_quoted rfl (quotedBody_pieces pieces) rest
    simpa [Token.chars] using hstrip

theorem stripFrom_blank {c : Char} (h : isGap c = true) (rest : List Char) :
    stripFrom .code (c :: rest) = c :: stripFrom .code rest :=
  stripFrom_piece (.blank c h) rest

/-- A line comment that ends with the text leaves nothing. -/
theorem stripFrom_remark {body : List Char} (h : ∀ c ∈ body, isLineEnd c = false) :
    stripFrom .line body = [] := by
  have hall := stripFrom_line_append h []
  rwa [List.append_nil] at hall

/-- Removing comments leaves blanks between the tokens. -/
theorem isPlainText_stripFrom {ts : List Token} {cs : List Char} (h : IsLaxText ts cs) :
    IsPlainText ts (stripFrom .code cs) := by
  induction h with
  | nil => exact .nil
  | remark inLine =>
    rw [stripFrom, stripFrom_remark inLine]
    exact .nil
  | piece p more ih =>
    rw [stripFrom_piece]
    exact .blank p.isGap_bare ih
  | token t more ih =>
    rw [stripFrom_dataToken]
    exact .token t ih

/-- Plain data text has no comments. -/
theorem stripFrom_plainText {ts : List Token} {cs : List Char} (h : IsPlainText ts cs) :
    stripFrom .code cs = cs := by
  induction h with
  | nil => rfl
  | blank hgap more ih => rw [stripFrom_blank hgap, ih]
  | token t more ih => rw [stripFrom_dataToken, ih]

/-! ### Dropping commas -/

theorem dropTrailingCommasFrom_copied {cs : List Char} (h : ∀ c ∈ cs, IsCopied c)
    (rest : List Char) :
    dropTrailingCommasFrom false (cs ++ rest) = cs ++ dropTrailingCommasFrom false rest := by
  induction cs with
  | nil => rfl
  | cons c cs ih =>
    obtain ⟨⟨-, hquote⟩, hcomma⟩ := h c List.mem_cons_self
    have hmark : (c == '"') = false := by
      simp only [isQuote, Bool.or_eq_false_iff] at hquote
      exact hquote.1.1
    rw [List.cons_append, dropTrailingCommasFrom, if_neg (by simp [hcomma]), hmark,
      ih fun d hd => h d (List.mem_cons_of_mem c hd), List.cons_append]

/-- Text between two quote marks of one line is the body of a string. -/
theorem isStringBody_of_quotedBody {body : List Char} (h : QuotedBody '"' body) :
    IsStringBody body := by
  induction h with
  | nil => exact .nil
  | plain hmark hback hline hbody ih => exact .plain hmark hback ih
  | escaped hbody ih => exact .escaped ih

theorem dropTrailingCommasFrom_token {t : Token} (h : t ≠ .sign .comma) (rest : List Char) :
    dropTrailingCommasFrom false (t.chars ++ rest) =
      t.chars ++ dropTrailingCommasFrom false rest := by
  cases t with
  | sign s =>
    have hs : s ≠ .comma := fun hs => h (congrArg Token.sign hs)
    exact dropTrailingCommasFrom_copied (by simpa [Token.chars] using isCopied_sign hs) rest
  | word w => exact dropTrailingCommasFrom_copied (isCopied_word w) rest
  | number n => exact dropTrailingCommasFrom_copied (isCopied_numeral n) rest
  | string pieces =>
    have hdrop :=
      dropTrailingCommas_string (isStringBody_of_quotedBody (quotedBody_pieces pieces)) rest
    simpa [Token.chars, dropTrailingCommas] using hdrop

theorem dropTrailingCommasFrom_blank {c : Char} (h : isGap c = true) (rest : List Char) :
    dropTrailingCommasFrom false (c :: rest) = c :: dropTrailingCommasFrom false rest := by
  simp only [isGap, Bool.or_eq_true, beq_iff_eq] at h
  rcases h with ((rfl | rfl) | rfl) | rfl <;> rfl

/-- Whether the first of some tokens closes a list or an object. -/
def closesFirst (ts : List Token) : Bool := (ts.head?.map Token.closes).getD false

theorem closesNext_plainText {ts : List Token} {cs : List Char} (h : IsPlainText ts cs) :
    closesNext cs = closesFirst ts := by
  induction h with
  | nil => rfl
  | @blank c ts cs hgap more ih =>
    have htrim : Text.trimBlanks (c :: cs) = Text.trimBlanks cs := by
      rw [Text.trimBlanks, List.dropWhile_cons_of_pos (isBlank_of_isGap hgap)]
      rfl
    rw [closesNext, htrim]
    exact ih
  | @token ts cs t more ih =>
    obtain ⟨c, behind, hchars, hblank, hcloses⟩ := t.exists_chars
    have htrim : Text.trimBlanks (c :: (behind ++ cs)) = c :: (behind ++ cs) := by
      rw [Text.trimBlanks, List.dropWhile_cons_of_neg (by simp [hblank])]
    rw [closesNext, hchars, List.cons_append, htrim]
    exact Bool.eq_iff_iff.mpr (by simpa [closesFirst] using hcloses)

theorem dropTrailing_comma_eq (ts : List Token) :
    dropTrailing (.sign .comma :: ts) =
      if closesFirst ts then dropTrailing ts else .sign .comma :: dropTrailing ts := by
  cases ts with
  | nil => rfl
  | cons t ts => rfl

/-- In front of plain data text, a comma is dropped if a closing bracket follows. -/
theorem dropTrailingCommasFrom_comma {ts : List Token} {cs : List Char} (h : IsPlainText ts cs) :
    dropTrailingCommasFrom false ((Token.sign .comma).chars ++ cs) =
      if closesFirst ts then dropTrailingCommasFrom false cs
      else (Token.sign .comma).chars ++ dropTrailingCommasFrom false cs := by
  rw [← closesNext_plainText h]
  rfl

/-- Dropping the commas in front of closing brackets drops them from the tokens. -/
theorem isPlainText_dropTrailing {ts : List Token} {cs : List Char} (h : IsPlainText ts cs) :
    IsPlainText (dropTrailing ts) (dropTrailingCommasFrom false cs) := by
  induction h with
  | nil => exact .nil
  | blank hgap more ih =>
    rw [dropTrailingCommasFrom_blank hgap]
    exact .blank hgap ih
  | token t more ih =>
    by_cases ht : t = .sign .comma
    · subst ht
      rw [dropTrailing_comma_eq, dropTrailingCommasFrom_comma more]
      split
      · exact ih
      · exact .token _ ih
    · rw [dropTrailing_cons ht, dropTrailingCommasFrom_token ht]
      exact .token t ih

theorem length_dropTrailing_le (ts : List Token) : (dropTrailing ts).length ≤ ts.length := by
  fun_induction dropTrailing ts with
  | case1 t more hcloses ih => exact Nat.le_succ_of_le ih
  | case2 t more hcloses ih => exact Nat.succ_le_succ ih
  | case3 t more hcomma ih => exact Nat.succ_le_succ ih
  | case4 => exact Nat.le_refl 0

/-- Where no comma stands in front of a closing bracket, nothing is dropped. -/
theorem dropTrailingCommasFrom_plainText {ts : List Token} {cs : List Char}
    (h : IsPlainText ts cs) (hts : dropTrailing ts = ts) :
    dropTrailingCommasFrom false cs = cs := by
  induction h with
  | nil => rfl
  | blank hgap more ih => rw [dropTrailingCommasFrom_blank hgap, ih hts]
  | @token ts cs t more ih =>
    by_cases ht : t = .sign .comma
    · subst ht
      rw [dropTrailing_comma_eq] at hts
      rw [dropTrailingCommasFrom_comma more]
      split at hts
      · have hlength := congrArg List.length hts
        have hle := length_dropTrailing_le ts
        rw [List.length_cons] at hlength
        omega
      · rw [if_neg ‹_›, ih (List.cons.inj hts).2]
    · rw [dropTrailing_cons ht] at hts
      rw [dropTrailingCommasFrom_token ht, ih (List.cons.inj hts).2]

/-! ### Configurations -/

open Document

/-- Lax data text becomes plain data text of the same syntax tree. -/
theorem isPlainText_plainText {t : Tree} {cs : List Char} (h : IsLaxText (t.tokens true) cs) :
    IsPlainText (t.tokens false) (plainText cs) := by
  rw [← t.dropTrailing_tokens true]
  exact isPlainText_dropTrailing (isPlainText_stripFrom h)

/-- Plain data text is not changed. -/
theorem plainText_plainText {t : Tree} {cs : List Char} (h : IsPlainText (t.tokens false) cs) :
    plainText cs = cs := by
  rw [plainText, stripChars, stripFrom_plainText h]
  exact dropTrailingCommasFrom_plainText h (t.dropTrailing_tokens false)

/-- The options of lax data text are those of the value that it writes. -/
theorem options?_laxText {t : Tree} {cs : List Char} (h : IsLaxText (t.tokens true) cs) :
    options? (String.ofList cs) = ofValue? (t.value .scaled) := by
  have hread := readWithin?_tokens .scaled t (isPlainText_plainText h)
  rw [options?, String.toList_ofList, readChars?, hread, Option.bind_some]

theorem options?_plainText {t : Tree} {cs : List Char} (h : IsPlainText (t.tokens false) cs) :
    options? (String.ofList cs) = ofValue? (t.value .scaled) := by
  have hread := readWithin?_tokens .scaled t h
  rw [options?, String.toList_ofList, plainText_plainText h, readChars?, hread, Option.bind_some]

/-- Lax data text becomes plain data text, which is read as the same value and whose tokens are the
same less the commas in front of closing brackets; plain data text is not changed; and loading lax
data text gives what loading any plain data text of the same value gives. -/
theorem load_laxText {t : Tree} {lax : List Char} (h : IsLaxText (t.tokens true) lax) :
    t.tokens false = dropTrailing (t.tokens true) ∧
      IsPlainText (t.tokens false) (plainText lax) ∧
      readChars? (plainText lax) = some (t.value .scaled) ∧
      (∀ plain, IsPlainText (t.tokens false) plain → plainText plain = plain) ∧
      ∀ (u : Tree) (plain : List Char), u.value .scaled = t.value .scaled →
        IsPlainText (u.tokens false) plain → ∀ (d e : Files.Disk) (file : Path),
          d.readText file = .ok (String.ofList lax) →
          e.readText file = .ok (String.ofList plain) → load d file = load e file := by
  have hplainText := isPlainText_plainText h
  refine ⟨(t.dropTrailing_tokens true).symm, hplainText, readWithin?_tokens .scaled t hplainText,
    fun plain => plainText_plainText, ?_⟩
  intro u plain hvalue hplain d e file hd he
  have hoptions : options? (String.ofList lax) = options? (String.ofList plain) := by
    rw [options?_laxText h, options?_plainText hplain, hvalue]
  simp only [load, hd, he, hoptions]

section Sample

/-- The key of the compiler options. -/
def optionsKey : List StringPiece := spelled "compilerOptions".toList rfl

/-- The key of the base directory. -/
def baseKey : List StringPiece := spelled "baseUrl".toList rfl

private def base : List StringPiece := spelled "a//b".toList rfl

/-- Options with a base directory that holds the mark of a comment. -/
def baseTree (trailing : Bool) : Tree :=
  .object [(optionsKey, .object [(baseKey, .string base)] trailing)] false

/-- The options as lax data text, with a comment between the last comma and its bracket. -/
def laxOptions : List Char :=
  "\x7b // options\n\"compilerOptions\":\x7b\"baseUrl\":\"a//b\",/* , */\x7d\x7d// done".toList

/-- The options as plain data text. -/
def plainOptions : List Char := "\x7b\"compilerOptions\":\x7b\"baseUrl\":\"a//b\"\x7d\x7d".toList

theorem isLaxText_laxOptions : IsLaxText ((baseTree true).tokens true) laxOptions := by
  have hdone : ∀ c ∈ " done".toList, isLineEnd c = false := List.all_iff_forall_prop.mp (by decide)
  have hremark : IsLaxText [] "// done".toList := .remark hdone
  have hclose := IsLaxText.piece (.block " , ".toList (by decide +kernel))
    (.token (.sign .closeObject) (.token (.sign .closeObject) hremark))
  have hbase := IsLaxText.token (.string baseKey)
    (.token (.sign .colon) (.token (.string base) (.token (.sign .comma) hclose)))
  have hoptions := IsLaxText.token (.string optionsKey)
    (.token (.sign .colon) (.token (.sign .openObject) hbase))
  have hline := IsLaxText.piece (.line " options".toList '\n' (by simp [isLineEnd]) rfl) hoptions
  exact .token (.sign .openObject) (.piece (.blank ' ' rfl) hline)

theorem isPlainText_plainOptions : IsPlainText ((baseTree false).tokens false) plainOptions :=
  isPlainText_flatMap _

/-- A disk with one configuration. -/
def configured (text : List Char) : Files.Disk where
  entries := [(["tsconfig.json"], .file (String.ofList text).toUTF8)]
  here := []
  distinct := by simp
  proper e he := by
    obtain rfl := List.mem_singleton.mp he
    rfl

theorem load_laxOptions :
    IsLaxText ((baseTree true).tokens true) laxOptions ∧
      load (configured laxOptions) ⟨"/tsconfig.json"⟩ =
        load (configured plainOptions) ⟨"/tsconfig.json"⟩ ∧
      (load (configured plainOptions) ⟨"/tsconfig.json"⟩).value = ⟨some ⟨"/a/b"⟩, []⟩ := by
  refine ⟨isLaxText_laxOptions, ?_, by decide +kernel⟩
  obtain ⟨-, -, -, -, hload⟩ := load_laxText isLaxText_laxOptions
  exact hload (baseTree false) plainOptions rfl isPlainText_plainOptions _ _ _
    (by decide +kernel) (by decide +kernel)

end Sample

end ModuleGraph.Alias

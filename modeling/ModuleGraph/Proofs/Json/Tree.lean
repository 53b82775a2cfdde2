import ModuleGraph.Proofs.Comment.Gap

/-!
# Syntax trees of data text

A syntax tree of data text keeps how its strings and numbers are spelled, and for each list and
object whether a comma follows the last entry.  It has a sequence of tokens with these commas, which
lax data text consists of, and one without them, which plain data text consists of: the latter is
the former less every comma in front of a closing bracket.

## Main definitions

* `Json.StringPiece`, `Json.Numeral`: how strings and numbers are spelled.
* `Json.Token`, `Json.Tree`: tokens and syntax trees.
* `Json.Tree.tokens`, `Json.Tree.value`: the tokens and the value of a syntax tree.
* `Json.dropTrailing`: tokens without the commas in front of closing brackets.
* `Json.IsPlainText`: plain data text, which is tokens with blanks between them.

## Main results

* `Json.Tree.dropTrailing_tokens`: dropping the commas in front of closing brackets gives the tokens
  of plain data text.
-/

namespace ModuleGraph.Json

/-! ### Tokens -/

/-- One piece of the text between two quotes. -/
inductive StringPiece where
  | plain (c : Char) (legal : 32 ≤ c.toNat ∧ c ≠ '"' ∧ c ≠ '\\')
  /-- A backslash and a character that stands for another one. -/
  | short (c escaped : Char) (legal : shortEscape? c = some escaped)
  /-- A code unit in hexadecimal digits. -/
  | unit (a b c d : Char) (n : Nat) (legal : hexUnit? a b c d = some n)

/-- A piece of a string as it is written. -/
def StringPiece.chars : StringPiece → List Char
  | .plain c _ => [c]
  | .short c _ _ => ['\\', c]
  | .unit a b c d _ _ => ['\\', 'u', a, b, c, d]

/-- A string in which every character stands for itself. -/
def spelled (cs : List Char)
    (h : (cs.all fun c => decide (32 ≤ c.toNat ∧ c ≠ '"' ∧ c ≠ '\\')) = true) :
    List StringPiece :=
  cs.attach.map fun c => .plain c.1 (List.all_iff_forall_prop.mp h c.1 c.2)

/-- The code unit or the character that a piece of a string stands for. -/
def StringPiece.code : StringPiece → Nat
  | .plain c _ => c.toNat
  | .short _ escaped _ => escaped.toNat
  | .unit _ _ _ _ n _ => n

/-- Decimal digits, at least one. -/
structure Digits where
  chars : List Char
  nonempty : chars ≠ []
  isDigit : ∀ c ∈ chars, c.isDigit = true

/-- An exponent. -/
structure Exponent where
  mark : Char
  sign : Option Char
  digits : Digits
  isMark : mark = 'e' ∨ mark = 'E'
  isSign : ∀ c ∈ sign, c = '+' ∨ c = '-'

/-- An exponent as it is written. -/
def Exponent.chars (e : Exponent) : List Char := e.mark :: e.sign.toList ++ e.digits.chars

/-- The number that an exponent stands for. -/
def Exponent.value (e : Exponent) : Int :=
  if e.sign = some '-' then -(digitsValue e.digits.chars : Int) else digitsValue e.digits.chars

/-- How a number is spelled. -/
structure Numeral where
  negative : Bool
  whole : Digits
  fraction : Option Digits
  exponent : Option Exponent
  /-- A leading zero stands alone. -/
  zero : whole.chars.head? = some '0' → whole.chars = ['0']

/-- The point and the digits behind it, if there is a point. -/
def Numeral.fractionChars (n : Numeral) : List Char :=
  (n.fraction.map fun f => '.' :: f.chars).getD []

/-- The exponent as it is written, if there is one. -/
def Numeral.exponentChars (n : Numeral) : List Char := (n.exponent.map Exponent.chars).getD []

/-- A number as it is written. -/
def Numeral.chars (n : Numeral) : List Char :=
  (if n.negative then ['-'] else []) ++ (n.whole.chars ++ (n.fractionChars ++ n.exponentChars))

/-- The parts of a number. -/
def Numeral.literal (n : Numeral) : Literal :=
  ⟨n.negative, n.whole.chars, (n.fraction.map Digits.chars).getD [],
    n.exponent.map Exponent.value⟩

/-- A sign of punctuation. -/
inductive Sign where
  | openList
  | closeList
  | openObject
  | closeObject
  | comma
  | colon
  deriving DecidableEq, Repr

/-- The character of a sign. -/
def Sign.char : Sign → Char
  | .openList => '['
  | .closeList => ']'
  | .openObject => '{'
  | .closeObject => '}'
  | .comma => ','
  | .colon => ':'

/-- A word that stands for a value. -/
inductive Word where
  | null
  | bool (value : Bool)
  deriving DecidableEq, Repr

/-- A word as it is written. -/
def Word.chars : Word → List Char
  | .null => "null".toList
  | .bool true => "true".toList
  | .bool false => "false".toList

/-- The value of a word. -/
def Word.value : Word → Value
  | .null => .null
  | .bool b => .bool b

/-- A token of data text. -/
inductive Token where
  | sign (s : Sign)
  | word (w : Word)
  | number (n : Numeral)
  | string (pieces : List StringPiece)

/-- A token as it is written. -/
def Token.chars : Token → List Char
  | .sign s => [s.char]
  | .word w => w.chars
  | .number n => n.chars
  | .string pieces => '"' :: pieces.flatMap StringPiece.chars ++ ['"']

/-- Whether a token closes a list or an object. -/
def Token.closes : Token → Bool
  | .sign .closeList | .sign .closeObject => true
  | _ => false

/-! ### Trees -/

/-- A syntax tree of data text.  A comma may follow the last entry of a list or an object. -/
inductive Tree where
  | word (w : Word)
  | number (n : Numeral)
  | string (pieces : List StringPiece)
  | array (items : List Tree) (trailing : Bool)
  | object (members : List (List StringPiece × Tree)) (trailing : Bool)

/-- The comma behind the last entry, if there is one. -/
def commaIf (trailing : Bool) : List Token := if trailing then [.sign .comma] else []

namespace Tree

mutual

/-- The tokens of a syntax tree, with the commas behind last entries or without. -/
def tokens (lax : Bool) : Tree → List Token
  | .word w => [.word w]
  | .number n => [.number n]
  | .string pieces => [.string pieces]
  | .array items trailing =>
    .sign .openList :: (itemTokens lax trailing items ++ [.sign .closeList])
  | .object members trailing =>
    .sign .openObject :: (memberTokens lax trailing members ++ [.sign .closeObject])

/-- The tokens of the entries of a list. -/
def itemTokens (lax trailing : Bool) : List Tree → List Token
  | [] => []
  | [t] => t.tokens lax ++ commaIf (lax && trailing)
  | t :: u :: more => t.tokens lax ++ .sign .comma :: itemTokens lax trailing (u :: more)

/-- The tokens of the entries of an object. -/
def memberTokens (lax trailing : Bool) : List (List StringPiece × Tree) → List Token
  | [] => []
  | [(key, t)] => .string key :: .sign .colon :: (t.tokens lax ++ commaIf (lax && trailing))
  | (key, t) :: m :: more =>
    .string key :: .sign .colon ::
      (t.tokens lax ++ .sign .comma :: memberTokens lax trailing (m :: more))

end

/-- The text of a string, if it can be represented. -/
def stringValue? (limits : Limits) (pieces : List StringPiece) : Option String :=
  (pairUnits? limits.half (pieces.map StringPiece.code)).map String.ofList

mutual

/-- The value of a syntax tree. -/
def value (limits : Limits) : Tree → Value
  | .word w => w.value
  | .number n => if limits.fits n.literal then .number (String.ofList n.chars) else .unreadable
  | .string pieces => ((stringValue? limits pieces).map Value.string).getD .unreadable
  | .array items _ => .array (itemValues limits items)
  | .object members _ => objectOf (memberValues limits members)

/-- The values of the entries of a list. -/
def itemValues (limits : Limits) : List Tree → List Value
  | [] => []
  | t :: more => t.value limits :: itemValues limits more

/-- The keys and values of the entries of an object. -/
def memberValues (limits : Limits) : List (List StringPiece × Tree) → List (Option String × Value)
  | [] => []
  | (key, t) :: more => (stringValue? limits key, t.value limits) :: memberValues limits more

end

end Tree

/-! ### Trailing commas -/

/-- Tokens without the commas that stand directly in front of a closing bracket. -/
def dropTrailing : List Token → List Token
  | .sign .comma :: t :: more =>
    if t.closes then dropTrailing (t :: more) else .sign .comma :: dropTrailing (t :: more)
  | t :: more => t :: dropTrailing more
  | [] => []

theorem dropTrailing_cons {t : Token} (h : t ≠ .sign .comma) (more : List Token) :
    dropTrailing (t :: more) = t :: dropTrailing more := by
  rw [dropTrailing]
  exact fun _ _ hcomma _ => h hcomma

theorem dropTrailing_comma_close {t : Token} (h : t.closes = true) (more : List Token) :
    dropTrailing (.sign .comma :: t :: more) = dropTrailing (t :: more) := by
  rw [dropTrailing, if_pos h]

theorem dropTrailing_comma {ts : List Token}
    (h : ∃ first more, ts = first :: more ∧ first.closes = false) (rest : List Token) :
    dropTrailing (.sign .comma :: (ts ++ rest)) = .sign .comma :: dropTrailing (ts ++ rest) := by
  obtain ⟨first, more, rfl, hfirst⟩ := h
  rw [List.cons_append, dropTrailing, if_neg (by simp [hfirst])]

namespace Tree

/-- A value does not begin with a closing bracket. -/
theorem exists_tokens_first (lax : Bool) (t : Tree) :
    ∃ first more, t.tokens lax = first :: more ∧ first.closes = false := by
  cases t <;> exact ⟨_, _, rfl, rfl⟩

theorem exists_itemTokens_first (lax trailing : Bool) (t : Tree) (more : List Tree) :
    ∃ first behind, itemTokens lax trailing (t :: more) = first :: behind ∧
      first.closes = false := by
  obtain ⟨first, behind, ht, hfirst⟩ := exists_tokens_first lax t
  cases more with
  | nil => exact ⟨first, behind ++ _, by rw [itemTokens, ht, List.cons_append], hfirst⟩
  | cons u more => exact ⟨first, behind ++ _, by rw [itemTokens, ht, List.cons_append], hfirst⟩

theorem exists_memberTokens_first (lax trailing : Bool) (m : List StringPiece × Tree)
    (more : List (List StringPiece × Tree)) :
    ∃ first behind, memberTokens lax trailing (m :: more) = first :: behind ∧
      first.closes = false := by
  obtain ⟨key, t⟩ := m
  cases more with
  | nil => exact ⟨.string key, _, rfl, rfl⟩
  | cons n more => exact ⟨.string key, _, rfl, rfl⟩

/-- A comma behind the last entry goes, and so does none. -/
theorem dropTrailing_commaIf (trailing : Bool) {close : Token} (h : close.closes = true)
    (rest : List Token) :
    dropTrailing (commaIf trailing ++ close :: rest) = close :: dropTrailing rest := by
  have hclose : close ≠ .sign .comma := by
    rintro rfl
    simp [Token.closes] at h
  cases trailing with
  | true =>
    exact (dropTrailing_comma_close h rest).trans (dropTrailing_cons hclose rest)
  | false => exact dropTrailing_cons hclose rest

mutual

/-- Behind a value, dropping goes on as if the value had not been there. -/
theorem dropTrailing_tokens_append (lax : Bool) (t : Tree) (rest : List Token) :
    dropTrailing (t.tokens lax ++ rest) = t.tokens false ++ dropTrailing rest := by
  cases t with
  | word w => exact dropTrailing_cons (by simp) rest
  | number n => exact dropTrailing_cons (by simp) rest
  | string pieces => exact dropTrailing_cons (by simp) rest
  | array items trailing =>
    have hclose : (Token.sign .closeList).closes = true := rfl
    simp only [tokens, List.cons_append, List.append_assoc, List.nil_append]
    rw [dropTrailing_cons (by simp), dropTrailing_itemTokens lax trailing items hclose]
  | object members trailing =>
    have hclose : (Token.sign .closeObject).closes = true := rfl
    simp only [tokens, List.cons_append, List.append_assoc, List.nil_append]
    rw [dropTrailing_cons (by simp), dropTrailing_memberTokens lax trailing members hclose]

theorem dropTrailing_itemTokens (lax trailing : Bool) (items : List Tree) {close : Token}
    (h : close.closes = true) (rest : List Token) :
    dropTrailing (itemTokens lax trailing items ++ close :: rest) =
      itemTokens false trailing items ++ close :: dropTrailing rest := by
  match items with
  | [] => exact dropTrailing_commaIf false h rest
  | [t] =>
    rw [itemTokens, List.append_assoc, dropTrailing_tokens_append lax t, dropTrailing_commaIf _ h,
      itemTokens, List.append_assoc]
    rfl
  | t :: u :: more =>
    rw [itemTokens, List.append_assoc, dropTrailing_tokens_append lax t, List.cons_append,
      dropTrailing_comma (exists_itemTokens_first lax trailing u more),
      dropTrailing_itemTokens lax trailing (u :: more) h, itemTokens, List.append_assoc,
      List.cons_append]

theorem dropTrailing_memberTokens (lax trailing : Bool) (members : List (List StringPiece × Tree))
    {close : Token} (h : close.closes = true) (rest : List Token) :
    dropTrailing (memberTokens lax trailing members ++ close :: rest) =
      memberTokens false trailing members ++ close :: dropTrailing rest := by
  match members with
  | [] => exact dropTrailing_commaIf false h rest
  | [(key, t)] =>
    rw [memberTokens, List.cons_append, List.cons_append, dropTrailing_cons (by simp),
      dropTrailing_cons (by simp), List.append_assoc, dropTrailing_tokens_append lax t,
      dropTrailing_commaIf _ h, memberTokens, List.cons_append, List.cons_append, List.append_assoc]
    rfl
  | (key, t) :: m :: more =>
    rw [memberTokens, List.cons_append, List.cons_append, dropTrailing_cons (by simp),
      dropTrailing_cons (by simp), List.append_assoc, dropTrailing_tokens_append lax t,
      List.cons_append, dropTrailing_comma (exists_memberTokens_first lax trailing m more),
      dropTrailing_memberTokens lax trailing (m :: more) h, memberTokens, List.cons_append,
      List.cons_append, List.append_assoc, List.cons_append]

end

/-- Dropping the commas in front of closing brackets gives the tokens of plain data text. -/
theorem dropTrailing_tokens (lax : Bool) (t : Tree) :
    dropTrailing (t.tokens lax) = t.tokens false := by
  have happend := dropTrailing_tokens_append lax t []
  simpa [dropTrailing] using happend

end Tree

/-! ### Plain data text -/

/-- Plain data text: tokens with blanks between them. -/
inductive IsPlainText : List Token → List Char → Prop
  | nil : IsPlainText [] []
  | blank {c : Char} {ts : List Token} {cs : List Char} (isGap : isGap c = true)
      (more : IsPlainText ts cs) : IsPlainText ts (c :: cs)
  | token {ts : List Token} {cs : List Char} (t : Token) (more : IsPlainText ts cs) :
      IsPlainText (t :: ts) (t.chars ++ cs)

/-- A number begins with a minus sign or a digit. -/
theorem Numeral.exists_chars (n : Numeral) :
    ∃ c cs, n.chars = c :: cs ∧ (c = '-' ∨ c.isDigit = true) := by
  cases hsign : n.negative with
  | true => exact ⟨'-', _, by rw [Numeral.chars, hsign]; rfl, .inl rfl⟩
  | false =>
    obtain ⟨c, whole, hwhole⟩ := List.exists_cons_of_ne_nil n.whole.nonempty
    refine ⟨c, whole ++ (n.fractionChars ++ n.exponentChars), ?_, .inr ?_⟩
    · rw [Numeral.chars, hsign, hwhole]
      rfl
    · exact n.whole.isDigit c (by rw [hwhole]; exact List.mem_cons_self)

/-- The first character of a token is no blank, and closes a list or an object only if the token
does. -/
theorem Token.exists_chars (t : Token) :
    ∃ c cs, t.chars = c :: cs ∧ Text.isBlank c = false ∧
      (c = '}' ∨ c = ']' ↔ t.closes = true) := by
  cases t with
  | sign s => cases s <;> exact ⟨_, [], rfl, rfl, by decide⟩
  | word w =>
    rcases w with _ | (_ | _)
    · exact ⟨'n', "ull".toList, rfl, rfl, by decide⟩
    · exact ⟨'f', "alse".toList, rfl, rfl, by decide⟩
    · exact ⟨'t', "rue".toList, rfl, rfl, by decide⟩
  | number n =>
    obtain ⟨c, cs, hchars, hc⟩ := n.exists_chars
    have hpoints : ∀ k < 58, 43 ≤ k → Text.isBlank (Char.ofNat k) = false ∧
        Char.ofNat k ≠ '}' ∧ Char.ofNat k ≠ ']' := by decide
    have hrange : c.toNat < 58 ∧ 43 ≤ c.toNat := by
      rcases hc with rfl | hdigit
      · decide
      · simp only [Char.isDigit, Bool.and_eq_true, decide_eq_true_eq] at hdigit
        exact ⟨Nat.lt_succ_of_le hdigit.2, Nat.le_trans (by decide) hdigit.1⟩
    obtain ⟨hblank, hobject, hlist⟩ := hpoints c.toNat hrange.1 hrange.2
    rw [Char.ofNat_toNat] at hblank hobject hlist
    exact ⟨c, cs, hchars, hblank, by simp [Token.closes, hobject, hlist]⟩
  | string pieces => exact ⟨'"', _, rfl, rfl, by simp [Token.closes]⟩

/-- Tokens without blanks between them are plain data text. -/
theorem isPlainText_flatMap (ts : List Token) : IsPlainText ts (ts.flatMap Token.chars) := by
  induction ts with
  | nil => exact .nil
  | cons t ts ih => exact .token t ih

namespace IsPlainText

theorem skipGap_blank {c : Char} (h : isGap c = true) (cs : List Char) :
    skipGap (c :: cs) = skipGap cs := by
  rw [skipGap, List.dropWhile_cons_of_pos h]
  rfl

theorem skipGap_token (t : Token) (cs : List Char) : skipGap (t.chars ++ cs) = t.chars ++ cs := by
  obtain ⟨c, more, ht, hblank, -⟩ := t.exists_chars
  have hgap : ¬ isGap c = true := fun hgap => by
    simp [Comment.isBlank_of_isGap hgap] at hblank
  rw [ht, List.cons_append, skipGap, List.dropWhile_cons_of_neg hgap]

/-- Behind its leading blanks, a plain data text begins with its first token. -/
theorem exists_skipGap {t : Token} {ts : List Token} {cs : List Char}
    (h : IsPlainText (t :: ts) cs) :
    ∃ rest, skipGap cs = t.chars ++ rest ∧ IsPlainText ts rest := by
  generalize hts : t :: ts = tts at h
  induction h with
  | nil => simp at hts
  | blank hgap more ih =>
    rw [skipGap_blank hgap]
    exact ih hts
  | token u more ih =>
    obtain ⟨rfl, rfl⟩ := List.cons.inj hts
    exact ⟨_, skipGap_token t _, more⟩

theorem skipGap_nil {cs : List Char} (h : IsPlainText [] cs) : skipGap cs = [] := by
  generalize hts : [] = ts at h
  induction h with
  | nil => rfl
  | blank hgap more ih =>
    rw [skipGap_blank hgap]
    exact ih hts
  | token t more ih => simp at hts

protected theorem skipGap {ts : List Token} {cs : List Char} (h : IsPlainText ts cs) :
    IsPlainText ts (skipGap cs) := by
  induction h with
  | nil => exact .nil
  | blank hgap more ih =>
    rw [skipGap_blank hgap]
    exact ih
  | token t more ih =>
    rw [skipGap_token]
    exact .token t more

/-- A text has at least as many characters as tokens. -/
theorem length_le {ts : List Token} {cs : List Char} (h : IsPlainText ts cs) :
    ts.length ≤ cs.length := by
  induction h with
  | nil => exact Nat.le_refl 0
  | blank hgap more ih => exact Nat.le_succ_of_le ih
  | token t more ih =>
    obtain ⟨c, cs, ht, -⟩ := t.exists_chars
    rw [ht, List.length_cons, List.length_append, List.length_cons]
    omega

end IsPlainText

end ModuleGraph.Json

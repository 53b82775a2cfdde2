import Mathlib.Data.List.TakeWhile
import ModuleGraph.Proofs.Json.Tree

/-!
# Reading plain data text back

The reader gives back the value of the syntax tree that a plain data text is written from, whatever
blanks stand between its tokens.  A number is read up to a character that cannot continue it, and
behind a value only a comma, a closing bracket, a blank or the end of the text follows.

Every list or object takes two tokens for its brackets and two steps of fuel to enter, so twice the
number of tokens is enough fuel.

## Main results

* `Json.readUnits?_pieces`: strings are read back.
* `Json.readNumber?_numeral`: numbers are read back.
* `Json.readWithin?_tokens`: whole texts are read back.
-/

namespace ModuleGraph.Json

/-! ### Strings -/

theorem readUnits?_piece (p : StringPiece) {units : List Nat} {cs rest : List Char}
    (h : readUnits? cs = some (units, rest)) :
    readUnits? (p.chars ++ cs) = some (p.code :: units, rest) := by
  cases p with
  | plain c legal =>
    obtain ⟨hcontrol, hquote, hback⟩ := legal
    have hlegal : ¬ (c.toNat < 32 ∨ c = '\\') := by
      rintro (hlow | rfl)
      · omega
      · exact hback rfl
    rw [StringPiece.chars, List.singleton_append, readUnits?, if_neg hlegal, h]
    · rfl
    · exact hquote
    · exact fun _ _ _ _ _ hc _ => hback hc
    · exact fun _ _ hc _ => hback hc
  | short c escaped legal =>
    have hu : c ≠ 'u' := by
      rintro rfl
      simp [shortEscape?] at legal
    rw [StringPiece.chars, List.cons_append, List.singleton_append, readUnits?, legal, h]
    · rfl
    · exact fun _ _ _ _ _ hc _ => hu hc
  | unit a b c d n legal =>
    simp only [StringPiece.chars, List.cons_append, List.nil_append, readUnits?, legal, h]
    rfl

/-- A string is read up to its closing quote. -/
theorem readUnits?_pieces (pieces : List StringPiece) (rest : List Char) :
    readUnits? (pieces.flatMap StringPiece.chars ++ '"' :: rest) =
      some (pieces.map StringPiece.code, rest) := by
  induction pieces with
  | nil => rfl
  | cons p pieces ih =>
    rw [List.flatMap_cons, List.append_assoc, readUnits?_piece p ih, List.map_cons]

theorem readString?_pieces (limits : Limits) (pieces : List StringPiece) (rest : List Char) :
    readString? limits (pieces.flatMap StringPiece.chars ++ '"' :: rest) =
      some (Tree.stringValue? limits pieces, rest) := by
  rw [readString?, readUnits?_pieces]
  rfl

/-! ### Numbers -/

/-- A text in front of which a number ends. -/
def EndsNumber (cs : List Char) : Prop :=
  ∀ c ∈ cs.head?, c.isDigit = false ∧ c ≠ '.' ∧ c ≠ 'e' ∧ c ≠ 'E'

theorem readDigits?_digits (ds : Digits) {rest : List Char}
    (h : ∀ c ∈ rest.head?, c.isDigit = false) :
    readDigits? (ds.chars ++ rest) = some (ds.chars, rest) := by
  have htake : (ds.chars ++ rest).takeWhile Char.isDigit = ds.chars := by
    rw [List.takeWhile_append_of_pos ds.isDigit]
    cases rest with
    | nil => simp
    | cons c rest => simp [h c rfl]
  have hdrop : (ds.chars ++ rest).dropWhile Char.isDigit = rest := by
    rw [List.dropWhile_append_of_pos ds.isDigit]
    cases rest with
    | nil => rfl
    | cons c rest => rw [List.dropWhile_cons_of_neg (by simp [h c rfl])]
  have hempty : ds.chars.isEmpty = false := List.isEmpty_eq_false_iff.mpr ds.nonempty
  simp [readDigits?, htake, hdrop, hempty]

theorem readWhole?_numeral (n : Numeral) {rest : List Char}
    (h : ∀ c ∈ rest.head?, c.isDigit = false) :
    readWhole? (n.whole.chars ++ rest) = some (n.whole.chars, rest) := by
  by_cases hzero : n.whole.chars.head? = some '0'
  · have hrest : (rest.head?.map Char.isDigit).getD false = false := by
      cases hhead : rest.head? with
      | none => rfl
      | some c => exact h c hhead
    rw [n.zero hzero, List.singleton_append, readWhole?, if_neg (by simp [hrest])]
  · rw [readWhole?, readDigits?_digits n.whole h]
    intro more hmore
    obtain ⟨c, cs, hcs⟩ := List.exists_cons_of_ne_nil n.whole.nonempty
    rw [hcs, List.cons_append] at hmore
    rw [hcs, (List.cons.inj hmore).1] at hzero
    exact hzero rfl

theorem readFraction?_numeral (n : Numeral) {rest : List Char}
    (h : ∀ c ∈ rest.head?, c.isDigit = false ∧ c ≠ '.') :
    readFraction? (n.fractionChars ++ rest) =
      some ((n.fraction.map Digits.chars).getD [], rest) := by
  cases hfraction : n.fraction with
  | none =>
    rw [Numeral.fractionChars, hfraction]
    change readFraction? rest = some ([], rest)
    rw [readFraction?]
    rintro more rfl
    exact (h '.' rfl).2 rfl
  | some ds =>
    rw [Numeral.fractionChars, hfraction]
    exact readDigits?_digits ds fun c hc => (h c hc).1

theorem readExponent?_numeral (n : Numeral) {rest : List Char} (h : EndsNumber rest) :
    readExponent? (n.exponentChars ++ rest) = some (n.exponent.map Exponent.value, rest) := by
  cases hexponent : n.exponent with
  | none =>
    rw [Numeral.exponentChars, hexponent]
    change readExponent? rest = some (none, rest)
    cases rest with
    | nil => rfl
    | cons c rest =>
      obtain ⟨-, -, hlower, hupper⟩ := h c rfl
      simp [readExponent?, hlower, hupper]
  | some e =>
    have hmark : (e.mark == 'e' || e.mark == 'E') = true := by
      rcases e.isMark with hmark | hmark <;> simp [hmark]
    have hdigits := readDigits?_digits e.digits fun c hc => (h c hc).1
    have htext : n.exponentChars ++ rest =
        e.mark :: (e.sign.toList ++ (e.digits.chars ++ rest)) := by
      simp [Numeral.exponentChars, hexponent, Exponent.chars]
    rw [htext]
    cases hsign : e.sign with
    | none =>
      -- Without a sign, a digit follows the mark.
      obtain ⟨c, cs, hcs⟩ := List.exists_cons_of_ne_nil e.digits.nonempty
      have hdigit := e.digits.isDigit c (by rw [hcs]; exact List.mem_cons_self)
      have hsigns : c ≠ '-' ∧ c ≠ '+' := by
        constructor <;> rintro rfl <;> simp at hdigit
      rw [hcs, List.cons_append] at hdigits
      simp [readExponent?, hmark, hcs, hdigits, hsigns, Exponent.value, hsign]
    | some c =>
      rcases e.isSign c hsign with rfl | rfl
      · simp [readExponent?, hmark, hdigits, Exponent.value, hsign]
      · simp [readExponent?, hmark, hdigits, Exponent.value, hsign]

theorem head_exponentChars (n : Numeral) {rest : List Char} (h : EndsNumber rest) :
    ∀ c ∈ (n.exponentChars ++ rest).head?, c.isDigit = false ∧ c ≠ '.' := by
  intro c hc
  cases hexponent : n.exponent with
  | none =>
    rw [Numeral.exponentChars, hexponent] at hc
    exact ⟨(h c hc).1, (h c hc).2.1⟩
  | some e =>
    rw [Numeral.exponentChars, hexponent] at hc
    obtain rfl : e.mark = c := by simpa [Exponent.chars] using hc
    rcases e.isMark with hmark | hmark <;> rw [hmark] <;> decide

theorem head_fractionChars (n : Numeral) {rest : List Char}
    (h : ∀ c ∈ rest.head?, c.isDigit = false) :
    ∀ c ∈ (n.fractionChars ++ rest).head?, c.isDigit = false := by
  intro c hc
  cases hfraction : n.fraction with
  | none =>
    rw [Numeral.fractionChars, hfraction] at hc
    exact h c hc
  | some ds =>
    rw [Numeral.fractionChars, hfraction] at hc
    obtain rfl : '.' = c := by simpa using hc
    rfl

/-- Behind its sign, a number goes on with its digits. -/
theorem unsigned_numeral (n : Numeral) (rest : List Char) :
    ((n.chars ++ rest).head? == some '-') = n.negative ∧
      (if n.negative then (n.chars ++ rest).tail else n.chars ++ rest) =
        n.whole.chars ++ (n.fractionChars ++ (n.exponentChars ++ rest)) := by
  cases hsign : n.negative with
  | true => simp [Numeral.chars, hsign]
  | false =>
    obtain ⟨c, cs, hcs⟩ := List.exists_cons_of_ne_nil n.whole.nonempty
    have hdigit := n.whole.isDigit c (by rw [hcs]; exact List.mem_cons_self)
    have hminus : c ≠ '-' := by
      rintro rfl
      simp at hdigit
    simp [Numeral.chars, hsign, hcs, hminus]

/-- A number is read up to a character that cannot continue it. -/
theorem readNumber?_numeral (limits : Limits) (n : Numeral) {rest : List Char}
    (h : EndsNumber rest) :
    readNumber? limits (n.chars ++ rest) = some ((Tree.number n).value limits, rest) := by
  have hfraction := head_exponentChars n h
  have hwhole := head_fractionChars n fun c hc => (hfraction c hc).1
  have hwritten : (n.chars ++ rest).take ((n.chars ++ rest).length - rest.length) = n.chars := by
    simp
  obtain ⟨hsign, htext⟩ := unsigned_numeral n rest
  simp only [readNumber?, hsign, htext, readWhole?_numeral n hwhole,
    readFraction?_numeral n hfraction, readExponent?_numeral n h, hwritten, Option.bind_eq_bind,
    Option.bind_some, Tree.value, Numeral.literal]
  rfl

/-! ### Values -/

/-- The tokens that may follow a value: nothing, a comma or a closing bracket. -/
def FollowsValue (ts : List Token) : Prop := ∀ t ∈ ts.head?, t = .sign .comma ∨ t.closes = true

theorem IsPlainText.endsNumber {ts : List Token} {cs : List Char} (h : IsPlainText ts cs)
    (hts : FollowsValue ts) : EndsNumber cs := by
  cases h with
  | nil => simp [EndsNumber]
  | @blank c ts cs hgap more =>
    have hc : EndsNumber (c :: cs) := by
      simp only [isGap, Bool.or_eq_true, beq_iff_eq] at hgap
      rcases hgap with ((rfl | rfl) | rfl) | rfl <;> simp [EndsNumber]
    exact hc
  | @token ts cs t more =>
    obtain ⟨s, rfl, hs⟩ : ∃ s, t = .sign s ∧ (s = .comma ∨ s = .closeList ∨ s = .closeObject) := by
      rcases hts t rfl with rfl | hcloses
      · exact ⟨.comma, rfl, .inl rfl⟩
      · rcases t with s | _ | _ | _ <;> simp [Token.closes] at hcloses
        cases s <;> simp_all
    rcases hs with rfl | rfl | rfl <;> simp [EndsNumber, Token.chars, Sign.char]

theorem readValue?_word (limits : Limits) (fuel : Nat) {cs rest : List Char} {w : Word}
    (h : skipGap cs = w.chars ++ rest) :
    readValue? limits (fuel + 1) cs = some (w.value, rest) := by
  rw [readValue?, h]
  rcases w with _ | (_ | _) <;> rfl

theorem skipGap_string {pieces : List StringPiece} {ts : List Token} {cs : List Char}
    (h : IsPlainText (.string pieces :: ts) cs) :
    ∃ rest, skipGap cs = '"' :: (pieces.flatMap StringPiece.chars ++ '"' :: rest) ∧
      IsPlainText ts rest := by
  obtain ⟨rest, hskip, hrest⟩ := h.exists_skipGap
  exact ⟨rest, by simp [hskip, Token.chars], hrest⟩

theorem readValue?_string (limits : Limits) (fuel : Nat) {cs rest : List Char}
    {pieces : List StringPiece}
    (h : skipGap cs = '"' :: (pieces.flatMap StringPiece.chars ++ '"' :: rest)) :
    readValue? limits (fuel + 1) cs = some ((Tree.string pieces).value limits, rest) := by
  rw [readValue?, h]
  simp only [readString?_pieces, Option.map_some, Tree.value]

theorem readValue?_number (limits : Limits) (fuel : Nat) {cs rest : List Char} {n : Numeral}
    (h : skipGap cs = n.chars ++ rest) (hrest : EndsNumber rest) :
    readValue? limits (fuel + 1) cs = some ((Tree.number n).value limits, rest) := by
  rw [← readNumber?_numeral limits n hrest, readValue?, h]
  obtain ⟨c, more, hchars, hc⟩ := n.exists_chars
  have hother : ∀ d ∈ ['"', '[', '{', 'n', 't', 'f'], c ≠ d := by
    rintro d hd rfl
    simp only [List.mem_cons, List.not_mem_nil, or_false] at hd
    rcases hd with rfl | rfl | rfl | rfl | rfl | rfl <;> simp at hc
  rw [hchars, List.cons_append]
  simp [hother]

theorem skipGap_sign {s : Sign} {ts : List Token} {cs : List Char}
    (h : IsPlainText (.sign s :: ts) cs) :
    ∃ rest, skipGap cs = s.char :: rest ∧ IsPlainText ts rest := h.exists_skipGap

theorem IsPlainText.skipGap_ne {t : Token} {ts : List Token} {cs : List Char}
    (h : IsPlainText (t :: ts) cs) (ht : t.closes = false) {c : Char} (hc : c = '}' ∨ c = ']')
    (rest : List Char) : skipGap cs ≠ c :: rest := by
  obtain ⟨behind, hskip, -⟩ := h.exists_skipGap
  obtain ⟨d, more, hchars, -, hcloses⟩ := t.exists_chars
  rw [hskip, hchars]
  rintro heq
  rw [(List.cons.inj heq).1] at hcloses
  simp [hcloses.mp hc] at ht

theorem readValue?_openList (limits : Limits) (fuel : Nat) {cs behind : List Char}
    (h : skipGap cs = '[' :: behind) (hbehind : ∀ rest, skipGap behind ≠ ']' :: rest) :
    readValue? limits (fuel + 1) cs =
      (readItems? limits fuel (skipGap behind)).map fun r => (.array r.1, r.2) := by
  rw [readValue?, h]
  simp only

theorem readValue?_openObject (limits : Limits) (fuel : Nat) {cs behind : List Char}
    (h : skipGap cs = '{' :: behind) (hbehind : ∀ rest, skipGap behind ≠ '}' :: rest) :
    readValue? limits (fuel + 1) cs =
      (readMembers? limits fuel (skipGap behind)).map fun r => (objectOf r.1, r.2) := by
  rw [readValue?, h]
  simp only

theorem readValue?_emptyList (limits : Limits) (fuel : Nat) {cs behind rest : List Char}
    (h : skipGap cs = '[' :: behind) (hclose : skipGap behind = ']' :: rest) :
    readValue? limits (fuel + 1) cs = some (.array [], rest) := by
  rw [readValue?, h]
  simp only [hclose]

theorem readValue?_emptyObject (limits : Limits) (fuel : Nat) {cs behind rest : List Char}
    (h : skipGap cs = '{' :: behind) (hclose : skipGap behind = '}' :: rest) :
    readValue? limits (fuel + 1) cs = some (.object [], rest) := by
  rw [readValue?, h]
  simp only [hclose]

/-- No list is closed in front of an entry. -/
theorem skipGap_ne_closeList {trailing : Bool} {t : Tree} {items : List Tree} {ts : List Token}
    {cs : List Char} (h : IsPlainText (Tree.itemTokens false trailing (t :: items) ++ ts) cs)
    (rest : List Char) : skipGap cs ≠ ']' :: rest := by
  obtain ⟨first, tokens, htokens, hfirst⟩ := Tree.exists_itemTokens_first false trailing t items
  rw [htokens] at h
  exact h.skipGap_ne hfirst (.inr rfl) rest

/-- No object is closed in front of an entry. -/
theorem skipGap_ne_closeObject {trailing : Bool} {m : List StringPiece × Tree}
    {members : List (List StringPiece × Tree)} {ts : List Token} {cs : List Char}
    (h : IsPlainText (Tree.memberTokens false trailing (m :: members) ++ ts) cs)
    (rest : List Char) : skipGap cs ≠ '}' :: rest := by
  obtain ⟨first, tokens, htokens, hfirst⟩ :=
    Tree.exists_memberTokens_first false trailing m members
  rw [htokens] at h
  exact h.skipGap_ne hfirst (.inl rfl) rest

theorem followsValue_close {t : Token} (h : t.closes = true) (ts : List Token) :
    FollowsValue (t :: ts) := by
  simp [FollowsValue, h]

theorem followsValue_comma (ts : List Token) : FollowsValue (.sign .comma :: ts) := by
  simp [FollowsValue]

mutual

/-- A value is read up to what follows it. -/
theorem readValue?_tokens (limits : Limits) (t : Tree) {more : List Token} {cs : List Char}
    (h : IsPlainText (t.tokens false ++ more) cs) (hmore : FollowsValue more) {fuel : Nat}
    (hfuel : 2 * (t.tokens false).length ≤ fuel) :
    ∃ rest, readValue? limits fuel cs = some (t.value limits, rest) ∧ IsPlainText more rest := by
  obtain ⟨fuel, rfl⟩ : ∃ k, fuel = k + 1 := by
    obtain ⟨first, behind, ht, -⟩ := t.exists_tokens_first false
    refine ⟨fuel - 1, ?_⟩
    rw [ht, List.length_cons] at hfuel
    omega
  match t with
  | .word w =>
    obtain ⟨rest, hskip, hrest⟩ := h.exists_skipGap
    exact ⟨rest, readValue?_word limits fuel hskip, hrest⟩
  | .number n =>
    obtain ⟨rest, hskip, hrest⟩ := h.exists_skipGap
    exact ⟨rest, readValue?_number limits fuel hskip (hrest.endsNumber hmore), hrest⟩
  | .string pieces =>
    obtain ⟨rest, hskip, hrest⟩ := skipGap_string h
    exact ⟨rest, readValue?_string limits fuel hskip, hrest⟩
  | .array [] trailing =>
    obtain ⟨behind, hskip, hbehind⟩ := skipGap_sign h
    obtain ⟨rest, hclose, hrest⟩ := skipGap_sign hbehind
    exact ⟨rest, readValue?_emptyList limits fuel hskip hclose, hrest⟩
  | .array (u :: us) trailing =>
    rw [Tree.tokens, List.cons_append, List.append_assoc] at h
    obtain ⟨behind, hskip, hbehind⟩ := skipGap_sign h
    have hitems : 2 * (Tree.itemTokens false trailing (u :: us)).length + 1 ≤ fuel := by
      simp only [Tree.tokens, List.length_cons, List.length_append, List.length_nil] at hfuel
      omega
    obtain ⟨rest, hread, hrest⟩ := readItems?_tokens limits trailing (u :: us)
      (List.cons_ne_nil u us) hbehind.skipGap hitems
    refine ⟨rest, ?_, hrest⟩
    rw [readValue?_openList limits fuel hskip (skipGap_ne_closeList hbehind), hread]
    rfl
  | .object [] trailing =>
    obtain ⟨behind, hskip, hbehind⟩ := skipGap_sign h
    obtain ⟨rest, hclose, hrest⟩ := skipGap_sign hbehind
    exact ⟨rest, readValue?_emptyObject limits fuel hskip hclose, hrest⟩
  | .object (m :: ms) trailing =>
    rw [Tree.tokens, List.cons_append, List.append_assoc] at h
    obtain ⟨behind, hskip, hbehind⟩ := skipGap_sign h
    have hmembers : 2 * (Tree.memberTokens false trailing (m :: ms)).length + 1 ≤ fuel := by
      simp only [Tree.tokens, List.length_cons, List.length_append, List.length_nil] at hfuel
      omega
    obtain ⟨rest, hread, hrest⟩ := readMembers?_tokens limits trailing (m :: ms)
      (List.cons_ne_nil m ms) hbehind.skipGap hmembers
    refine ⟨rest, ?_, hrest⟩
    rw [readValue?_openObject limits fuel hskip (skipGap_ne_closeObject hbehind), hread]
    rfl

/-- The entries of a list are read up to its closing bracket. -/
theorem readItems?_tokens (limits : Limits) (trailing : Bool) (items : List Tree)
    (hne : items ≠ []) {more : List Token} {cs : List Char}
    (h : IsPlainText (Tree.itemTokens false trailing items ++ .sign .closeList :: more) cs)
    {fuel : Nat} (hfuel : 2 * (Tree.itemTokens false trailing items).length + 1 ≤ fuel) :
    ∃ rest, readItems? limits fuel cs = some (Tree.itemValues limits items, rest) ∧
      IsPlainText more rest := by
  obtain ⟨fuel, rfl⟩ : ∃ k, fuel = k + 1 := ⟨fuel - 1, by omega⟩
  match items with
  | [] => exact absurd rfl hne
  | [t] =>
    rw [Tree.itemTokens, List.append_assoc] at h
    have hlength : 2 * (t.tokens false).length ≤ fuel := by
      rw [Tree.itemTokens, List.length_append] at hfuel
      omega
    obtain ⟨behind, hvalue, hbehind⟩ :=
      readValue?_tokens limits t h (followsValue_close rfl more) hlength
    obtain ⟨rest, hclose, hrest⟩ := skipGap_sign hbehind
    refine ⟨rest, ?_, hrest⟩
    simp [readItems?, hvalue, hclose, Sign.char, Tree.itemValues]
  | t :: u :: us =>
    rw [Tree.itemTokens, List.append_assoc] at h
    rw [Tree.itemTokens, List.length_append, List.length_cons] at hfuel
    have hlength : 2 * (t.tokens false).length ≤ fuel := by omega
    have hmore : 2 * (Tree.itemTokens false trailing (u :: us)).length + 1 ≤ fuel := by omega
    obtain ⟨behind, hvalue, hbehind⟩ := readValue?_tokens limits t h (followsValue_comma _) hlength
    obtain ⟨tail, hcomma, htail⟩ := skipGap_sign hbehind
    obtain ⟨rest, hitems, hrest⟩ := readItems?_tokens limits trailing (u :: us)
      (List.cons_ne_nil u us) htail hmore
    refine ⟨rest, ?_, hrest⟩
    simp [readItems?, hvalue, hcomma, hitems, Sign.char, Tree.itemValues]

/-- The entries of an object are read up to its closing bracket. -/
theorem readMembers?_tokens (limits : Limits) (trailing : Bool)
    (members : List (List StringPiece × Tree)) (hne : members ≠ []) {more : List Token}
    {cs : List Char}
    (h : IsPlainText (Tree.memberTokens false trailing members ++ .sign .closeObject :: more) cs)
    {fuel : Nat} (hfuel : 2 * (Tree.memberTokens false trailing members).length + 1 ≤ fuel) :
    ∃ rest, readMembers? limits fuel cs = some (Tree.memberValues limits members, rest) ∧
      IsPlainText more rest := by
  obtain ⟨fuel, rfl⟩ : ∃ k, fuel = k + 1 := ⟨fuel - 1, by omega⟩
  match members with
  | [] => exact absurd rfl hne
  | [(key, t)] =>
    rw [Tree.memberTokens, List.cons_append, List.cons_append, List.append_assoc] at h
    have hlength : 2 * (t.tokens false).length ≤ fuel := by
      rw [Tree.memberTokens, List.length_cons, List.length_cons, List.length_append] at hfuel
      omega
    obtain ⟨afterKey, hkey, hafterKey⟩ := skipGap_string h
    obtain ⟨afterColon, hcolon, hafterColon⟩ := skipGap_sign hafterKey
    obtain ⟨behind, hvalue, hbehind⟩ :=
      readValue?_tokens limits t hafterColon (followsValue_close rfl more) hlength
    obtain ⟨rest, hclose, hrest⟩ := skipGap_sign hbehind
    refine ⟨rest, ?_, hrest⟩
    simp [readMembers?, hkey, readString?_pieces, hcolon, hvalue, hclose, Sign.char,
      Tree.memberValues]
  | (key, t) :: m :: ms =>
    rw [Tree.memberTokens, List.cons_append, List.cons_append, List.append_assoc] at h
    rw [Tree.memberTokens, List.length_cons, List.length_cons, List.length_append,
      List.length_cons] at hfuel
    have hlength : 2 * (t.tokens false).length ≤ fuel := by omega
    have hmore : 2 * (Tree.memberTokens false trailing (m :: ms)).length + 1 ≤ fuel := by omega
    obtain ⟨afterKey, hkey, hafterKey⟩ := skipGap_string h
    obtain ⟨afterColon, hcolon, hafterColon⟩ := skipGap_sign hafterKey
    obtain ⟨behind, hvalue, hbehind⟩ :=
      readValue?_tokens limits t hafterColon (followsValue_comma _) hlength
    obtain ⟨tail, hcomma, htail⟩ := skipGap_sign hbehind
    obtain ⟨rest, hmembers, hrest⟩ := readMembers?_tokens limits trailing (m :: ms)
      (List.cons_ne_nil m ms) htail hmore
    refine ⟨rest, ?_, hrest⟩
    simp [readMembers?, hkey, readString?_pieces, hcolon, hvalue, hcomma, hmembers, Sign.char,
      Tree.memberValues]

end

/-- A whole plain data text is read back. -/
theorem readWithin?_tokens (limits : Limits) (t : Tree) {cs : List Char}
    (h : IsPlainText (t.tokens false) cs) : readWithin? limits cs = some (t.value limits) := by
  have hfuel : 2 * (t.tokens false).length ≤ 2 * cs.length + 1 := by
    have hlength := h.length_le
    omega
  have htext : IsPlainText (t.tokens false ++ []) cs := by rwa [List.append_nil]
  obtain ⟨rest, hvalue, hrest⟩ :=
    readValue?_tokens limits t htext (by simp [FollowsValue]) hfuel
  simp [readWithin?, hvalue, hrest.skipGap_nil]

end ModuleGraph.Json

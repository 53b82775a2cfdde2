import ModuleGraph.Source.Lexer

/-!
# Reading goes onward

Whatever is read from the front of a text, what is left behind it stands at the end of the text.  A
string is known by where it stands: by its mark, and by what is read behind the mark.

## Main definitions

* `Source.IsString`: a string stands at the front of a text.

## Main results

* `Source.readBare_suffix`: what is left behind a token.
* `Source.isString_of_readBare`: where a token is a string.
-/

namespace ModuleGraph.Source

variable {cs rest : List Char}

theorem suffix_cons_of_suffix {α : Type} {xs ys : List α} (h : xs <:+ ys) (y : α) :
    xs <:+ y :: ys :=
  h.trans (List.suffix_cons y ys)

theorem skipGap_suffix (script : Bool) (gap : Gap) (newline : Bool) (cs : List Char) :
    (skipGap script gap newline cs).rest <:+ cs := by
  fun_induction skipGap script gap newline cs <;> grind [suffix_cons_of_suffix]

theorem skipInterpreterLine_suffix (cs : List Char) : skipInterpreterLine cs <:+ cs := by
  unfold skipInterpreterLine
  split
  · exact (List.dropWhile_suffix _).trans ((List.suffix_cons _ _).trans (List.suffix_cons _ _))
  · exact List.suffix_refl _

theorem readName_suffix (first : Bool) (skip : Nat) (cs : List Char) :
    (readName first skip cs).rest <:+ cs := by
  fun_induction readName first skip cs <;> grind [suffix_cons_of_suffix]

/-! ### Numbers -/

theorem skipDigits?_suffix {digit : Char → Bool} (h : skipDigits? digit cs = some rest) :
    rest <:+ cs := by
  fun_induction skipDigits? digit cs <;> grind [suffix_cons_of_suffix]

theorem skipDecimals_suffix (cs : List Char) : (skipDecimals cs).2 <:+ cs := by
  fun_induction skipDecimals cs <;> grind [suffix_cons_of_suffix]

theorem closeNumber_rest (wellFormed flawed : Bool) (cs : List Char) :
    (closeNumber wellFormed flawed cs).rest = cs := by
  unfold closeNumber
  grind

theorem readPower_suffix (flawed : Bool) (cs : List Char) : (readPower flawed cs).rest <:+ cs := by
  have hdigits (cs : List Char) :
      (if startsDigit cs then
        (⟨.number true, flawed || (skipDecimals cs).1, (skipDecimals cs).2⟩ : NumberReading)
      else ⟨.number false, true, cs⟩).rest <:+ cs := by
    split
    · exact skipDecimals_suffix cs
    · exact List.suffix_refl cs
  unfold readPower
  dsimp only
  by_cases hsign : (cs.head? == some '+' || cs.head? == some '-') = true
  · rw [if_pos hsign]
    exact (hdigits _).trans (List.tail_suffix cs)
  · rw [if_neg hsign]
    exact hdigits cs

theorem readExponent_suffix (flawed : Bool) (cs : List Char) :
    (readExponent flawed cs).rest <:+ cs := by
  unfold readExponent
  split
  · split
    · rw [NumberReading.close, closeNumber_rest]
      exact suffix_cons_of_suffix (readPower_suffix flawed _) _
    · exact (closeNumber_rest _ _ _).symm ▸ List.suffix_refl _
  · exact List.suffix_refl _

theorem readFraction_suffix (flawed : Bool) (cs : List Char) :
    (readFraction flawed cs).rest <:+ cs := by
  unfold readFraction
  split
  · exact (readExponent_suffix _ _).trans (skipDecimals_suffix cs)
  · exact readExponent_suffix flawed cs

theorem readNumberTail_suffix (flawed : Bool) (cs : List Char) :
    (readNumberTail flawed cs).rest <:+ cs := by
  unfold readNumberTail
  split
  · exact suffix_cons_of_suffix (readFraction_suffix flawed _) _
  · rw [closeNumber_rest]
    exact List.suffix_cons _ _
  · exact readExponent_suffix flawed cs

theorem readBased_suffix (digit : Char → Bool) (cs : List Char) :
    (readBased digit cs).rest <:+ cs := by
  unfold readBased
  split
  · next c rest =>
    split
    · split
      · next behind h =>
        rw [closeNumber_rest]
        exact suffix_cons_of_suffix ((List.suffix_cons _ _).trans (skipDigits?_suffix h)) c
      · next behind _ h =>
        rw [closeNumber_rest]
        exact suffix_cons_of_suffix (skipDigits?_suffix h) c
      · exact List.suffix_cons c rest
    · exact List.suffix_refl _
  · exact List.suffix_refl _

theorem readLegacy_suffix (cs : List Char) : (readLegacy cs).rest <:+ cs := by
  have hdigits : cs.dropWhile Char.isDigit <:+ cs := List.dropWhile_suffix _
  unfold readLegacy
  dsimp only
  split
  · rw [closeNumber_rest]
    exact hdigits
  · split
    · next h => exact (suffix_cons_of_suffix (readFraction_suffix false _) '.').trans (h ▸ hdigits)
    · next h => exact (suffix_cons_of_suffix (readPower_suffix false _) 'e').trans (h ▸ hdigits)
    · rw [closeNumber_rest]
      exact hdigits

theorem readNumber_suffix (cs : List Char) : (readNumber cs).rest <:+ cs := by
  unfold readNumber
  grind [suffix_cons_of_suffix, readBased_suffix, readPower_suffix, readLegacy_suffix,
    readNumberTail_suffix, readFraction_suffix, skipDecimals_suffix]

/-! ### Strings, templates and symbols -/

theorem readQuoted_suffix {mark : Char} {skip : Nat} {reading : QuotedReading}
    (h : readQuoted mark skip cs = some reading) : reading.rest <:+ cs := by
  fun_induction readQuoted mark skip cs generalizing reading <;>
    grind [suffix_cons_of_suffix, Option.map_eq_some_iff]

theorem readTemplate_suffix (ends : TemplateEnds) (cs : List Char) :
    (readTemplate ends cs).2 <:+ cs := by
  fun_induction readTemplate ends cs <;> grind [suffix_cons_of_suffix]

theorem readSymbol?_suffix {table : List (List Char × Symbol)} {s : Symbol}
    (h : readSymbol? table cs = some (s, rest)) : rest <:+ cs := by
  obtain ⟨entry, -, heq⟩ := Option.map_eq_some_iff.mp h
  rw [← (Prod.mk.inj heq).2]
  exact List.drop_suffix _ cs

theorem readPunctuation?_suffix {s : Symbol} (h : readPunctuation? cs = some (s, rest)) :
    rest <:+ cs := by
  unfold readPunctuation? at h
  split at h
  · split at h
    · rw [← (Prod.mk.inj (Option.some.inj h)).2]
      exact List.suffix_cons '?' _
    · exact readSymbol?_suffix h
  · exact readSymbol?_suffix h

/-! ### Tokens -/

/-- What is left behind a token. -/
theorem readBare_suffix (newline : Bool) (cs : List Char) : (readBare newline cs).2 <:+ cs := by
  unfold readBare
  grind [suffix_cons_of_suffix, readName_suffix, readQuoted_suffix, readTemplate_suffix,
    readNumber_suffix, readPunctuation?_suffix]

/-! ### Patterns -/

theorem skipPattern?_suffix {inClass : Bool} (h : skipPattern? inClass cs = some rest) :
    rest <:+ cs := by
  fun_induction skipPattern? inClass cs <;> grind [suffix_cons_of_suffix]

theorem skipFlags?_suffix (h : skipFlags? cs = some rest) : rest <:+ cs := by
  unfold skipFlags? at h
  dsimp only at h
  split at h
  · rw [← Option.some.inj h]
    exact List.drop_suffix _ cs
  · cases h

/-! ### Strings among the tokens -/

/-- A string stands at the front of a text: the text, the value of the string, and what is left
behind its closing mark. -/
inductive IsString : List Char → List Char → List Char → Prop
  | intro {mark : Char} {text : List Char} {reading : QuotedReading}
    (hmark : mark = '"' ∨ mark = '\'') (h : readQuoted mark 0 text = some reading) :
    IsString (mark :: text) (charsOfPoints reading.points) reading.rest

theorem closeNumber_kind (wellFormed flawed : Bool) (cs : List Char) :
    (closeNumber wellFormed flawed cs).kind ≠ .string := by
  unfold closeNumber
  grind

theorem readPower_kind (flawed : Bool) (cs : List Char) : (readPower flawed cs).kind ≠ .string := by
  unfold readPower
  grind

theorem readExponent_kind (flawed : Bool) (cs : List Char) :
    (readExponent flawed cs).kind ≠ .string := by
  unfold readExponent NumberReading.close
  grind [closeNumber_kind]

theorem readFraction_kind (flawed : Bool) (cs : List Char) :
    (readFraction flawed cs).kind ≠ .string := by
  unfold readFraction
  grind [readExponent_kind]

theorem readNumber_kind (cs : List Char) : (readNumber cs).kind ≠ .string := by
  unfold readNumber readBased readLegacy readNumberTail
  grind [closeNumber_kind, readPower_kind, readExponent_kind, readFraction_kind]

theorem readTemplate_kind (ends : TemplateEnds) (cs : List Char) :
    (readTemplate ends cs).1 = ends.close ∨ (readTemplate ends cs).1 = ends.substitution ∨
      (readTemplate ends cs).1 = .broken := by
  fun_induction readTemplate ends cs <;> grind

theorem nameKind_ne (text : List Char) : nameKind text ≠ .string := by
  unfold nameKind
  grind

/-- Where a token is a string, a string stands at the front of its text. -/
theorem isString_of_readBare {newline : Bool} (h : (readBare newline cs).1.kind = .string) :
    IsString cs (readBare newline cs).1.text (readBare newline cs).2 := by
  unfold readBare at h ⊢
  grind [readNumber_kind, nameKind_ne, readTemplate_kind, IsString.intro]

end ModuleGraph.Source

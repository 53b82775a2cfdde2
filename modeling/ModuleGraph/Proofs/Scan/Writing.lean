import ModuleGraph.Proofs.Scan.Layout

/-!
# Writings of tokens

Tokens stay apart as long as no two words touch; every other pair may be written without a gap.  A
layout asks for more, since a gap has to follow each modifier.  The two agree on tokens in which
every modifier stands in front of a word.

## Main definitions

* `Declaration.IsApart`: no two words touch.
* `Declaration.Writing`: tokens with the gaps between them.
* `Declaration.modifiesWords`: every modifier stands in front of a word.

## Main results

* `Declaration.isSpaced_of_isApart`: where modifiers stand in front of words, a writing is a layout.
* `Declaration.Writing.stripChars_text`: removing comments leaves the bare text of a writing.
-/

namespace ModuleGraph.Declaration

open Comment

/-- Behind a given token, no two words touch. -/
def IsApart : Token → List (Gap × Token) → Prop
  | _, [] => True
  | a, (gap, b) :: more => (a.isWord = true → b.isWord = true → gap ≠ []) ∧ IsApart b more

theorem needsGap_of_isWord {a b : Token} (ha : a.isWord = true) (hb : b.isWord = true) :
    needsGap a b = true := by
  cases a <;> simp_all [needsGap, Token.isWord]

theorem IsSpaced.isApart {a : Token} {ts : List (Gap × Token)} (h : IsSpaced a ts) :
    IsApart a ts := by
  induction ts generalizing a with
  | nil => trivial
  | cons t ts ih => exact ⟨fun ha hb => h.1 (needsGap_of_isWord ha hb), ih h.2⟩

theorem IsApart.behind {a b : Token} {gap : Gap} {ts us : List (Gap × Token)}
    (h : IsApart a (ts ++ (gap, b) :: us)) : IsApart b us := by
  induction ts generalizing a with
  | nil => exact h.2
  | cons t ts ih => exact ih h.2

/-- Tokens with the gaps between them. -/
structure Writing (ts : List Token) where
  first : Token
  later : List (Gap × Token)
  tokens_eq : first :: later.map Prod.snd = ts
  isApart : IsApart first later

/-- A layout, as a writing. -/
def Layout.writing {d : Declaration} (l : Layout d) : Writing d.tokens :=
  ⟨l.first, l.later, l.tokens_eq, l.isSpaced.isApart⟩

namespace Writing

variable {ts : List Token}

/-- The text of a writing. -/
def text (w : Writing ts) : List Char := w.first.chars ++ spacedText w.later

/-- The text of a writing without its comments. -/
def bare (w : Writing ts) : List Char := w.first.chars ++ spacedBare w.later

/-- A writing in which a gap follows each modifier, as a layout. -/
def layout {d : Declaration} (w : Writing d.tokens) (h : IsSpaced w.first w.later) : Layout d :=
  ⟨w.first, w.later, w.tokens_eq, h⟩

/-- Removing comments leaves the bare text of a writing. -/
theorem stripChars_text (w : Writing ts) (h : ∀ t ∈ ts, t.IsCopied) :
    stripChars w.text = w.bare := by
  rw [← w.tokens_eq] at h
  have hlater := stripFrom_spacedText (fun t ht => h t (List.mem_cons_of_mem _ ht)) []
  rw [List.append_nil] at hlater
  rw [stripChars, text, stripFrom_token (h _ List.mem_cons_self), hlater, bare]
  simp [stripFrom]

end Writing

/-! ### Modifiers in front of words -/

/-- Whether every modifier stands directly in front of a word. -/
def modifiesWords : List Token → Bool
  | [] => true
  | .modifier _ :: ts => (ts.head?.map Token.isWord).getD false && modifiesWords ts
  | _ :: ts => modifiesWords ts

theorem modifiesWords_of_cons {t : Token} {ts : List Token} (h : modifiesWords (t :: ts) = true) :
    modifiesWords ts = true := by
  cases t <;> simp_all [modifiesWords]

theorem modifiesWords_append {ts us : List Token} (hts : modifiesWords ts = true)
    (hus : modifiesWords us = true) : modifiesWords (ts ++ us) = true := by
  induction ts with
  | nil => exact hus
  | cons t ts ih =>
    have hrest := ih (modifiesWords_of_cons hts)
    cases t with
    | modifier text =>
      cases ts with
      | nil => simp [modifiesWords] at hts
      | cons u ts => simp_all [modifiesWords]
    | word text | sign c | request r => exact hrest

theorem modifiesWords_memberTokens (trailing : Bool) (ms : List Member) :
    modifiesWords (memberTokens trailing ms) = true := by
  have hmember (m : Member) : modifiesWords m.tokens = true := by
    obtain ⟨_ | _, n, _ | renamed⟩ := m <;> rfl
  fun_induction memberTokens trailing ms with
  | case1 => rfl
  | case2 m =>
    refine modifiesWords_append (hmember m) ?_
    cases trailing <;> rfl
  | case3 m n more ih => exact modifiesWords_append (hmember m) ih

/-- Where every modifier stands in front of a word, words that do not touch are all it takes. -/
theorem isSpaced_of_isApart {a : Token} {ts : List (Gap × Token)} (h : IsApart a ts)
    (hwords : modifiesWords (a :: ts.map Prod.snd) = true) : IsSpaced a ts := by
  induction ts generalizing a with
  | nil => trivial
  | cons t ts ih =>
    obtain ⟨gap, b⟩ := t
    refine ⟨fun hneeds => ?_, ih h.2 (modifiesWords_of_cons hwords)⟩
    have hboth : a.isWord = true ∧ b.isWord = true := by
      cases a <;> simp_all [modifiesWords, needsGap, Token.isWord]
    exact h.1 hboth.1 hboth.2

end ModuleGraph.Declaration

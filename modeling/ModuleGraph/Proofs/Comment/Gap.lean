import Mathlib.Data.Bool.AllAny
import Mathlib.Data.List.Basic
import Mathlib.Tactic.Common
import ModuleGraph.Comment
import ModuleGraph.Json.Reader

/-!
# Gaps between tokens

Tokens are kept apart by gaps: blanks, line comments with the end of their line, and closed block
comments.  Removing comments turns a gap into blanks, one for each of its pieces, so that a gap that
is not empty does not become empty.  Everything else that tokens are made of is copied: text without
quote marks and slashes, and quoted text up to its closing mark.

## Main definitions

* `Comment.Piece`, `Comment.Gap`: what stands between tokens.
* `Comment.Gap.text`, `Comment.Gap.bare`: a gap as it is written, and without its comments.
* `Comment.IsQuiet`: the characters that are copied outside of quotes.
* `Comment.QuotedBody`: what stands between two quote marks.
* `Comment.Enclosed`: what is copied without leaving the quotes.

## Main results

* `Comment.stripFrom_gap`: a gap becomes blanks.
* `Comment.stripFrom_quiet`, `Comment.stripFrom_enclosed`: what is copied.
-/

namespace ModuleGraph.Comment

/-! ### Gaps -/

/-- One piece of a gap. -/
inductive Piece where
  | blank (c : Char) (isGap : Json.isGap c = true)
  /-- A line comment with the character that ends its line. -/
  | line (body : List Char) (ending : Char) (inLine : ∀ c ∈ body, isLineEnd c = false)
    (ends : isLineEnd ending = true)
  | block (body : List Char) (inBlock : ¬ ['*', '/'] <:+: body)

/-- What stands between two tokens. -/
abbrev Gap := List Piece

/-- A piece of a gap as it is written. -/
def Piece.text : Piece → List Char
  | .blank c _ => [c]
  | .line body ending _ _ => '/' :: '/' :: body ++ [ending]
  | .block body _ => '/' :: '*' :: body ++ ['*', '/']

/-- The blank that is left of a piece of a gap. -/
def Piece.bare : Piece → Char
  | .blank c _ => c
  | .line _ ending _ _ => ending
  | .block _ _ => ' '

/-- A gap as it is written. -/
def Gap.text (g : Gap) : List Char := g.flatMap Piece.text

/-- The blanks that are left of a gap. -/
def Gap.bare (g : Gap) : List Char := g.map Piece.bare

theorem isBlank_of_isGap {c : Char} (h : Json.isGap c = true) : Text.isBlank c = true := by
  simp only [Json.isGap, Bool.or_eq_true, beq_iff_eq] at h
  rcases h with ((rfl | rfl) | rfl) | rfl <;> rfl

theorem isGap_of_isLineEnd {c : Char} (h : isLineEnd c = true) : Json.isGap c = true := by
  simp only [isLineEnd, Bool.or_eq_true, beq_iff_eq] at h
  rcases h with rfl | rfl <;> rfl

theorem Piece.isGap_bare (p : Piece) : Json.isGap p.bare = true := by
  cases p with
  | blank c h => exact h
  | line body ending _ h => exact isGap_of_isLineEnd h
  | block body _ => rfl

theorem Gap.isGap_of_mem_bare {g : Gap} {c : Char} (h : c ∈ Gap.bare g) : Json.isGap c = true := by
  obtain ⟨p, -, rfl⟩ := List.mem_map.mp h
  exact p.isGap_bare

theorem Gap.bare_ne_nil {g : Gap} (h : g ≠ []) : Gap.bare g ≠ [] := by
  simpa [Gap.bare] using h

/-! ### Removing comments -/

theorem stripFrom_code_cons {c : Char} (h : c ≠ '/') (rest : List Char) :
    stripFrom .code (c :: rest) = c :: stripFrom (if isQuote c then .quoted c else .code) rest := by
  rw [stripFrom] <;> simp [h]

theorem stripFrom_line_append {body : List Char} (h : ∀ c ∈ body, isLineEnd c = false)
    (rest : List Char) : stripFrom .line (body ++ rest) = stripFrom .line rest := by
  induction body with
  | nil => rfl
  | cons c body ih =>
    rw [List.cons_append, stripFrom, if_neg (by simp [h c List.mem_cons_self]),
      ih fun d hd => h d (List.mem_cons_of_mem c hd)]

theorem stripFrom_line {body : List Char} (h : ∀ c ∈ body, isLineEnd c = false) {ending : Char}
    (hend : isLineEnd ending = true) (rest : List Char) :
    stripFrom .line (body ++ ending :: rest) = ending :: stripFrom .code rest := by
  rw [stripFrom_line_append h, stripFrom, if_pos hend]

/-- The mark that closes a block comment does not begin with a character in front of its first
half. -/
theorem ne_closing_of_not_isInfix {c : Char} {body : List Char}
    (h : ¬ ['*', '/'] <:+: c :: body) (rest : List Char) :
    ∀ tail, c = '*' → body ++ '*' :: '/' :: rest = '/' :: tail → False := by
  rintro tail rfl htail
  cases body with
  | nil => simp at htail
  | cons d body =>
    obtain rfl : d = '/' := by simpa using (List.cons.inj htail).1
    exact h ⟨[], body, rfl⟩

theorem stripFrom_block {body : List Char} (h : ¬ ['*', '/'] <:+: body) (rest : List Char) :
    stripFrom .block (body ++ '*' :: '/' :: rest) = ' ' :: stripFrom .code rest := by
  induction body with
  | nil => rfl
  | cons c body ih =>
    have htail : ¬ ['*', '/'] <:+: body := fun hinner =>
      h (hinner.trans (List.suffix_cons c body).isInfix)
    rw [List.cons_append, stripFrom, ih htail]
    exact ne_closing_of_not_isInfix h rest

theorem stripFrom_piece (p : Piece) (rest : List Char) :
    stripFrom .code (p.text ++ rest) = p.bare :: stripFrom .code rest := by
  cases p with
  | blank c h =>
    simp only [Json.isGap, Bool.or_eq_true, beq_iff_eq] at h
    rcases h with ((rfl | rfl) | rfl) | rfl <;> rfl
  | line body ending h hend =>
    have happ : (Piece.line body ending h hend).text ++ rest =
      '/' :: '/' :: (body ++ ending :: rest) := by simp [Piece.text]
    rw [happ, stripFrom, stripFrom_line h hend]
    rfl
  | block body h =>
    have happ : (Piece.block body h).text ++ rest = '/' :: '*' :: (body ++ '*' :: '/' :: rest) := by
      simp [Piece.text]
    rw [happ, stripFrom, stripFrom_block h]
    rfl

/-- A gap becomes blanks, and what follows it is read as plain text. -/
theorem stripFrom_gap (g : Gap) (rest : List Char) :
    stripFrom .code (g.text ++ rest) = g.bare ++ stripFrom .code rest := by
  induction g with
  | nil => rfl
  | cons p g ih =>
    rw [Gap.text, List.flatMap_cons, List.append_assoc, stripFrom_piece]
    exact congrArg (p.bare :: ·) ih

/-- A character that is copied outside of quotes. -/
def IsQuiet (c : Char) : Prop := c ≠ '/' ∧ isQuote c = false

instance (c : Char) : Decidable (IsQuiet c) := inferInstanceAs (Decidable (_ ∧ _))

theorem isQuiet_of_ne {c : Char} (h : ∀ d ∈ ['/', '"', '\'', Char.ofNat 0x60], c ≠ d) :
    IsQuiet c := by
  have hback : c.toNat ≠ 0x60 := fun hc =>
    h (Char.ofNat 0x60) (by simp) (Char.toNat_inj.mp (hc.trans (by decide)))
  exact ⟨h '/' (by simp), by simp [isQuote, h '"' (by simp), h '\'' (by simp), hback]⟩

theorem stripFrom_quiet {cs : List Char} (h : ∀ c ∈ cs, IsQuiet c) (rest : List Char) :
    stripFrom .code (cs ++ rest) = cs ++ stripFrom .code rest := by
  induction cs with
  | nil => rfl
  | cons c cs ih =>
    obtain ⟨hslash, hquote⟩ := h c List.mem_cons_self
    rw [List.cons_append, stripFrom_code_cons hslash, if_neg (by simp [hquote]),
      ih fun d hd => h d (List.mem_cons_of_mem c hd), List.cons_append]

/-- What may stand between two quote marks of one line: a backslash takes the next character with
it, and neither the mark nor a line feed stands alone. -/
inductive QuotedBody (mark : Char) : List Char → Prop
  | nil : QuotedBody mark []
  | plain {c : Char} {body : List Char} (hmark : c ≠ mark) (hback : c ≠ '\\') (hline : c ≠ '\n')
      (hbody : QuotedBody mark body) : QuotedBody mark (c :: body)
  | escaped {c : Char} {body : List Char} (hbody : QuotedBody mark body) :
      QuotedBody mark ('\\' :: c :: body)

/-- What the traversal copies behind a quote mark without leaving the quotes. -/
inductive Enclosed (mark : Char) : List Char → Prop
  | nil : Enclosed mark []
  | plain {c : Char} {body : List Char} (goesOn : endsQuoted mark c = false) (hback : c ≠ '\\')
      (hbody : Enclosed mark body) : Enclosed mark (c :: body)
  | escaped {c : Char} {body : List Char} (hbody : Enclosed mark body) :
      Enclosed mark ('\\' :: c :: body)

theorem QuotedBody.enclosed {mark : Char} {body : List Char} (h : QuotedBody mark body) :
    Enclosed mark body := by
  induction h with
  | nil => exact .nil
  | plain hmark hback hline hbody ih =>
    exact .plain (by simp [endsQuoted, hmark, hline]) hback ih
  | escaped hbody ih => exact .escaped ih

theorem stripFrom_quoted_step {c : Char} (h : c ≠ '\\') (mark : Char) (cs : List Char) :
    stripFrom (.quoted mark) (c :: cs) =
      c :: stripFrom (if endsQuoted mark c then .code else .quoted mark) cs := by
  rw [stripFrom]
  · exact fun hc _ => h hc
  · exact fun _ _ hc _ => h hc

/-- A character that ends quoted text is a quote mark or a line feed, and so no backslash. -/
theorem ne_backslash_of_endsQuoted {mark close : Char} (hmark : isQuote mark = true)
    (hclose : endsQuoted mark close = true) : close ≠ '\\' := by
  rintro rfl
  simp only [endsQuoted, Bool.or_eq_true, Bool.and_eq_true, beq_iff_eq] at hclose
  rcases hclose with rfl | ⟨hline, -⟩
  · simp [isQuote] at hmark
  · simp at hline

/-- Enclosed text is copied, and the traversal goes on in the same quotes behind it. -/
theorem stripFrom_quoted_append {mark : Char} {body : List Char} (h : Enclosed mark body)
    (rest : List Char) :
    stripFrom (.quoted mark) (body ++ rest) = body ++ stripFrom (.quoted mark) rest := by
  induction h with
  | nil => rfl
  | plain goesOn hback hbody ih =>
    rw [List.cons_append, stripFrom_quoted_step hback, if_neg (by simp [goesOn]), ih,
      List.cons_append]
  | escaped hbody ih => rw [List.cons_append, List.cons_append, stripFrom, ih]; rfl

/-- Enclosed text is copied up to the character that ends it. -/
theorem stripFrom_enclosed {mark close : Char} (hmark : isQuote mark = true) {body : List Char}
    (h : Enclosed mark body) (hclose : endsQuoted mark close = true) (rest : List Char) :
    stripFrom .code (mark :: body ++ close :: rest) =
      mark :: body ++ close :: stripFrom .code rest := by
  have hslash : mark ≠ '/' := by
    rintro rfl
    simp [isQuote] at hmark
  rw [List.cons_append, stripFrom_code_cons hslash, if_pos hmark, stripFrom_quoted_append h,
    stripFrom_quoted_step (ne_backslash_of_endsQuoted hmark hclose), if_pos hclose,
    List.cons_append]

/-- Quoted text is copied up to its closing mark. -/
theorem stripFrom_quoted {mark : Char} (hmark : isQuote mark = true) {body : List Char}
    (h : QuotedBody mark body) (rest : List Char) :
    stripFrom .code (mark :: body ++ mark :: rest) =
      mark :: body ++ mark :: stripFrom .code rest :=
  stripFrom_enclosed hmark h.enclosed (by simp [endsQuoted]) rest

end ModuleGraph.Comment

import Mathlib.Data.List.Basic
import ModuleGraph.Source.Cursor

/-!
# Gaps in front of tokens

A gap in front of a token is passed over in the same way, whatever stands behind it, and all that is
left of it is whether a line ends in it.  That is noted with the token and matters to nothing else.

So a token may be taken out of a text by writing blanks in its place: everything else stands where
it stood, and if the token is the first of a module, reading begins without it where it goes on
behind it in the text itself.

## Main definitions

* `Source.Cursor.blanked`: a text without the token at a cursor.

## Main results

* `Source.exists_gap_of_skipGap`: a gap is passed over in the same way whatever stands behind it.
* `Source.skipGap_newline`, `Source.readBare_newline`: what a line end in front of a text matters
  to.
* `Source.Cursor.start_blanked`: the first place of a module without its first token.
-/

namespace ModuleGraph.Source

/-! ### Gaps -/

section Gaps

variable {gap : Gap} {newline : Bool} {cs : List Char}

theorem skipGap_of_endsLine {c : Char} (h : endsLine c = true) (newline : Bool)
    (rest : List Char) :
    skipGap false .open newline (c :: rest) = skipGap false .open true rest := by
  rw [skipGap, if_pos h]
  all_goals
    rintro _ rfl
    simp [endsLine] at h

theorem skipGap_of_separates {c : Char} (hline : endsLine c = false) (h : separates c = true)
    (newline : Bool) (rest : List Char) :
    skipGap false .open newline (c :: rest) = skipGap false .open newline rest := by
  rw [skipGap, if_neg (by simp [hline]), if_pos h]
  all_goals
    rintro _ rfl
    simp [separates] at h

theorem skipGap_blanks (count : Nat) (newline : Bool) (rest : List Char) :
    skipGap false .open newline (List.replicate count ' ' ++ rest) =
      skipGap false .open newline rest := by
  induction count with
  | zero => rfl
  | succ count ih => rw [List.replicate_succ, List.cons_append, skipGap_of_separates rfl rfl, ih]

/-- A gap is passed over in the same way whatever stands behind it. -/
theorem exists_gap_of_skipGap (h : (skipGap false gap newline cs).rest ≠ []) :
    ∃ front, cs = front ++ (skipGap false gap newline cs).rest ∧ (gap ≠ .open → front ≠ []) ∧
      ∀ behind, skipGap false gap newline (front ++ behind) =
        skipGap false .open (skipGap false gap newline cs).newline behind := by
  -- A comment is closed by a character of its own, so the gap that it belongs to is not empty.
  fun_induction skipGap false gap newline cs with
  | case1 => simp at h
  | case4 | case6 => contradiction
  | case5 | case7 | case10 => exact ⟨[], rfl, by simp, fun _ => rfl⟩
  | case2 newline rest ih =>
    obtain ⟨front, hcs, -, hskip⟩ := ih h
    exact ⟨'/' :: '/' :: front, by simp [← hcs], by simp, fun behind => by simp [skipGap, hskip]⟩
  | case3 newline rest ih =>
    obtain ⟨front, hcs, -, hskip⟩ := ih h
    exact ⟨'/' :: '*' :: front, by simp [← hcs], by simp, fun behind => by simp [skipGap, hskip]⟩
  | case8 newline c rest _ _ _ _ hend ih =>
    obtain ⟨front, hcs, -, hskip⟩ := ih h
    refine ⟨c :: front, by simp [← hcs], by simp, fun behind => ?_⟩
    rw [List.cons_append, skipGap_of_endsLine hend, hskip]
  | case9 newline c rest _ _ _ _ hend hsep ih =>
    obtain ⟨front, hcs, -, hskip⟩ := ih h
    refine ⟨c :: front, by simp [← hcs], by simp, fun behind => ?_⟩
    rw [List.cons_append, skipGap_of_separates (by simpa using hend) hsep, hskip]
  | case11 newline c rest hend ih | case12 newline c rest hend ih =>
    obtain ⟨front, hcs, -, hskip⟩ := ih h
    exact ⟨c :: front, by simp [← hcs], by simp, fun behind => by simp [skipGap, hskip, hend]⟩
  | case13 newline rest ih =>
    obtain ⟨front, hcs, -, hskip⟩ := ih h
    exact ⟨'*' :: '/' :: front, by simp [← hcs], by simp, fun behind => by simp [skipGap, hskip]⟩
  | case14 newline c rest hclose ih =>
    obtain ⟨front, hcs, hne, hskip⟩ := ih h
    refine ⟨c :: front, by simp [← hcs], by simp, fun behind => ?_⟩
    rw [List.cons_append, skipGap, hskip]
    rintro _ rfl htail
    obtain ⟨d, front, rfl⟩ := List.exists_cons_of_ne_nil (hne nofun)
    obtain rfl : d = '/' := (List.cons.inj htail).1
    exact hclose _ rfl hcs

/-- Whether a line ends in front of a gap does not matter to what stands behind it. -/
theorem skipGap_newline (gap : Gap) (newline newline' : Bool) (cs : List Char) :
    (skipGap false gap newline cs).rest = (skipGap false gap newline' cs).rest ∧
      (skipGap false gap newline cs).closed = (skipGap false gap newline' cs).closed := by
  fun_induction skipGap false gap newline cs generalizing newline' <;> grind [skipGap]

end Gaps

/-- Whether a line ends in front of a token is only noted with the token. -/
theorem readBare_newline (newline newline' : Bool) (cs : List Char) :
    readBare newline cs =
      ({ (readBare newline' cs).1 with newline }, (readBare newline' cs).2) := by
  fun_cases readBare newline cs <;> grind [readBare]

/-! ### The line that tells how to run a text -/

/-- A text that begins with the marks of that line, cut behind them or earlier. -/
theorem eq_marks_of_append {before behind rest : List Char}
    (h : before ++ behind = '#' :: '!' :: rest) :
    (∃ more, before = '#' :: '!' :: more) ∨
      rest.length < behind.length ∧ behind.head? ≠ some ' ' := by
  cases before with
  | nil =>
    rw [List.nil_append] at h
    refine .inr ⟨?_, by simp [h]⟩
    rw [h, List.length_cons, List.length_cons]
    omega
  | cons a before =>
    rw [List.cons_append, List.cons.injEq] at h
    obtain ⟨rfl, h⟩ := h
    cases before with
    | nil =>
      rw [List.nil_append] at h
      exact .inr (by simp [h])
    | cons b more =>
      rw [List.cons_append, List.cons.injEq] at h
      obtain ⟨rfl, -⟩ := h
      exact .inl ⟨more, rfl⟩

/-- The line is passed over in the same way if a blank stands in the place of the first token. -/
theorem skipInterpreterLine_append {front before ds : List Char} {d : Char}
    (h : skipInterpreterLine (before ++ d :: ds) = front ++ d :: ds) (hd : endsLine d = false)
    (behind : List Char) :
    skipInterpreterLine (before ++ ' ' :: behind) = front ++ ' ' :: behind := by
  by_cases hmarks : ∃ more, before = '#' :: '!' :: more
  · obtain ⟨more, rfl⟩ := hmarks
    rw [List.cons_append, List.cons_append, skipInterpreterLine, List.dropWhile_append] at h ⊢
    split at h
    · -- The line would go on through the token.
      have hdrop : (List.dropWhile (fun c => !endsLine c) (d :: ds)).length ≤ ds.length := by
        rw [List.dropWhile_cons_of_pos (by simp [hd])]
        exact (List.dropWhile_suffix _).length_le
      rw [h, List.length_append, List.length_cons] at hdrop
      omega
    · next hne => rw [if_neg hne, List.append_cancel_right h]
  · have hfront : before = front := by
      rw [skipInterpreterLine.eq_def] at h
      split at h
      · next rest hrest =>
        rcases eq_marks_of_append hrest with hmore | ⟨hlength, -⟩
        · exact absurd hmore hmarks
        · have hle : (rest.dropWhile fun c => !endsLine c).length ≤ rest.length :=
            (List.dropWhile_suffix _).length_le
          rw [h, List.length_append] at hle
          omega
      · exact List.append_cancel_right h
    rw [skipInterpreterLine.eq_def]
    split
    · next rest hrest =>
      rcases eq_marks_of_append hrest with hmore | ⟨-, hhead⟩
      · exact absurd hmore hmarks
      · simp at hhead
    · rw [hfront]

namespace Cursor

variable {c c' : Cursor} {newline newline' : Bool} {text text' : List Char}

/-! ### Moving to the first token -/

theorem moveTo_eq_of_skipGap (hc : c.dialect.isModule = true)
    (h : skipGap false .open newline text = skipGap false .open newline' text') :
    c.moveTo newline text = c.moveTo newline' text' := by
  have hscript : (!c.dialect.isModule) = false := by rw [hc]; rfl
  simp only [moveTo, hscript, h]

/-- Whether a line ends in front of a text is only noted with its first token. -/
theorem exists_moveTo_newline (hc : c.dialect.isModule = true) (newline newline' : Bool)
    (text : List Char) :
    ∃ n, c.moveTo newline text = { c.moveTo newline' text with
      token := { (c.moveTo newline' text).token with newline := n } } := by
  have hscript : (!c.dialect.isModule) = false := by rw [hc]; rfl
  obtain ⟨hrest, hclosed⟩ := skipGap_newline .open newline newline' text
  simp only [moveTo, hscript, hrest, hclosed]
  split
  · rw [readBare_newline _ (skipGap false .open newline' text).newline]
    exact ⟨_, rfl⟩
  · exact ⟨_, rfl⟩

theorem next_newline (hlast : c.token.isLast = false) (newline : Bool) :
    ({ c with token := { c.token with newline } } : Cursor).next = c.next := by
  have hlast' : ({ c.token with newline } : Token).isLast = false := hlast
  simp only [next, hlast, hlast']
  rfl

/-- Nothing but what is shared, and the notes on flaws, matters to what is read of a text. -/
theorem moveTo_of_shares (h : c.Shares c') (hlexical : c'.lexicallyFlawed = c.lexicallyFlawed)
    (hbinding : c'.bindingFlawed = c.bindingFlawed) (newline : Bool) (text : List Char) :
    c'.moveTo newline text = c.moveTo newline text := by
  simp only [moveTo, h.size, h.dialect, h.scope, hlexical, hbinding]

/-- A token is read behind the gap in front of it. -/
theorem moveTo_of_isLast (hc : c.dialect.isModule = true)
    (hlast : (c.moveTo newline text).token.isLast = false) :
    (c.moveTo newline text).here = (skipGap false .open newline text).rest ∧
      (skipGap false .open newline text).rest ≠ [] ∧
      (c.moveTo newline text).lexicallyFlawed =
        (c.lexicallyFlawed || (c.moveTo newline text).token.flawed) ∧
      (c.moveTo newline text).bindingFlawed = c.bindingFlawed := by
  have hscript : (!c.dialect.isModule) = false := by rw [hc]; rfl
  simp only [moveTo, hscript] at hlast ⊢
  split at hlast
  · next hclosed =>
    rw [if_pos hclosed]
    refine ⟨rfl, fun hnil => ?_, rfl, rfl⟩
    simp [hnil, readBare, Token.isLast] at hlast
  · simp [Token.isLast] at hlast

/-! ### Blanks in the place of a token -/

/-- A text with blanks in the place of the token at a cursor. -/
def blanked (c : Cursor) (text : List Char) : List Char :=
  text.take c.offset ++ (List.replicate (c.here.length - c.rest.length) ' ' ++ c.rest)

theorem take_offset (hsize : c.size = text.length) (hhere : c.here <:+ text) :
    text.take c.offset ++ c.here = text := by
  obtain ⟨before, rfl⟩ := hhere
  simp [offset, hsize]

theorem length_blanked (hsound : c.IsSound) (hsize : c.size = text.length)
    (hhere : c.here <:+ text) : (c.blanked text).length = text.length := by
  have hle := hhere.length_le
  have hrest := hsound.behind.length_le
  simp only [blanked, offset, List.length_append, List.length_take, List.length_replicate, hsize]
  omega

theorem start_eq_moveTo (dialect : Dialect) (text : List Char) :
    ∃ c : Cursor, (c.size = text.length ∧ c.dialect = dialect ∧
        c.scope = { inAwait := dialect.isModule }) ∧
      (c.lexicallyFlawed = false ∧ c.bindingFlawed = false) ∧
      start dialect text = c.moveTo true (skipInterpreterLine text) :=
  ⟨_, ⟨rfl, rfl, rfl⟩, ⟨rfl, rfl⟩, rfl⟩

/-- What a gap is passed over up to does not end a line. -/
theorem endsLine_of_skipGap {d : Char} {ds : List Char}
    (h : (skipGap false .open newline (d :: ds)).rest = d :: ds) : endsLine d = false := by
  by_contra hend
  rw [skipGap_of_endsLine (by simpa using hend)] at h
  have hle := (skipGap_suffix false .open true ds).length_le
  rw [h, List.length_cons] at hle
  omega

/-- Up to the blanks in the place of the first token, a text is passed over as it was. -/
theorem skipInterpreterLine_blanked {front : List Char} (hsound : c.IsSound)
    (hsize : c.size = text.length) (hhere : c.here <:+ text)
    (hfront : skipInterpreterLine text = front ++ c.here)
    (hline : ∀ d ∈ c.here.head?, endsLine d = false) :
    skipInterpreterLine (c.blanked text) =
      front ++ (List.replicate (c.here.length - c.rest.length) ' ' ++ c.rest) := by
  have htext := take_offset hsize hhere
  rw [blanked]
  cases hcount : c.here.length - c.rest.length with
  | zero =>
    have hrest : c.rest = c.here := hsound.behind.eq_of_length_le (by omega)
    rw [List.replicate_zero, List.nil_append, hrest, htext, hfront]
  | succ count =>
    cases hcons : c.here with
    | nil => simp [hcons] at hcount
    | cons d ds =>
      rw [hcons] at htext hfront hline
      rw [List.replicate_succ, List.cons_append]
      exact skipInterpreterLine_append (by rw [htext, hfront]) (hline d rfl) _

/-- Without the first token of a module, reading begins where it goes on behind that token. -/
theorem start_blanked {dialect : Dialect} (hmodule : dialect.isModule = true)
    (hlast : (start dialect text).token.isLast = false)
    (hflawed : (start dialect text).token.flawed = false) :
    ∃ newline, start dialect ((start dialect text).blanked text) =
      { (start dialect text).next with
        token := { (start dialect text).next.token with newline } } := by
  have hsound := isSound_start dialect text
  have hsize := start_size dialect text
  have hsuffix := start_here_suffix dialect text
  obtain ⟨c₀, ⟨hsize₀, hdialect₀, hscope₀⟩, ⟨hlexical₀, hbinding₀⟩, hstart⟩ :=
    start_eq_moveTo dialect text
  generalize start dialect text = c at *
  obtain ⟨hhere, hne, hlexical, hbinding⟩ :=
    moveTo_of_isLast (hdialect₀ ▸ hmodule) (hstart ▸ hlast)
  have hshares := hstart ▸ (@moveTo_isSound c₀ true (skipInterpreterLine text)).2.2
  rw [← hstart, hlexical₀, hflawed] at hlexical
  rw [← hstart, hbinding₀] at hbinding
  rw [← hstart] at hhere
  -- The gap in front of the token, and what it leaves of a text behind it.
  obtain ⟨front, hfront, -, hskip⟩ := exists_gap_of_skipGap hne
  rw [← hhere] at hfront
  have hline : ∀ d ∈ c.here.head?, endsLine d = false := by
    intro d hd
    obtain ⟨ds, hcons⟩ : ∃ ds, c.here = d :: ds := ⟨c.here.tail, (List.cons_head?_tail hd).symm⟩
    have hagain := hskip c.here
    rw [← hfront] at hagain
    exact endsLine_of_skipGap (hcons ▸ hagain ▸ hhere.symm)
  obtain ⟨c₁, ⟨hsize₁, hdialect₁, hscope₁⟩, ⟨hlexical₁, hbinding₁⟩, hstart₁⟩ :=
    start_eq_moveTo dialect (c.blanked text)
  have hshares₁ : c.Shares c₁ := by
    refine ⟨?_, ?_, ?_⟩
    · rw [hsize₁, length_blanked hsound hsize hsuffix, hsize]
    · rw [hdialect₁, hshares.dialect, hdialect₀]
    · rw [hscope₁, hshares.scope, hscope₀]
  have hmodule₁ : c₁.dialect.isModule = true := hdialect₁ ▸ hmodule
  have hgap : skipGap false .open true (skipInterpreterLine (c.blanked text)) =
      skipGap false .open (skipGap false .open true (skipInterpreterLine text)).newline c.rest := by
    rw [skipInterpreterLine_blanked hsound hsize hsuffix hfront hline, hskip, skipGap_blanks]
  have hnext : c.next = c.moveTo false c.rest := by rw [next, if_neg (by simp [hlast])]
  rw [hstart₁, moveTo_eq_of_skipGap hmodule₁ hgap,
    moveTo_of_shares hshares₁ (hlexical₁.trans hlexical.symm) (hbinding₁.trans hbinding.symm),
    hnext]
  exact exists_moveTo_newline (hshares₁.dialect ▸ hmodule₁) _ _ _

end Cursor

end ModuleGraph.Source

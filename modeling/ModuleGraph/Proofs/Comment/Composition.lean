import ModuleGraph.Proofs.Comment.Gap
import ModuleGraph.Scan

/-!
# Removing comments piece by piece

A text can be cut where the traversal is in plain text: what is written for the two parts, one after
the other, is what is written for the whole.  The traversal looks one character ahead, so the cut
must not separate the two characters of a comment mark.

Behind such a cut a comment may stand.  It leaves what it leaves anywhere, whatever it holds, and so
the text has the specifiers of the text without the comment.

A text that is copied as it stands can be cut at its end if it is steady: made of closed quoted text
and of characters outside of quotes.

## Main definitions

* `Comment.MeetApart`: no comment mark lies across the border of two texts.
* `Comment.IsSteady`: text that is copied, and behind which the traversal is in plain text.

## Main results

* `Comment.stripFrom_append`: removing comments from a text that is cut in plain text.
* `Comment.isSteady_iff`: steady text by what it is made of, and by what becomes of it.
* `Comment.strip_append_comment`: a comment in the middle of a text.
-/

namespace ModuleGraph.Comment

/-! ### Single steps -/

/-- No comment mark lies across the border of two texts. -/
def MeetApart (a b : List Char) : Prop :=
  a.getLast? = some '/' → ∀ c ∈ b.head?, c ≠ '/' ∧ c ≠ '*'

theorem meetApart_of_getLast? {a : List Char} (h : a.getLast? ≠ some '/') (b : List Char) :
    MeetApart a b := fun hlast => absurd hlast h

theorem MeetApart.behind {c : Char} {a b : List Char} (h : MeetApart (c :: a) b) :
    MeetApart a b := fun hlast => h (by rw [List.getLast?_cons, hlast]; rfl)

/-- A character opens no comment in front of a text if neither comment mark begins there. -/
theorem meetApart_singleton_iff {c : Char} {cs : List Char} :
    MeetApart [c] cs ↔ (∀ more, c = '/' → cs = '/' :: more → False) ∧
      ∀ more, c = '/' → cs = '*' :: more → False := by
  constructor
  · refine fun h => ⟨?_, ?_⟩
    · rintro more rfl rfl
      exact (h rfl '/' rfl).1 rfl
    · rintro more rfl rfl
      exact (h rfl '*' rfl).2 rfl
  · rintro ⟨hline, hblock⟩ hlast d hd
    obtain rfl : c = '/' := by simpa using hlast
    obtain ⟨more, rfl⟩ := List.head?_eq_some_iff.mp hd
    refine ⟨?_, ?_⟩
    · rintro rfl
      exact hline more rfl rfl
    · rintro rfl
      exact hblock more rfl rfl

theorem MeetApart.singleton_append {c : Char} {a b : List Char} (h : MeetApart [c] a)
    (hb : MeetApart (c :: a) b) : MeetApart [c] (a ++ b) := by
  cases a with
  | nil => exact hb
  | cons d a => exact h

/-- A character of plain text that opens no comment is copied. -/
theorem stripFrom_code_step {c : Char} {cs : List Char} (h : MeetApart [c] cs) :
    stripFrom .code (c :: cs) = c :: stripFrom (if isQuote c then .quoted c else .code) cs := by
  obtain ⟨hline, hblock⟩ := meetApart_singleton_iff.mp h
  rw [stripFrom]
  · exact hline
  · exact hblock

theorem modeAfter_code_step {c : Char} {cs : List Char} (h : MeetApart [c] cs) :
    modeAfter .code (c :: cs) = modeAfter (if isQuote c then .quoted c else .code) cs := by
  obtain ⟨hline, hblock⟩ := meetApart_singleton_iff.mp h
  rw [modeAfter]
  · exact hline
  · exact hblock

/-- A backslash is neither alone nor in front of a character where it would take one with it. -/
theorem ne_backslash {c : Char} {cs : List Char} (hlone : c = '\\' → cs = [] → False)
    (hescape : ∀ d more, c = '\\' → cs = d :: more → False) : c ≠ '\\' := by
  intro hc
  cases cs with
  | nil => exact hlone hc rfl
  | cons d more => exact hescape d more hc rfl

theorem modeAfter_quoted_step {c : Char} (h : c ≠ '\\') (mark : Char) (cs : List Char) :
    modeAfter (.quoted mark) (c :: cs) =
      modeAfter (if endsQuoted mark c then .code else .quoted mark) cs := by
  rw [modeAfter]
  · exact fun hc _ => h hc
  · exact fun _ _ hc _ => h hc

/-! ### Cutting a text -/

/-- Behind a text that the traversal leaves in plain text, removing comments starts anew. -/
theorem stripFrom_append {mode : Mode} {a b : List Char} (hmode : modeAfter mode a = .code)
    (hapart : MeetApart a b) :
    stripFrom mode (a ++ b) = stripFrom mode a ++ stripFrom .code b := by
  fun_induction stripFrom mode a with
  | case1 mode =>
    rw [modeAfter] at hmode
    rw [hmode, List.nil_append, List.nil_append]
  | case2 rest ih => exact ih hmode hapart.behind.behind
  | case3 rest ih => exact ih hmode hapart.behind.behind
  | case4 c rest hline hblock ih =>
    have hstep : MeetApart [c] rest := meetApart_singleton_iff.mpr ⟨hline, hblock⟩
    rw [modeAfter_code_step hstep] at hmode
    rw [List.cons_append, stripFrom_code_step (hstep.singleton_append hapart),
      ih hmode hapart.behind, List.cons_append]
  | case5 c rest hend ih =>
    rw [modeAfter, if_pos hend] at hmode
    rw [List.cons_append, stripFrom, if_pos hend, ih hmode hapart.behind, List.cons_append]
  | case6 c rest hend ih =>
    rw [modeAfter, if_neg hend] at hmode
    rw [List.cons_append, stripFrom, if_neg hend, ih hmode hapart.behind]
  | case7 rest ih => exact congrArg (' ' :: ·) (ih hmode hapart.behind.behind)
  | case8 c rest hclose ih =>
    rw [modeAfter] at hmode
    · -- The comment is closed in front of the border, so `c` is not the last character.
      obtain ⟨d, rest, rfl⟩ := List.exists_cons_of_ne_nil (l := rest) (by
        rintro rfl
        simp [modeAfter] at hmode)
      rw [List.cons_append, stripFrom, ih hmode hapart.behind]
      exact fun more hc hmore => hclose rest hc (congrArg (· :: rest) (List.cons.inj hmore).1)
    · exact hclose
  | case9 mark => simp [modeAfter] at hmode
  | case10 mark c rest ih => exact congrArg ('\\' :: c :: ·) (ih hmode hapart.behind.behind)
  | case11 mark c rest hlone hescape ih =>
    have hback := ne_backslash hlone hescape
    rw [modeAfter_quoted_step hback] at hmode
    rw [List.cons_append, stripFrom_quoted_step hback, ih hmode hapart.behind, List.cons_append]

/-! ### Steady text -/

/-- Text that is made of characters that are no quote marks, without a comment mark among them, and
of quoted text: from a quote mark up to the character that ends it. -/
inductive IsSteady : List Char → Prop
  | nil : IsSteady []
  | plain {c : Char} {cs : List Char} (unquoted : isQuote c = false) (apart : MeetApart [c] cs)
      (more : IsSteady cs) : IsSteady (c :: cs)
  | quoted {mark close : Char} {body cs : List Char} (opens : isQuote mark = true)
      (enclosed : Enclosed mark body) (ends : endsQuoted mark close = true) (more : IsSteady cs) :
      IsSteady (mark :: (body ++ close :: cs))

theorem meetApart_of_isQuote {c : Char} (h : isQuote c = true) (cs : List Char) :
    MeetApart [c] cs := by
  refine meetApart_of_getLast? ?_ cs
  intro hlast
  obtain rfl : c = '/' := by simpa using hlast
  simp [isQuote] at h

/-- Behind enclosed text and the character that ends it, the traversal is in plain text. -/
theorem modeAfter_enclosed {mark close : Char} (hmark : isQuote mark = true) {body : List Char}
    (h : Enclosed mark body) (hclose : endsQuoted mark close = true) (rest : List Char) :
    modeAfter .code (mark :: (body ++ close :: rest)) = modeAfter .code rest := by
  rw [modeAfter_code_step (meetApart_of_isQuote hmark _), if_pos hmark]
  induction h with
  | nil =>
    rw [List.nil_append, modeAfter_quoted_step (ne_backslash_of_endsQuoted hmark hclose),
      if_pos hclose]
  | plain goesOn hback hbody ih =>
    rw [List.cons_append, modeAfter_quoted_step hback, if_neg (by simp [goesOn]), ih]
  | escaped hbody ih => rw [List.cons_append, List.cons_append, modeAfter, ih]

theorem IsSteady.stripFrom_eq {cs : List Char} (h : IsSteady cs) : stripFrom .code cs = cs := by
  induction h with
  | nil => rfl
  | plain unquoted apart more ih => rw [stripFrom_code_step apart, if_neg (by simp [unquoted]), ih]
  | quoted opens enclosed ends more ih =>
    rw [← List.cons_append, stripFrom_enclosed opens enclosed ends, ih]

theorem IsSteady.modeAfter_eq {cs : List Char} (h : IsSteady cs) : modeAfter .code cs = .code := by
  induction h with
  | nil => rfl
  | plain unquoted apart more ih => rw [modeAfter_code_step apart, if_neg (by simp [unquoted]), ih]
  | quoted opens enclosed ends more ih => rw [modeAfter_enclosed opens enclosed ends, ih]

theorem length_stripFrom_le (mode : Mode) (cs : List Char) :
    (stripFrom mode cs).length ≤ cs.length := by
  fun_induction stripFrom mode cs <;> simp only [List.length_cons, List.length_nil] <;> omega

/-- Text that brings the traversal back to plain text from a mode: steady text behind what is left
of a quoted text, if the mode is that of one. -/
def LeadsBack : Mode → List Char → Prop
  | .code, cs => IsSteady cs
  | .quoted mark, cs => ∃ body close behind, cs = body ++ close :: behind ∧ Enclosed mark body ∧
      endsQuoted mark close = true ∧ IsSteady behind
  | .line, _ => True
  | .block, _ => True

/-- A text that loses a character is not copied. -/
theorem stripFrom_cons_ne (mode : Mode) (c d : Char) (cs : List Char) :
    stripFrom mode cs ≠ c :: d :: cs := by
  intro h
  have hlength := length_stripFrom_le mode cs
  rw [h, List.length_cons, List.length_cons] at hlength
  omega

theorem leadsBack_of_stripFrom_eq {mode : Mode} {cs : List Char}
    (hmode : modeAfter mode cs = .code) (hcs : stripFrom mode cs = cs) : LeadsBack mode cs := by
  fun_induction stripFrom mode cs with
  | case1 mode =>
    rw [modeAfter] at hmode
    rw [hmode]
    exact .nil
  | case2 rest => exact absurd hcs (stripFrom_cons_ne .line '/' '/' rest)
  | case3 rest => exact absurd hcs (stripFrom_cons_ne .block '/' '*' rest)
  | case4 c rest hline hblock ih =>
    have hstep : MeetApart [c] rest := meetApart_singleton_iff.mpr ⟨hline, hblock⟩
    rw [modeAfter_code_step hstep] at hmode
    have hbehind := ih hmode (List.cons.inj hcs).2
    cases hquote : isQuote c with
    | false =>
      rw [hquote] at hbehind
      exact .plain hquote hstep hbehind
    | true =>
      rw [hquote] at hbehind
      obtain ⟨body, close, behind, rfl, hbody, hclose, hsteady⟩ := hbehind
      exact .quoted hquote hbody hclose hsteady
  | case5 c rest hend ih => trivial
  | case6 c rest hend ih => trivial
  | case7 rest ih => trivial
  | case8 c rest hclose ih => trivial
  | case9 mark => simp [modeAfter] at hmode
  | case10 mark c rest ih =>
    obtain ⟨body, close, behind, rfl, hbody, hclose, hsteady⟩ :=
      ih hmode (List.cons.inj (List.cons.inj hcs).2).2
    exact ⟨'\\' :: c :: body, close, behind, rfl, .escaped hbody, hclose, hsteady⟩
  | case11 mark c rest hlone hescape ih =>
    have hback := ne_backslash hlone hescape
    rw [modeAfter_quoted_step hback] at hmode
    have hbehind := ih hmode (List.cons.inj hcs).2
    cases hends : endsQuoted mark c with
    | true =>
      rw [hends] at hbehind
      exact ⟨[], c, rest, rfl, .nil, hends, hbehind⟩
    | false =>
      rw [hends] at hbehind
      obtain ⟨body, close, behind, rfl, hbody, hclose, hsteady⟩ := hbehind
      exact ⟨c :: body, close, behind, rfl, .plain hends hback hbody, hclose, hsteady⟩

/-- Steady text is exactly what is copied, to leave the traversal in plain text. -/
theorem isSteady_iff {cs : List Char} :
    IsSteady cs ↔ stripFrom .code cs = cs ∧ modeAfter .code cs = .code :=
  ⟨fun h => ⟨h.stripFrom_eq, h.modeAfter_eq⟩, fun h => leadsBack_of_stripFrom_eq h.2 h.1⟩

instance : DecidablePred IsSteady := fun _ => decidable_of_iff _ isSteady_iff.symm

/-- Steady text is copied in front of any text with which it makes no comment mark. -/
theorem IsSteady.stripFrom_append {cs rest : List Char} (h : IsSteady cs)
    (hapart : MeetApart cs rest) :
    stripFrom .code (cs ++ rest) = cs ++ stripFrom .code rest := by
  rw [Comment.stripFrom_append h.modeAfter_eq hapart, h.stripFrom_eq]

/-! ### A comment in the middle -/

section Middle

variable {a : List Char} (hmode : modeAfter .code a = .code) (hlast : a.getLast? ≠ some '/')

include hmode hlast

/-- A piece of a gap that stands in plain text leaves its blank, and the texts around it are freed
of comments on their own. -/
theorem stripChars_append_piece (p : Piece) (b : List Char) :
    stripChars (a ++ (p.text ++ b)) = stripChars a ++ p.bare :: stripChars b := by
  rw [stripChars, stripFrom_append hmode (meetApart_of_getLast? hlast _), stripFrom_piece]
  rfl

/-- A piece of a gap that stands in plain text could as well be the blank that it leaves. -/
theorem stripChars_append_piece_eq (p : Piece) (b : List Char) :
    stripChars (a ++ (p.text ++ b)) = stripChars (a ++ p.bare :: b) :=
  (stripChars_append_piece hmode hlast p b).trans
    (stripChars_append_piece hmode hlast (.blank p.bare p.isGap_bare) b).symm

end Middle

theorem specifiers_eq_of_stripChars_eq {s t : String}
    (h : stripChars s.toList = stripChars t.toList) (dynamic : Bool) :
    Scan.specifiers s dynamic = Scan.specifiers t dynamic := by
  rw [Scan.specifiers, h, Scan.specifiers]

/-- A comment in the middle of a text, in front of which the traversal is in plain text.  The texts
around it are freed of comments on their own, and a block comment leaves a space between them, a
line comment the end of its line.  The text has the specifiers of the text with just that in place
of the comment. -/
theorem strip_append_comment {a : String} (hmode : modeAfter .code a.toList = .code)
    (hlast : a.toList.getLast? ≠ some '/') (b : String) :
    (∀ body : String, ¬ ['*', '/'] <:+: body.toList →
      strip (a ++ "/*" ++ body ++ "*/" ++ b) = strip a ++ " " ++ strip b ∧
        ∀ dynamic, Scan.specifiers (a ++ "/*" ++ body ++ "*/" ++ b) dynamic =
          Scan.specifiers (a ++ " " ++ b) dynamic) ∧
      ∀ body : String, (∀ c ∈ body.toList, isLineEnd c = false) →
        strip (a ++ "//" ++ body ++ "\n" ++ b) = strip a ++ "\n" ++ strip b ∧
          ∀ dynamic, Scan.specifiers (a ++ "//" ++ body ++ "\n" ++ b) dynamic =
            Scan.specifiers (a ++ "\n" ++ b) dynamic := by
  constructor
  · intro body hbody
    have htext : (a ++ "/*" ++ body ++ "*/" ++ b).toList =
        a.toList ++ ((Piece.block body.toList hbody).text ++ b.toList) := by
      simp [Piece.text]
    refine ⟨?_, fun dynamic => specifiers_eq_of_stripChars_eq ?_ dynamic⟩
    · rw [strip, htext, stripChars_append_piece hmode hlast]
      simp [strip, Piece.bare, String.ext_iff]
    · rw [htext, stripChars_append_piece_eq hmode hlast]
      simp [Piece.bare]
  · intro body hbody
    have htext : (a ++ "//" ++ body ++ "\n" ++ b).toList =
        a.toList ++ ((Piece.line body.toList '\n' hbody rfl).text ++ b.toList) := by
      simp [Piece.text]
    refine ⟨?_, fun dynamic => specifiers_eq_of_stripChars_eq ?_ dynamic⟩
    · rw [strip, htext, stripChars_append_piece hmode hlast]
      simp [strip, Piece.bare, String.ext_iff]
    · rw [htext, stripChars_append_piece_eq hmode hlast]
      simp [Piece.bare]

/-- Behind a string that holds a comment mark, comments that hold imports, quote marks and comment
marks of their own. -/
theorem strip_append_comment_quotedMark :
    (strip ("s = '/*';" ++ "/*" ++ "/*\nimport './x'; '*" ++ "*/" ++ "import \"./b//\";") =
        "s = '/*'; import \"./b//\";" ∧
      Scan.specifiers ("s = '/*';" ++ "/*" ++ "/*\nimport './x'; '*" ++ "*/" ++ "import \"./b//\";")
        false = [⟨"./b//", .static⟩]) ∧
      strip ("s = '/*';" ++ "//" ++ " import './x'; /* \"" ++ "\n" ++ "import \"./b//\";") =
          "s = '/*';\nimport \"./b//\";" ∧
        Scan.specifiers ("s = '/*';" ++ "//" ++ " import './x'; /* \"" ++ "\n" ++
          "import \"./b//\";") false = [⟨"./b//", .static⟩] := by
  have hmode : modeAfter .code "s = '/*';".toList = .code := by decide +kernel
  have hlast : "s = '/*';".toList.getLast? ≠ some '/' := by decide +kernel
  obtain ⟨hblock, hline⟩ := strip_append_comment hmode hlast "import \"./b//\";"
  obtain ⟨hblock, hblocked⟩ := hblock "/*\nimport './x'; '*" (by decide +kernel)
  obtain ⟨hline, hlined⟩ := hline " import './x'; /* \""
    (List.all_iff_forall_prop.mp (by decide +kernel))
  refine ⟨⟨hblock.trans ?_, (hblocked false).trans ?_⟩, hline.trans ?_, (hlined false).trans ?_⟩
  all_goals decide +kernel

end ModuleGraph.Comment

import ModuleGraph.Proofs.Comment.Composition

/-!
# Text without comments

What is left of a text where comments are removed has no comments of its own.  Removing a comment
could bring two slashes together, or a quote mark and the text it opens; it does neither.  A slash
that is copied stands in front of what stood behind it, since it would have opened a comment in
front of a comment, and behind a comment the traversal is where it was in front of it: in plain
text.  So what has been written is read again in the modes in which it was written, and copied.

A text is copied just if no comment begins at any of the places where the traversal is in plain
text.

## Main definitions

* `Comment.Mode.written`: the mode in which the traversal reads what it wrote in a mode.

## Main results

* `Comment.stripFrom_stripFrom`: what is written in a mode is copied.
* `Comment.stripFrom_eq_self_iff`: the texts that are copied.
* `Comment.strip_strip`: removing comments leaves a text without comments.
-/

namespace ModuleGraph.Comment

/-- The mode in which the traversal reads what it wrote in a mode.  Of a comment nothing is left but
a blank in plain text. -/
def Mode.written : Mode → Mode
  | .quoted mark => .quoted mark
  | .code | .line | .block => .code

/-- The mode behind a character of plain text, or of quoted text, is that of no comment. -/
theorem Mode.written_ite (p : Prop) [Decidable p] (mark : Char) :
    (if p then quoted mark else code).written = if p then quoted mark else code := by
  split <;> rfl

theorem Mode.written_ite_not (p : Prop) [Decidable p] (mark : Char) :
    (if p then code else quoted mark).written = if p then code else quoted mark := by
  split <;> rfl

/-! ### Copying what has been written -/

/-- Whether a character opens a comment is decided by the character behind it. -/
theorem MeetApart.of_head? {a cs cs' : List Char} (h : MeetApart a cs)
    (hhead : ∀ d ∈ cs'.head?, d ∈ cs.head?) : MeetApart a cs' :=
  fun hlast d hd => h hlast d (hhead d hd)

/-- A character that opens no comment in front of a text opens none in front of what is left of the
text. -/
theorem MeetApart.stripFrom {c : Char} {cs : List Char} (h : MeetApart [c] cs) :
    MeetApart [c] (Comment.stripFrom .code cs) := by
  intro hlast
  refine h.of_head? (fun d hd => ?_) hlast
  cases cs with
  | nil => exact hd
  | cons e cs => rwa [stripFrom_code_cons (h hlast e rfl).1] at hd

/-- What has been written in a mode is copied. -/
theorem stripFrom_stripFrom (mode : Mode) (cs : List Char) :
    stripFrom mode.written (stripFrom mode cs) = stripFrom mode cs := by
  fun_induction stripFrom mode cs with
  | case1 mode => simp [stripFrom]
  | case2 rest ih => exact ih
  | case3 rest ih => exact ih
  | case4 c rest hline hblock ih =>
    have hstep : MeetApart [c] rest := meetApart_singleton_iff.mpr ⟨hline, hblock⟩
    have hapart : MeetApart [c] (stripFrom (if isQuote c then .quoted c else .code) rest) := by
      by_cases hquote : isQuote c = true
      · exact meetApart_of_isQuote hquote _
      · rw [if_neg hquote]
        exact hstep.stripFrom
    rw [Mode.written_ite] at ih
    rw [Mode.written, stripFrom_code_step hapart, ih]
  | case5 c rest hend ih =>
    have hslash : c ≠ '/' := by
      rintro rfl
      simp [isLineEnd] at hend
    have hquote : ¬ isQuote c = true := by
      simp only [isLineEnd, Bool.or_eq_true, beq_iff_eq] at hend
      rcases hend with rfl | rfl <;> decide
    rw [Mode.written, stripFrom_code_cons hslash, if_neg hquote]
    exact congrArg (c :: ·) ih
  | case6 c rest hend ih => exact ih
  | case7 rest ih => exact congrArg (' ' :: ·) ih
  | case8 c rest hclose ih => exact ih
  | case9 mark => rfl
  | case10 mark c rest ih => exact congrArg ('\\' :: c :: ·) ih
  | case11 mark c rest hlone hescape ih =>
    rw [Mode.written_ite_not] at ih
    rw [Mode.written, stripFrom_quoted_step (ne_backslash hlone hescape), ih]

/-! ### The texts that are copied -/

/-- No comment begins where the traversal that starts in a mode is in plain text. -/
def HasNoComment (mode : Mode) (cs : List Char) : Prop :=
  ∀ front c behind, cs = front ++ c :: behind → modeAfter mode front = .code → MeetApart [c] behind

section Steps

variable {mode mode' : Mode} {c : Char} {cs : List Char}

theorem MeetApart.of_prefix {front : List Char} (h : MeetApart [c] cs) (hfront : front <+: cs) :
    MeetApart [c] front := by
  obtain ⟨behind, rfl⟩ := hfront
  refine h.of_head? fun d hd => ?_
  cases front with
  | nil => simp at hd
  | cons e front => exact hd

/-- A text has no comment if its first character begins none, and the rest has none. -/
theorem HasNoComment.cons
    (hstep : ∀ front, front <+: cs → modeAfter mode (c :: front) = modeAfter mode' front)
    (hhere : mode = .code → MeetApart [c] cs) (h : HasNoComment mode' cs) :
    HasNoComment mode (c :: cs) := by
  intro front d behind htext hmode
  cases front with
  | nil =>
    obtain ⟨rfl, rfl⟩ := List.cons.inj htext
    exact hhere hmode
  | cons e front =>
    obtain ⟨rfl, rfl⟩ := List.cons.inj htext
    rw [hstep front (List.prefix_append _ _)] at hmode
    exact h front d behind rfl hmode

theorem HasNoComment.behind
    (hstep : ∀ front, front <+: cs → modeAfter mode (c :: front) = modeAfter mode' front)
    (h : HasNoComment mode (c :: cs)) : HasNoComment mode' cs := by
  rintro front d behind rfl hmode
  refine h (c :: front) d behind rfl ?_
  rw [hstep front (List.prefix_append _ _), hmode]

/-- An escaped character is no place of plain text. -/
theorem hasNoComment_escaped_iff {mark : Char} :
    HasNoComment (.quoted mark) ('\\' :: c :: cs) ↔ HasNoComment (.quoted mark) cs := by
  constructor
  · rintro h front d behind rfl hmode
    exact h ('\\' :: c :: front) d behind rfl hmode
  · intro h front d behind htext hmode
    match front with
    | [] => simp [modeAfter] at hmode
    | [e] =>
      obtain ⟨rfl, -⟩ := List.cons.inj htext
      simp [modeAfter] at hmode
    | e :: f :: front =>
      obtain ⟨rfl, rfl, rfl⟩ : '\\' = e ∧ c = f ∧ cs = front ++ d :: behind := by
        simpa using htext
      exact h front d behind rfl hmode

end Steps

theorem hasNoComment_of_stripFrom_eq {mode : Mode} {cs : List Char} (hmode : mode.written = mode)
    (hcs : stripFrom mode cs = cs) : HasNoComment mode cs := by
  fun_induction stripFrom mode cs with
  | case1 mode =>
    intro front c behind htext
    simp at htext
  | case2 rest => exact absurd hcs (stripFrom_cons_ne .line '/' '/' rest)
  | case3 rest => exact absurd hcs (stripFrom_cons_ne .block '/' '*' rest)
  | case4 c rest hline hblock ih =>
    have hstep : MeetApart [c] rest := meetApart_singleton_iff.mpr ⟨hline, hblock⟩
    refine .cons (fun front hfront => modeAfter_code_step (hstep.of_prefix hfront))
      (fun _ => hstep) (ih (Mode.written_ite _ c) (List.cons.inj hcs).2)
  | case5 c rest hend ih => simp [Mode.written] at hmode
  | case6 c rest hend ih => simp [Mode.written] at hmode
  | case7 rest ih => simp [Mode.written] at hmode
  | case8 c rest hclose ih => simp [Mode.written] at hmode
  | case9 mark =>
    intro front d behind htext hmode
    cases front with
    | nil => simp [modeAfter] at hmode
    | cons e front => simp at htext
  | case10 mark c rest ih =>
    exact hasNoComment_escaped_iff.mpr (ih rfl (List.cons.inj (List.cons.inj hcs).2).2)
  | case11 mark c rest hlone hescape ih =>
    have hstep := modeAfter_quoted_step (ne_backslash hlone hescape) mark
    exact .cons (fun front _ => hstep front) (by simp)
      (ih (Mode.written_ite_not _ mark) (List.cons.inj hcs).2)

theorem HasNoComment.stripFrom_eq {mode : Mode} {cs : List Char} (hmode : mode.written = mode)
    (h : HasNoComment mode cs) : Comment.stripFrom mode cs = cs := by
  fun_induction Comment.stripFrom mode cs with
  | case1 mode => rfl
  | case2 rest => exact absurd (h [] '/' ('/' :: rest) rfl rfl) (by simp [MeetApart])
  | case3 rest => exact absurd (h [] '/' ('*' :: rest) rfl rfl) (by simp [MeetApart])
  | case4 c rest hline hblock ih =>
    have hstep : MeetApart [c] rest := meetApart_singleton_iff.mpr ⟨hline, hblock⟩
    have hbehind := h.behind fun front hfront => modeAfter_code_step (hstep.of_prefix hfront)
    rw [ih (Mode.written_ite _ c) hbehind]
  | case5 c rest hend ih => simp [Mode.written] at hmode
  | case6 c rest hend ih => simp [Mode.written] at hmode
  | case7 rest ih => simp [Mode.written] at hmode
  | case8 c rest hclose ih => simp [Mode.written] at hmode
  | case9 mark => rfl
  | case10 mark c rest ih => rw [ih rfl (hasNoComment_escaped_iff.mp h)]
  | case11 mark c rest hlone hescape ih =>
    have hstep := modeAfter_quoted_step (ne_backslash hlone hescape) mark
    rw [ih (Mode.written_ite_not _ mark) (h.behind fun front _ => hstep front)]

/-- Outside of comments, the texts that are copied are those in which no comment begins. -/
theorem stripFrom_eq_self_iff {mode : Mode} {cs : List Char} (hmode : mode.written = mode) :
    stripFrom mode cs = cs ↔ HasNoComment mode cs :=
  ⟨hasNoComment_of_stripFrom_eq hmode, HasNoComment.stripFrom_eq hmode⟩

/-- Removing comments leaves a text that is copied where comments are removed again, and in which no
comment begins at any place where the traversal is in plain text.  Nothing is asked of the text: its
quotes and comments may be left open, and a backslash or a slash may end it. -/
theorem strip_strip (text : String) :
    strip (strip text) = strip text ∧
      ∀ front c behind, (strip text).toList = front ++ c :: behind →
        modeAfter .code front = .code → MeetApart [c] behind := by
  have hcopied : stripChars (strip text).toList = (strip text).toList := by
    rw [strip, String.toList_ofList]
    exact stripFrom_stripFrom .code text.toList
  refine ⟨?_, hasNoComment_of_stripFrom_eq rfl hcopied⟩
  rw [strip, hcopied, String.ofList_toList]

/-- A block comment between two slashes, of which the second begins another comment, and quoted text
that is not closed in front of a comment mark. -/
theorem strip_strip_slashes :
    strip "/ /* // *// //\"\n'// \\" = "/  / \n'// \\" ∧
      strip "/  / \n'// \\" = "/  / \n'// \\" ∧
      modeAfter .code "/  ".toList = .code ∧ MeetApart ['/'] " \n'// \\".toList := by
  have hstrip : strip "/ /* // *// //\"\n'// \\" = "/  / \n'// \\" := by decide +kernel
  obtain ⟨hagain, hplain⟩ := strip_strip "/ /* // *// //\"\n'// \\"
  rw [hstrip] at hagain hplain
  have hmode : modeAfter .code "/  ".toList = .code := by decide +kernel
  exact ⟨hstrip, hagain, hmode, hplain _ _ _ (by decide +kernel) hmode⟩

end ModuleGraph.Comment

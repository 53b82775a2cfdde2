import ModuleGraph.Proofs.Report
import ModuleGraph.Proofs.Report.Tree

/-!
# Colours

A report in colours is the plain report with codes in it.  A code begins with an escape character,
so as long as no text of the report has one, the codes can be told from the texts: without them the
plain report is left.  Only names, counts and words of the report itself are styled, never the end
of a line.  So each code that opens a style is followed by the code that closes it, and if no name
has a line feed, both are in one line.  Data text has no colours at all.

## Main definitions

* `Report.code`, `Report.withoutCodes`: a code, and a text without its codes.
* `Report.LeadsToClosing`, `Report.ClosesInLine`: each style of a text is closed by the next code,
  in the same line.
* `Report.Run.IsOwn`, `Report.Run.IsFrom`: words of a report, and the runs that a report on some
  texts is made of.
* `Report.ColoursOnly`: what is asked of the two readings of a report.

## Main results

* `Report.withoutCodes_coloured`: without codes, the plain reading is left.
* `Report.closesInLine_coloured`: styles are closed in the line in which they are opened.
* `Report.isFrom_dependencies`, `Report.isFrom_tree`: the runs of the reports on modules and graphs.
* `Report.coloursOnly_reports`: the reports in colours.
-/

namespace ModuleGraph.Report

/-! ### Codes -/

/-- The code with some parameters. -/
def code (parameters : List Char) : List Char := escapeChar :: '[' :: parameters ++ ['m']

theorem closing_eq : closing = code ['0'] := rfl

/-- A text without its codes.  The flag tells whether the text begins within a code. -/
def withoutCodesFrom : Bool → List Char → List Char
  | _, [] => []
  | true, c :: cs => withoutCodesFrom (c != 'm') cs
  | false, c :: cs =>
    if c = escapeChar ∧ cs.head? = some '[' ∧ 'm' ∈ cs then withoutCodesFrom true cs
    else c :: withoutCodesFrom false cs

/-- A text without its codes, each of which goes from an escape character in front of a bracket to
the next `m`. -/
def withoutCodes (cs : List Char) : List Char := withoutCodesFrom false cs

theorem withoutCodesFrom_parameters {parameters : List Char} (h : 'm' ∉ parameters)
    (cs : List Char) : withoutCodesFrom true (parameters ++ 'm' :: cs) = withoutCodes cs := by
  induction parameters with
  | nil => rfl
  | cons c parameters ih =>
    rw [List.mem_cons, not_or] at h
    rw [List.cons_append, withoutCodesFrom, bne_iff_ne.mpr (Ne.symm h.1), ih h.2]

theorem withoutCodes_code {parameters : List Char} (h : 'm' ∉ parameters) (cs : List Char) :
    withoutCodes (code parameters ++ cs) = withoutCodes cs := by
  have hcode : code parameters ++ cs = escapeChar :: ('[' :: parameters ++ 'm' :: cs) := by
    simp [code]
  rw [hcode, withoutCodes, withoutCodesFrom, if_pos (by simp)]
  exact withoutCodesFrom_parameters (List.not_mem_cons_of_ne_of_not_mem (by decide) h) cs

theorem withoutCodes_append {a : List Char} (h : escapeChar ∉ a) (cs : List Char) :
    withoutCodes (a ++ cs) = a ++ withoutCodes cs := by
  induction a with
  | nil => rfl
  | cons c a ih =>
    rw [List.mem_cons, not_or] at h
    rw [List.cons_append, withoutCodes, withoutCodesFrom, if_neg fun hcode => h.1 hcode.1.symm]
    exact congrArg (c :: ·) (ih h.2)

/-! ### Styles that are closed -/

/-- A text with a closing code in its first line, in front of which there is no other code. -/
def LeadsToClosing (cs : List Char) : Prop :=
  ∃ inner behind, cs = inner ++ (closing ++ behind) ∧ escapeChar ∉ inner ∧ '\n' ∉ inner

/-- Every style that a text opens is closed by the next code of the text, in the same line. -/
def ClosesInLine (cs : List Char) : Prop :=
  ∀ front parameters behind, cs = front ++ (code parameters ++ behind) → 'm' ∉ parameters →
    parameters ≠ ['0'] → LeadsToClosing behind

theorem closesInLine_nil : ClosesInLine [] := by
  intro front parameters behind h
  simp [code] at h

/-- Text without codes opens no style. -/
theorem ClosesInLine.append {a cs : List Char} (ha : escapeChar ∉ a) (h : ClosesInLine cs) :
    ClosesInLine (a ++ cs) := by
  intro front parameters behind htext
  obtain ⟨more, rfl, rfl⟩ := exists_eq_append_of_notMem ha htext
  exact h more parameters behind rfl

/-- A code that is found in a text that begins with a code is that code, or stands behind it. -/
theorem eq_or_exists_of_code_append_eq {parameters others cs front behind : List Char}
    (hend : 'm' ∉ parameters) (hescape : escapeChar ∉ parameters) (hothers : 'm' ∉ others)
    (h : code parameters ++ cs = front ++ (code others ++ behind)) :
    (others = parameters ∧ behind = cs) ∨ ∃ more, cs = more ++ (code others ++ behind) := by
  have hcode (parameters cs : List Char) :
      code parameters ++ cs = escapeChar :: '[' :: (parameters ++ 'm' :: cs) := by simp [code]
  cases front with
  | nil =>
    rw [List.nil_append, hcode, hcode] at h
    obtain ⟨hparameters, hbehind⟩ := eq_of_append_cons_eq hend hothers
      (List.cons.inj (List.cons.inj h).2).2
    exact .inl ⟨hparameters.symm, hbehind.symm⟩
  | cons c front =>
    have hrest : ('[' :: (parameters ++ ['m'])) ++ cs = front ++ (code others ++ behind) := by
      simpa [code] using (List.cons.inj h).2
    have hplain : escapeChar ∉ '[' :: (parameters ++ ['m']) := by
      simpa [escapeChar] using hescape
    obtain ⟨more, -, hmore⟩ := exists_eq_append_of_notMem hplain hrest
    exact .inr ⟨more, hmore⟩

/-- A code may stand in front of a text if it is the closing one, or if the text leads to that. -/
theorem ClosesInLine.code_append {parameters cs : List Char} (hend : 'm' ∉ parameters)
    (hescape : escapeChar ∉ parameters) (hnext : parameters ≠ ['0'] → LeadsToClosing cs)
    (h : ClosesInLine cs) : ClosesInLine (code parameters ++ cs) := by
  intro front others behind htext hothers hopens
  rcases eq_or_exists_of_code_append_eq hend hescape hothers htext with ⟨rfl, rfl⟩ | ⟨more, hmore⟩
  · exact hnext hopens
  · exact h more others behind hmore hothers hopens

/-- A styled text may stand in front of a text. -/
theorem ClosesInLine.styled_append {parameters a cs : List Char} (hend : 'm' ∉ parameters)
    (hescape : escapeChar ∉ parameters) (ha : escapeChar ∉ a) (hline : '\n' ∉ a)
    (h : ClosesInLine cs) : ClosesInLine (code parameters ++ (a ++ (closing ++ cs))) := by
  have hclosing : ClosesInLine (closing ++ cs) := by
    rw [closing_eq]
    exact h.code_append (by decide) (by decide) (absurd rfl)
  exact (hclosing.append ha).code_append hend hescape fun _ => ⟨a, cs, rfl, ha, hline⟩

/-! ### Runs in colours -/

theorem Style.end_notMem_parameters (s : Style) : 'm' ∉ s.parameters := by
  cases s <;> decide

theorem Style.escapeChar_notMem_parameters (s : Style) : escapeChar ∉ s.parameters := by
  cases s <;> decide

/-- A text without codes closes no style that would have to be opened again. -/
theorem reopened_of_notMem {opening cs : List Char} (h : escapeChar ∉ cs) :
    reopened opening 0 cs = cs := by
  induction cs with
  | nil => rfl
  | cons c cs ih =>
    rw [List.mem_cons, not_or] at h
    have hclosing : closing.isPrefixOf (c :: cs) = false := by
      simp [closing, List.isPrefixOf, h.1]
    rw [reopened, hclosing, if_neg Bool.false_ne_true, ih h.2]

theorem Run.coloured_of_normal {r : Run} (h : r.style = .normal) : r.coloured = r.text := if_pos h

theorem Run.coloured_of_style {r : Run} (h : r.style ≠ .normal) (hescape : escapeChar ∉ r.text) :
    r.coloured = code r.style.parameters ++ (r.text ++ closing) := by
  rw [Run.coloured, if_neg h, reopened_of_notMem hescape, List.append_assoc]
  rfl

theorem coloured_cons (r : Run) (rs : List Run) : coloured (r :: rs) = r.coloured ++ coloured rs :=
  rfl

/-- Without codes, the plain reading of a report is left. -/
theorem withoutCodes_coloured {rs : List Run} (h : ∀ r ∈ rs, escapeChar ∉ r.text) :
    withoutCodes (coloured rs) = plain rs := by
  induction rs with
  | nil => rfl
  | cons r rs ih =>
    rw [List.forall_mem_cons] at h
    have hrest := ih h.2
    have hplain : plain (r :: rs) = r.text ++ plain rs := rfl
    by_cases hstyle : r.style = .normal
    · rw [coloured_cons, Run.coloured_of_normal hstyle, withoutCodes_append h.1, hrest, hplain]
    · rw [coloured_cons, Run.coloured_of_style hstyle h.1, List.append_assoc, List.append_assoc,
        withoutCodes_code r.style.end_notMem_parameters, withoutCodes_append h.1, closing_eq,
        withoutCodes_code (by decide), hrest, hplain]

/-- Styles are closed in the line in which they are opened. -/
theorem closesInLine_coloured {rs : List Run} (h : ∀ r ∈ rs, escapeChar ∉ r.text)
    (hline : ∀ r ∈ rs, r.style ≠ .normal → '\n' ∉ r.text) : ClosesInLine (coloured rs) := by
  induction rs with
  | nil => exact closesInLine_nil
  | cons r rs ih =>
    rw [List.forall_mem_cons] at h hline
    have hrest := ih h.2 hline.2
    by_cases hstyle : r.style = .normal
    · rw [coloured_cons, Run.coloured_of_normal hstyle]
      exact hrest.append h.1
    · rw [coloured_cons, Run.coloured_of_style hstyle h.1, List.append_assoc, List.append_assoc]
      exact hrest.styled_append r.style.end_notMem_parameters
        r.style.escapeChar_notMem_parameters h.1 (hline.1 hstyle)

/-! ### What reports are made of -/

/-- Words without a code, in which the end of a line is not styled. -/
def Run.IsOwn (r : Run) : Prop := escapeChar ∉ r.text ∧ (r.style = .normal ∨ '\n' ∉ r.text)

instance (r : Run) : Decidable r.IsOwn := inferInstanceAs (Decidable (_ ∧ _))

/-- A run that a report on some texts is made of. -/
inductive Run.IsFrom (texts : List String) : Run → Prop
  | own {r : Run} (hr : r.IsOwn) : IsFrom texts r
  | number (style : Style) (n : Nat) : IsFrom texts (number style n)
  | given (style : Style) {s : String} (hs : s ∈ texts) : IsFrom texts (styled style s)

/-- A number has nothing but digits. -/
theorem notMem_number {c : Char} (h : c.isDigit = false) (style : Style) (n : Nat) :
    c ∉ (number style n).text := by
  intro hmem
  have hdigit := Nat.isDigit_of_mem_toDigits (by decide) (by decide) hmem
  simp [h] at hdigit

section Texts

variable {texts : List String} {r : Run}

theorem Run.IsFrom.mono {more : List String} (h : r.IsFrom texts) (hmore : texts ⊆ more) :
    r.IsFrom more := by
  cases h with
  | own hr => exact .own hr
  | number style n => exact .number style n
  | given style hs => exact .given style (hmore hs)

theorem Run.IsFrom.escapeChar_notMem (h : r.IsFrom texts)
    (htexts : ∀ s ∈ texts, escapeChar ∉ s.toList) : escapeChar ∉ r.text := by
  cases h with
  | own hr => exact hr.1
  | number style n => exact notMem_number rfl style n
  | given style hs => exact htexts _ hs

theorem Run.IsFrom.newline_notMem (h : r.IsFrom texts) (htexts : ∀ s ∈ texts, '\n' ∉ s.toList)
    (hstyle : r.style ≠ .normal) : '\n' ∉ r.text := by
  cases h with
  | own hr => exact hr.2.resolve_left hstyle
  | number style n => exact notMem_number rfl style n
  | given style hs => exact htexts _ hs

end Texts

/-- The line of a dependency. -/
theorem isFrom_branch {texts : List String} {d : String} (hd : d ∈ texts) {mark : String}
    (hmark : mark ∈ ["└──", "├──"]) :
    ∀ r ∈ [styled .dimmed mark, text "  ", styled .link d, text "\n"], r.IsFrom texts := by
  have hown : Run.IsFrom texts (styled .dimmed mark) := by
    simp only [List.mem_cons, List.not_mem_nil, or_false] at hmark
    rcases hmark with rfl | rfl <;> exact .own (by decide)
  simp only [List.forall_mem_cons]
  exact ⟨hown, .own (by decide), .given .link hd, .own (by decide), by simp⟩

theorem isFrom_branches (ds : List String) : ∀ r ∈ branches ds, r.IsFrom ds := by
  fun_induction branches ds with
  | case1 => simp
  | case2 d => exact isFrom_branch List.mem_cons_self List.mem_cons_self
  | case3 d ds hds ih =>
    rw [List.forall_mem_append]
    exact ⟨isFrom_branch List.mem_cons_self (List.mem_cons_of_mem _ List.mem_cons_self),
      fun r hr => (ih r hr).mono (List.subset_cons_self d ds)⟩

theorem isFrom_dependencies (e : Graph.Entry) : ∀ r ∈ dependencies e, r.IsFrom e.texts := by
  have hkey : Run.IsFrom e.texts (styled .heading e.key) := .given .heading e.mem_texts_key
  rw [dependencies]
  split
  · simp only [List.forall_mem_cons]
    exact ⟨hkey, .own (by decide), .own (by decide), .own (by decide), by simp⟩
  · simp only [List.cons_append, List.nil_append, List.forall_mem_cons]
    exact ⟨hkey, .own (by decide), .number .count _, .own (by decide),
      fun r hr => (isFrom_branches _ r hr).mono (List.subset_cons_self _ _)⟩

/-- The busiest module is one of the modules. -/
theorem mem_of_busiest? {es : List Graph.Entry} {e : Graph.Entry} (h : busiest? es = some e) :
    e ∈ es := by
  cases es with
  | nil => cases h
  | cons first es =>
    obtain rfl := Option.some.inj h
    clear h
    induction es generalizing first with
    | nil => exact List.mem_cons_self
    | cons next es ih =>
      rw [List.foldl_cons]
      split
      · exact List.mem_cons_of_mem _ (ih next)
      · exact List.cons_subset_cons first (List.subset_cons_self next es) (ih first)

theorem isFrom_busiestLine (g : Graph) : ∀ r ∈ busiestLine g, r.IsFrom g.texts := by
  rw [busiestLine]
  split
  · simp
  · rename_i e he
    split
    · simp
    · have hkey : e.key ∈ g.texts := Graph.mem_texts_entry (mem_of_busiest? he) e.mem_texts_key
      simp only [List.forall_mem_cons]
      exact ⟨.own (by decide), .given .link hkey, .own (by decide), .number .alarm _,
        .own (by decide), by simp⟩

theorem isFrom_summary (g : Graph) : ∀ r ∈ summary g, r.IsFrom g.texts := by
  have hdashes : Run.IsFrom g.texts ⟨.dimmed, List.replicate 60 '─'⟩ :=
    .own ⟨by simp [escapeChar], by simp⟩
  simp only [summary, List.cons_append, List.nil_append, List.forall_mem_cons]
  exact ⟨hdashes, .own (by decide), .own (by decide), .own (by decide), .own (by decide),
    .number .total _, .own (by decide), .own (by decide), .number .total _, .own (by decide),
    .own (by decide), .number .caution _, .own (by decide), isFrom_busiestLine g⟩

theorem isFrom_tree (g : Graph) : ∀ r ∈ tree g, r.IsFrom g.texts := by
  have hend : Run.IsFrom g.texts (text "\n") := .own (by decide)
  rw [tree, List.forall_mem_append, List.forall_mem_append]
  refine ⟨⟨?_, ?_⟩, isFrom_summary g⟩
  · simp only [List.forall_mem_cons]
    exact ⟨.own (by decide), .own (by decide), .given .title g.mem_texts_root, .own (by decide),
      by simp⟩
  · intro r hr
    obtain ⟨e, he, hr⟩ := List.mem_flatMap.mp hr
    rcases List.mem_append.mp hr with hr | hr
    · exact (isFrom_dependencies e r hr).mono fun s hs => Graph.mem_texts_entry he hs
    · exact List.mem_singleton.mp hr ▸ hend

/-! ### Reports in colours -/

/-- Colours add codes to a report on some texts and nothing else, and styles are closed in the line
in which they are opened, as long as that is not broken by one of the texts. -/
structure ColoursOnly (texts : List String) (runs : List Run) : Prop where
  withoutCodes_eq : withoutCodes (render true runs).toList = (render false runs).toList
  closesInLine : (∀ s ∈ texts, '\n' ∉ s.toList) → ClosesInLine (render true runs).toList

theorem coloursOnly_of_isFrom {texts : List String} {runs : List Run}
    (h : ∀ r ∈ runs, r.IsFrom texts) (htexts : ∀ s ∈ texts, escapeChar ∉ s.toList) :
    ColoursOnly texts runs := by
  have hescape : ∀ r ∈ runs, escapeChar ∉ r.text := fun r hr => (h r hr).escapeChar_notMem htexts
  constructor
  · simpa [render] using withoutCodes_coloured hescape
  · intro hline
    have hclosed := closesInLine_coloured hescape fun r hr => (h r hr).newline_notMem hline
    simpa [render] using hclosed

/-- As long as no text has an escape character, the reports on graphs, on modules and on lists of
modules in colours are the plain ones with codes in them, and each style that they open is closed in
its line, unless a text has a line feed.  Data text is the same in colours, whatever its texts. -/
theorem coloursOnly_reports :
    (∀ g : Graph, (∀ s ∈ g.texts, escapeChar ∉ s.toList) → ColoursOnly g.texts (tree g)) ∧
    (∀ e : Graph.Entry, (∀ s ∈ e.texts, escapeChar ∉ s.toList) →
      ColoursOnly e.texts (dependencies e)) ∧
    (∀ es : List Graph.Entry, (∀ s ∈ es.flatMap Graph.Entry.texts, escapeChar ∉ s.toList) →
      ColoursOnly (es.flatMap Graph.Entry.texts) (es.flatMap dependencies)) ∧
    (∀ g : Graph, render true (graphData g) = render false (graphData g)) ∧
    ∀ es : List Graph.Entry, render true (listingData es) = render false (listingData es) := by
  refine ⟨fun g => coloursOnly_of_isFrom (isFrom_tree g),
    fun e => coloursOnly_of_isFrom (isFrom_dependencies e), fun es => coloursOnly_of_isFrom ?_,
    fun g => ?_, fun es => ?_⟩
  · intro r hr
    obtain ⟨e, he, hr⟩ := List.mem_flatMap.mp hr
    exact (isFrom_dependencies e r hr).mono fun s hs => List.mem_flatMap.mpr ⟨e, he, hs⟩
  · rw [graphData, render_data, render_data]
  · rw [listingData, render_data, render_data]

/-- A graph with a module that has no name, a module with dependencies, and a bracket as it stands
in a code, but without the character in front of it. -/
def bracketed : Graph := ⟨⟨"/[0m"⟩, [⟨"", []⟩, ⟨"a[1m", ["m", ""]⟩]⟩

/-- The codes of a report are removed, and nothing that looks like one. -/
theorem coloursOnly_reports_bracketed :
    (∀ s ∈ bracketed.texts, escapeChar ∉ s.toList) ∧ (∀ s ∈ bracketed.texts, '\n' ∉ s.toList) ∧
    withoutCodes (render true (tree bracketed)).toList = (render false (tree bracketed)).toList ∧
    ClosesInLine (render true (tree bracketed)).toList ∧
    render true (dependencies ⟨"a[1m", ["m"]⟩) ≠ render false (dependencies ⟨"a[1m", ["m"]⟩) := by
  have htexts : (∀ s ∈ bracketed.texts, escapeChar ∉ s.toList) ∧
      ∀ s ∈ bracketed.texts, '\n' ∉ s.toList := by
    decide +kernel
  have hcolours := coloursOnly_reports.1 bracketed htexts.1
  exact ⟨htexts.1, htexts.2, hcolours.withoutCodes_eq, hcolours.closesInLine htexts.2,
    by decide +kernel⟩

end ModuleGraph.Report

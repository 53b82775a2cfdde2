import ModuleGraph.Proofs.Scan.Shapes

/-!
# What the shapes take

Where a reader of the search succeeds, the text it was given is taken apart: the word, the blanks or
the name that were asked for stand in front of what is left.  Each shape ends with a request between
two quote marks.  Whatever stands in front of the first mark, the search leads to such a literal,
and behind the second mark it leaves the text alone, unless the literal is the argument of a call.

## Main definitions

* `Scan.Quoted`: a request between two quote marks.
* `Scan.LeadsTo`: a literal stands in a text, in front of what is left of it.

## Main results

* `Scan.exists_quoted_of_literal?`, `Scan.exists_of_callArgument?`: literals and calls.
* `Scan.leadsTo_of_reExport?`, `Scan.leadsTo_of_static?`: the shapes of declarations.
-/

namespace ModuleGraph.Scan

open Text

/-! ### Words, blanks and names -/

theorem suffix_of_after? {word cs rest : List Char} (h : after? word cs = some rest) :
    rest <:+ cs :=
  ⟨word, (eq_append_of_after? h).symm⟩

/-- Characters of a kind that are asked for are there, in front of the rest. -/
theorem exists_append_dropWhile {p : Char → Bool} {cs : List Char}
    (h : (cs.head?.map p).getD false = true) :
    ∃ front, cs = front ++ cs.dropWhile p ∧ front ≠ [] ∧ ∀ c ∈ front, p c = true := by
  refine ⟨cs.takeWhile p, List.takeWhile_append_dropWhile.symm, ?_,
    fun c hc => List.mem_takeWhile_imp hc⟩
  cases cs with
  | nil => simp at h
  | cons c cs => simp_all

/-- Blanks that are asked for are there. -/
theorem exists_append_of_blanks? {cs rest : List Char} (h : blanks? cs = some rest) :
    ∃ blanks, cs = blanks ++ rest ∧ blanks ≠ [] ∧ ∀ c ∈ blanks, isBlank c = true := by
  rw [blanks?] at h
  split at h
  · next hhead =>
    obtain rfl : trimBlanks cs = rest := Option.some.inj h
    exact exists_append_dropWhile hhead
  · simp at h

theorem exists_of_blanks? {cs rest : List Char} (h : blanks? cs = some rest) :
    ∃ front blank, cs = front ++ blank :: rest ∧ isBlank blank = true := by
  obtain ⟨blanks, rfl, hne, hblanks⟩ := exists_append_of_blanks? h
  obtain ⟨front, blank, rfl⟩ := (List.eq_nil_or_concat' blanks).resolve_left hne
  exact ⟨front, blank, by simp, hblanks blank (by simp)⟩

theorem suffix_of_blanks? {cs rest : List Char} (h : blanks? cs = some rest) : rest <:+ cs := by
  obtain ⟨blanks, rfl, -⟩ := exists_append_of_blanks? h
  exact List.suffix_append blanks rest

theorem exists_append_of_name? {cs rest : List Char} (h : name? cs = some rest) :
    ∃ name, cs = name ++ rest ∧ name ≠ [] ∧ ∀ c ∈ name, isBindingChar c = true := by
  rw [name?] at h
  split at h
  · next hhead =>
    obtain rfl : cs.dropWhile isBindingChar = rest := Option.some.inj h
    exact exists_append_dropWhile hhead
  · simp at h

/-- A word with blanks behind it may stand in front of what is left. -/
theorem exists_append_getD_blanks? (word cs : List Char) :
    ∃ front, cs = front ++ ((after? word cs).bind blanks?).getD cs ∧
      (front = [] ∨ ∃ blanks, front = word ++ blanks ∧ ∀ c ∈ blanks, isBlank c = true) := by
  cases hword : (after? word cs).bind blanks? with
  | none => exact ⟨[], rfl, .inl rfl⟩
  | some rest =>
    obtain ⟨behind, hafter, hblanks⟩ := Option.bind_eq_some_iff.mp hword
    obtain ⟨blanks, rfl, -, hblank⟩ := exists_append_of_blanks? hblanks
    exact ⟨word ++ blanks, by simp [eq_append_of_after? hafter], .inr ⟨blanks, rfl, hblank⟩⟩

/-! ### Literals -/

/-- A request between two quote marks, which need not agree. -/
structure Quoted where
  opening : Char
  request : List Char
  closing : Char
  opens : isMark opening = true
  closes : isMark closing = true
  nonempty : request ≠ []
  plain : ∀ c ∈ request, isRequestChar c = true

/-- A request with its quote marks. -/
def Quoted.text (q : Quoted) : List Char := q.opening :: (q.request ++ [q.closing])

theorem Quoted.countP_isMark_text (q : Quoted) : q.text.countP isMark = 2 := by
  have hrequest : q.request.countP isMark = 0 := by
    rw [List.countP_eq_zero]
    intro c hc hmark
    have hplain := q.plain c hc
    simp [isRequestChar, hmark] at hplain
  rw [text, List.countP_cons_of_pos q.opens, List.countP_append, hrequest, List.countP_singleton,
    if_pos q.closes]

theorem exists_quoted_of_literal? {cs : List Char} {found : List Char × List Char}
    (h : literal? cs = some found) :
    ∃ q : Quoted, cs = q.text ++ found.2 ∧ q.request = found.1 := by
  cases cs with
  | nil => simp [literal?] at h
  | cons c cs =>
    rw [literal?] at h
    split at h
    · next hopen hnonempty hrest =>
      rename_i close rest
      split at h
      · next hclose =>
        obtain rfl := Option.some.inj h
        refine ⟨⟨c, cs.takeWhile isRequestChar, close, hopen, hclose,
          by simpa using hnonempty, fun d hd => List.mem_takeWhile_imp hd⟩, ?_, rfl⟩
        conv_lhs => rw [← List.takeWhile_append_dropWhile (p := isRequestChar) (l := cs), hrest]
        simp [Quoted.text]
      · simp at h
    · simp at h

/-- A text leads to a literal if that stands in it, in front of what is left of the text. -/
def LeadsTo (cs : List Char) (found : List Char × List Char) : Prop :=
  ∃ lead, ∃ q : Quoted, cs = lead ++ (q.text ++ found.2) ∧ q.request = found.1

namespace LeadsTo

variable {cs back : List Char} {found : List Char × List Char}

theorem of_suffix (h : LeadsTo back found) (hback : back <:+ cs) : LeadsTo cs found := by
  obtain ⟨front, rfl⟩ := hback
  obtain ⟨lead, q, rfl, hrequest⟩ := h
  exact ⟨front ++ lead, q, by simp, hrequest⟩

/-- The two marks of the literal stand in the text. -/
theorem two_le_countP (h : LeadsTo cs found) : 2 ≤ cs.countP isMark := by
  obtain ⟨lead, q, rfl, -⟩ := h
  rw [List.countP_append, List.countP_append, q.countP_isMark_text]
  omega

end LeadsTo

section Sources

variable {cs : List Char} {found : List Char × List Char}

theorem leadsTo_of_literal? (h : literal? cs = some found) : LeadsTo cs found := by
  obtain ⟨q, hcs, hrequest⟩ := exists_quoted_of_literal? h
  exact ⟨[], q, hcs, hrequest⟩

theorem leadsTo_of_source? (h : source? cs = some found) : LeadsTo cs found := by
  obtain ⟨behind, hfrom, hliteral⟩ := Option.bind_eq_some_iff.mp h
  exact (leadsTo_of_literal? hliteral).of_suffix
    ((List.dropWhile_suffix _).trans ((suffix_of_after? hfrom).trans (List.dropWhile_suffix _)))

theorem leadsTo_of_namedSource? (h : namedSource? cs = some found) : LeadsTo cs found := by
  have hbehind := List.dropWhile_suffix (l := cs) isBindingChar
  rw [namedSource?] at h
  split at h
  · next hsource =>
    obtain rfl := Option.some.inj h
    exact (leadsTo_of_source? hsource).of_suffix hbehind
  · split at h
    · exact (leadsTo_of_literal? h).of_suffix ((List.dropWhile_suffix _).trans hbehind)
    · simp at h

theorem leadsTo_of_starSource? (h : starSource? cs = some found) : LeadsTo cs found := by
  rw [starSource?] at h
  split at h
  · next behind hbehind =>
    obtain ⟨blanks, has, hblanks⟩ := Option.bind_eq_some_iff.mp hbehind
    split at h
    · exact (leadsTo_of_namedSource? h).of_suffix ((suffix_of_blanks? hblanks).trans
        ((suffix_of_after? has).trans (List.dropWhile_suffix _)))
    · simp at h
  · exact leadsTo_of_source? h

theorem leadsTo_of_listSource? (h : listSource? cs = some found) : LeadsTo cs found := by
  obtain ⟨behind, hclose, hsource⟩ := Option.bind_eq_some_iff.mp h
  exact (leadsTo_of_source? hsource).of_suffix
    ((suffix_of_after? hclose).trans (List.dropWhile_suffix _))

/-- Behind its announcing word, an export that forwards names leads to a literal. -/
theorem leadsTo_of_reExport? (h : reExport? cs = some found) :
    ∃ behind, cs = "export".toList ++ behind ∧ LeadsTo behind found := by
  obtain ⟨behind, hexport, h⟩ := Option.bind_eq_some_iff.mp h
  obtain ⟨spaced, hblanks, h⟩ := Option.bind_eq_some_iff.mp h
  refine ⟨behind, eq_append_of_after? hexport, ?_⟩
  have hspaced := suffix_of_blanks? hblanks
  obtain ⟨front, hfront, -⟩ := exists_append_getD_blanks? "type".toList spaced
  generalize ((after? "type".toList spaced).bind blanks?).getD spaced = named at hfront h
  have hnamed : named <:+ behind := List.IsSuffix.trans ⟨front, hfront.symm⟩ hspaced
  dsimp only at h
  split at h
  · exact (leadsTo_of_starSource? h).of_suffix ((List.suffix_cons _ _).trans hnamed)
  · exact (leadsTo_of_listSource? h).of_suffix ((List.suffix_cons _ _).trans hnamed)
  · simp at h

/-- Behind its announcing word, an import leads to a literal. -/
theorem leadsTo_of_static? {request rest : List Char} {form : Specifier.Form}
    (h : static? cs = some ((request, form), rest)) :
    ∃ behind, cs = "import".toList ++ behind ∧ LeadsTo behind (request, rest) ∧
      (form = .typeOnly ∨ form = .static) := by
  obtain ⟨behind, himport, h⟩ := Option.bind_eq_some_iff.mp h
  obtain ⟨⟨request', rest'⟩, hliteral, h⟩ := Option.bind_eq_some_iff.mp h
  have hleads := (leadsTo_of_literal? hliteral).of_suffix (List.dropWhile_suffix isClauseChar)
  refine ⟨behind, eq_append_of_after? himport, ?_⟩
  dsimp only at h
  split at h
  · obtain ⟨⟨rfl, rfl⟩, rfl⟩ := by simpa using h
    exact ⟨hleads, .inl rfl⟩
  · split at h
    · obtain ⟨⟨rfl, rfl⟩, rfl⟩ := by simpa using h
      exact ⟨hleads, .inr rfl⟩
    · simp at h

end Sources

/-! ### Calls -/

/-- A request that is the argument of a call, with what stands around it: blanks and a parenthesis
on both sides. -/
theorem exists_of_callArgument? {cs : List Char} {found : List Char × List Char}
    (h : callArgument? cs = some found) :
    ∃ gap gap' gap'' : List Char, ∃ q : Quoted,
      cs = gap ++ '(' :: (gap' ++ (q.text ++ (gap'' ++ ')' :: found.2))) ∧ q.request = found.1 ∧
        ∀ c ∈ gap ++ gap' ++ gap'', isBlank c = true := by
  obtain ⟨behind, hopen, h⟩ := Option.bind_eq_some_iff.mp h
  obtain ⟨⟨request, inside⟩, hliteral, h⟩ := Option.bind_eq_some_iff.mp h
  obtain ⟨rest, hclose, h⟩ := Option.bind_eq_some_iff.mp h
  obtain rfl := Option.some.inj h
  obtain ⟨gap, hgap, hblank⟩ := exists_append_trimBlanks cs
  obtain ⟨gap', hgap', hblank'⟩ := exists_append_trimBlanks behind
  obtain ⟨gap'', hgap'', hblank''⟩ := exists_append_trimBlanks inside
  obtain ⟨q, hq, hrequest⟩ := exists_quoted_of_literal? hliteral
  refine ⟨gap, gap', gap'', q, ?_, hrequest, by grind⟩
  rw [hgap, eq_append_of_after? hopen, hgap', hq, hgap'', eq_append_of_after? hclose]
  simp

end ModuleGraph.Scan

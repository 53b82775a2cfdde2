import ModuleGraph.Proofs.Comment.Composition
import ModuleGraph.Source.Lexer

/-!
# Removing the comments of a program

A program is written as a row of lexemes: plain text, divisions, strings, templates with programs in
their substitutions, regular expressions and comments.  Removing comments keeps no account of
regular expressions, nor of the substitutions of a template, and takes a quote mark inside of one
for the beginning of quoted text.

So it takes the comments for what they are as long as it is in plain text again in front of each:
the lexemes between two comments, read from left to right, must be steady text.  In such a program
just the comments are removed, and the program has the specifiers of the program without them.
Plain text, divisions and strings are always steady, so only a template or a regular expression that
is not steady by itself can bring the traversal out of step.

## Main definitions

* `Comment.Lexeme`, `Comment.programText`: the lexemes of a program, and the program as it is
  written.
* `Comment.bareText`: the program without its comments.
* `Comment.InStep`: the programs whose comments are taken for what they are.
* `Comment.Lexeme.MayPrecede`: whether the text of a lexeme ends where the lexeme does.
* `Comment.Lexeme.IsSteadyBefore`: whether a lexeme by itself keeps the traversal in step.

## Main results

* `Comment.InStep.stripChars_programText`, `Comment.InStep.stripChars_bareText`: all that is left of
  a program in step is the program without comments, and of that all is left.
* `Comment.inStep_of_along`: a program of lexemes that keep the traversal in step is in step.
* `Comment.strip_programText`: exactly the comments are removed, and none yields a specifier.
-/

namespace ModuleGraph.Comment

/-! ### Lexemes -/

/-- The mark of a template. -/
def templateMark : Char := Char.ofNat 0x60

/-- Whether characters may stand between the marks of a string.  A backslash takes the next
character with it, or the two characters that end a line together. -/
def isStringText (mark : Char) : List Char → Bool
  | [] => true
  | ['\\'] => false
  | '\\' :: '\r' :: '\n' :: cs => isStringText mark cs
  | '\\' :: _ :: cs => isStringText mark cs
  | c :: cs => c != mark && c != '\n' && c != '\r' && isStringText mark cs

/-- Whether characters may stand between the marks of a template, outside of its substitutions. -/
def isTemplateText : List Char → Bool
  | [] => true
  | ['\\'] => false
  | '\\' :: _ :: cs => isTemplateText cs
  | '$' :: '{' :: _ => false
  | c :: cs => c != templateMark && isTemplateText cs

/-- The text of a template between two substitutions, or at one of its ends. -/
structure Chunk where
  chars : List Char
  legal : isTemplateText chars = true

/-- A regular expression. -/
structure Pattern where
  body : List Char
  flags : List Char
  /-- Two slashes without anything between them are no regular expression. -/
  nonempty : body ≠ []
  /-- The first slash begins no comment. -/
  opens : ∀ c ∈ body.head?, c ≠ '*'
  /-- The slash behind the body is the first that ends it. -/
  closes : Source.skipPattern? false (body ++ ['/']) = some []
  flagged : ∀ c ∈ flags, Text.isNamePart c = true

/-- A regular expression as it is written. -/
def Pattern.text (p : Pattern) : List Char := '/' :: p.body ++ '/' :: p.flags

/-- A lexeme of a program. -/
inductive Lexeme where
  /-- Names, numbers, blanks, and signs without a slash. -/
  | plain (chars : List Char) (quiet : ∀ c ∈ chars, IsQuiet c)
  | division
  | string (mark : Char) (body : List Char) (isMark : mark = '"' ∨ mark = '\'')
    (legal : isStringText mark body = true)
  /-- A template: its first text, and its substitutions, each with the text behind it. -/
  | template (head : Chunk) (parts : List (List Lexeme × Chunk))
  | pattern (p : Pattern)
  /-- A line comment, without what ends its line. -/
  | line (body : List Char) (inLine : ∀ c ∈ body, Source.endsLine c = false)
  | block (body : List Char) (inBlock : ¬ ['*', '/'] <:+: body)

mutual

/-- A lexeme as it is written. -/
def Lexeme.text : Lexeme → List Char
  | .plain chars _ => chars
  | .division => ['/']
  | .string mark body _ _ => mark :: body ++ [mark]
  | .template head parts => templateMark :: head.chars ++ partsText parts ++ [templateMark]
  | .pattern p => p.text
  | .line body _ => '/' :: '/' :: body
  | .block body _ => '/' :: '*' :: body ++ ['*', '/']

/-- A program as it is written. -/
def programText : List Lexeme → List Char
  | [] => []
  | t :: ts => t.text ++ programText ts

/-- The substitutions of a template as they are written. -/
def partsText : List (List Lexeme × Chunk) → List Char
  | [] => []
  | (inner, chunk) :: parts =>
    '$' :: '{' :: programText inner ++ '}' :: chunk.chars ++ partsText parts

end

/-- What is left of a lexeme where comments are removed: all of it, unless it is a comment. -/
def Lexeme.bare : Lexeme → List Char
  | .line _ _ => []
  | .block _ _ => [' ']
  | t => t.text

/-- A program without its comments. -/
def bareText (ts : List Lexeme) : List Char := ts.flatMap Lexeme.bare

/-- Whether a lexeme is a comment. -/
def Lexeme.isComment : Lexeme → Bool
  | .line _ _ | .block _ _ => true
  | _ => false

/-- A program whose comments stand where the traversal is in plain text.  The lexemes between two
comments are steady text; behind the last comment, quoted text may go on to the end. -/
inductive InStep : List Lexeme → Prop
  | nil : InStep []
  | line {body : List Char} {inLine : ∀ c ∈ body, Source.endsLine c = false} {ts : List Lexeme}
    (ends : ∀ c ∈ (programText ts).head?, isLineEnd c = true) (more : InStep ts) :
    InStep (.line body inLine :: ts)
  | block {body : List Char} {inBlock : ¬ ['*', '/'] <:+: body} {ts : List Lexeme}
    (more : InStep ts) : InStep (.block body inBlock :: ts)
  | stretch {us ts : List Lexeme} (uncommented : ∀ u ∈ us, u.isComment = false)
    (steady : IsSteady (programText us)) (apart : MeetApart (programText us) (programText ts))
    (more : InStep ts) : InStep (us ++ ts)
  | unclosed {us : List Lexeme} {front body : List Char} {mark : Char}
    (uncommented : ∀ u ∈ us, u.isComment = false) (text : programText us = front ++ mark :: body)
    (steady : IsSteady front) (opens : isQuote mark = true) (enclosed : Enclosed mark body) :
    InStep us

/-- Whether a lexeme ends where a given text begins.  The slash of a division would make a comment
with some texts, and a line comment goes on up to the end of its line. -/
def Lexeme.MayPrecede (rest : List Char) : Lexeme → Prop
  | .division => MeetApart ['/'] rest
  | .line _ _ => ∀ c ∈ rest.head?, Source.endsLine c = true
  | _ => True

/-- Whether a lexeme in front of a given text keeps the traversal in step. -/
def Lexeme.IsSteadyBefore (rest : List Char) : Lexeme → Prop
  | .string _ body _ _ => ¬ ['\\', '\r', '\n'] <:+: body
  | .template head parts => IsSteady (Lexeme.template head parts).text
  | .pattern p => IsSteady p.text ∧ MeetApart p.text rest
  | .line _ _ => ∀ c ∈ rest.head?, isLineEnd c = true
  | _ => True

/-- Every lexeme of a program has a property in front of the text that follows it. -/
def Along (p : List Char → Lexeme → Prop) : List Lexeme → Prop
  | [] => True
  | t :: ts => p (programText ts) t ∧ Along p ts

/-! ### Decidability -/

instance (a b : List Char) : Decidable (MeetApart a b) :=
  decidable_of_iff
    (a.getLast? = some '/' → b.head?.all (fun c => decide (c ≠ '/' ∧ c ≠ '*')) = true)
    (forall_congr' fun _ => by simp [Option.all_eq_true])

instance (rest : List Char) : DecidablePred (Lexeme.MayPrecede rest)
  | .plain _ _ => .isTrue trivial
  | .division => inferInstanceAs (Decidable (MeetApart ['/'] rest))
  | .string _ _ _ _ => .isTrue trivial
  | .template _ _ => .isTrue trivial
  | .pattern _ => .isTrue trivial
  | .line _ _ => decidable_of_iff (rest.head?.all Source.endsLine = true) (Option.all_eq_true _ _)
  | .block _ _ => .isTrue trivial

instance (rest : List Char) : DecidablePred (Lexeme.IsSteadyBefore rest)
  | .plain _ _ => .isTrue trivial
  | .division => .isTrue trivial
  | .string _ body _ _ => inferInstanceAs (Decidable (¬ ['\\', '\r', '\n'] <:+: body))
  | .template head parts => inferInstanceAs (Decidable (IsSteady (Lexeme.template head parts).text))
  | .pattern p => inferInstanceAs (Decidable (IsSteady p.text ∧ MeetApart p.text rest))
  | .line _ _ => decidable_of_iff (rest.head?.all isLineEnd = true) (Option.all_eq_true _ _)
  | .block _ _ => .isTrue trivial

instance decidableAlong (p : List Char → Lexeme → Prop) [∀ rest, DecidablePred (p rest)] :
    DecidablePred (Along p)
  | [] => .isTrue trivial
  | t :: ts =>
    have := decidableAlong p ts
    inferInstanceAs (Decidable (p (programText ts) t ∧ Along p ts))

/-! ### Programs in step -/

theorem programText_append (ts us : List Lexeme) :
    programText (ts ++ us) = programText ts ++ programText us := by
  induction ts with
  | nil => rfl
  | cons t ts ih => rw [List.cons_append, programText, programText, ih, List.append_assoc]

theorem bareText_append (ts us : List Lexeme) :
    bareText (ts ++ us) = bareText ts ++ bareText us := List.flatMap_append

/-- Where there are no comments, nothing is removed. -/
theorem bareText_eq {ts : List Lexeme} (h : ∀ t ∈ ts, t.isComment = false) :
    bareText ts = programText ts := by
  induction ts with
  | nil => rfl
  | cons t ts ih =>
    have ht : t.bare = t.text := by
      have hcomment := h t List.mem_cons_self
      cases t with
      | line body inLine => simp [Lexeme.isComment] at hcomment
      | block body inBlock => simp [Lexeme.isComment] at hcomment
      | _ => rfl
    rw [programText, ← ih fun u hu => h u (List.mem_cons_of_mem t hu), ← ht]
    rfl

/-- Where a line comment ends, it makes no difference any more. -/
theorem stripFrom_line_eq {rest : List Char} (h : ∀ c ∈ rest.head?, isLineEnd c = true) :
    stripFrom .line rest = stripFrom .code rest := by
  cases rest with
  | nil => rfl
  | cons c rest =>
    have hend : isLineEnd c = true := h c rfl
    have hnothing : ∀ d ∈ ([] : List Char), isLineEnd d = false := by simp
    exact (stripFrom_line hnothing hend rest).trans
      (stripFrom_piece (.blank c (isGap_of_isLineEnd hend)) rest).symm

/-- Quoted text that goes on to the end is copied. -/
theorem stripFrom_unclosed {front : List Char} (hfront : IsSteady front) {mark : Char}
    (hmark : isQuote mark = true) {body : List Char} (h : Enclosed mark body) :
    stripFrom .code (front ++ mark :: body) = front ++ mark :: body := by
  have hbody : stripFrom (.quoted mark) body = body := by
    simpa [stripFrom] using stripFrom_quoted_append h []
  have hapart : MeetApart front (mark :: body) := by
    rintro - c hc
    obtain rfl : mark = c := by simpa using hc
    constructor <;> rintro rfl <;> simp [isQuote] at hmark
  rw [hfront.stripFrom_append hapart, stripFrom_code_step (meetApart_of_isQuote hmark body),
    if_pos hmark, hbody]

/-- All that is left of a program in step is the program without comments. -/
theorem InStep.stripChars_programText {ts : List Lexeme} (h : InStep ts) :
    stripChars (programText ts) = bareText ts := by
  rw [stripChars]
  induction h with
  | nil => rfl
  | @line body inLine ts ends more ih =>
    have hbody : ∀ c ∈ body, isLineEnd c = false := by
      intro c hc
      have hgoes := inLine c hc
      simp only [Source.endsLine, Bool.or_eq_false_iff] at hgoes
      simp [isLineEnd, hgoes]
    rw [programText, Lexeme.text, List.cons_append, List.cons_append, stripFrom,
      stripFrom_line_append hbody, stripFrom_line_eq ends]
    exact ih
  | @block body inBlock ts more ih =>
    exact (stripFrom_piece (.block body inBlock) (programText ts)).trans (congrArg (' ' :: ·) ih)
  | stretch uncommented steady apart more ih =>
    rw [programText_append, steady.stripFrom_append apart, ih, bareText_append,
      bareText_eq uncommented]
  | unclosed uncommented text steady opens enclosed =>
    rw [bareText_eq uncommented, text, stripFrom_unclosed steady opens enclosed]

/-- Where no comment begins, the program without comments begins with the same character. -/
theorem head?_bareText {ts : List Lexeme} (h : ∀ c ∈ (programText ts).head?, c ≠ '/' ∧ c ≠ '*') :
    (bareText ts).head? = (programText ts).head? := by
  induction ts with
  | nil => rfl
  | cons t ts ih =>
    cases t with
    | plain chars quiet =>
      cases chars with
      | nil => exact ih h
      | cons c chars => rfl
    | line body inLine => exact absurd rfl (h '/' rfl).1
    | block body inBlock => exact absurd rfl (h '/' rfl).1
    | division => exact absurd rfl (h '/' rfl).1
    | pattern p => exact absurd rfl (h '/' rfl).1
    | string mark body isMark legal => rfl
    | template head parts => rfl

/-- A text that meets a program apart meets the program without comments apart. -/
theorem MeetApart.bareText {a : List Char} {ts : List Lexeme} (h : MeetApart a (programText ts)) :
    MeetApart a (bareText ts) := fun hlast => by
  rw [head?_bareText (h hlast)]
  exact h hlast

/-- A program in step without its comments has none that could be removed. -/
theorem InStep.stripChars_bareText {ts : List Lexeme} (h : InStep ts) :
    stripChars (bareText ts) = bareText ts := by
  rw [stripChars]
  induction h with
  | nil => rfl
  | line ends more ih => exact ih
  | block more ih =>
    have hquiet : ∀ c ∈ [' '], IsQuiet c := by simp [IsQuiet, isQuote]
    exact (stripFrom_quiet hquiet _).trans (congrArg (' ' :: ·) ih)
  | stretch uncommented steady apart more ih =>
    rw [bareText_append, bareText_eq uncommented, steady.stripFrom_append apart.bareText, ih]
  | unclosed uncommented text steady opens enclosed =>
    rw [bareText_eq uncommented, text, stripFrom_unclosed steady opens enclosed]

/-! ### Lexemes that keep the traversal in step -/

/-- A string is enclosed by its marks, unless a backslash stands in front of two characters that end
its line together. -/
theorem enclosed_of_isStringText {mark : Char} {body : List Char}
    (h : isStringText mark body = true) (hline : ¬ ['\\', '\r', '\n'] <:+: body) :
    Enclosed mark body := by
  have hbehind : ∀ {c : Char} {cs : List Char}, ¬ ['\\', '\r', '\n'] <:+: c :: cs →
      ¬ ['\\', '\r', '\n'] <:+: cs := fun {c cs} hcons hinner =>
    hcons (hinner.trans (List.suffix_cons c cs).isInfix)
  fun_induction isStringText mark body with
  | case1 => exact .nil
  | case2 => simp at h
  | case3 cs ih => exact absurd ⟨[], cs, rfl⟩ hline
  | case4 c cs hcrlf ih => exact .escaped (ih h (hbehind (hbehind hline)))
  | case5 c cs hlone _ hescape ih =>
    simp only [Bool.and_eq_true, bne_iff_ne, ne_eq] at h
    obtain ⟨⟨⟨hmark, hfeed⟩, -⟩, hcs⟩ := h
    exact .plain (by simp [endsQuoted, hmark, hfeed]) (ne_backslash hlone hescape)
      (ih hcs (hbehind hline))

theorem isSteady_of_isQuiet {cs : List Char} (h : ∀ c ∈ cs, IsQuiet c) : IsSteady cs := by
  induction cs with
  | nil => exact .nil
  | cons c cs ih =>
    obtain ⟨hslash, hquote⟩ := h c List.mem_cons_self
    exact .plain hquote (meetApart_of_getLast? (by simp [hslash]) cs)
      (ih fun d hd => h d (List.mem_cons_of_mem c hd))

/-- A lexeme that keeps the traversal in step and is no comment is a stretch by itself. -/
theorem Lexeme.isSteady_text {t : Lexeme} {rest : List Char} (hcomment : t.isComment = false)
    (hmay : t.MayPrecede rest) (hsteady : t.IsSteadyBefore rest) :
    IsSteady t.text ∧ MeetApart t.text rest := by
  cases t with
  | plain chars quiet =>
    rw [Lexeme.text]
    refine ⟨isSteady_of_isQuiet quiet, meetApart_of_getLast? (fun hlast => ?_) rest⟩
    exact (quiet '/' (List.mem_of_getLast? hlast)).1 rfl
  | division =>
    rw [Lexeme.text]
    exact ⟨.plain rfl (by simp [MeetApart]) .nil, hmay⟩
  | string mark body isMark legal =>
    have hquote : isQuote mark = true := by rcases isMark with rfl | rfl <;> rfl
    have hlast : (mark :: body ++ [mark]).getLast? ≠ some '/' := by
      rw [List.getLast?_concat]
      rcases isMark with rfl | rfl <;> decide
    rw [Lexeme.text]
    exact ⟨.quoted hquote (enclosed_of_isStringText legal hsteady) (by simp [endsQuoted]) .nil,
      meetApart_of_getLast? hlast rest⟩
  | template head parts =>
    have hlast : (Lexeme.template head parts).text.getLast? ≠ some '/' := by
      rw [Lexeme.text, List.getLast?_concat]
      decide
    exact ⟨hsteady, meetApart_of_getLast? hlast rest⟩
  | pattern p => exact hsteady
  | line body inLine => simp [Lexeme.isComment] at hcomment
  | block body inBlock => simp [Lexeme.isComment] at hcomment

/-- A program is in step if each of its lexemes by itself keeps the traversal in step. -/
theorem inStep_of_along {ts : List Lexeme} (hmay : Along Lexeme.MayPrecede ts)
    (hsteady : Along Lexeme.IsSteadyBefore ts) : InStep ts := by
  induction ts with
  | nil => exact .nil
  | cons t ts ih =>
    have hmore : InStep ts := ih hmay.2 hsteady.2
    cases hcomment : t.isComment with
    | true =>
      cases t with
      | line body inLine => exact .line hsteady.1 hmore
      | block body inBlock => exact .block hmore
      | _ => simp [Lexeme.isComment] at hcomment
    | false =>
      obtain ⟨htext, hapart⟩ := Lexeme.isSteady_text hcomment hmay.1 hsteady.1
      have huncommented : ∀ u ∈ [t], u.isComment = false := by simpa using hcomment
      have hprogram : programText [t] = t.text := List.append_nil t.text
      exact .stretch huncommented (by rwa [hprogram]) (by rwa [hprogram]) hmore

/-- Of a program in step exactly the comments are removed: a block comment leaves a space, a line
comment nothing in front of the end of its line, and every other lexeme is copied.  No comment
yields a specifier.  A program is in step, in particular, if each of its templates and regular
expressions is steady by itself, no regular expression makes a comment mark with what follows it, no
string goes on behind two characters that end its line together, and every line comment ends with a
line feed, a carriage return or the program. -/
theorem strip_programText :
    (∀ ts, InStep ts → strip (String.ofList (programText ts)) = String.ofList (bareText ts) ∧
      ∀ dynamic, Scan.specifiers (String.ofList (programText ts)) dynamic =
        Scan.specifiers (String.ofList (bareText ts)) dynamic) ∧
      ∀ ts, Along Lexeme.MayPrecede ts → Along Lexeme.IsSteadyBefore ts → InStep ts := by
  refine ⟨fun ts h => ⟨?_, specifiers_eq_of_stripChars_eq ?_⟩, fun ts => inStep_of_along⟩
  · rw [strip, String.toList_ofList, h.stripChars_programText]
  · rw [String.toList_ofList, String.toList_ofList, h.stripChars_programText, h.stripChars_bareText]

/-- Plain text. -/
def Lexeme.words (text : String)
    (quiet : (text.toList.all fun c => decide (IsQuiet c)) = true) : Lexeme :=
  .plain text.toList (List.all_iff_forall_prop.mp quiet)

/-- A program with comment marks in a string, in a template and in a regular expression, with a
template in a template, and with imports and quote marks in its comments. -/
def markedProgram : List Lexeme :=
  [.words "s = " (by decide +kernel),
    .string '"' "http://x\\\"".toList (.inl rfl) (by decide +kernel),
    .words ";" (by decide +kernel), .block " import './a'; \"*".toList (by decide +kernel),
    .words "t = " (by decide +kernel),
    .template ⟨['/', '/'], by decide +kernel⟩
      [([.words "f(" (by decide +kernel), .template ⟨['a'], by decide +kernel⟩ [],
        .words ")" (by decide +kernel)], ⟨['\''], by decide +kernel⟩)],
    .words "; r = " (by decide +kernel),
    .pattern ⟨['[', '"', '\'', '/', '"', ']'], ['g'], by simp, by simp, by decide +kernel,
      List.all_iff_forall_prop.mp (by decide +kernel)⟩,
    .words "; q = 1 " (by decide +kernel), .division, .words " 2; " (by decide +kernel),
    .line " import './b' \"".toList (List.all_iff_forall_prop.mp (by decide +kernel)),
    .words "\nimport \x7b c \x7d from " (by decide +kernel),
    .string '\'' "./c//d".toList (.inr rfl) (by decide +kernel)]

/-- All lexemes of `markedProgram` are steady. -/
theorem strip_markedProgram :
    strip (String.ofList (programText markedProgram)) =
        "s = \"http://x\\\"\"; t = \x60//$\x7bf(\x60a\x60)\x7d'\x60; r = /[\"'/\"]/g; " ++
          "q = 1 / 2; \nimport \x7b c \x7d from './c//d'" ∧
      Scan.specifiers (String.ofList (programText markedProgram)) true = [⟨"./c//d", .static⟩] := by
  have hstep : InStep markedProgram := strip_programText.2 _ (by decide +kernel) (by decide +kernel)
  obtain ⟨hstrip, hspecifiers⟩ := strip_programText.1 _ hstep
  refine ⟨hstrip.trans ?_, (hspecifiers true).trans ?_⟩
  all_goals decide +kernel

/-- A regular expression that matches a quote mark, and a comment behind it. -/
def quoteMatcher : List Lexeme :=
  [.words "x=" (by decide +kernel),
    .pattern ⟨['"'], [], by simp, by simp, by decide +kernel, by simp⟩,
    .words " " (by decide +kernel),
    .line " import './a'".toList (List.all_iff_forall_prop.mp (by decide +kernel))]

/-- A single quote mark in a regular expression is taken for the beginning of quoted text, so the
comment behind it stays, and yields a specifier. -/
theorem strip_quoteMatcher :
    String.ofList (programText quoteMatcher) = "x=/\"/ // import './a'" ∧
      Along Lexeme.MayPrecede quoteMatcher ∧
      strip (String.ofList (programText quoteMatcher)) ≠ String.ofList (bareText quoteMatcher) ∧
      Scan.specifiers (String.ofList (programText quoteMatcher)) false = [⟨"./a", .static⟩] ∧
      Scan.specifiers (String.ofList (bareText quoteMatcher)) false = [] := by
  decide +kernel

end ModuleGraph.Comment

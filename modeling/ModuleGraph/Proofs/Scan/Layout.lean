import ModuleGraph.Proofs.Scan.Declaration

/-!
# Layouts of declarations

A declaration is laid out with a gap in front of each of its tokens but the first.  A gap may be
empty where its neighbours may touch.  Removing comments keeps the tokens and turns every gap into
blanks.

## Main definitions

* `Declaration.spacedText`, `Declaration.spacedBare`: the text of tokens with gaps in front of them,
  with and without comments.
* `Declaration.IsSpaced`: no two tokens touch that may not.
* `Declaration.Layout`: a declaration with the gaps between its tokens.

## Main results

* `Declaration.Layout.stripFrom_text`: removing comments leaves the bare text of a layout.
-/

namespace ModuleGraph.Declaration

open Comment

/-- The text of tokens with gaps in front of them. -/
def spacedText (ts : List (Gap × Token)) : List Char :=
  ts.flatMap fun t => Gap.text t.1 ++ t.2.chars

/-- The text of tokens with gaps in front of them, without its comments. -/
def spacedBare (ts : List (Gap × Token)) : List Char :=
  ts.flatMap fun t => Gap.bare t.1 ++ t.2.chars

/-- Behind a given token, no two tokens touch that may not. -/
def IsSpaced : Token → List (Gap × Token) → Prop
  | _, [] => True
  | a, (gap, b) :: more => (needsGap a b = true → gap ≠ []) ∧ IsSpaced b more

theorem IsSpaced.behind {a b : Token} {gap : Gap} {ts us : List (Gap × Token)}
    (h : IsSpaced a (ts ++ (gap, b) :: us)) : IsSpaced b us := by
  induction ts generalizing a with
  | nil => exact h.2
  | cons t ts ih => exact ih h.2

/-- A declaration with the gaps between its tokens. -/
structure Layout (d : Declaration) where
  first : Token
  later : List (Gap × Token)
  tokens_eq : first :: later.map Prod.snd = d.tokens
  isSpaced : IsSpaced first later

/-- The text of a layout. -/
def Layout.text {d : Declaration} (l : Layout d) : List Char := l.first.chars ++ spacedText l.later

/-- The text of a layout without its comments. -/
def Layout.bare {d : Declaration} (l : Layout d) : List Char := l.first.chars ++ spacedBare l.later

/-! ### Bare text -/

@[simp] theorem spacedBare_nil : spacedBare [] = [] := rfl

@[simp] theorem spacedBare_cons (gap : Gap) (t : Token) (ts : List (Gap × Token)) :
    spacedBare ((gap, t) :: ts) = Gap.bare gap ++ (t.chars ++ spacedBare ts) := by
  simp [spacedBare]

@[simp] theorem spacedBare_append (ts us : List (Gap × Token)) :
    spacedBare (ts ++ us) = spacedBare ts ++ spacedBare us := by
  simp [spacedBare]

/-- A property of blanks and of the characters of names and signs holds of all bare text without
requests. -/
theorem forall_spacedBare {P : Char → Prop} (hword : ∀ c, Scan.isBindingChar c = true → P c)
    (hgap : ∀ c, Json.isGap c = true → P c) {ts : List (Gap × Token)}
    (h : ∀ t ∈ ts.map Prod.snd, t.IsMadeOf P fun _ => False) : ∀ c ∈ spacedBare ts, P c := by
  intro c hc
  obtain ⟨t, ht, hc⟩ := List.mem_flatMap.mp hc
  rcases List.mem_append.mp hc with hc | hc
  · exact hgap c (Gap.isGap_of_mem_bare hc)
  · exact (h t.2 (List.mem_map_of_mem ht)).forall_chars hword c hc

/-! ### Removing comments -/

theorem quotedBody_of_isRequestChar {mark : Char} (hmark : Scan.isMark mark = true)
    {cs : List Char} (hcs : ∀ c ∈ cs, Scan.isRequestChar c = true ∧ c ≠ '\\') :
    QuotedBody mark cs := by
  induction cs with
  | nil => exact .nil
  | cons c cs ih =>
    obtain ⟨hrequest, hback⟩ := hcs c List.mem_cons_self
    have hother : c ≠ mark := by
      rintro rfl
      simp [Scan.isRequestChar, hmark] at hrequest
    have hline : c ≠ '\n' := by
      rintro rfl
      simp [Scan.isRequestChar] at hrequest
    exact .plain hother hback hline (ih fun d hd => hcs d (List.mem_cons_of_mem c hd))

theorem Request.quotedBody (r : Request) : QuotedBody r.mark r.chars :=
  quotedBody_of_isRequestChar r.isMark r.plain

theorem Request.mark_eq (r : Request) : r.mark = '"' ∨ r.mark = '\'' := by
  simpa [Scan.isMark] using r.isMark

theorem Request.isQuote_mark (r : Request) : isQuote r.mark = true := by
  rcases r.mark_eq with h | h <;> rw [h] <;> rfl

/-- A token that is copied: a request, or characters that are copied. -/
def Token.IsCopied (t : Token) : Prop := (∃ r, t = .request r) ∨ ∀ c ∈ t.chars, IsQuiet c

theorem isQuiet_of_mem_signs : ∀ c ∈ [',', '{', '}', '*', '=', '(', ')'], IsQuiet c := by
  simp [IsQuiet, isQuote]

theorem Token.IsMadeOf.isCopied {t : Token} (h : t.IsMadeOf IsQuiet fun _ => True) :
    t.IsCopied := by
  cases t with
  | request r => exact .inl ⟨r, rfl⟩
  | modifier text => exact .inr (forall_chars (fun _ => isQuiet_of_isBindingChar) h)
  | word text => exact .inr (forall_chars (fun _ => isQuiet_of_isBindingChar) h)
  | sign c => exact .inr (forall_chars (fun _ => isQuiet_of_isBindingChar) h)

theorem isCopied_of_mem_tokens {d : Declaration} {t : Token} (h : t ∈ d.tokens) : t.IsCopied :=
  (isMadeOf_tokens isQuiet_of_mem_signs trivial t h).isCopied

theorem stripFrom_token {t : Token} (h : t.IsCopied) (rest : List Char) :
    stripFrom .code (t.chars ++ rest) = t.chars ++ stripFrom .code rest := by
  rcases h with ⟨r, rfl⟩ | h
  · have hstrip := stripFrom_quoted r.isQuote_mark r.quotedBody rest
    simpa [Token.chars] using hstrip
  · exact stripFrom_quiet h rest

theorem stripFrom_spacedText {ts : List (Gap × Token)}
    (h : ∀ t ∈ ts.map Prod.snd, t.IsCopied) (rest : List Char) :
    stripFrom .code (spacedText ts ++ rest) = spacedBare ts ++ stripFrom .code rest := by
  induction ts with
  | nil => rfl
  | cons t ts ih =>
    obtain ⟨gap, t⟩ := t
    have htoken := h t List.mem_cons_self
    have htext : spacedText ((gap, t) :: ts) ++ rest =
        Gap.text gap ++ (t.chars ++ (spacedText ts ++ rest)) := by simp [spacedText]
    rw [htext, stripFrom_gap, stripFrom_token htoken,
      ih fun u hu => h u (List.mem_cons_of_mem _ hu), spacedBare_cons]
    simp only [List.append_assoc]

/-- Removing comments leaves the bare text of a layout, and what follows is read as plain text. -/
theorem Layout.stripFrom_text {d : Declaration} (l : Layout d) (rest : List Char) :
    stripFrom .code (l.text ++ rest) = l.bare ++ stripFrom .code rest := by
  have htokens : ∀ t ∈ l.first :: l.later.map Prod.snd, t.IsCopied := by
    rw [l.tokens_eq]
    exact fun t ht => isCopied_of_mem_tokens ht
  rw [Layout.text, List.append_assoc, stripFrom_token (htokens _ List.mem_cons_self),
    stripFrom_spacedText fun t ht => htokens t (List.mem_cons_of_mem _ ht), Layout.bare,
    List.append_assoc]

end ModuleGraph.Declaration

import Mathlib.Data.List.TakeWhile
import ModuleGraph.Proofs.Scan.Writing

/-!
# The shapes of declarations

Behind the place where a declaration begins, the shape that fits is the one of the declaration, and
it takes exactly the bare text of the declaration, whatever follows.  The parts of the shapes are
followed from left to right: blanks stop in front of a token, a name stops where no character of a
name follows, and a request stops at its closing mark.

## Main results

* `Scan.literal?_request`, `Scan.source?_spaced`, `Scan.callArgument?_spaced`: requests are read
  back.
* `Scan.shape?_layout`: the shape of a declaration.
-/

namespace ModuleGraph.Scan

open Text Comment Declaration

/-! ### Parts of shapes -/

@[simp] theorem after?_append (word rest : List Char) : after? word (word ++ rest) = some rest := by
  induction word with
  | nil => rfl
  | cons c word ih => simpa [after?] using ih

theorem after?_eq_none {w c : Char} (h : w ≠ c) (ws cs : List Char) :
    after? (w :: ws) (c :: cs) = none := by
  simp [after?, h]

theorem isBindingChar_of_isGap {c : Char} (h : Json.isGap c = true) : isBindingChar c = false := by
  simp only [Json.isGap, Bool.or_eq_true, beq_iff_eq] at h
  rcases h with ((rfl | rfl) | rfl) | rfl <;> rfl

theorem trimBlanks_gap (g : Gap) {c : Char} (h : isBlank c = false) (rest : List Char) :
    trimBlanks (Gap.bare g ++ c :: rest) = c :: rest :=
  trimBlanks_append (fun _ hd => isBlank_of_isGap (Gap.isGap_of_mem_bare hd)) h rest

theorem blanks?_gap {g : Gap} (hg : g ≠ []) {c : Char} (h : isBlank c = false) (rest : List Char) :
    blanks? (Gap.bare g ++ c :: rest) = some (c :: rest) := by
  obtain ⟨p, g, rfl⟩ := List.exists_cons_of_ne_nil hg
  have hhead : ((Gap.bare (p :: g) ++ c :: rest).head?.map isBlank).getD false = true :=
    isBlank_of_isGap p.isGap_bare
  rw [blanks?, if_pos hhead, trimBlanks_gap _ h]

theorem blanks?_eq_none {c : Char} (h : isBlank c = false) (rest : List Char) :
    blanks? (c :: rest) = none := by
  simp [blanks?, h]

/-- A text in front of which a name ends. -/
def EndsName (cs : List Char) : Prop := ∀ c ∈ cs.head?, isBindingChar c = false

theorem endsName_cons {c : Char} (h : isBindingChar c = false) (rest : List Char) :
    EndsName (c :: rest) := by
  simpa [EndsName] using h

theorem endsName_gap {g : Gap} (hg : g ≠ []) (rest : List Char) :
    EndsName (Gap.bare g ++ rest) := by
  obtain ⟨p, g, rfl⟩ := List.exists_cons_of_ne_nil hg
  exact endsName_cons (isBindingChar_of_isGap p.isGap_bare) _

theorem endsName_gap_cons (g : Gap) {c : Char} (h : isBindingChar c = false) (rest : List Char) :
    EndsName (Gap.bare g ++ c :: rest) := by
  by_cases hg : g = []
  · subst hg
    exact endsName_cons h rest
  · exact endsName_gap hg _

theorem takeWhile_name (n : Name) {rest : List Char} (h : EndsName rest) :
    (n.chars ++ rest).takeWhile isBindingChar = n.chars := by
  rw [List.takeWhile_append_of_pos fun c hc => n.isBindingChar_of_mem hc]
  cases rest with
  | nil => simp
  | cons c rest => simp [h c rfl]

theorem dropWhile_name (n : Name) {rest : List Char} (h : EndsName rest) :
    (n.chars ++ rest).dropWhile isBindingChar = rest := by
  rw [List.dropWhile_append_of_pos fun c hc => n.isBindingChar_of_mem hc]
  cases rest with
  | nil => rfl
  | cons c rest => rw [List.dropWhile_cons_of_neg (by simp [h c rfl])]

theorem name?_name (n : Name) {rest : List Char} (h : EndsName rest) :
    name? (n.chars ++ rest) = some rest := by
  have hfirst : ((n.chars ++ rest).head?.map isBindingChar).getD false = true :=
    n.isBindingChar_of_mem List.mem_cons_self
  rw [name?, if_pos hfirst, dropWhile_name n h]

/-- No character of an ASCII name is a blank. -/
theorem isBlank_first (n : Name) : isBlank n.first = false := by
  have hfirst := n.first_of_ascii (p := fun c => !isBlank c) (by decide +kernel)
  simpa using hfirst

theorem literal?_request (r : Request) (rest : List Char) :
    literal? ((Token.request r).chars ++ rest) = some (r.chars, rest) := by
  have hmem : ∀ c ∈ r.chars, isRequestChar c = true := fun c hc => (r.plain c hc).1
  have hmark : isRequestChar r.mark = false := by simp [isRequestChar, r.isMark]
  have htext : (Token.request r).chars ++ rest = r.mark :: (r.chars ++ r.mark :: rest) := by
    simp [Token.chars]
  rw [htext, literal?, List.takeWhile_append_of_pos hmem, List.dropWhile_append_of_pos hmem,
    List.takeWhile_cons_of_neg (by simp [hmark]), List.dropWhile_cons_of_neg (by simp [hmark])]
  have hempty : r.chars.isEmpty = false := List.isEmpty_eq_false_iff.mpr r.nonempty
  simp [r.isMark, hempty]

theorem trimBlanks_gap_request (g : Gap) (r : Request) (rest : List Char) :
    trimBlanks (Gap.bare g ++ ((Token.request r).chars ++ rest)) =
      (Token.request r).chars ++ rest := by
  have hmark : isBlank r.mark = false := by rcases r.mark_eq with h | h <;> rw [h] <;> rfl
  exact trimBlanks_gap g hmark _

theorem source?_spaced (g₁ g₂ : Gap) (r : Request) (rest : List Char) :
    source? (spacedBare [(g₁, keyword "from"), (g₂, .request r)] ++ rest) =
      some (r.chars, rest) := by
  have htrim : trimBlanks (spacedBare [(g₁, keyword "from"), (g₂, .request r)] ++ rest) =
      "from".toList ++ (Gap.bare g₂ ++ ((Token.request r).chars ++ rest)) := by
    simp only [spacedBare_cons, spacedBare_nil, List.append_nil, List.append_assoc]
    exact trimBlanks_gap g₁ (c := 'f') rfl _
  rw [source?, htrim, after?_append]
  exact (congrArg literal? (trimBlanks_gap_request g₂ r rest)).trans (literal?_request r rest)

theorem callArgument?_spaced (g₁ g₂ g₃ : Gap) (r : Request) (rest : List Char) :
    callArgument?
        (spacedBare [(g₁, .sign '('), (g₂, .request r), (g₃, .sign ')')] ++ rest) =
      some (r.chars, rest) := by
  have hopen : trimBlanks
      (spacedBare [(g₁, .sign '('), (g₂, .request r), (g₃, .sign ')')] ++ rest) =
      ['('] ++ (Gap.bare g₂ ++ ((Token.request r).chars ++ (Gap.bare g₃ ++ ')' :: rest))) := by
    simp only [spacedBare_cons, spacedBare_nil, List.append_nil, List.append_assoc]
    exact trimBlanks_gap g₁ (c := '(') rfl _
  have hclose : trimBlanks (Gap.bare g₃ ++ ')' :: rest) = [')'] ++ rest :=
    trimBlanks_gap g₃ rfl rest
  rw [callArgument?, hopen, after?_append]
  simp only [Option.bind_eq_bind, Option.bind_some, trimBlanks_gap_request, literal?_request,
    hclose, after?_append]

/-! ### Renaming imports -/

/-- What is left behind `import`, in front of a name that a gap separates from it. -/
private theorem importEquals?_name (g₁ g₂ : Gap) (hg₁ : g₁ ≠ []) (n : Name) {c : Char}
    (hc : isBlank c = false) {rest : List Char} (hend : EndsName (Gap.bare g₂ ++ c :: rest)) :
    importEquals? ("import".toList ++ (Gap.bare g₁ ++ (n.chars ++ (Gap.bare g₂ ++ c :: rest)))) =
      (after? ['='] (c :: rest)).bind fun cs =>
        (after? "require".toList (trimBlanks cs)).bind callArgument? := by
  have hexport : after? "export".toList
      ("import".toList ++ (Gap.bare g₁ ++ (n.chars ++ (Gap.bare g₂ ++ c :: rest)))) = none := rfl
  have hblanks : blanks? (Gap.bare g₁ ++ (n.chars ++ (Gap.bare g₂ ++ c :: rest))) =
      some (n.chars ++ (Gap.bare g₂ ++ c :: rest)) := blanks?_gap hg₁ (isBlank_first n) _
  simp only [importEquals?, hexport, Option.bind_none, Option.getD_none, after?_append,
    Option.bind_eq_bind, Option.bind_some, hblanks, name?_name n hend, trimBlanks_gap g₂ hc]

/-- Behind a sign, `import` is not the beginning of a renaming import. -/
theorem importEquals?_sign (g : Gap) {c : Char} (hblank : isBlank c = false)
    (hc : isBindingChar c = false) (rest : List Char) :
    importEquals? ("import".toList ++ (Gap.bare g ++ c :: rest)) = none := by
  have hexport : after? "export".toList ("import".toList ++ (Gap.bare g ++ c :: rest)) = none := rfl
  have hname : name? (c :: rest) = none := by simp [name?, hc]
  by_cases hg : g = []
  · subst hg
    have hblanks : blanks? (Gap.bare [] ++ c :: rest) = none := blanks?_eq_none hblank rest
    simp only [importEquals?, hexport, Option.bind_none, Option.getD_none, after?_append,
      Option.bind_eq_bind, Option.bind_some, hblanks]
  · simp only [importEquals?, hexport, Option.bind_none, Option.getD_none, after?_append,
      Option.bind_eq_bind, Option.bind_some, blanks?_gap hg hblank, hname]

/-- Without an equals sign behind the name, `import` is not the beginning of a renaming import. -/
theorem importEquals?_name_eq_none {g₁ : Gap} (hg₁ : g₁ ≠ []) (n : Name) (g₂ : Gap) {c : Char}
    (hblank : isBlank c = false) (hc : c ≠ '=') (rest : List Char)
    (hend : EndsName (Gap.bare g₂ ++ c :: rest)) :
    importEquals? ("import".toList ++
      (Gap.bare g₁ ++ (n.chars ++ (Gap.bare g₂ ++ c :: rest)))) = none := by
  rw [importEquals?_name g₁ g₂ hg₁ n hblank hend, after?_eq_none hc.symm, Option.bind_none]

/-! ### Import declarations -/

/-- Whether the characters in front of a request make an import clause for types. -/
def isTypeClause (clause : List Char) : Bool :=
  ((after? "type".toList (trimBlanks clause)).bind fun behind =>
    (blanks? behind).map fun _ => isClause 2 behind).getD false

theorem static?_request {clause : List Char} (h : ∀ c ∈ clause, isClauseChar c = true) (r : Request)
    (rest : List Char) :
    static? ("import".toList ++ (clause ++ ((Token.request r).chars ++ rest))) =
      if isTypeClause clause then some ((r.chars, .typeOnly), rest)
      else if isClause 1 clause then some ((r.chars, .static), rest)
      else none := by
  have hmark : isClauseChar r.mark = false := by rcases r.mark_eq with h | h <;> rw [h] <;> rfl
  have htake : (clause ++ ((Token.request r).chars ++ rest)).takeWhile isClauseChar = clause := by
    rw [List.takeWhile_append_of_pos h, Token.chars, List.cons_append,
      List.cons_append, List.takeWhile_cons_of_neg (by simp [hmark]), List.append_nil]
  have hdrop : (clause ++ ((Token.request r).chars ++ rest)).dropWhile isClauseChar =
      (Token.request r).chars ++ rest := by
    rw [List.dropWhile_append_of_pos h, Token.chars, List.cons_append,
      List.cons_append, List.dropWhile_cons_of_neg (by simp [hmark])]
  simp only [static?, after?_append, Option.bind_eq_bind, Option.bind_some, htake, hdrop,
    literal?_request]
  rfl

theorem isBlank_of_mem_reverse_bare {g : Gap} : ∀ c ∈ (Gap.bare g).reverse, isBlank c = true :=
  fun _ hc => isBlank_of_isGap (Gap.isGap_of_mem_bare (List.mem_reverse.mp hc))

theorem isClause_gap (least : Nat) (g : Gap) : isClause least (Gap.bare g) = true := by
  simp [isClause, trimBlanksEnd, List.dropWhile_eq_nil_iff.mpr isBlank_of_mem_reverse_bare]

theorem isClause_from (least : Nat) (body : List Char) (g : Gap) :
    isClause least (body ++ ("from".toList ++ Gap.bare g)) = decide (least ≤ body.length) := by
  have hend : trimBlanksEnd (body ++ ("from".toList ++ Gap.bare g)) = body ++ "from".toList := by
    have hword : ("from".toList.reverse ++ body.reverse).dropWhile isBlank =
        "from".toList.reverse ++ body.reverse := rfl
    rw [trimBlanksEnd, List.reverse_append, List.reverse_append, List.append_assoc,
      List.dropWhile_append_of_pos isBlank_of_mem_reverse_bare, hword, ← List.reverse_append,
      List.reverse_reverse]
  have hlength : (body ++ "from".toList).length = body.length + 4 := by simp
  have hdrop : (body ++ "from".toList).drop (body.length + 4 - 4) = "from".toList := by simp
  simp only [isClause, hend, hlength, hdrop]
  simp

theorem eq_append_of_after? {word cs rest : List Char} (h : after? word cs = some rest) :
    cs = word ++ rest := by
  fun_induction after? word cs with
  | case1 cs => simpa using h
  | case2 w ws c cs hc ih => simp [ih h, beq_iff_eq.mp hc]
  | case3 => simp at h
  | case4 => simp at h

/-- No blank belongs to a name. -/
theorem isBindingChar_of_isBlank {c : Char} (h : isBlank c = true) : isBindingChar c = false := by
  have hpoints : ∀ k ∈ [9, 10, 11, 12, 13, 32, 0x85, 0xA0, 0x1680, 0x2000, 0x2001, 0x2002, 0x2003,
      0x2004, 0x2005, 0x2006, 0x2007, 0x2008, 0x2009, 0x200A, 0x2028, 0x2029, 0x202F, 0x205F,
      0x3000], isBindingChar (Char.ofNat k) = false := by decide +kernel
  rw [← Char.ofNat_toNat c]
  apply hpoints
  have hspace : c = ' ' ↔ c.toNat = 32 := Char.toNat_inj.symm
  simp only [isBlank, Bool.or_eq_true, Bool.and_eq_true, beq_iff_eq, hspace, Nat.ble_eq] at h
  simp only [List.mem_cons, List.not_mem_nil, or_false]
  omega

theorem isTypeClause_type (g₁ g₂ : Gap) {c : Char} (hc : isBlank c = false) (cs : List Char) :
    isTypeClause (Gap.bare g₁ ++ ("type".toList ++ (Gap.bare g₂ ++ c :: cs))) =
      (!g₂.isEmpty && isClause 2 (Gap.bare g₂ ++ c :: cs)) := by
  have htrim (cs : List Char) : trimBlanks (Gap.bare g₁ ++ ("type".toList ++ cs)) =
      "type".toList ++ cs := trimBlanks_gap g₁ (c := 't') rfl _
  rw [isTypeClause, htrim, after?_append, Option.bind_some]
  by_cases hg₂ : g₂ = []
  · subst hg₂
    have hblanks : blanks? (Gap.bare [] ++ c :: cs) = none := blanks?_eq_none hc cs
    rw [hblanks]
    rfl
  · rw [blanks?_gap hg₂ hc]
    simp [hg₂]

/-- Behind the word `type`, a gap and more than the word `from` make an import clause one for
types. -/
theorem isTypeClause_type_cons (g₁ g₂ : Gap) {c : Char} (hc : isBlank c = false)
    (body : List Char) (g₃ : Gap) :
    isTypeClause (Gap.bare g₁ ++ ("type".toList ++
      (Gap.bare g₂ ++ (c :: body ++ ("from".toList ++ Gap.bare g₃))))) = !g₂.isEmpty := by
  have hclause := isClause_from 2 (Gap.bare g₂ ++ c :: body) g₃
  rw [List.append_assoc] at hclause
  rw [List.cons_append, isTypeClause_type g₁ g₂ hc, ← List.cons_append, hclause]
  cases g₂ with
  | nil => rfl
  | cons p g₂ =>
    have hlength : 2 ≤ (Gap.bare (p :: g₂) ++ c :: body).length := by
      simp only [Gap.bare, List.map_cons, List.length_append, List.length_cons]
      omega
    rw [decide_eq_true hlength]
    rfl

/-- Behind the word `type` and in front of the word `from`, it takes a gap of two pieces. -/
theorem isTypeClause_type_from (g₁ g₂ g₃ : Gap) :
    isTypeClause (Gap.bare g₁ ++ ("type".toList ++
      (Gap.bare g₂ ++ ("from".toList ++ Gap.bare g₃)))) = decide (2 ≤ g₂.length) := by
  have htype := isTypeClause_type g₁ g₂ (c := 'f') rfl ("rom".toList ++ Gap.bare g₃)
  have hclause := isClause_from 2 (Gap.bare g₂) g₃
  refine htype.trans ((congrArg (!g₂.isEmpty && ·) hclause).trans ?_)
  cases g₂ <;> simp [Gap.bare]

/-- A default name other than `type` does not make an import clause one for types. -/
theorem isTypeClause_name (g : Gap) {n : Name} (hn : n.chars ≠ "type".toList) {rest : List Char}
    (hend : EndsName rest) : isTypeClause (Gap.bare g ++ (n.chars ++ rest)) = false := by
  have htrim : trimBlanks (Gap.bare g ++ (n.chars ++ rest)) = n.chars ++ rest :=
    trimBlanks_gap g (isBlank_first n) _
  rw [isTypeClause, htrim]
  cases hafter : after? "type".toList (n.chars ++ rest) with
  | none => rfl
  | some behind =>
    -- Were `type` followed by a blank, it would be the whole name.
    have hblanks : blanks? behind = none := by
      rw [blanks?, if_neg]
      intro hhead
      obtain ⟨c, hc, hblank⟩ : ∃ c ∈ behind.head?, isBlank c = true := by
        cases behind with
        | nil => simp at hhead
        | cons c cs => exact ⟨c, rfl, by simpa using hhead⟩
      have htype : EndsName behind := fun d hd => by
        rw [Option.mem_unique hd hc]
        exact isBindingChar_of_isBlank hblank
      apply hn
      rw [← takeWhile_name n hend, eq_append_of_after? hafter]
      exact takeWhile_name typeName htype
    simp [hblanks]

theorem isTypeClause_sign (g : Gap) {c : Char} (hblank : isBlank c = false) (hc : c ≠ 't')
    (rest : List Char) : isTypeClause (Gap.bare g ++ c :: rest) = false := by
  have hafter : after? "type".toList (c :: rest) = none := after?_eq_none hc.symm _ rest
  rw [isTypeClause, trimBlanks_gap g hblank, hafter]
  rfl

/-! ### Import clauses -/

theorem exists_of_map_snd_eq_cons {ts : List (Gap × Token)} {t : Token} {us : List Token}
    (h : ts.map Prod.snd = t :: us) :
    ∃ g more, ts = (g, t) :: more ∧ more.map Prod.snd = us := by
  obtain ⟨⟨g, u⟩, more, rfl, rfl, hmore⟩ := List.map_eq_cons_iff.mp h
  exact ⟨g, more, rfl, hmore⟩

theorem exists_of_map_snd_eq_singleton {ts : List (Gap × Token)} {t : Token}
    (h : ts.map Prod.snd = [t]) : ∃ g, ts = [(g, t)] := by
  obtain ⟨g, more, rfl, hnil⟩ := exists_of_map_snd_eq_cons h
  rw [List.map_eq_nil_iff.mp hnil]
  exact ⟨g, rfl⟩

/-- The sign that bindings begin with. -/
theorem exists_bindings_first {b : Bindings} {ts : List (Gap × Token)}
    (h : ts.map Prod.snd = b.tokens) :
    ∃ g c more, ts = (g, .sign c) :: more ∧ isBlank c = false ∧ isBindingChar c = false ∧
      c ≠ 't' ∧ c ≠ '=' := by
  cases b with
  | star n =>
    obtain ⟨g, more, rfl, -⟩ := exists_of_map_snd_eq_cons h
    exact ⟨g, '*', more, rfl, rfl, rfl, by decide, by decide⟩
  | named ms =>
    obtain ⟨g, more, rfl, -⟩ := exists_of_map_snd_eq_cons h
    exact ⟨g, '{', more, rfl, rfl, rfl, by decide, by decide⟩

/-- The first character of an import clause, which no name may take in where the clause begins with
a sign. -/
theorem exists_clause_first {clause : Clause} {ts : List (Gap × Token)}
    (h : ts.map Prod.snd = clause.tokens) :
    ∃ g t more c cs, ts = (g, t) :: more ∧ t.chars = c :: cs ∧ isBlank c = false ∧ c ≠ '=' ∧
      (t.isWord = true ∨ isBindingChar c = false) := by
  rcases clause with ⟨n, more⟩ | b
  · obtain ⟨g, more, rfl, -⟩ := exists_of_map_snd_eq_cons h
    have hfirst : n.first ≠ '=' := by
      intro heq
      have hbinding := n.isBindingChar_of_mem List.mem_cons_self
      rw [heq] at hbinding
      exact absurd hbinding (by decide)
    exact ⟨g, _, more, n.first, n.later, rfl, rfl, isBlank_first n, hfirst, .inl rfl⟩
  · obtain ⟨g, c, more, rfl, hblank, hbinding, -, hc⟩ := exists_bindings_first h
    exact ⟨g, _, more, c, [], rfl, rfl, hblank, hc, .inr hbinding⟩

/-- Behind a default name, a comma or the word `from` follows, and the name ends there. -/
theorem exists_behind_default {n : Name} {more : Option Bindings} {ts : List (Gap × Token)}
    (h : ts.map Prod.snd = (more.map fun b => .sign ',' :: b.tokens).getD []) {g : Gap}
    {us : List (Gap × Token)} (hapart : IsApart n.token (ts ++ (g, keyword "from") :: us))
    (rest : List Char) :
    ∃ g' c cs, spacedBare ts ++ (Gap.bare g ++ ("from".toList ++ rest)) = Gap.bare g' ++ c :: cs ∧
      isBlank c = false ∧ c ≠ '=' ∧ EndsName (Gap.bare g' ++ c :: cs) := by
  cases more with
  | none =>
    obtain rfl : ts = [] := List.map_eq_nil_iff.mp h
    exact ⟨g, 'f', "rom".toList ++ rest, rfl, rfl, by decide, endsName_gap (hapart.1 rfl rfl) _⟩
  | some b =>
    obtain ⟨g', ts, rfl, -⟩ := exists_of_map_snd_eq_cons h
    refine ⟨g', ',', spacedBare ts ++ (Gap.bare g ++ ("from".toList ++ rest)), ?_, rfl, by decide,
      endsName_gap_cons g' rfl _⟩
    simp only [spacedBare_cons, List.append_assoc]
    rfl

/-- The gap in front of the second of some tokens. -/
def secondGap (ts : List (Gap × Token)) : Gap := (ts[1]?.map Prod.fst).getD []

/-- Whether an import declaration looks like one for types, by the gap behind the first word of its
clause.  A modifier shows where a gap follows it; the default name `type` is mistaken for a modifier
where a gap keeps it from a comma, or a gap of more than one piece from the word `from`. -/
def looksTyped : Bool → Clause → Gap → Bool
  | true, _, gap => !gap.isEmpty
  | false, .default n none, gap => n.chars == "type".toList && decide (2 ≤ gap.length)
  | false, .default n (some _), gap => n.chars == "type".toList && !gap.isEmpty
  | false, .bindings _, _ => false

theorem isTypeClause_default {n : Name} {more : Option Bindings} {ts : List (Gap × Token)}
    (hts : ts.map Prod.snd = (more.map fun b => .sign ',' :: b.tokens).getD []) {g g₁ g₂ : Gap}
    {us : List (Gap × Token)} (hapart : IsApart n.token (ts ++ (g₁, keyword "from") :: us)) :
    isTypeClause (spacedBare ((g, n.token) :: ts) ++
        (Gap.bare g₁ ++ ("from".toList ++ Gap.bare g₂))) =
      looksTyped false (.default n more)
        (secondGap ((g, n.token) :: (ts ++ (g₁, keyword "from") :: us))) := by
  rw [spacedBare_cons, List.append_assoc, List.append_assoc, Name.token, Token.chars]
  by_cases hn : n.chars = "type".toList
  · rw [hn]
    cases more with
    | none =>
      obtain rfl : ts = [] := List.map_eq_nil_iff.mp hts
      exact (isTypeClause_type_from g g₁ g₂).trans (by simp [looksTyped, hn, secondGap])
    | some b =>
      obtain ⟨g', ts, rfl, -⟩ := exists_of_map_snd_eq_cons hts
      have htype := isTypeClause_type_cons g g' (c := ',') rfl (spacedBare ts ++ Gap.bare g₁) g₂
      rw [spacedBare_cons, List.append_assoc, List.append_assoc]
      simp only [List.cons_append, List.append_assoc] at htype
      exact htype.trans (by simp [looksTyped, hn, secondGap])
  · obtain ⟨g', c, cs, htext, -, -, hend⟩ := exists_behind_default hts hapart (Gap.bare g₂)
    rw [← htext] at hend
    rw [isTypeClause_name g hn hend]
    cases more <;> simp only [looksTyped, beq_false_of_ne hn, Bool.false_and]

section Import

variable {typeOnly : Bool} {clause : Clause} {r : Request} {ts us : List (Gap × Token)}
  {g₁ g₂ : Gap}
  (hts : ts.map Prod.snd = typeTokens typeOnly) (hus : us.map Prod.snd = clause.tokens)
  (hapart : IsApart (keyword "import") (ts ++ (us ++ [(g₁, keyword "from"), (g₂, .request r)])))

include hts hus hapart

theorem importEquals?_clause (rest : List Char) :
    importEquals? ("import".toList ++
      (spacedBare (ts ++ (us ++ [(g₁, keyword "from"), (g₂, .request r)])) ++ rest)) = none := by
  cases typeOnly with
  | true =>
    obtain ⟨g, rfl⟩ := exists_of_map_snd_eq_singleton hts
    obtain ⟨g', t, us, c, cs, rfl, ht, hblank, hc, hfirst⟩ := exists_clause_first hus
    have hg : g ≠ [] := hapart.1 rfl rfl
    have hend (rest : List Char) : EndsName (Gap.bare g' ++ c :: rest) := by
      rcases hfirst with hword | hbinding
      · exact endsName_gap (hapart.2.1 rfl hword) _
      · exact endsName_gap_cons g' hbinding rest
    have hnone := importEquals?_name_eq_none hg typeName g' hblank hc
      (cs ++ (spacedBare (us ++ [(g₁, keyword "from"), (g₂, .request r)]) ++ rest)) (hend _)
    rw [← hnone]
    simp only [List.cons_append, List.nil_append, spacedBare_cons, ht, List.append_assoc]
    rfl
  | false =>
    obtain rfl : ts = [] := List.map_eq_nil_iff.mp hts
    rcases clause with ⟨n, more⟩ | b
    · obtain ⟨g, us, rfl, hmore⟩ := exists_of_map_snd_eq_cons hus
      obtain ⟨g', c, cs, htext, hblank, hc, hend⟩ :=
        exists_behind_default hmore hapart.2 (spacedBare [(g₂, .request r)] ++ rest)
      have hg : g ≠ [] := hapart.1 rfl rfl
      rw [← importEquals?_name_eq_none hg n g' hblank hc cs hend, ← htext]
      simp only [List.cons_append, List.nil_append, spacedBare_cons, spacedBare_append,
        List.append_assoc]
      rfl
    · obtain ⟨g, c, us, rfl, hblank, hc, -⟩ := exists_bindings_first hus
      have hnone := importEquals?_sign g hblank hc
        (spacedBare (us ++ [(g₁, keyword "from"), (g₂, .request r)]) ++ rest)
      rw [← hnone]
      simp only [List.cons_append, List.nil_append, spacedBare_cons, List.append_assoc]
      rfl

omit hapart in
theorem isClauseChar_of_mem_clause :
    ∀ c ∈ spacedBare (ts ++ us) ++ (Gap.bare g₁ ++ ("from".toList ++ Gap.bare g₂)),
      isClauseChar c = true := by
  have hword : ∀ c, isBindingChar c = true → isClauseChar c = true := fun c hc => by
    simp [isClauseChar, hc]
  have hgap : ∀ c, Json.isGap c = true → isClauseChar c = true := fun c hc => by
    simp [isClauseChar, isBlank_of_isGap hc]
  have hspaced : ∀ c ∈ spacedBare (ts ++ us), isClauseChar c = true := by
    refine forall_spacedBare hword hgap ?_
    rw [List.map_append, hts, hus]
    exact List.forall_mem_append.mpr
      ⟨isMadeOf_typeTokens typeOnly, isMadeOf_clause (by simp [isClauseChar]) clause⟩
  have hfrom : isNameText "from".toList = true := by decide
  simp only [List.forall_mem_append]
  exact ⟨hspaced, fun c hc => hgap c (Gap.isGap_of_mem_bare hc),
    (isMadeOf_keyword hfrom).forall_chars hword, fun c hc => hgap c (Gap.isGap_of_mem_bare hc)⟩

theorem isTypeClause_clause :
    isTypeClause (spacedBare (ts ++ us) ++ (Gap.bare g₁ ++ ("from".toList ++ Gap.bare g₂))) =
      looksTyped typeOnly clause
        (secondGap (ts ++ (us ++ [(g₁, keyword "from"), (g₂, .request r)]))) := by
  cases typeOnly with
  | true =>
    obtain ⟨g, rfl⟩ := exists_of_map_snd_eq_singleton hts
    obtain ⟨g', t, us, c, cs, rfl, ht, hblank, -⟩ := exists_clause_first hus
    have htype := isTypeClause_type_cons g g' hblank (cs ++ (spacedBare us ++ Gap.bare g₁)) g₂
    refine Eq.trans ?_ htype
    simp only [List.cons_append, List.nil_append, spacedBare_cons, ht, List.append_assoc]
    rfl
  | false =>
    obtain rfl : ts = [] := List.map_eq_nil_iff.mp hts
    rcases clause with ⟨n, more⟩ | b
    · obtain ⟨g, us, rfl, hmore⟩ := exists_of_map_snd_eq_cons hus
      exact isTypeClause_default hmore hapart.2
    · obtain ⟨g, c, us, rfl, hblank, -, hc, -⟩ := exists_bindings_first hus
      have hsign := isTypeClause_sign g hblank hc
        (spacedBare us ++ (Gap.bare g₁ ++ ("from".toList ++ Gap.bare g₂)))
      rw [looksTyped, ← hsign]
      simp only [List.nil_append, spacedBare_cons, List.append_assoc]
      rfl

theorem static?_clause (rest : List Char) :
    static? ("import".toList ++
        (spacedBare (ts ++ (us ++ [(g₁, keyword "from"), (g₂, .request r)])) ++ rest)) =
      some ((r.chars, if looksTyped typeOnly clause
        (secondGap (ts ++ (us ++ [(g₁, keyword "from"), (g₂, .request r)]))) then .typeOnly
        else .static), rest) := by
  have htext : spacedBare (ts ++ (us ++ [(g₁, keyword "from"), (g₂, .request r)])) ++ rest =
      spacedBare (ts ++ us) ++ (Gap.bare g₁ ++ ("from".toList ++ Gap.bare g₂)) ++
        ((Token.request r).chars ++ rest) := by
    simp [keyword, Token.chars]
  have hlength : 1 ≤ (spacedBare (ts ++ us) ++ Gap.bare g₁).length := by
    obtain ⟨g, t, us, c, cs, rfl, ht, -⟩ := exists_clause_first hus
    simp only [spacedBare_append, spacedBare_cons, ht, List.length_append, List.length_cons]
    omega
  have hclause := isClause_from 1 (spacedBare (ts ++ us) ++ Gap.bare g₁) g₂
  rw [List.append_assoc, decide_eq_true hlength] at hclause
  rw [htext, static?_request (isClauseChar_of_mem_clause hts hus), hclause,
    isTypeClause_clause hts hus hapart]
  split <;> rfl

end Import

/-! ### Exports that forward -/

section Export

variable {typeOnly : Bool} {ts us : List (Gap × Token)} {g : Gap} {c : Char}
  (hts : ts.map Prod.snd = typeTokens typeOnly)
  (hspaced : IsSpaced (.modifier "export".toList) (ts ++ (g, .sign c) :: us))
  (hc : c = '*' ∨ c = '{')

include hts hspaced hc

/-- Behind `export` and blanks, the sign of the forwarded names follows, or the word `type` and
blanks in front of it. -/
theorem exists_behind_export (rest : List Char) :
    ∃ cs, blanks? (spacedBare (ts ++ (g, .sign c) :: us) ++ rest) = some cs ∧
      after? "import".toList cs = none ∧
      ((after? "type".toList cs).bind blanks?).getD cs = c :: (spacedBare us ++ rest) := by
  have hblank : isBlank c = false := by rcases hc with rfl | rfl <;> rfl
  cases typeOnly with
  | true =>
    obtain ⟨g', rfl⟩ := exists_of_map_snd_eq_singleton hts
    have hbehind : blanks? (Gap.bare g ++ c :: (spacedBare us ++ rest)) =
        some (c :: (spacedBare us ++ rest)) := blanks?_gap (hspaced.2.1 rfl) hblank _
    have htype (cs : List Char) : blanks? (Gap.bare g' ++ ("type".toList ++ cs)) =
        some ("type".toList ++ cs) := blanks?_gap (hspaced.1 rfl) (c := 't') rfl _
    refine ⟨"type".toList ++ (Gap.bare g ++ c :: (spacedBare us ++ rest)), ?_, rfl, ?_⟩
    · rw [← htype]
      simp [Token.chars]
    · rw [after?_append, Option.bind_some, hbehind, Option.getD_some]
  | false =>
    obtain rfl : ts = [] := List.map_eq_nil_iff.mp hts
    refine ⟨c :: (spacedBare us ++ rest), ?_, ?_, ?_⟩
    · rw [← blanks?_gap (hspaced.1 rfl) hblank]
      simp [Token.chars]
    · rcases hc with rfl | rfl <;> rfl
    · rcases hc with rfl | rfl <;> rfl

theorem importEquals?_export (rest : List Char) :
    importEquals? ("export".toList ++ (spacedBare (ts ++ (g, .sign c) :: us) ++ rest)) = none := by
  obtain ⟨cs, hblanks, himport, -⟩ := exists_behind_export hts hspaced hc rest
  simp only [importEquals?, after?_append, Option.bind_some, hblanks, Option.getD_some, himport,
    Option.bind_eq_bind, Option.bind_none]

theorem reExport?_export (rest : List Char) :
    reExport? ("export".toList ++ (spacedBare (ts ++ (g, .sign c) :: us) ++ rest)) =
      if c = '*' then starSource? (spacedBare us ++ rest)
      else listSource? (spacedBare us ++ rest) := by
  obtain ⟨cs, hblanks, -, htype⟩ := exists_behind_export hts hspaced hc rest
  simp only [reExport?, after?_append, Option.bind_some, hblanks, Option.bind_eq_bind, htype]
  rcases hc with rfl | rfl <;> rfl

end Export

theorem starSource?_source (g₁ g₂ : Gap) (r : Request) (rest : List Char) :
    starSource? (spacedBare [(g₁, keyword "from"), (g₂, .request r)] ++ rest) =
      some (r.chars, rest) := by
  have htrim : trimBlanks (spacedBare [(g₁, keyword "from"), (g₂, .request r)] ++ rest) =
      'f' :: ("rom".toList ++ (spacedBare [(g₂, .request r)] ++ rest)) := by
    rw [spacedBare_cons, List.append_assoc, List.append_assoc]
    exact trimBlanks_gap g₁ rfl _
  rw [starSource?, htrim]
  exact source?_spaced g₁ g₂ r rest

theorem starSource?_named (g₁ : Gap) {g₂ : Gap} (hg₂ : g₂ ≠ []) (n : Name) {g₃ : Gap}
    (hg₃ : g₃ ≠ []) (g₄ : Gap) (r : Request) (rest : List Char) :
    starSource? (spacedBare [(g₁, keyword "as"), (g₂, n.token), (g₃, keyword "from"),
        (g₄, .request r)] ++ rest) = some (r.chars, rest) := by
  have htrim : trimBlanks (spacedBare [(g₁, keyword "as"), (g₂, n.token), (g₃, keyword "from"),
        (g₄, .request r)] ++ rest) =
      "as".toList ++ (Gap.bare g₂ ++ (n.chars ++
        (spacedBare [(g₃, keyword "from"), (g₄, .request r)] ++ rest))) := by
    rw [spacedBare_cons, spacedBare_cons]
    simp only [List.append_assoc]
    exact trimBlanks_gap g₁ (c := 'a') rfl _
  have hblanks (cs : List Char) : blanks? (Gap.bare g₂ ++ (n.chars ++ cs)) = some (n.chars ++ cs) :=
    blanks?_gap hg₂ (isBlank_first n) _
  have hend : EndsName (spacedBare [(g₃, keyword "from"), (g₄, .request r)] ++ rest) := by
    rw [spacedBare_cons, List.append_assoc]
    exact endsName_gap hg₃ _
  have hfirst (cs : List Char) : ((n.chars ++ cs).head?.map isBindingChar).getD false = true :=
    n.isBindingChar_of_mem List.mem_cons_self
  simp only [starSource?, htrim, after?_append, Option.bind_some, hblanks, hfirst, if_true,
    namedSource?, dropWhile_name n hend, source?_spaced]

theorem listSource?_members {trailing : Bool} {ms : List Member} {ts : List (Gap × Token)}
    (hts : ts.map Prod.snd = memberTokens trailing ms) (g₁ g₂ g₃ : Gap) (r : Request)
    (rest : List Char) :
    listSource? (spacedBare (ts ++ [(g₁, .sign '}'), (g₂, keyword "from"), (g₃, .request r)]) ++
        rest) = some (r.chars, rest) := by
  have hword : ∀ c, isBindingChar c = true → (c != '}') = true := by
    rintro c hc
    rw [bne_iff_ne]
    rintro rfl
    exact absurd hc (by decide)
  have hgap : ∀ c, Json.isGap c = true → (c != '}') = true := by
    rintro c hc
    rw [bne_iff_ne]
    rintro rfl
    exact absurd hc (by decide)
  have hinner : ∀ c ∈ spacedBare ts ++ Gap.bare g₁, (c != '}') = true := by
    intro c hc
    rcases List.mem_append.mp hc with hc | hc
    · exact forall_spacedBare hword hgap (hts ▸ isMadeOf_memberTokens (by decide) trailing ms) c hc
    · exact hgap c (Gap.isGap_of_mem_bare hc)
  have htext : spacedBare (ts ++ [(g₁, .sign '}'), (g₂, keyword "from"), (g₃, .request r)]) ++
      rest = (spacedBare ts ++ Gap.bare g₁) ++ (['}'] ++
        (spacedBare [(g₂, keyword "from"), (g₃, .request r)] ++ rest)) := by
    simp [Token.chars]
  rw [listSource?, htext, List.dropWhile_append_of_pos hinner]
  exact source?_spaced g₂ g₃ r rest

/-! ### Declarations -/

theorem shape?_of_importEquals? {cs request rest : List Char}
    (h : importEquals? cs = some (request, rest)) :
    shape? cs = some (⟨String.ofList request, .importEquals⟩, rest) := by
  simp [shape?, h]

theorem shape?_of_reExport? {cs request rest : List Char} (hequals : importEquals? cs = none)
    (h : reExport? cs = some (request, rest)) :
    shape? cs = some (⟨String.ofList request, .reExport⟩, rest) := by
  simp [shape?, hequals, h]

theorem shape?_of_static? {cs request rest : List Char} {form : Specifier.Form}
    (hequals : importEquals? ("import".toList ++ cs) = none)
    (h : static? ("import".toList ++ cs) = some ((request, form), rest)) :
    shape? ("import".toList ++ cs) = some (⟨String.ofList request, form⟩, rest) := by
  have hexport : reExport? ("import".toList ++ cs) = none := rfl
  rw [shape?, hequals, hexport, h]
  rfl

theorem exists_of_map_snd_eq_source {ts : List (Gap × Token)} {r : Request}
    (h : ts.map Prod.snd = sourceTokens r) :
    ∃ g₁ g₂, ts = [(g₁, keyword "from"), (g₂, .request r)] := by
  obtain ⟨g₁, ts, rfl, hrequest⟩ := exists_of_map_snd_eq_cons h
  obtain ⟨g₂, rfl⟩ := exists_of_map_snd_eq_singleton hrequest
  exact ⟨g₁, g₂, rfl⟩

theorem shape?_bare {r : Request} {ts : List (Gap × Token)} (h : ts.map Prod.snd = [.request r])
    (rest : List Char) :
    shape? ("import".toList ++ (spacedBare ts ++ rest)) =
      some (⟨String.ofList r.chars, .static⟩, rest) := by
  obtain ⟨g, rfl⟩ := exists_of_map_snd_eq_singleton h
  have htext : spacedBare [(g, .request r)] ++ rest =
      Gap.bare g ++ ((Token.request r).chars ++ rest) := by simp
  have hequals : importEquals? ("import".toList ++
      (Gap.bare g ++ ((Token.request r).chars ++ rest))) = none := by
    have hmark : isBlank r.mark = false ∧ isBindingChar r.mark = false := by
      rcases r.mark_eq with h | h <;> rw [h] <;> exact ⟨rfl, rfl⟩
    exact importEquals?_sign g hmark.1 hmark.2 _
  have hgap : ∀ c ∈ Gap.bare g, isClauseChar c = true := fun c hc => by
    simp [isClauseChar, isBlank_of_isGap (Gap.isGap_of_mem_bare hc)]
  have htype : isTypeClause (Gap.bare g) = false := by
    have hblank : ∀ c ∈ Gap.bare g, isBlank c = true := fun c hc =>
      isBlank_of_isGap (Gap.isGap_of_mem_bare hc)
    rw [isTypeClause, trimBlanks, List.dropWhile_eq_nil_iff.mpr hblank]
    rfl
  rw [htext]
  apply shape?_of_static? hequals
  rw [static?_request hgap, htype, isClause_gap]
  rfl

theorem shape?_importFrom {typeOnly : Bool} {clause : Clause} {r : Request}
    {ts : List (Gap × Token)}
    (h : ts.map Prod.snd = typeTokens typeOnly ++ clause.tokens ++ sourceTokens r)
    (hapart : IsApart (keyword "import") ts) (rest : List Char) :
    shape? ("import".toList ++ (spacedBare ts ++ rest)) =
      some (⟨String.ofList r.chars,
        if looksTyped typeOnly clause (secondGap ts) then .typeOnly else .static⟩, rest) := by
  rw [List.append_assoc] at h
  obtain ⟨ts, us, rfl, hts, h⟩ := List.map_eq_append_iff.mp h
  obtain ⟨us, vs, rfl, hus, h⟩ := List.map_eq_append_iff.mp h
  obtain ⟨g₁, g₂, rfl⟩ := exists_of_map_snd_eq_source h
  exact shape?_of_static? (importEquals?_clause hts hus hapart rest)
    (static?_clause hts hus hapart rest)

/-- Behind each modifier stands a gap, so an import declaration looks like what it is, unless its
default name is `type`. -/
theorem looksTyped_of_isSpaced {typeOnly : Bool} {clause : Clause} {r : Request}
    {ts : List (Gap × Token)}
    (h : ts.map Prod.snd = typeTokens typeOnly ++ clause.tokens ++ sourceTokens r)
    (hspaced : IsSpaced (keyword "import") ts)
    (hn : ∀ n ∈ clause.defaultName?, n.chars ≠ "type".toList) :
    looksTyped typeOnly clause (secondGap ts) = typeOnly := by
  cases typeOnly with
  | true =>
    rw [List.append_assoc] at h
    obtain ⟨g, ts, rfl, hts⟩ := exists_of_map_snd_eq_cons
      (show ts.map Prod.snd = .modifier "type".toList :: (clause.tokens ++ sourceTokens r) from h)
    obtain ⟨us, vs, rfl, hus, -⟩ := List.map_eq_append_iff.mp hts
    obtain ⟨g', t, us, c, cs, rfl, -⟩ := exists_clause_first hus
    have hg' : g' ≠ [] := hspaced.2.1 rfl
    simpa [looksTyped, secondGap] using hg'
  | false => rcases clause with ⟨n, _ | b⟩ | b <;> simp_all [looksTyped, Clause.defaultName?]

/-- The tokens of a renaming import from its name on, each behind its gap. -/
theorem exists_of_map_snd_eq_renaming {n : Name} {r : Request} {ts : List (Gap × Token)}
    (h : ts.map Prod.snd =
      [n.token, .sign '=', keyword "require", .sign '(', .request r, .sign ')']) :
    ∃ g₁ g₂ g₃ g₄ g₅ g₆, ts = [(g₁, n.token), (g₂, .sign '='), (g₃, keyword "require"),
      (g₄, .sign '('), (g₅, .request r), (g₆, .sign ')')] := by
  obtain ⟨g₁, ts, rfl, h₁⟩ := exists_of_map_snd_eq_cons h
  obtain ⟨g₂, ts, rfl, h₂⟩ := exists_of_map_snd_eq_cons h₁
  obtain ⟨g₃, ts, rfl, h₃⟩ := exists_of_map_snd_eq_cons h₂
  obtain ⟨g₄, ts, rfl, h₄⟩ := exists_of_map_snd_eq_cons h₃
  obtain ⟨g₅, ts, rfl, h₅⟩ := exists_of_map_snd_eq_cons h₄
  obtain ⟨g₆, rfl⟩ := exists_of_map_snd_eq_singleton h₅
  exact ⟨g₁, g₂, g₃, g₄, g₅, g₆, rfl⟩

theorem importEquals?_tokens {n : Name} {r : Request} {ts : List (Gap × Token)}
    (h : ts.map Prod.snd =
      [n.token, .sign '=', keyword "require", .sign '(', .request r, .sign ')'])
    (hspaced : IsSpaced (keyword "import") ts) (rest : List Char) :
    importEquals? ("import".toList ++ (spacedBare ts ++ rest)) = some (r.chars, rest) := by
  obtain ⟨g₁, g₂, g₃, g₄, g₅, g₆, rfl⟩ := exists_of_map_snd_eq_renaming h
  have hg₁ : g₁ ≠ [] := hspaced.1 rfl
  have htext : spacedBare [(g₁, n.token), (g₂, .sign '='), (g₃, keyword "require"),
        (g₄, .sign '('), (g₅, .request r), (g₆, .sign ')')] ++ rest =
      Gap.bare g₁ ++ (n.chars ++ (Gap.bare g₂ ++ '=' :: (Gap.bare g₃ ++ ("require".toList ++
        (spacedBare [(g₄, .sign '('), (g₅, .request r), (g₆, .sign ')')] ++ rest))))) := by
    simp [Name.token, keyword, Token.chars]
  have hequals (cs : List Char) : after? ['='] ('=' :: cs) = some cs := after?_append ['='] cs
  have hrequire (cs : List Char) :
      trimBlanks (Gap.bare g₃ ++ ("require".toList ++ cs)) = "require".toList ++ cs :=
    trimBlanks_gap g₃ (c := 'r') rfl _
  rw [htext, importEquals?_name g₁ g₂ hg₁ n rfl (endsName_gap_cons g₂ rfl _)]
  simp only [hequals, Option.bind_some, hrequire, after?_append, callArgument?_spaced]

theorem importEquals?_exported {g : Gap} (hg : g ≠ []) (cs : List Char) :
    importEquals? ("export".toList ++ (Gap.bare g ++ ("import".toList ++ cs))) =
      importEquals? ("import".toList ++ cs) := by
  have hblanks : blanks? (Gap.bare g ++ ("import".toList ++ cs)) = some ("import".toList ++ cs) :=
    blanks?_gap hg (c := 'i') rfl _
  have hexport : after? "export".toList ("import".toList ++ cs) = none := rfl
  simp only [importEquals?, after?_append, Option.bind_some, hblanks, Option.getD_some, hexport,
    Option.bind_none, Option.getD_none]

theorem shape?_exportAll {typeOnly : Bool} {n : Option Name} {r : Request}
    {ts : List (Gap × Token)}
    (h : ts.map Prod.snd = typeTokens typeOnly ++
      .sign '*' :: (n.map fun n => [keyword "as", n.token]).getD [] ++ sourceTokens r)
    (hspaced : IsSpaced (.modifier "export".toList) ts) (rest : List Char) :
    shape? ("export".toList ++ (spacedBare ts ++ rest)) =
      some (⟨String.ofList r.chars, .reExport⟩, rest) := by
  rw [List.append_assoc] at h
  obtain ⟨ts, us, rfl, hts, hus⟩ := List.map_eq_append_iff.mp h
  obtain ⟨g, us, rfl, hbehind⟩ := exists_of_map_snd_eq_cons hus
  obtain ⟨us, vs, rfl, hname, hsource⟩ := List.map_eq_append_iff.mp hbehind
  obtain ⟨g₃, g₄, rfl⟩ := exists_of_map_snd_eq_source hsource
  apply shape?_of_reExport? (importEquals?_export hts hspaced (.inl rfl) rest)
  rw [reExport?_export hts hspaced (.inl rfl), if_pos rfl]
  cases n with
  | none =>
    obtain rfl : us = [] := List.map_eq_nil_iff.mp hname
    exact starSource?_source g₃ g₄ r rest
  | some n =>
    obtain ⟨g₁, us, rfl, h₁⟩ := exists_of_map_snd_eq_cons hname
    obtain ⟨g₂, rfl⟩ := exists_of_map_snd_eq_singleton h₁
    have hstar := hspaced.behind
    exact starSource?_named g₁ (hstar.2.1 rfl) n (hstar.2.2.1 rfl) g₄ r rest

theorem shape?_exportNamed {typeOnly : Bool} {ms : Members} {r : Request} {ts : List (Gap × Token)}
    (h : ts.map Prod.snd = typeTokens typeOnly ++ ms.tokens ++ sourceTokens r)
    (hspaced : IsSpaced (.modifier "export".toList) ts) (rest : List Char) :
    shape? ("export".toList ++ (spacedBare ts ++ rest)) =
      some (⟨String.ofList r.chars, .reExport⟩, rest) := by
  rw [List.append_assoc] at h
  obtain ⟨ts, us, rfl, hts, hus⟩ := List.map_eq_append_iff.mp h
  obtain ⟨us, vs, rfl, hmembers, hsource⟩ := List.map_eq_append_iff.mp hus
  obtain ⟨g₂, g₃, rfl⟩ := exists_of_map_snd_eq_source hsource
  obtain ⟨g, us, rfl, hinner⟩ := exists_of_map_snd_eq_cons hmembers
  obtain ⟨us, vs, rfl, hlist, hclose⟩ := List.map_eq_append_iff.mp hinner
  obtain ⟨g₁, rfl⟩ := exists_of_map_snd_eq_singleton hclose
  rw [List.cons_append, List.append_assoc] at hspaced ⊢
  apply shape?_of_reExport? (importEquals?_export hts hspaced (.inr rfl) rest)
  rw [reExport?_export hts hspaced (.inr rfl), if_neg (by decide)]
  exact listSource?_members hlist g₁ g₂ g₃ r rest

/-- The shape that fits the beginning of a declaration is its own, and takes all of it.  A default
name may not be the word `type`, which would count as a modifier. -/
theorem shape?_layout {d : Declaration} (l : d.Layout)
    (hn : ∀ n ∈ d.defaultName?, n.chars ≠ "type".toList) (rest : List Char) :
    shape? (l.bare ++ rest) = some (d.specifier, rest) := by
  obtain ⟨first, later, htokens, hspaced⟩ := l
  rw [Layout.bare, List.append_assoc]
  cases d with
  | bare r =>
    obtain ⟨rfl, hlater⟩ := List.cons.inj htokens
    exact shape?_bare hlater rest
  | importFrom typeOnly clause r =>
    obtain ⟨rfl, hlater⟩ := List.cons.inj htokens
    have hshape := shape?_importFrom hlater hspaced.isApart rest
    rw [looksTyped_of_isSpaced hlater hspaced hn] at hshape
    cases typeOnly <;> exact hshape
  | importEquals exported n r =>
    apply shape?_of_importEquals?
    cases exported with
    | true =>
      obtain ⟨rfl, hlater⟩ := List.cons.inj htokens
      obtain ⟨g, ts, rfl, hts⟩ := exists_of_map_snd_eq_cons hlater
      rw [spacedBare_cons, List.append_assoc, List.append_assoc]
      exact (importEquals?_exported (hspaced.1 rfl) _).trans
        (importEquals?_tokens hts hspaced.2 rest)
    | false =>
      obtain ⟨rfl, hlater⟩ := List.cons.inj htokens
      exact importEquals?_tokens hlater hspaced rest
  | exportAll typeOnly n r =>
    obtain ⟨rfl, hlater⟩ := List.cons.inj htokens
    exact shape?_exportAll hlater hspaced rest
  | exportNamed typeOnly ms r =>
    obtain ⟨rfl, hlater⟩ := List.cons.inj htokens
    exact shape?_exportNamed hlater hspaced rest

end ModuleGraph.Scan

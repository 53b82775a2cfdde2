import Mathlib.Data.List.Forall2
import ModuleGraph.Proofs.Scan.Shapes

/-!
# Searching the text of a module

The text of a module is a sequence of declarations that name modules, with other text between them.
The search for shapes passes over the other text, finds one region for each declaration, and goes on
right behind it.  So the specifiers it finds are those that the syntax trees of the declarations
give.

## Main definitions

* `Scan.boundaryAfter`: whether a word may begin behind a text.
* `Scan.IsSilent`: text in which no shape begins.
* `Scan.Filler`, `Scan.Between`: what stands between declarations.
* `Scan.ModuleText`: declarations with their layouts and with what stands between them.

## Main results

* `Scan.hitsFrom_silent`, `Scan.hitsFrom_hit`: the search passes over silent text, and takes a
  region where a shape fits.
* `Scan.specifiers_moduleText`: the specifiers of a module text.
-/

namespace ModuleGraph.Scan

open Text Comment Declaration

/-! ### The search -/

/-- Whether a word may begin behind a text. -/
def boundaryAfter (boundary : Bool) (cs : List Char) : Bool :=
  (cs.getLast?.map fun c => !isWordChar c).getD boundary

theorem boundaryAfter_cons (boundary : Bool) (c : Char) (cs : List Char) :
    boundaryAfter boundary (c :: cs) = boundaryAfter (!isWordChar c) cs := by
  cases cs with
  | nil => rfl
  | cons d ds =>
    rw [boundaryAfter, boundaryAfter, List.getLast?_cons_cons]
    rfl

theorem boundaryAfter_true {cs : List Char} (h : ∀ c ∈ cs.getLast?, isWordChar c = false) :
    boundaryAfter true cs = true := by
  cases hlast : cs.getLast? with
  | none => simp [boundaryAfter, hlast]
  | some c => simp [boundaryAfter, hlast, h c hlast]

/-- What belongs to the last region is passed over. -/
theorem hitsFrom_skip (boundary : Bool) (pos : Nat) (region rest : List Char) :
    hitsFrom boundary region.length pos (region ++ rest) =
      hitsFrom (boundaryAfter boundary region) 0 (pos + region.length) rest := by
  induction region generalizing boundary pos with
  | nil => rfl
  | cons c region ih =>
    rw [boundaryAfter_cons, List.cons_append, List.length_cons, hitsFrom, ih, Nat.add_right_comm,
      Nat.add_assoc]

/-- Where a shape fits, its region is found, and the search goes on behind it. -/
theorem hitsFrom_hit {region rest : List Char} (hne : region ≠ []) {s : Specifier}
    (h : shape? (region ++ rest) = some (s, rest)) (pos : Nat) :
    hitsFrom true 0 pos (region ++ rest) =
      ⟨pos, region.length, s⟩ ::
        hitsFrom (boundaryAfter true region) 0 (pos + region.length) rest := by
  obtain ⟨c, region, rfl⟩ := List.exists_cons_of_ne_nil hne
  have hlength : (c :: (region ++ rest)).length - rest.length = (c :: region).length := by
    simp only [List.length_cons, List.length_append]
    omega
  rw [List.cons_append] at h ⊢
  rw [hitsFrom, if_pos rfl, h]
  dsimp only
  rw [hlength, List.length_cons, Nat.add_sub_cancel, hitsFrom_skip, boundaryAfter_cons,
    Nat.add_right_comm, Nat.add_assoc]

/-- A text that a shape takes as a whole is one region. -/
theorem hits_of_shape? {cs : List Char} {s : Specifier} (h : shape? cs = some (s, [])) :
    (hits cs).map Hit.specifier = [s] := by
  have hne : cs ≠ [] := by
    rintro rfl
    have hnone : shape? [] = none := rfl
    simp [hnone] at h
  have hregion := @hitsFrom_hit cs [] hne s (by simpa using h) 0
  rw [List.append_nil] at hregion
  rw [hits, hregion]
  rfl

/-- Where a region is found, a shape fits the text from some place on. -/
theorem exists_shape?_of_mem_hitsFrom {boundary : Bool} {skip pos : Nat} {cs : List Char} {h : Hit}
    (hmem : h ∈ hitsFrom boundary skip pos cs) :
    ∃ back rest, back <:+ cs ∧ shape? back = some (h.specifier, rest) := by
  fun_induction hitsFrom boundary skip pos cs with
  | case1 => simp at hmem
  | case2 boundary skip pos c cs ih =>
    obtain ⟨back, rest, hback, hshape⟩ := ih hmem
    exact ⟨back, rest, hback.trans (List.suffix_cons c cs), hshape⟩
  | case3 boundary pos c cs specifier rest hfits length ih =>
    rcases List.mem_cons.mp hmem with rfl | hmem
    · exact ⟨c :: cs, rest, List.suffix_rfl, by simp_all⟩
    · obtain ⟨back, rest, hback, hshape⟩ := ih hmem
      exact ⟨back, rest, hback.trans (List.suffix_cons c cs), hshape⟩
  | case4 boundary pos c cs _ ih =>
    obtain ⟨back, rest, hback, hshape⟩ := ih hmem
    exact ⟨back, rest, hback.trans (List.suffix_cons c cs), hshape⟩

/-- Text at no place of which a shape fits is passed over. -/
theorem hitsFrom_pass {cs rest : List Char}
    (h : ∀ back, back <:+ cs → back ≠ [] → shape? (back ++ rest) = none) (boundary : Bool)
    (pos : Nat) :
    hitsFrom boundary 0 pos (cs ++ rest) =
      hitsFrom (boundaryAfter boundary cs) 0 (pos + cs.length) rest := by
  induction cs generalizing boundary pos with
  | nil => rfl
  | cons c cs ih =>
    have hshape : shape? (c :: (cs ++ rest)) = none :=
      h (c :: cs) List.suffix_rfl (List.cons_ne_nil c cs)
    rw [boundaryAfter_cons, List.cons_append, hitsFrom, hshape, ite_self]
    dsimp only
    rw [ih fun back hback => h back (hback.trans (List.suffix_cons c cs)), List.length_cons,
      Nat.add_right_comm, Nat.add_assoc]

/-- The words that shapes begin with. -/
def shapeWords : List String := ["import", "export", "require"]

theorem after?_eq_none_of_not_prefix {word cs : List Char} (h : ¬ word <+: cs) :
    after? word cs = none := by
  cases hafter : after? word cs with
  | none => rfl
  | some rest => exact absurd ⟨rest, (eq_append_of_after? hafter).symm⟩ h

theorem shape?_eq_none {cs : List Char} (h : ∀ word ∈ shapeWords, ¬ word.toList <+: cs) :
    shape? cs = none := by
  have himport := after?_eq_none_of_not_prefix (h "import" (by simp [shapeWords]))
  have hexport := after?_eq_none_of_not_prefix (h "export" (by simp [shapeWords]))
  have hrequire := after?_eq_none_of_not_prefix (h "require" (by simp [shapeWords]))
  simp only [shape?, importEquals?, reExport?, static?, dynamic?, himport, hexport, hrequire,
    Option.bind_eq_bind, Option.bind_none, Option.getD_none, Option.map_none, Option.or_none]

/-- Text in which no shape begins, whatever follows it, and behind which a word may begin. -/
structure IsSilent (cs : List Char) : Prop where
  no_word : ∀ word ∈ shapeWords, ¬ word.toList <:+: cs
  last : ∀ c ∈ cs.getLast?, isWordChar c = false

theorem IsSilent.of_suffix {cs back : List Char} (h : IsSilent cs) (hback : back <:+ cs)
    (hne : back ≠ []) : IsSilent back where
  no_word word hword hin := h.no_word word hword (hin.trans hback.isInfix)
  last d hd := by
    obtain ⟨front, rfl⟩ := hback
    exact h.last d (by rwa [List.getLast?_append_of_ne_nil front hne])

/-- Text without a character that belongs to words is silent. -/
theorem isSilent_of_forall {cs : List Char} (h : ∀ c ∈ cs, isWordChar c = false) :
    IsSilent cs where
  no_word word hword hin := by
    have hletters : (shapeWords.all fun word => word.toList.any isWordChar) = true := by
      decide +kernel
    obtain ⟨c, hc, hletter⟩ := List.any_eq_true.mp (List.all_eq_true.mp hletters word hword)
    simp [h c (hin.subset hc)] at hletter
  last c hc := h c (List.mem_of_getLast? hc)

/-- A word that shapes begin with does not begin in silent text: it would have to end there too, or
hold the last character. -/
theorem IsSilent.not_begins {cs : List Char} (h : IsSilent cs) (hne : cs ≠ []) (rest : List Char) :
    ∀ word ∈ shapeWords, ¬ word.toList <+: cs ++ rest := by
  intro word hword hpre
  have hletters : ∀ word ∈ shapeWords, word.toList.all isWordChar = true := by decide
  rcases List.prefix_or_prefix_of_prefix hpre (List.prefix_append cs rest) with hpre | hpre
  · exact h.no_word word hword hpre.isInfix
  · obtain ⟨c, hc⟩ := List.getLast?_isSome.mpr hne |> Option.isSome_iff_exists.mp
    have hmem : c ∈ word.toList := hpre.subset (List.mem_of_getLast? hc)
    exact absurd (List.all_eq_true.mp (hletters word hword) c hmem) (by simp [h.last c hc])

/-- Silent text is passed over. -/
theorem hitsFrom_silent {cs : List Char} (h : IsSilent cs) (boundary : Bool) (pos : Nat)
    (rest : List Char) :
    hitsFrom boundary 0 pos (cs ++ rest) =
      hitsFrom (boundaryAfter boundary cs) 0 (pos + cs.length) rest :=
  hitsFrom_pass (fun _ hback hne =>
    shape?_eq_none ((h.of_suffix hback hne).not_begins hne rest)) boundary pos

/-! ### Module texts -/

/-- Text between declarations: it holds neither quote marks nor slashes nor words that shapes begin
with, and ends with the end of a line or of a statement. -/
structure Filler where
  chars : List Char
  quiet : ∀ c ∈ chars, IsQuiet c
  no_word : ∀ word ∈ shapeWords, ¬ word.toList <:+: chars
  ends : ∀ c ∈ chars.getLast?, c = '\n' ∨ c = '\r' ∨ c = ';'

/-- A part of what stands between declarations. -/
inductive Between where
  | piece (p : Piece)
  | filler (f : Filler)

/-- A part of what stands between declarations, as it is written. -/
def Between.text : Between → List Char
  | .piece p => p.text
  | .filler f => f.chars

/-- A part of what stands between declarations, without its comments. -/
def Between.bare : Between → List Char
  | .piece p => [p.bare]
  | .filler f => f.chars

/-- A declaration with its layout and with what stands in front of it. -/
structure Part where
  before : List Between
  declaration : Declaration
  layout : declaration.Layout

/-- Declarations with what stands between them. -/
structure ModuleText where
  parts : List Part
  ending : List Between

/-- The text of a part. -/
def Part.text (p : Part) : List Char := p.before.flatMap Between.text ++ p.layout.text

/-- The text of a part without its comments. -/
def Part.bare (p : Part) : List Char := p.before.flatMap Between.bare ++ p.layout.bare

/-- The characters of a module text. -/
def ModuleText.chars (m : ModuleText) : List Char :=
  m.parts.flatMap Part.text ++ m.ending.flatMap Between.text

/-- The characters of a module text without its comments. -/
def ModuleText.bare (m : ModuleText) : List Char :=
  m.parts.flatMap Part.bare ++ m.ending.flatMap Between.bare

theorem stripFrom_between (bs : List Between) (rest : List Char) :
    stripFrom .code (bs.flatMap Between.text ++ rest) =
      bs.flatMap Between.bare ++ stripFrom .code rest := by
  induction bs with
  | nil => rfl
  | cons b bs ih =>
    rw [List.flatMap_cons, List.append_assoc, List.flatMap_cons, List.append_assoc]
    cases b with
    | piece p => exact (stripFrom_piece p _).trans (congrArg (p.bare :: ·) ih)
    | filler f => exact (stripFrom_quiet f.quiet _).trans (congrArg (f.chars ++ ·) ih)

theorem stripFrom_parts (ps : List Part) (rest : List Char) :
    stripFrom .code (ps.flatMap Part.text ++ rest) =
      ps.flatMap Part.bare ++ stripFrom .code rest := by
  induction ps with
  | nil => rfl
  | cons p ps ih =>
    rw [List.flatMap_cons, List.append_assoc, List.flatMap_cons, List.append_assoc, Part.text,
      List.append_assoc, stripFrom_between, p.layout.stripFrom_text, ih, Part.bare,
      List.append_assoc]

theorem stripChars_moduleText (m : ModuleText) : stripChars m.chars = m.bare := by
  have hending := stripFrom_between m.ending []
  rw [List.append_nil] at hending
  rw [stripChars, ModuleText.chars, stripFrom_parts, hending, ModuleText.bare]
  simp [stripFrom]

theorem isWordChar_of_isGap {c : Char} (h : Json.isGap c = true) : isWordChar c = false := by
  have hbinding := isBindingChar_of_isGap h
  simp only [isBindingChar, Bool.or_eq_false_iff] at hbinding
  exact hbinding.1

theorem Between.isSilent (b : Between) : IsSilent b.bare := by
  cases b with
  | piece p =>
    refine isSilent_of_forall fun c hc => ?_
    obtain rfl := List.mem_singleton.mp hc
    exact isWordChar_of_isGap p.isGap_bare
  | filler f =>
    refine ⟨f.no_word, fun c hc => ?_⟩
    rcases f.ends c hc with rfl | rfl | rfl <;> rfl

theorem hitsFrom_between (bs : List Between) (pos : Nat) (rest : List Char) :
    hitsFrom true 0 pos (bs.flatMap Between.bare ++ rest) =
      hitsFrom true 0 (pos + (bs.flatMap Between.bare).length) rest := by
  induction bs generalizing pos with
  | nil => rfl
  | cons b bs ih =>
    rw [List.flatMap_cons, List.append_assoc, hitsFrom_silent b.isSilent,
      boundaryAfter_true b.isSilent.last, ih, List.length_append, Nat.add_assoc]

/-- A declaration ends with a quote mark or a parenthesis. -/
theorem exists_tokens_last (d : Declaration) :
    ∃ ts t, d.tokens = ts ++ [t] ∧ ∃ cs c, t.chars = cs ++ [c] ∧ isWordChar c = false := by
  have hrequest (r : Request) :
      ∃ cs c, (Token.request r).chars = cs ++ [c] ∧ isWordChar c = false := by
    refine ⟨r.mark :: r.chars, r.mark, rfl, ?_⟩
    rcases r.mark_eq with h | h <;> rw [h] <;> rfl
  cases d with
  | bare r => exact ⟨[keyword "import"], _, rfl, hrequest r⟩
  | importFrom typeOnly clause r =>
    refine ⟨keyword "import" :: typeTokens typeOnly ++ clause.tokens ++ [keyword "from"], _, ?_,
      hrequest r⟩
    simp [tokens, sourceTokens]
  | importEquals exported n r =>
    refine ⟨(if exported then [.modifier "export".toList] else []) ++ [keyword "import", n.token,
      .sign '=', keyword "require", .sign '(', .request r], .sign ')', ?_, [], ')', rfl, rfl⟩
    rw [tokens, List.append_assoc]
    rfl
  | exportAll typeOnly n r =>
    refine ⟨.modifier "export".toList :: typeTokens typeOnly ++
      .sign '*' :: (n.map fun n => [keyword "as", n.token]).getD [] ++ [keyword "from"], _, ?_,
      hrequest r⟩
    simp [tokens, sourceTokens]
  | exportNamed typeOnly ms r =>
    refine ⟨.modifier "export".toList :: typeTokens typeOnly ++ ms.tokens ++ [keyword "from"], _,
      ?_, hrequest r⟩
    simp [tokens, sourceTokens]

theorem exists_layout_last {d : Declaration} (l : d.Layout) :
    ∃ cs c, l.bare = cs ++ [c] ∧ isWordChar c = false := by
  obtain ⟨ts, t, htokens, cs, c, ht, hc⟩ := exists_tokens_last d
  have hall : ((([] : Gap), l.first) :: l.later).map Prod.snd = ts ++ [t] :=
    l.tokens_eq.trans htokens
  obtain ⟨us, vs, hsplit, -, hvs⟩ := List.map_eq_append_iff.mp hall
  obtain ⟨g, rfl⟩ := exists_of_map_snd_eq_singleton hvs
  refine ⟨spacedBare us ++ (Gap.bare g ++ cs), c, ?_, hc⟩
  have hbare : l.bare = spacedBare ((([] : Gap), l.first) :: l.later) := by
    rw [spacedBare_cons]
    rfl
  rw [hbare, hsplit, spacedBare_append, spacedBare_cons, ht]
  simp

/-- One region is found for each declaration, whatever follows. -/
theorem hitsFrom_parts {ps : List Part}
    (hn : ∀ p ∈ ps, ∀ n ∈ p.declaration.defaultName?, n.chars ≠ "type".toList) (pos : Nat)
    (rest : List Char) :
    ∃ pos', (hitsFrom true 0 pos (ps.flatMap Part.bare ++ rest)).map Hit.specifier =
      ps.map (fun p => p.declaration.specifier) ++
        (hitsFrom true 0 pos' rest).map Hit.specifier := by
  induction ps generalizing pos with
  | nil => exact ⟨pos, rfl⟩
  | cons p ps ih =>
    obtain ⟨cs, c, hlast, hc⟩ := exists_layout_last p.layout
    have hne : p.layout.bare ≠ [] := by simp [hlast]
    have hboundary : boundaryAfter true p.layout.bare = true :=
      boundaryAfter_true (by simp [hlast, hc])
    have hshape := shape?_layout p.layout (hn p List.mem_cons_self) (ps.flatMap Part.bare ++ rest)
    obtain ⟨pos', hrest⟩ := ih (fun q hq => hn q (List.mem_cons_of_mem p hq))
      (pos + (p.before.flatMap Between.bare).length + p.layout.bare.length)
    refine ⟨pos', ?_⟩
    rw [List.flatMap_cons, Part.bare, List.append_assoc, List.append_assoc, hitsFrom_between,
      hitsFrom_hit hne hshape, hboundary, List.map_cons, hrest, List.map_cons, List.cons_append]

theorem hits_moduleText {m : ModuleText}
    (hn : ∀ p ∈ m.parts, ∀ n ∈ p.declaration.defaultName?, n.chars ≠ "type".toList) :
    (hits m.bare).map Hit.specifier = m.parts.map fun p => p.declaration.specifier := by
  obtain ⟨pos, hparts⟩ := hitsFrom_parts hn 0 (m.ending.flatMap Between.bare)
  have hending := hitsFrom_between m.ending pos []
  rw [List.append_nil] at hending
  rw [hits, ModuleText.bare, hparts, hending]
  simp [hitsFrom]

/-- No declaration is a call. -/
theorem wanted_specifier (dynamic : Bool) (d : Declaration) :
    wanted dynamic d.specifier = true := by
  rcases d with r | ⟨typeOnly | typeOnly, clause, r⟩ | _ | _ | _ <;>
    simp [wanted, specifier, form]

theorem specifiers_of_shape? {ts : List Token} (w : Writing ts) (hts : ∀ t ∈ ts, t.IsCopied)
    {s : Specifier} (h : shape? w.bare = some (s, [])) {dynamic : Bool}
    (hs : wanted dynamic s = true) : specifiers (String.ofList w.text) dynamic = [s] := by
  rw [specifiers, String.toList_ofList, w.stripChars_text hts, hits_of_shape? h]
  simp [hs]

/-- A declaration is found where a gap follows each of its modifiers. -/
theorem specifiers_of_isSpaced {d : Declaration} (w : Writing d.tokens)
    (h : IsSpaced w.first w.later) (hn : ∀ n ∈ d.defaultName?, n.chars ≠ "type".toList)
    (dynamic : Bool) : specifiers (String.ofList w.text) dynamic = [d.specifier] := by
  have hshape := shape?_layout (w.layout h) hn []
  rw [List.append_nil] at hshape
  exact specifiers_of_shape? w (fun _ => isCopied_of_mem_tokens) hshape (wanted_specifier dynamic d)

/-- Statements that name no module can be left out of a program. -/
theorem flatMap_specifiers_filter (dynamic : Bool) (body : List Source.Stmt) :
    (body.filter fun s => !(s.specifiers dynamic).isEmpty).flatMap
        (Source.Stmt.specifiers dynamic) =
      body.flatMap (Source.Stmt.specifiers dynamic) := by
  induction body with
  | nil => rfl
  | cons s body ih =>
    by_cases hs : s.specifiers dynamic = []
    · simp [hs, ih]
    · simp [hs, ih]

/-- The statements of declarations among statements that name no module give the specifiers of the
declarations. -/
theorem specifiers_of_statements {dynamic : Bool} {ps : List Part} {program : Source.Program}
    (h : List.Forall₂ (fun p s => ∃ offset, s = p.declaration.statement offset) ps
      (program.body.filter fun s => !(s.specifiers dynamic).isEmpty)) :
    program.specifiers dynamic = ps.map fun p => p.declaration.specifier := by
  rw [Source.Program.specifiers, ← flatMap_specifiers_filter]
  generalize (program.body.filter fun s => !(s.specifiers dynamic).isEmpty) = body at h
  induction h with
  | nil => rfl
  | cons hp _ ih =>
    obtain ⟨offset, rfl⟩ := hp
    rw [List.flatMap_cons, specifiers_statement, ih, List.map_cons, List.singleton_append]

/-- The search of a module text gives one specifier for each declaration, in order, and so does
every syntax tree that has a statement for each declaration and no other that names a module. -/
theorem specifiers_moduleText (m : ModuleText)
    (hn : ∀ p ∈ m.parts, ∀ n ∈ p.declaration.defaultName?, n.chars ≠ "type".toList)
    (dynamic : Bool) :
    specifiers (String.ofList m.chars) dynamic = m.parts.map (fun p => p.declaration.specifier) ∧
      ∀ program : Source.Program,
        List.Forall₂ (fun p s => ∃ offset, s = p.declaration.statement offset) m.parts
          (program.body.filter fun s => !(s.specifiers dynamic).isEmpty) →
        program.specifiers dynamic = specifiers (String.ofList m.chars) dynamic := by
  have hsearch : specifiers (String.ofList m.chars) dynamic =
      m.parts.map fun p => p.declaration.specifier := by
    rw [specifiers, String.toList_ofList, stripChars_moduleText, hits_moduleText hn,
      List.filter_eq_self]
    intro s hs
    obtain ⟨p, -, rfl⟩ := List.mem_map.mp hs
    exact wanted_specifier dynamic p.declaration
  exact ⟨hsearch, fun program hprogram => (specifiers_of_statements hprogram).trans hsearch.symm⟩

section Sample

private def space : Gap := [.blank ' ' rfl]

private def fromName : Name :=
  ⟨'f', "rom".toList, by decide, List.all_iff_forall_prop.mp (by decide)⟩

private def requireName : Name :=
  ⟨'r', "equire".toList, by decide, List.all_iff_forall_prop.mp (by decide)⟩

private def slashed : Request :=
  ⟨'"', "a//b".toList, rfl, by decide, List.all_iff_forall_prop.mp (by decide)⟩

private def starred : Request :=
  ⟨'\'', "x/*y".toList, rfl, by decide, List.all_iff_forall_prop.mp (by decide)⟩

private theorem no_word_port :
    ∀ word ∈ shapeWords, ¬ word.toList <:+: ";let port = 1;\n".toList := by
  decide +kernel

/-- An import and an export whose names look like keywords and whose requests look like
comments. -/
def keywordModule : ModuleText where
  parts :=
    [{  before := []
        declaration := .importFrom false (.default fromName none) slashed
        layout :=
          { first := keyword "import"
            later := [(space, fromName.token),
              ([.block "; ".toList (by decide +kernel)], keyword "from"), ([], .request slashed)]
            tokens_eq := rfl
            isSpaced := by simp [IsSpaced, space, needsGap, Token.isWord, keyword] } },
      { before := [.filler ⟨";let port = 1;\n".toList, List.all_iff_forall_prop.mp (by decide),
          no_word_port, by simp⟩]
        declaration := .exportNamed true ⟨[⟨true, requireName, some typeName⟩], true⟩ starred
        layout :=
          { first := .modifier "export".toList
            later := [(space, .modifier "type".toList), (space, .sign '{'),
              ([], .modifier "type".toList), (space, requireName.token), (space, keyword "as"),
              (space, typeName.token), ([], .sign ','), ([], .sign '}'), ([], keyword "from"),
              ([], .request starred)]
            tokens_eq := rfl
            isSpaced := by simp [IsSpaced, space, needsGap, Token.isWord, keyword, Name.token] } }]
  ending := []

theorem specifiers_keywordModule :
    String.ofList keywordModule.chars =
        "import from/*; */from\"a//b\";let port = 1;\n" ++
          "export type \x7btype require as type,\x7dfrom'x/*y'" ∧
      specifiers (String.ofList keywordModule.chars) true =
        [⟨"a//b", .static⟩, ⟨"x/*y", .reExport⟩] := by
  refine ⟨by decide +kernel, ?_⟩
  have hnames : ∀ p ∈ keywordModule.parts, ∀ n ∈ p.declaration.defaultName?,
      n.chars ≠ "type".toList := by
    intro p hp n hn
    simp only [keywordModule, List.mem_cons, List.not_mem_nil, or_false] at hp
    rcases hp with rfl | rfl
    · obtain rfl : fromName = n := by simpa [defaultName?, Clause.defaultName?] using hn
      decide
    · simp [defaultName?] at hn
  exact (specifiers_moduleText keywordModule hnames true).1

end Sample

end ModuleGraph.Scan

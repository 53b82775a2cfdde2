import ModuleGraph.Proofs.Source.Program

/-!
# Extracting imports from broken text

Between two module texts stands a chunk that need not be program text.  If the whole has no syntax
tree that can be used, it is searched, and the search finds the declarations on both sides of the
chunk.  If it has one, the tree begins with the declarations in front of the chunk.  So these are
never lost.  The declarations behind the chunk are in the tree if reading comes to where they stand,
as it does behind a statement that only breaks a rule that is overlooked.  They are lost where a
tree is kept that ends at the chunk.

## Main definitions

* `aroundText`: two module texts with a chunk between them.

## Main results

* `Scan.specifiers_around`: the search finds the declarations on both sides of a chunk.
* `extract_around`: what is kept of the declarations on both sides of a chunk.
-/

namespace ModuleGraph

open Scan Comment

/-- The specifiers of the declarations of a module text. -/
def Scan.ModuleText.named (m : ModuleText) : List Specifier :=
  m.parts.map fun p => p.declaration.specifier

/-- No declaration of a module text binds the default name `type`. -/
def Scan.ModuleText.IsNamed (m : ModuleText) : Prop :=
  ∀ p ∈ m.parts, ∀ n ∈ p.declaration.defaultName?, n.chars ≠ "type".toList

/-- Two module texts with a chunk of other text between them. -/
def aroundText (a : ModuleText) (chunk : Filler) (b : ModuleText) : List Char :=
  a.chars ++ (chunk.chars ++ b.chars)

/-! ### The search -/

theorem Scan.stripFrom_moduleText (m : ModuleText) (rest : List Char) :
    stripFrom .code (m.chars ++ rest) = m.bare ++ stripFrom .code rest := by
  rw [ModuleText.chars, List.append_assoc, stripFrom_parts, stripFrom_between, ModuleText.bare,
    List.append_assoc]

/-- One region is found for each declaration of a module text, whatever follows. -/
theorem Scan.hitsFrom_moduleText {m : ModuleText} (hm : m.IsNamed) (pos : Nat) (rest : List Char) :
    ∃ pos', (hitsFrom true 0 pos (m.bare ++ rest)).map Hit.specifier =
      m.named ++ (hitsFrom true 0 pos' rest).map Hit.specifier := by
  obtain ⟨pos', hparts⟩ := hitsFrom_parts hm pos (m.ending.flatMap Between.bare ++ rest)
  refine ⟨pos' + (m.ending.flatMap Between.bare).length, ?_⟩
  rw [ModuleText.bare, List.append_assoc, hparts, hitsFrom_between]
  rfl

/-- The search finds the declarations on both sides of a chunk. -/
theorem Scan.specifiers_around {a b : ModuleText} (ha : a.IsNamed) (hb : b.IsNamed)
    (chunk : Filler) (dynamic : Bool) :
    specifiers (String.ofList (aroundText a chunk b)) dynamic = a.named ++ b.named := by
  have hstrip : stripChars (aroundText a chunk b) = a.bare ++ (chunk.chars ++ (b.bare ++ [])) := by
    have hb := stripFrom_moduleText b []
    rw [List.append_nil] at hb
    rw [stripChars, aroundText, stripFrom_moduleText, stripFrom_quiet chunk.quiet, hb]
    rfl
  have hchunk (pos : Nat) (rest : List Char) : hitsFrom true 0 pos (chunk.chars ++ rest) =
      hitsFrom true 0 (pos + chunk.chars.length) rest := by
    have hbetween := hitsFrom_between [.filler chunk] pos rest
    simpa [Between.bare] using hbetween
  obtain ⟨pos, hfirst⟩ := hitsFrom_moduleText ha 0 (chunk.chars ++ (b.bare ++ []))
  obtain ⟨pos', hsecond⟩ := hitsFrom_moduleText hb (pos + chunk.chars.length) []
  have hhits : (hits (stripChars (aroundText a chunk b))).map Hit.specifier =
      a.named ++ b.named := by
    rw [hits, hstrip, hfirst, hchunk, hsecond]
    simp [hitsFrom]
  rw [specifiers, String.toList_ofList, hhits, List.filter_eq_self]
  intro s hs
  rw [ModuleText.named, ModuleText.named, ← List.map_append] at hs
  obtain ⟨p, -, rfl⟩ := List.mem_map.mp hs
  exact wanted_specifier dynamic p.declaration

/-! ### The syntax tree, or the search -/

/-- The declarations in front of a chunk are kept whatever the chunk is.  Those behind it are kept
as well, unless the text has a syntax tree that can be used.  Even if it has one they are kept, as
soon as reading comes to where they stand. -/
theorem extract_around {a b : ModuleText} (ha : a.IsNamed) (hplain : ∀ p ∈ a.parts, p.IsPlain)
    (hb : b.IsNamed) (chunk : Filler) (dynamic : Bool) :
    a.named <+: extract .typedModule dynamic (String.ofList (aroundText a chunk b)) ∧
      ((Source.parse? .typedModule (aroundText a chunk b)).filter Source.Program.isUsable = none →
        extract .typedModule dynamic (String.ofList (aroundText a chunk b)) =
          a.named ++ b.named) ∧
      ∀ (count : Nat) (front : List Source.Stmt) (c : Source.Cursor),
        (∀ p ∈ b.parts, p.IsPlain) →
        Source.leading (Source.rulesFor (aroundText a chunk b)) count
          (Source.Cursor.start .typedModule (aroundText a chunk b)) = some (front, c) →
        c.IsAt b.chars →
        ∃ between, a.named ++ (between ++ b.named) <+:
          extract .typedModule dynamic (String.ofList (aroundText a chunk b)) := by
  have hsearch := specifiers_around ha hb chunk dynamic
  rw [extract, String.toList_ofList]
  cases htree : (Source.parse? .typedModule (aroundText a chunk b)).filter
      Source.Program.isUsable with
  | none =>
    dsimp only
    rw [hsearch]
    exact ⟨List.prefix_append a.named b.named, fun _ => rfl,
      fun _ _ _ _ _ _ => ⟨[], List.prefix_refl _⟩⟩
  | some program =>
    have hparse := (Option.filter_eq_some_iff.mp htree).1
    have htext : aroundText a chunk b = a.parts.flatMap Part.text ++
        ((a.ending.flatMap Between.text ++ chunk.chars) ++ b.chars) := by
      simp [aroundText, ModuleText.chars]
    refine ⟨?_, by simp, fun count front c hback hfront hc => ?_⟩
    · rw [htext] at hparse
      exact Source.specifiers_of_parse? hplain hparse dynamic
    · exact Source.specifiers_of_leading hplain hback htext hparse hfront hc dynamic

section Sample

open Declaration

private def blankGap : Gap := [.blank ' ' isGap_space]

private def mark : Between :=
  .filler ⟨[';'], List.all_iff_forall_prop.mp (by decide), by decide +kernel, by simp⟩

/-- An import of a default name, with one blank between its tokens. -/
def defaultImport (n : Name) (r : Request) : Part where
  before := []
  declaration := .importFrom false (.default n none) r
  layout :=
    { first := keyword "import"
      later := [(blankGap, n.token), (blankGap, keyword "from"), (blankGap, .request r)]
      tokens_eq := rfl
      isSpaced := by simp [IsSpaced, blankGap, needsGap] }

theorem isPlain_defaultImport {n : Name} {r : Request} {ending : List Between}
    (h : '\r' ∉ r.chars) : ∀ p ∈ (ModuleText.mk [defaultImport n r] ending).parts, p.IsPlain := by
  intro p hp
  obtain rfl := List.mem_singleton.mp hp
  exact ⟨by simp [defaultImport], by simp [defaultImport, blankGap, Piece.IsPlain], h⟩

theorem isNamed_defaultImport {n : Name} {r : Request} {ending : List Between}
    (h : n.chars ≠ "type".toList) : ModuleText.IsNamed ⟨[defaultImport n r], ending⟩ := by
  intro p hp m hm
  obtain rfl := List.mem_singleton.mp hp
  obtain rfl : n = m := Option.some.inj hm
  exact h

/-- The text `import a from './a';`. -/
def frontModule : ModuleText where
  parts := [defaultImport ⟨'a', [], by decide, by simp⟩
    ⟨'\'', "./a".toList, isMark_apostrophe, by decide, List.all_iff_forall_prop.mp (by decide)⟩]
  ending := [mark]

/-- The text `import b from './b';`. -/
def backModule : ModuleText where
  parts := [defaultImport ⟨'b', [], by decide, by simp⟩
    ⟨'\'', "./b".toList, isMark_apostrophe, by decide, List.all_iff_forall_prop.mp (by decide)⟩]
  ending := [mark]

/-- A declaration without its initial value. -/
def missingValue : Filler :=
  ⟨"\nconst x = ;\n".toList, List.all_iff_forall_prop.mp (by decide), by decide +kernel, by simp⟩

/-- A declaration of a constant without a value. -/
def unsetConstant : Filler :=
  ⟨"\nconst x;\n".toList, List.all_iff_forall_prop.mp (by decide), by decide +kernel, by simp⟩

/-- A character that begins no token. -/
def strayCharacter : Filler :=
  ⟨"\n\x00\n".toList, List.all_iff_forall_prop.mp (by decide), by decide +kernel, by simp⟩

theorem extract_missingValue :
    String.ofList (aroundText frontModule missingValue backModule) =
        "import a from './a';\nconst x = ;\nimport b from './b';" ∧
      extract .typedModule false (String.ofList (aroundText frontModule missingValue backModule)) =
        [⟨"./a", .static⟩, ⟨"./b", .static⟩] ∧
      String.ofList (aroundText frontModule unsetConstant backModule) =
        "import a from './a';\nconst x;\nimport b from './b';" ∧
      ∃ between, frontModule.named ++ (between ++ backModule.named) <+: extract .typedModule false
        (String.ofList (aroundText frontModule unsetConstant backModule)) := by
  have hback : ∀ p ∈ backModule.parts, p.IsPlain := isPlain_defaultImport (by decide)
  have haround (chunk : Filler) := extract_around (a := frontModule) (b := backModule)
    (isNamed_defaultImport (by decide)) (isPlain_defaultImport (by decide))
    (isNamed_defaultImport (by decide)) chunk false
  have htree : (Source.parse? .typedModule
      (aroundText frontModule missingValue backModule)).filter Source.Program.isUsable = none :=
    Option.isNone_iff_eq_none.mp (by decide +kernel)
  -- Behind two statements the cursor stands where it would stand in front of the second module.
  have hplace : ((Source.leading (Source.rulesFor (aroundText frontModule unsetConstant backModule))
      2 (Source.Cursor.start .typedModule (aroundText frontModule unsetConstant backModule))).filter
        fun found => found.2.dialect = .typedModule ∧
          found.2 = found.2.moveTo true backModule.chars).isSome = true := by decide +kernel
  obtain ⟨⟨statements, c⟩, hplace⟩ := Option.isSome_iff_exists.mp hplace
  obtain ⟨hleading, hc⟩ := Option.filter_eq_some_iff.mp hplace
  obtain ⟨hdialect, hc⟩ := of_decide_eq_true hc
  exact ⟨by decide +kernel, (haround missingValue).2.1 htree, by decide +kernel,
    (haround unsetConstant).2.2 2 statements c hback hleading ⟨c, true, hdialect, hc⟩⟩

/-- At a character that begins no token, reading stops and the tree is kept: the declaration behind
the character is lost. -/
theorem extract_strayCharacter :
    String.ofList (aroundText frontModule strayCharacter backModule) =
        "import a from './a';\n\x00\nimport b from './b';" ∧
      (Source.parse? .typedModule (aroundText frontModule strayCharacter backModule)).map
        Source.Program.complete = some false ∧
      extract .typedModule false
          (String.ofList (aroundText frontModule strayCharacter backModule)) =
        frontModule.named ∧
      frontModule.named ≠ frontModule.named ++ backModule.named := by
  decide +kernel

end Sample

end ModuleGraph

import Mathlib.Data.List.Pairwise
import Mathlib.Data.Set.List
import ModuleGraph.Proofs.Scan.Literals
import ModuleGraph.Proofs.Scan.ModuleText

/-!
# The regions of a search

The search goes through any text, however broken, and whatever it finds is a region of the text: it
begins where a word may begin, with one of the words that announce a module, and ends with a quoted
request, behind which at most the parenthesis of a call follows.  The search goes on behind the
region, so regions follow one another without overlap.  No literal is found twice, then: the call at
the end of a renaming import belongs to the region of the import, and is no region of its own.

## Main definitions

* `Scan.Fit`: a text that a shape fits, taken apart.
* `Scan.Region`: a fit in the middle of a text, where a word may begin.

## Main results

* `Scan.exists_fit_of_shape?`: what the shapes fit.
* `Scan.exists_region_of_mem_hitsFrom`: what the search finds.
* `Scan.specifiers_regions`: the specifiers of a search by the regions of the text.
-/

namespace ModuleGraph.Scan

open Text

/-! ### What a shape fits -/

/-- The texts around a literal make it the argument of a call of `require` or `import`. -/
def IsCall (lead tail : List Char) : Prop :=
  ∃ front callee gap gap' gap'', lead = front ++ (callee ++ (gap ++ '(' :: gap')) ∧
    tail = gap'' ++ [')'] ∧ (callee = "require".toList ∨ callee = "import".toList) ∧
    ∀ c ∈ gap ++ gap' ++ gap'', isBlank c = true

/-- What stands between a literal and the end of its region: nothing, or the end of a call. -/
def Ends : Specifier.Form → List Char → List Char → Prop
  | .importEquals, lead, tail | .dynamic, lead, tail => IsCall lead tail
  | .static, _, tail | .typeOnly, _, tail | .reExport, _, tail => tail = []

/-- A text that a shape fits: a literal, with what stands in front of it and behind it. -/
structure Fit where
  form : Specifier.Form
  lead : List Char
  literal : Quoted
  tail : List Char
  announced : ∃ word ∈ shapeWords, word.toList <+: lead
  ends : Ends form lead tail

namespace Fit

/-- The text itself. -/
def text (f : Fit) : List Char := f.lead ++ (f.literal.text ++ f.tail)

/-- The specifier that is found in the text. -/
def specifier (f : Fit) : Specifier := ⟨String.ofList f.literal.request, f.form⟩

theorem length_lead_lt (f : Fit) : f.lead.length < f.text.length := by
  rw [text, List.length_append, List.length_append, Quoted.text, List.length_cons]
  omega

end Fit

section Shapes

variable {cs : List Char} {found : List Char × List Char}

/-- A declaration begins with its announcing word and ends with its literal. -/
theorem exists_fit_of_leadsTo (form : Specifier.Form) (hform : ∀ lead, Ends form lead [])
    {word : String} (hword : word ∈ shapeWords) (h : LeadsTo cs found) :
    ∃ f : Fit, f.specifier = ⟨String.ofList found.1, form⟩ ∧
      word.toList ++ cs = f.text ++ found.2 := by
  obtain ⟨lead, q, rfl, hrequest⟩ := h
  have hprefix : word.toList <+: word.toList ++ lead := List.prefix_append _ _
  refine ⟨⟨form, word.toList ++ lead, q, [], ⟨word, hword, hprefix⟩, hform _⟩, ?_, ?_⟩
  · rw [Fit.specifier, hrequest]
  · simp [Fit.text]

/-- A call ends with its parenthesis. -/
theorem exists_fit_of_call (form : Specifier.Form)
    (hform : ∀ lead tail, IsCall lead tail → Ends form lead tail) (front : List Char)
    {callee : List Char} (hcallee : callee = "require".toList ∨ callee = "import".toList)
    (hword : ∃ word ∈ shapeWords, word.toList <+: front ++ callee)
    (h : callArgument? cs = some found) :
    ∃ f : Fit, f.specifier = ⟨String.ofList found.1, form⟩ ∧
      front ++ (callee ++ cs) = f.text ++ found.2 := by
  obtain ⟨gap, gap', gap'', q, rfl, hrequest, hblank⟩ := exists_of_callArgument? h
  obtain ⟨word, hmem, hword⟩ := hword
  have hlead : word.toList <+: front ++ (callee ++ (gap ++ '(' :: gap')) := by
    rw [← List.append_assoc]
    exact hword.trans (List.prefix_append _ _)
  refine ⟨⟨form, front ++ (callee ++ (gap ++ '(' :: gap')), q, gap'' ++ [')'], ⟨word, hmem, hlead⟩,
    hform _ _ ⟨front, callee, gap, gap', gap'', rfl, rfl, hcallee, hblank⟩⟩, ?_, ?_⟩
  · rw [Fit.specifier, hrequest]
  · simp [Fit.text]

/-- A renaming import begins with its announcing words and ends with a call. -/
theorem exists_fit_of_importEquals? (h : importEquals? cs = some found) :
    ∃ f : Fit, f.specifier = ⟨String.ofList found.1, .importEquals⟩ ∧ cs = f.text ++ found.2 := by
  obtain ⟨front, hcs, hfront⟩ := exists_append_getD_blanks? "export".toList cs
  obtain ⟨behind, himport, hrest⟩ := Option.bind_eq_some_iff.mp h
  obtain ⟨spaced, hblanks, hrest⟩ := Option.bind_eq_some_iff.mp hrest
  obtain ⟨named, hname, hrest⟩ := Option.bind_eq_some_iff.mp hrest
  obtain ⟨value, hequals, hrest⟩ := Option.bind_eq_some_iff.mp hrest
  obtain ⟨call, hrequire, hcall⟩ := Option.bind_eq_some_iff.mp hrest
  -- What is left in front of the call ends what is left behind `import`.
  have hsuffix : "require".toList ++ call <:+ behind := by
    rw [← eq_append_of_after? hrequire]
    obtain ⟨name, hspaced, -⟩ := exists_append_of_name? hname
    exact (List.dropWhile_suffix _).trans ((suffix_of_after? hequals).trans
      ((List.dropWhile_suffix _).trans
        (List.IsSuffix.trans ⟨name, hspaced.symm⟩ (suffix_of_blanks? hblanks))))
  obtain ⟨inner, hinner⟩ := hsuffix
  rw [eq_append_of_after? himport, ← hinner] at hcs
  have hword : ∃ word ∈ shapeWords,
      word.toList <+: (front ++ ("import".toList ++ inner)) ++ "require".toList := by
    rcases hfront with rfl | ⟨blanks, rfl, -⟩
    · exact ⟨"import", by simp [shapeWords], by simp⟩
    · exact ⟨"export", by simp [shapeWords], by simp⟩
  obtain ⟨f, hspecifier, htext⟩ :=
    exists_fit_of_call .importEquals (fun _ _ => id) _ (.inl rfl) hword hcall
  exact ⟨f, hspecifier, by rw [hcs, ← htext]; simp⟩

/-- A call begins with the name of its function. -/
theorem exists_fit_of_dynamic? (h : dynamic? cs = some found) :
    ∃ f : Fit, f.specifier = ⟨String.ofList found.1, .dynamic⟩ ∧ cs = f.text ++ found.2 := by
  rw [dynamic?] at h
  split at h
  · next behind hrequire =>
    rw [eq_append_of_after? hrequire]
    exact exists_fit_of_call .dynamic (fun _ _ => id) [] (.inl rfl)
      ⟨"require", by simp [shapeWords], List.prefix_rfl⟩ h
  · obtain ⟨behind, himport, h⟩ := Option.bind_eq_some_iff.mp h
    rw [eq_append_of_after? himport]
    exact exists_fit_of_call .dynamic (fun _ _ => id) [] (.inr rfl)
      ⟨"import", by simp [shapeWords], List.prefix_rfl⟩ h

/-- What a shape fits is taken off the front of the text. -/
theorem exists_fit_of_shape? {s : Specifier} {rest : List Char} (h : shape? cs = some (s, rest)) :
    ∃ f : Fit, f.specifier = s ∧ cs = f.text ++ rest := by
  simp only [shape?, Option.or_eq_some_iff, Option.map_eq_some_iff, Prod.mk.injEq] at h
  rcases h with ⟨found, hequals, rfl, rfl⟩ | ⟨-, ⟨found, hexport, rfl, rfl⟩ |
    ⟨-, ⟨⟨⟨request, form⟩, rest⟩, hstatic, rfl, rfl⟩ | ⟨-, found, hdynamic, rfl, rfl⟩⟩⟩
  · exact exists_fit_of_importEquals? hequals
  · obtain ⟨behind, rfl, hleads⟩ := leadsTo_of_reExport? hexport
    exact exists_fit_of_leadsTo .reExport (fun _ => rfl) (by simp [shapeWords]) hleads
  · obtain ⟨behind, rfl, hleads, rfl | rfl⟩ := leadsTo_of_static? hstatic
    · exact exists_fit_of_leadsTo .typeOnly (fun _ => rfl) (by simp [shapeWords]) hleads
    · exact exists_fit_of_leadsTo .static (fun _ => rfl) (by simp [shapeWords]) hleads
  · exact exists_fit_of_dynamic? hdynamic

end Shapes

/-! ### Regions -/

/-- A region of a text. -/
structure Region (cs : List Char) where
  before : List Char
  fit : Fit
  behind : List Char
  text_eq : cs = before ++ (fit.text ++ behind)
  /-- No part of a word stands right in front of the region. -/
  boundary : ∀ c ∈ before.getLast?, isWordChar c = false

namespace Region

variable {cs : List Char}

/-- The number of characters in front of the region. -/
def start (r : Region cs) : Nat := r.before.length

/-- The number of characters in front of the literal. -/
def mark (r : Region cs) : Nat := r.before.length + r.fit.lead.length

/-- The number of characters up to the end of the region. -/
def stop (r : Region cs) : Nat := r.before.length + r.fit.text.length

/-- The region as the search gives it. -/
def hit (r : Region cs) : Hit := ⟨r.start, r.fit.text.length, r.fit.specifier⟩

theorem start_le_mark (r : Region cs) : r.start ≤ r.mark := Nat.le_add_right _ _

theorem mark_lt_stop (r : Region cs) : r.mark < r.stop :=
  Nat.add_lt_add_left r.fit.length_lead_lt _

end Region

theorem boundaryAfter_true_iff {cs : List Char} :
    boundaryAfter true cs = true ↔ ∀ c ∈ cs.getLast?, isWordChar c = false := by
  refine ⟨fun h c hc => ?_, boundaryAfter_true⟩
  rw [boundaryAfter, Option.mem_def.mp hc] at h
  simpa using h

theorem boundaryAfter_concat (boundary : Bool) (cs : List Char) (c : Char) :
    boundaryAfter boundary (cs ++ [c]) = !isWordChar c := by
  simp [boundaryAfter]

/-- Whatever the search finds in the rest of a text is a region of the text. -/
theorem exists_region_of_mem_hitsFrom {whole cs : List Char} {boundary : Bool} {skip pos : Nat}
    {h : Hit} (hmem : h ∈ hitsFrom boundary skip pos cs) (front : List Char)
    (hwhole : whole = front ++ cs) (hboundary : boundary = boundaryAfter true front)
    (hpos : pos = front.length) : ∃ r : Region whole, r.hit = h := by
  fun_induction hitsFrom boundary skip pos cs generalizing front with
  | case1 => simp at hmem
  | case2 boundary skip pos c cs ih =>
    exact ih hmem (front ++ [c]) (by simp [hwhole]) (boundaryAfter_concat true front c).symm
      (by simp [hpos])
  | case3 boundary pos c cs specifier rest hfits length ih =>
    rcases List.mem_cons.mp hmem with rfl | hmem
    · obtain ⟨rfl, hshape⟩ : boundary = true ∧ shape? (c :: cs) = some (specifier, rest) := by
        simpa using hfits
      obtain ⟨f, rfl, htext⟩ := exists_fit_of_shape? hshape
      have hlength : length = f.text.length := by
        rw [show length = (c :: cs).length - rest.length from rfl, htext, List.length_append]
        omega
      refine ⟨⟨front, f, rest, by rw [hwhole, htext], boundaryAfter_true_iff.mp hboundary.symm⟩, ?_⟩
      rw [Region.hit, hlength, hpos]
      rfl
    · exact ih hmem (front ++ [c]) (by simp [hwhole]) (boundaryAfter_concat true front c).symm
        (by simp [hpos])
  | case4 boundary pos c cs _ ih =>
    exact ih hmem (front ++ [c]) (by simp [hwhole]) (boundaryAfter_concat true front c).symm
      (by simp [hpos])

theorem le_start_of_mem_hitsFrom {boundary : Bool} {skip pos : Nat} {cs : List Char} {h : Hit}
    (hmem : h ∈ hitsFrom boundary skip pos cs) : pos + skip ≤ h.start := by
  fun_induction hitsFrom boundary skip pos cs with
  | case1 => simp at hmem
  | case2 boundary skip pos c cs ih =>
    have hstart := ih hmem
    omega
  | case3 boundary pos c cs specifier rest hfits length ih =>
    rcases List.mem_cons.mp hmem with rfl | hmem
    · exact Nat.le_refl pos
    · have hstart := ih hmem
      omega
  | case4 boundary pos c cs _ ih =>
    have hstart := ih hmem
    omega

/-- The search goes on behind each region that it finds. -/
theorem pairwise_hitsFrom (boundary : Bool) (skip pos : Nat) (cs : List Char) :
    (hitsFrom boundary skip pos cs).Pairwise fun a b => a.start + a.length ≤ b.start := by
  fun_induction hitsFrom boundary skip pos cs with
  | case1 => exact .nil
  | case2 boundary skip pos c cs ih => exact ih
  | case3 boundary pos c cs specifier rest hfits length ih =>
    refine .cons (fun b hb => ?_) ih
    have hstart := le_start_of_mem_hitsFrom hb
    dsimp only
    omega
  | case4 boundary pos c cs _ ih => exact ih

/-! ### All regions of a text -/

section Regions

variable {cs : List Char} {regions : List (Region cs)}

/-- What is wanted of a search belongs to regions that follow one another. -/
theorem exists_regions (cs : List Char) (isWanted : Hit → Bool) :
    ∃ regions : List (Region cs), regions.map Region.hit = (hits cs).filter isWanted ∧
      regions.Pairwise fun a b => a.stop ≤ b.start := by
  obtain ⟨regions, hregions⟩ : ∃ regions : List (Region cs),
      regions.map Region.hit = (hits cs).filter isWanted := by
    rw [← Set.mem_range, Set.range_list_map]
    intro h hmem
    exact exists_region_of_mem_hitsFrom (List.mem_of_mem_filter hmem) [] rfl rfl rfl
  have hhits := (pairwise_hitsFrom true 0 0 cs).filter isWanted
  rw [← hits, ← hregions, List.pairwise_map] at hhits
  exact ⟨regions, hregions, hhits⟩

/-- Regions that follow one another hold different literals. -/
theorem nodup_map_mark (h : regions.Pairwise fun a b => a.stop ≤ b.start) :
    (regions.map Region.mark).Nodup := by
  rw [List.nodup_iff_pairwise_ne, List.pairwise_map]
  refine h.imp fun {a b} h => ?_
  have hmark := a.mark_lt_stop
  have hstart := b.start_le_mark
  omega

/-- Regions of different forms are apart. -/
theorem apart_of_form_ne (h : regions.Pairwise fun a b => a.stop ≤ b.start) {a b : Region cs}
    (ha : a ∈ regions) (hb : b ∈ regions) (hform : a.fit.form ≠ b.fit.form) :
    a.stop ≤ b.start ∨ b.stop ≤ a.start := by
  have happart : regions.Pairwise fun a b => a.stop ≤ b.start ∨ b.stop ≤ a.start :=
    h.imp fun {_ _} h => .inl h
  have hsymm : Std.Symm fun a b : Region cs => a.stop ≤ b.start ∨ b.stop ≤ a.start :=
    ⟨fun _ _ => Or.symm⟩
  exact happart.forall ha hb fun heq => hform (by rw [heq])

end Regions

/-- The specifiers that the search finds in a text belong to regions of the text, one to each.  The
regions follow one another without overlap, so no literal is found twice.  In particular the call
at the end of a renaming import, which belongs to the region of the import, is not found as a
call. -/
theorem specifiers_regions (text : String) (dynamic : Bool) :
    ∃ regions : List (Region (Comment.stripChars text.toList)),
      regions.map Region.hit =
        (hits (Comment.stripChars text.toList)).filter (fun h => wanted dynamic h.specifier) ∧
      specifiers text dynamic = regions.map (fun r => r.fit.specifier) ∧
      regions.Pairwise (fun a b => a.start < a.stop ∧ a.stop ≤ b.start) ∧
      (regions.map Region.mark).Nodup ∧
      ∀ a ∈ regions, ∀ b ∈ regions, a.fit.form = .importEquals → b.fit.form = .dynamic →
        a.stop ≤ b.start ∨ b.stop ≤ a.start := by
  obtain ⟨regions, hregions, hpairwise⟩ :=
    exists_regions (Comment.stripChars text.toList) fun h => wanted dynamic h.specifier
  refine ⟨regions, hregions, ?_, ?_, nodup_map_mark hpairwise, ?_⟩
  · have hspecifiers := congrArg (List.map Hit.specifier) hregions
    rw [List.map_map] at hspecifiers
    rw [specifiers, List.filter_map]
    exact hspecifiers.symm
  · exact hpairwise.imp fun {a b} h =>
      ⟨Nat.lt_of_le_of_lt a.start_le_mark a.mark_lt_stop, h⟩
  · intro a ha b hb hequals hdynamic
    exact apart_of_form_ne hpairwise ha hb (by simp [hequals, hdynamic])

/-- A renaming import with an export in front of it, calls of both kinds, and text that is broken
off. -/
example : specifiers "export import x = require( \"y\" );$import('z' )\nimport 'w" true =
    [⟨"y", .importEquals⟩, ⟨"z", .dynamic⟩] := by
  decide +kernel

end ModuleGraph.Scan

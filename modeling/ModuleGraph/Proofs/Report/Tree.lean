import Mathlib.Data.List.Basic
import ModuleGraph.Report

/-!
# Reading the tree of a graph

The tree report is free text: a key may look like a connector, like a row of dashes or like the
heading of another module.  It can be read nevertheless, as long as no text of the graph has a line
feed.  Where a module may begin there is its heading, which has a bracket, or the row of dashes in
front of the summary, which has none.  A heading ends with the number of dependencies in brackets,
and what stands in front of them is the key.  The number tells how many lines follow.  So the tree
of a module ends where it says, whatever stands behind it, and a graph is read module by module.

## Main definitions

* `Graph.texts`: the texts that a graph is made of.
* `Report.heading`, `Report.block`: the first line of the tree of a module, and the whole of it.

## Main results

* `Report.eq_of_append_cons_eq`: a text is read up to a character that it does not have.
* `Report.eq_of_block_append_eq`: the tree of a module is read in front of any text.
* `Report.tree_determines`: different graphs have different reports.
-/

namespace ModuleGraph

/-- The texts of a module: its key and its dependencies. -/
def Graph.Entry.texts (e : Graph.Entry) : List String := e.key :: e.dependencies

/-- The texts of a graph: its root and those of its modules. -/
def Graph.texts (g : Graph) : List String := g.root.text :: g.entries.flatMap Graph.Entry.texts

theorem Graph.Entry.mem_texts_key (e : Graph.Entry) : e.key ∈ e.texts := List.mem_cons_self

theorem Graph.mem_texts_root (g : Graph) : g.root.text ∈ g.texts := List.mem_cons_self

theorem Graph.mem_texts_entry {g : Graph} {e : Graph.Entry} {s : String} (he : e ∈ g.entries)
    (hs : s ∈ e.texts) : s ∈ g.texts :=
  List.mem_cons_of_mem _ (List.mem_flatMap.mpr ⟨e, he, hs⟩)

namespace Report

/-! ### Reading up to a character -/

section Reading

variable {a b x y : List Char} {c : Char}

/-- Text that does not have a character is wholly in front of it. -/
theorem exists_eq_append_of_notMem (ha : c ∉ a) (h : a ++ x = b ++ c :: y) :
    ∃ more, b = a ++ more ∧ x = more ++ c :: y := by
  rcases List.append_eq_append_iff.mp h with ⟨more, hb, hx⟩ | ⟨more, hab, hy⟩
  · exact ⟨more, hb, hx⟩
  · cases more with
    | nil => exact ⟨[], by simpa using hab.symm, by simpa using hy.symm⟩
    | cons d more =>
      obtain ⟨rfl, -⟩ := List.cons.inj hy
      exact absurd (hab ▸ List.mem_append_right b List.mem_cons_self) ha

/-- A text is read up to a character that it does not have. -/
theorem eq_of_append_cons_eq (ha : c ∉ a) (hb : c ∉ b) (h : a ++ c :: x = b ++ c :: y) :
    a = b ∧ x = y := by
  obtain ⟨more, rfl, hmore⟩ := exists_eq_append_of_notMem ha h
  cases more with
  | nil => exact ⟨(List.append_nil a).symm, (List.cons.inj hmore).2⟩
  | cons d more =>
    obtain ⟨rfl, -⟩ := List.cons.inj hmore
    exact absurd (List.mem_append_right a List.mem_cons_self) hb

end Reading

/-! ### Headings -/

/-- How a heading tells the number of dependencies. -/
def countText : Nat → List Char
  | 0 => "no".toList
  | n + 1 => Nat.toDigits 10 (n + 1)

/-- The first line of the tree of a module. -/
def heading (e : Graph.Entry) : List Char :=
  e.key.toList ++ ' ' :: '(' :: (countText e.dependencies.length ++ " dependencies)".toList)

/-- A number is told in letters if there is nothing to count, and in digits otherwise. -/
theorem isDigit_of_mem_countText {n : Nat} {c : Char} (h : c ∈ countText n) :
    c.isDigit = decide (n ≠ 0) := by
  cases n with
  | zero =>
    have hword : c = 'n' ∨ c = 'o' := by simpa [countText] using h
    rcases hword with rfl | rfl <;> rfl
  | succ n => simpa using Nat.isDigit_of_mem_toDigits (by decide) (by decide) h

theorem letter_mem_countText_iff {n : Nat} : 'n' ∈ countText n ↔ n = 0 := by
  constructor
  · intro h
    simpa using isDigit_of_mem_countText h
  · rintro rfl
    exact List.mem_cons_self

theorem bracket_notMem_countText (n : Nat) : '(' ∉ countText n := by
  intro h
  cases n with
  | zero => simp [countText] at h
  | succ n => simpa using isDigit_of_mem_countText h

theorem countText_injective : Function.Injective countText := by
  intro n m h
  have hzero : n = 0 ↔ m = 0 := by
    rw [← letter_mem_countText_iff, ← letter_mem_countText_iff, h]
  cases n with
  | zero => exact (hzero.mp rfl).symm
  | succ n =>
    obtain ⟨k, rfl⟩ := Nat.exists_eq_succ_of_ne_zero (mt hzero.mpr n.succ_ne_zero)
    have hvalue := congrArg (Nat.ofDigitChars 10 · 0) h
    simpa [countText] using hvalue

/-- A heading tells the key and the number of dependencies. -/
theorem eq_of_heading_eq {e e' : Graph.Entry} (h : heading e = heading e') :
    e.key = e'.key ∧ e.dependencies.length = e'.dependencies.length := by
  have hreverse := congrArg List.reverse h
  simp only [heading, List.reverse_append, List.reverse_cons, List.append_assoc,
    List.singleton_append, List.append_cancel_left_eq] at hreverse
  obtain ⟨hcount, hkey⟩ := eq_of_append_cons_eq (by simpa using bracket_notMem_countText _)
    (by simpa using bracket_notMem_countText _) hreverse
  refine ⟨?_, countText_injective (List.reverse_injective hcount)⟩
  rw [← String.toList_inj]
  simpa using hkey

/-- A heading is one line if its key is. -/
theorem newline_notMem_heading {e : Graph.Entry} (h : '\n' ∉ e.key.toList) : '\n' ∉ heading e := by
  have hcount : '\n' ∉ countText e.dependencies.length := by
    intro hmem
    cases hn : e.dependencies.length with
    | zero => simp [countText, hn] at hmem
    | succ n => simpa [hn] using isDigit_of_mem_countText hmem
  simp [heading, h, hcount]

/-! ### The tree of a module -/

theorem plain_append (rs ts : List Run) : plain (rs ++ ts) = plain rs ++ plain ts :=
  List.flatMap_append

/-- The connector in front of a dependency, given the number of those that follow. -/
def connector : Nat → List Char
  | 0 => "└──".toList
  | _ + 1 => "├──".toList

theorem plain_branches_cons (d : String) (ds : List String) :
    plain (branches (d :: ds)) =
      connector ds.length ++ ' ' :: ' ' :: (d.toList ++ '\n' :: plain (branches ds)) := by
  cases ds <;> simp [branches, plain, connector, styled, text]

/-- The lines of the dependencies are read if their number is known. -/
theorem eq_of_branches_append_eq {ds es : List String} {x y : List Char}
    (hds : ∀ d ∈ ds, '\n' ∉ d.toList) (hes : ∀ e ∈ es, '\n' ∉ e.toList)
    (hlength : ds.length = es.length)
    (h : plain (branches ds) ++ x = plain (branches es) ++ y) : ds = es ∧ x = y := by
  induction ds generalizing es with
  | nil =>
    obtain rfl := List.eq_nil_of_length_eq_zero hlength.symm
    exact ⟨rfl, h⟩
  | cons d ds ih =>
    obtain ⟨e, es, rfl⟩ := List.exists_cons_of_length_eq_add_one hlength.symm
    rw [List.forall_mem_cons] at hds hes
    have hrest : ds.length = es.length := Nat.succ.inj hlength
    rw [plain_branches_cons, plain_branches_cons, hrest] at h
    simp only [List.append_assoc, List.cons_append, List.append_cancel_left_eq, List.cons.injEq,
      true_and] at h
    obtain ⟨hd, hmore⟩ := eq_of_append_cons_eq hds.1 hes.1 h
    obtain ⟨rfl, hbehind⟩ := ih hds.2 hes.2 hrest hmore
    exact ⟨congrArg (· :: ds) (String.toList_inj.mp hd), hbehind⟩

/-- The tree of a module, with the blank line behind it. -/
def block (e : Graph.Entry) : List Char := plain (dependencies e ++ [text "\n"])

theorem block_eq (e : Graph.Entry) :
    block e = heading e ++ '\n' :: (plain (branches e.dependencies) ++ ['\n']) := by
  rw [block, plain_append, dependencies, heading]
  cases hd : e.dependencies with
  | nil => simp [plain, styled, text, branches, countText]
  | cons d ds => simp [plain, styled, text, number, countText]

/-- The tree of a module is read in front of any text. -/
theorem eq_of_block_append_eq {e e' : Graph.Entry} {x y : List Char}
    (he : ∀ s ∈ e.texts, '\n' ∉ s.toList) (he' : ∀ s ∈ e'.texts, '\n' ∉ s.toList)
    (h : block e ++ x = block e' ++ y) : e = e' ∧ x = y := by
  rw [Graph.Entry.texts, List.forall_mem_cons] at he he'
  simp only [block_eq, List.append_assoc, List.cons_append] at h
  obtain ⟨hheading, hbehind⟩ := eq_of_append_cons_eq (newline_notMem_heading he.1)
    (newline_notMem_heading he'.1) h
  obtain ⟨hkey, hlength⟩ := eq_of_heading_eq hheading
  obtain ⟨hdependencies, hrest⟩ := eq_of_branches_append_eq he.2 he'.2 hlength hbehind
  exact ⟨congrArg₂ Graph.Entry.mk hkey hdependencies, (List.cons.inj hrest).2⟩

/-! ### The tree of a graph -/

/-- The row of dashes between the modules and the summary. -/
def dashes : List Char := List.replicate 60 '─'

/-- The summary begins where a module might, with a line that is no heading. -/
theorem exists_summary_eq (g : Graph) : ∃ counts, plain (summary g) = dashes ++ '\n' :: counts :=
  ⟨_, rfl⟩

theorem block_append_ne_dashes {e : Graph.Entry} (he : '\n' ∉ e.key.toList) (x y : List Char) :
    block e ++ x ≠ dashes ++ '\n' :: y := by
  intro h
  simp only [block_eq, List.append_assoc, List.cons_append] at h
  have hdashes : '\n' ∉ dashes := by decide
  obtain ⟨hheading, -⟩ := eq_of_append_cons_eq (newline_notMem_heading he) hdashes h
  have hbracket : '(' ∈ dashes := by
    rw [← hheading, heading]
    simp
  exact absurd hbracket (by decide)

/-- The modules of a graph are read up to the row of dashes. -/
theorem eq_of_blocks_append_eq {es es' : List Graph.Entry} {x y : List Char}
    (hes : ∀ e ∈ es, ∀ s ∈ e.texts, '\n' ∉ s.toList)
    (hes' : ∀ e ∈ es', ∀ s ∈ e.texts, '\n' ∉ s.toList)
    (h : es.flatMap block ++ (dashes ++ '\n' :: x) = es'.flatMap block ++ (dashes ++ '\n' :: y)) :
    es = es' := by
  induction es generalizing es' with
  | nil =>
    cases es' with
    | nil => rfl
    | cons e' es' =>
      rw [List.flatMap_cons, List.append_assoc] at h
      have hkey := hes' _ List.mem_cons_self _ e'.mem_texts_key
      exact absurd h.symm (block_append_ne_dashes hkey _ _)
  | cons e es ih =>
    rw [List.forall_mem_cons] at hes
    rw [List.flatMap_cons, List.append_assoc] at h
    cases es' with
    | nil => exact absurd h (block_append_ne_dashes (hes.1 _ e.mem_texts_key) _ _)
    | cons e' es' =>
      rw [List.forall_mem_cons] at hes'
      rw [List.flatMap_cons, List.append_assoc] at h
      obtain ⟨rfl, hrest⟩ := eq_of_block_append_eq hes.1 hes'.1 h
      rw [ih hes.2 hes'.2 hrest]

theorem plain_tree (g : Graph) :
    plain (tree g) = '●' :: ' ' :: (g.root.text.toList ++ '\n' :: '\n' ::
      (g.entries.flatMap block ++ plain (summary g))) := by
  have hblocks : plain (g.entries.flatMap fun e => dependencies e ++ [text "\n"]) =
      g.entries.flatMap block := List.flatMap_assoc
  rw [tree, plain_append, plain_append, hblocks]
  simp [plain, styled, text]

/-- The tree report tells a graph whose texts have no line feed, whatever else they look like:
another such graph with the same report has the same root and the same modules in the same order,
each with the same dependencies in the same order. -/
theorem tree_determines {g g' : Graph} (hg : ∀ s ∈ g.texts, '\n' ∉ s.toList)
    (hg' : ∀ s ∈ g'.texts, '\n' ∉ s.toList) :
    render false (tree g) = render false (tree g') ↔ g = g' := by
  refine ⟨fun h => ?_, fun h => by rw [h]⟩
  have htext : plain (tree g) = plain (tree g') := String.ofList_inj.mp h
  rw [plain_tree, plain_tree] at htext
  obtain ⟨hroot, hbehind⟩ := eq_of_append_cons_eq (hg _ g.mem_texts_root) (hg' _ g'.mem_texts_root)
    (List.cons.inj (List.cons.inj htext).2).2
  obtain ⟨counts, hcounts⟩ := exists_summary_eq g
  obtain ⟨counts', hcounts'⟩ := exists_summary_eq g'
  rw [hcounts, hcounts'] at hbehind
  have hentries := eq_of_blocks_append_eq
    (fun e he s hs => hg s (Graph.mem_texts_entry he hs))
    (fun e he s hs => hg' s (Graph.mem_texts_entry he hs)) (List.cons.inj hbehind).2
  have hpath : g.root = g'.root := congrArg Path.mk (String.toList_inj.mp hroot)
  exact congrArg₂ Graph.mk hpath hentries

/-- A graph whose texts look like the lines of a report: a heading, connectors, a row of dashes and
the title of the summary. -/
def lookalikes (key : String) : Graph :=
  ⟨⟨"● (no dependencies)"⟩, [⟨key, ["└──  b", "(2 dependencies)", ""]⟩,
    ⟨String.ofList dashes, []⟩, ⟨"Summary", []⟩]⟩

/-- A module that is called like the heading of another is told from it. -/
theorem tree_determines_lookalikes :
    (∀ s ∈ (lookalikes "├──  a").texts, '\n' ∉ s.toList) ∧
    (∀ s ∈ (lookalikes "├──  a (no dependencies)").texts, '\n' ∉ s.toList) ∧
    render false (tree (lookalikes "├──  a")) ≠
      render false (tree (lookalikes "├──  a (no dependencies)")) := by
  have hlines : (∀ s ∈ (lookalikes "├──  a").texts, '\n' ∉ s.toList) ∧
      ∀ s ∈ (lookalikes "├──  a (no dependencies)").texts, '\n' ∉ s.toList := by
    decide +kernel
  exact ⟨hlines.1, hlines.2, fun h =>
    absurd ((tree_determines hlines.1 hlines.2).mp h) (by simp [lookalikes])⟩

end Report

end ModuleGraph

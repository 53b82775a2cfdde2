import Mathlib.Data.List.Induction
import ModuleGraph.Proofs.Files.Canonical

/-!
# What a lexical normal form ends with

The lexical normal form works off `..` from the front: names are put on a stack, and each `..` takes
one back.  What it ends with can also be told from the back, without a stack: go over the components
from the last one, count the `..`, let each name pay for one of them, and stop at the first name
that has nothing to pay for.

## Main definitions

* `Path.standing?`: the name that components end with, told from the back.

## Main results

* `Path.components_clean`: what the text of a lexical normal form means.
* `Path.getLast?_components_clean_iff`: the two ways agree.
-/

namespace ModuleGraph.Path

/-- The name that components end with once `..` has been worked off.  The components are given from
the last to the first, and the number tells how many `..` have not been paid for. -/
def standing? : Nat → List Component → Option String
  | _, [] => none
  | _, .root :: _ => none
  | n, .here :: before => standing? n before
  | n, .up :: before => standing? (n + 1) before
  | 0, .name text :: _ => some text
  | n + 1, .name _ :: before => standing? n before

/-- The names on top of a stack. -/
def topNames : List Component → List String
  | .name text :: done => text :: topNames done
  | _ => []

/-- A `..` takes back the topmost name, and nothing else. -/
theorem topNames_cleanStep_up (done : List Component) :
    topNames (cleanStep done .up) = (topNames done).tail := by
  match done with
  | [] => rfl
  | .root :: _ => rfl
  | .here :: _ => rfl
  | .up :: _ => rfl
  | .name _ :: _ => rfl

/-- The names on top of the stack, counted from the top, are those told from the back. -/
theorem standing?_reverse (n : Nat) (cs : List Component) :
    standing? n cs.reverse = (topNames (cs.foldl cleanStep []))[n]? := by
  -- One more component at the end is one step on the stack, and the first one met from the back.
  induction cs using List.reverseRecOn generalizing n with
  | nil => simp [standing?, topNames]
  | append_singleton cs c ih =>
    rw [List.reverse_append, List.reverse_singleton, List.singleton_append, List.foldl_append,
      List.foldl_cons, List.foldl_nil]
    cases c with
    | root => simp [standing?, cleanStep, topNames]
    | here => rw [standing?, ih, cleanStep]
    | up => rw [standing?, ih, topNames_cleanStep_up, List.getElem?_tail]
    | name text =>
      cases n with
      | zero => simp [standing?, cleanStep, topNames]
      | succ n => simp [standing?, cleanStep, topNames, ih]

theorem head?_eq_name_iff {done : List Component} {text : String} :
    done.head? = some (.name text) ↔ (topNames done)[0]? = some text := by
  match done with
  | [] => simp [topNames]
  | .root :: _ => simp [topNames]
  | .here :: _ => simp [topNames]
  | .up :: _ => simp [topNames]
  | .name _ :: _ => simp [topNames]

/-- The components of a path that does not start at the root are worked off like those of its
text. -/
theorem cleanComponents_of_not_isAbsolute {p : Path} (hp : p.isAbsolute = false) :
    cleanComponents p.components = ((body p.text.toList).foldl cleanStep []).reverse := by
  rw [cleanComponents, components_eq_lead_body]
  have hlead : (splitLead p.text.toList).1.toList = [] ∨
      (splitLead p.text.toList).1.toList = [.here] := by
    unfold splitLead
    split
    · next rest hslash => simp [isAbsolute, hslash] at hp
    · exact .inr rfl
    · exact .inr rfl
    · exact .inl rfl
  rcases hlead with hlead | hlead
  · rw [hlead, List.nil_append]
  · rw [hlead, List.singleton_append, List.foldl_cons]
    rfl

/-- What the text of a lexical normal form means. -/
theorem components_clean {p : Path} (hne : cleanComponents p.components ≠ []) :
    p.clean.components = cleanComponents p.components := by
  have hclean : p.clean = ofComponents (cleanComponents p.components) := by
    rw [clean]
    split
    · next hnil => exact absurd hnil hne
    · rfl
  rw [hclean]
  cases hp : p.isAbsolute with
  | true =>
    obtain ⟨cs, rfl⟩ := isAbsolute_iff.mp hp
    have hcs : ∀ c ∈ body cs, c.IsProper := fun c => isProper_of_mem_body
    obtain ⟨names, hnames, hproper⟩ := exists_cleanComponents_root hcs
    rw [components_slash, hnames, components_ofComponents_root hproper]
  | false =>
    refine components_ofComponents hne fun c hc => ?_
    rw [cleanComponents_of_not_isAbsolute hp, List.mem_reverse] at hc
    rcases mem_of_mem_foldl_cleanStep hc with hnil | hbody
    · cases hnil
    · exact isProper_of_mem_body hbody

/-- A lexical normal form ends with the name that is told from the back. -/
theorem getLast?_components_clean_iff {p : Path} {text : String} :
    p.clean.components.getLast? = some (.name text) ↔
      standing? 0 p.components.reverse = some text := by
  have hlast : (cleanComponents p.components).getLast? = some (.name text) ↔
      standing? 0 p.components.reverse = some text := by
    rw [cleanComponents, List.getLast?_reverse, head?_eq_name_iff, standing?_reverse]
  by_cases hne : cleanComponents p.components = []
  · have hdot : p.clean.components.getLast? = some .here := by
      rw [clean, hne]
      decide
    rw [← hlast, hne, hdot]
    simp
  · rw [components_clean hne, hlast]

end ModuleGraph.Path

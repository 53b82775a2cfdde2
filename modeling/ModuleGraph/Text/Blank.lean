/-!
# Blank characters

The characters that count as white space between words: the ASCII blanks from tab to carriage
return, the space, and the space separators of the rest of the code space.

## Main definitions

* `Text.isBlank`: the class of blank characters.
* `Text.trimBlanks`, `Text.trimBlanksEnd`: a text without its leading or trailing blanks.

## Main results

* `Text.trimBlanks_append`, `Text.exists_append_trimBlanks`: what is left behind leading blanks.
-/

namespace ModuleGraph.Text

/-- Whether a character is white space. -/
def isBlank (c : Char) : Bool :=
  c == ' ' || (Nat.ble 9 c.toNat && Nat.ble c.toNat 13) || c.toNat == 0x85 || c.toNat == 0xA0 ||
    c.toNat == 0x1680 || (Nat.ble 0x2000 c.toNat && Nat.ble c.toNat 0x200A) ||
    c.toNat == 0x2028 || c.toNat == 0x2029 || c.toNat == 0x202F || c.toNat == 0x205F ||
    c.toNat == 0x3000

/-- A text without its leading blanks. -/
def trimBlanks (cs : List Char) : List Char := cs.dropWhile isBlank

/-- A text without its trailing blanks. -/
def trimBlanksEnd (cs : List Char) : List Char := (cs.reverse.dropWhile isBlank).reverse

theorem trimBlanks_append {blanks : List Char} (hblanks : ∀ b ∈ blanks, isBlank b = true) {c : Char}
    (hc : isBlank c = false) (rest : List Char) :
    trimBlanks (blanks ++ c :: rest) = c :: rest := by
  rw [trimBlanks, List.dropWhile_append_of_pos hblanks, List.dropWhile_cons_of_neg (by simp [hc])]

theorem exists_append_trimBlanks (cs : List Char) :
    ∃ blanks, cs = blanks ++ trimBlanks cs ∧ ∀ c ∈ blanks, isBlank c = true :=
  ⟨cs.takeWhile isBlank, List.takeWhile_append_dropWhile.symm,
    List.all_eq_true.mp List.all_takeWhile⟩

end ModuleGraph.Text

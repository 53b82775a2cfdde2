import ModuleGraph.Text.Letters

/-!
# Word characters and identifier characters

A *word* character is a letter, mark, decimal digit, connector, circled letter or joiner; a word
boundary lies where exactly one neighbour is one.  An *identifier* character is what may start or
continue the name of a binding in program text, which differs from a word character by the sign `$`,
by what the newest edition of the character set has added, and by a handful of code points that are
kept or excluded for the stability of names.

## Main definitions

* `Text.isWordChar`: letters, marks, digits, connectors and joiners.
* `Text.isNameStart`, `Text.isNamePart`: the first and the later characters of a name.
-/

namespace ModuleGraph.Text

/-- Whether a character is an ASCII letter, digit or underscore. -/
def isAsciiWord (c : Char) : Bool := c.isAlphanum || c == '_'

/-- The zero-width joiner and non-joiner. -/
def isJoiner (n : Nat) : Bool := n == 0x200C || n == 0x200D

/-- Letters and letter numbers above the ASCII range. -/
def isLetterPoint (n : Nat) : Bool := inRanges letterRanges n

/-- Marks, decimal digits and connectors above the ASCII range. -/
def isMarkPoint (n : Nat) : Bool := inRanges markRanges n

/-- Enclosed letters, which are symbols that still count as parts of words. -/
def circledRanges : List (Nat × Nat) :=
  [(0x24B6, 0x24E9), (0x1F130, 0x1F149), (0x1F150, 0x1F169), (0x1F170, 0x1F189)]

/-- Enclosing marks, which belong to words but to no name. -/
def enclosingRanges : List (Nat × Nat) :=
  [(0x488, 0x489), (0x1ABE, 0x1ABE), (0x20DD, 0x20E0), (0x20E2, 0x20E4), (0xA670, 0xA672)]

/-- Symbols that may start a name although they are no letters. -/
def extraNameStarts : List (Nat × Nat) :=
  [(0x1885, 0x1886), (0x2118, 0x2118), (0x212E, 0x212E), (0x309B, 0x309C)]

/-- Points and digits that may continue a name although they are no marks or decimal digits. -/
def extraNameParts : List (Nat × Nat) :=
  [(0xB7, 0xB7), (0x387, 0x387), (0x1369, 0x1371), (0x19DA, 0x19DA), (0x30FB, 0x30FB),
    (0xFF65, 0xFF65)]

/-- Whether a character belongs to a word.  What has been added last does not yet. -/
def isWordChar (c : Char) : Bool :=
  if c.toNat < 128 then isAsciiWord c
  else ((isLetterPoint c.toNat || isMarkPoint c.toNat) && !inRanges recentRanges c.toNat) ||
    inRanges circledRanges c.toNat || isJoiner c.toNat

/-- Whether a code point above the ASCII range may start a name.  The vertical tilde `0x2E2F` is a
letter that is reserved for patterns. -/
def isNameStartPoint (n : Nat) : Bool :=
  (isLetterPoint n && n != 0x2E2F) || inRanges extraNameStarts n

/-- Whether a character may start a name. -/
def isNameStart (c : Char) : Bool :=
  if c.toNat < 128 then c.isAlpha || c == '_' || c == '$' else isNameStartPoint c.toNat

/-- Whether a character may continue a name. -/
def isNamePart (c : Char) : Bool :=
  if c.toNat < 128 then isAsciiWord c || c == '$'
  else isNameStartPoint c.toNat || (isMarkPoint c.toNat && !inRanges enclosingRanges c.toNat) ||
    inRanges extraNameParts c.toNat || isJoiner c.toNat

end ModuleGraph.Text

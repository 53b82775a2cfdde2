import ModuleGraph.Comment
import ModuleGraph.Specifier
import ModuleGraph.Text.Word

/-!
# Finding imports by their shape

Text that has no syntax tree is searched for pieces that look like imports.  The text is first freed
of comments.  Then, from left to right, each place where a word may begin is tried against four
shapes in a fixed order, and the search goes on behind the first one that fits:

1. `import name = require("x")`, perhaps exported;
2. `export * from "x"`, `export * as name from "x"` and `export {…} from "x"`, perhaps of types;
3. `import "x"` and `import … from "x"`, perhaps of types;
4. `require("x")` and `import("x")`.

A request holds at least one character, and no quote mark and no line feed; its two marks need not
agree.

## Main definitions

* `Scan.Hit`: a region of the text with the specifier found in it.
* `Scan.importEquals?`, `Scan.reExport?`, `Scan.static?`, `Scan.dynamic?`: the four shapes.
* `Scan.hits`: all regions, in order.
* `Scan.specifiers`: the specifiers of a text.
-/

namespace ModuleGraph.Scan

open Text

/-- What is left of a text behind a given beginning. -/
def after? : List Char → List Char → Option (List Char)
  | [], cs => some cs
  | w :: ws, c :: cs => if w == c then after? ws cs else none
  | _ :: _, [] => none

/-- What is left of a text behind its leading blanks, of which there must be one. -/
def blanks? (cs : List Char) : Option (List Char) :=
  if (cs.head?.map isBlank).getD false then some (trimBlanks cs) else none

/-- Whether a character may stand in the name of a binding. -/
def isBindingChar (c : Char) : Bool := isWordChar c || c == '$'

/-- What is left of a text behind its leading name, which must not be empty. -/
def name? (cs : List Char) : Option (List Char) :=
  if (cs.head?.map isBindingChar).getD false then some (cs.dropWhile isBindingChar) else none

/-- Whether a character encloses a request. -/
def isMark (c : Char) : Bool := c == '"' || c == '\''

/-- Whether a character may stand in a request. -/
def isRequestChar (c : Char) : Bool := !isMark c && c != '\n'

/-- The request that a text begins with, and what is left behind its closing mark. -/
def literal? : List Char → Option (List Char × List Char)
  | [] => none
  | c :: cs =>
    let request := cs.takeWhile isRequestChar
    match isMark c, request.isEmpty, cs.dropWhile isRequestChar with
    | true, false, close :: rest => if isMark close then some (request, rest) else none
    | _, _, _ => none

/-- The request of a call whose name has just been read, and what is left behind the call. -/
def callArgument? (cs : List Char) : Option (List Char × List Char) := do
  let cs ← after? ['('] (trimBlanks cs)
  let (request, cs) ← literal? (trimBlanks cs)
  let cs ← after? [')'] (trimBlanks cs)
  some (request, cs)

/-- The request behind the word `from`, and what is left behind it. -/
def source? (cs : List Char) : Option (List Char × List Char) := do
  let cs ← after? "from".toList (trimBlanks cs)
  literal? (trimBlanks cs)

/-- The shape `import name = require("x")`, perhaps behind `export`. -/
def importEquals? (cs : List Char) : Option (List Char × List Char) := do
  let cs := ((after? "export".toList cs).bind blanks?).getD cs
  let cs ← blanks? (← after? "import".toList cs)
  let cs ← after? ['='] (trimBlanks (← name? cs))
  callArgument? (← after? "require".toList (trimBlanks cs))

/-- The request behind the name of a whole-module export.  Where no word `from` follows the name, it
may be the end of the name itself. -/
def namedSource? (cs : List Char) : Option (List Char × List Char) :=
  let name := cs.takeWhile isBindingChar
  let rest := cs.dropWhile isBindingChar
  match source? rest with
  | some found => some found
  | none =>
    if 4 < name.length && name.drop (name.length - 4) == "from".toList then
      literal? (trimBlanks rest)
    else none

/-- The request of an export of all names, behind its star. -/
def starSource? (cs : List Char) : Option (List Char × List Char) :=
  match (after? "as".toList (trimBlanks cs)).bind blanks? with
  | some cs => if (cs.head?.map isBindingChar).getD false then namedSource? cs else none
  | none => source? cs

/-- The request of an export of listed names, behind its opening brace. -/
def listSource? (cs : List Char) : Option (List Char × List Char) := do
  source? (← after? ['}'] (cs.dropWhile (· != '}')))

/-- The shapes `export * from "x"`, `export * as name from "x"` and `export {…} from "x"`. -/
def reExport? (cs : List Char) : Option (List Char × List Char) := do
  let cs ← blanks? (← after? "export".toList cs)
  let cs := ((after? "type".toList cs).bind blanks?).getD cs
  match cs with
  | '*' :: cs => starSource? cs
  | '{' :: cs => listSource? cs
  | _ => none

/-- Whether a character may stand between `import` and `from`. -/
def isClauseChar (c : Char) : Bool :=
  isBindingChar c || c == '*' || c == '{' || c == '}' || isBlank c || c == ','

/-- Whether the characters in front of a request make an import clause: only blanks, or at least
`least` characters followed by the word `from` and blanks. -/
def isClause (least : Nat) (clause : List Char) : Bool :=
  let body := trimBlanksEnd clause
  body.isEmpty ||
    (least + 4 ≤ body.length && body.drop (body.length - 4) == "from".toList)

/-- The shapes `import "x"` and `import … from "x"`, with the request and its form.  The word `type`
counts as a modifier when a blank follows it and a clause remains behind that. -/
def static? (cs : List Char) : Option ((List Char × Specifier.Form) × List Char) := do
  let cs ← after? "import".toList cs
  let clause := cs.takeWhile isClauseChar
  let (request, rest) ← literal? (cs.dropWhile isClauseChar)
  let typed := ((after? "type".toList (trimBlanks clause)).bind fun behind =>
    (blanks? behind).map fun _ => isClause 2 behind).getD false
  if typed then some ((request, .typeOnly), rest)
  else if isClause 1 clause then some ((request, .static), rest)
  else none

/-- The shapes `require("x")` and `import("x")`. -/
def dynamic? (cs : List Char) : Option (List Char × List Char) :=
  match after? "require".toList cs with
  | some cs => callArgument? cs
  | none => (after? "import".toList cs).bind callArgument?

/-- A region of the text, in characters, with the specifier found in it. -/
structure Hit where
  start : Nat
  length : Nat
  specifier : Specifier
  deriving DecidableEq, Repr

/-- The first shape that fits the beginning of a text, and what is left behind it. -/
def shape? (cs : List Char) : Option (Specifier × List Char) :=
  let named (form : Specifier.Form) (r : List Char × List Char) : Specifier × List Char :=
    (⟨String.ofList r.1, form⟩, r.2)
  ((importEquals? cs).map (named .importEquals)).or <|
  ((reExport? cs).map (named .reExport)).or <|
  ((static? cs).map fun r => (⟨String.ofList r.1.1, r.1.2⟩, r.2)).or <|
  (dynamic? cs).map (named .dynamic)

/-- The regions of a text.  The first argument tells whether a word may begin here, the second how
many characters still belong to the last region, and the third how many stand before the text. -/
def hitsFrom : Bool → Nat → Nat → List Char → List Hit
  | _, _, _, [] => []
  | _, skip + 1, pos, c :: cs => hitsFrom (!isWordChar c) skip (pos + 1) cs
  | boundary, 0, pos, c :: cs =>
    match if boundary then shape? (c :: cs) else none with
    | some (specifier, rest) =>
      let length := (c :: cs).length - rest.length
      ⟨pos, length, specifier⟩ :: hitsFrom (!isWordChar c) (length - 1) (pos + 1) cs
    | none => hitsFrom (!isWordChar c) 0 (pos + 1) cs

/-- The regions of a text without comments, in order. -/
def hits (cs : List Char) : List Hit := hitsFrom true 0 0 cs

/-- Whether a specifier is asked for: calls count only on request. -/
def wanted (dynamic : Bool) (s : Specifier) : Bool := dynamic || s.form != .dynamic

/-- The specifiers that a text seems to hold, in order. -/
def specifiers (text : String) (dynamic : Bool) : List Specifier :=
  ((hits (Comment.stripChars text.toList)).map Hit.specifier).filter (wanted dynamic)

end ModuleGraph.Scan

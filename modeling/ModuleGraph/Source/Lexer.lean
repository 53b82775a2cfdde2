import ModuleGraph.Json.Reader
import ModuleGraph.Source.Dialect
import ModuleGraph.Source.Token
import ModuleGraph.Text.Word

/-!
# Reading tokens

One token is read from the front of a text, behind the blanks and comments in front of it.  Which
token stands at a place can depend on the grammar: a slash may open a pattern, a closing brace may
continue a template, and inside markup the text between elements is no token at all.  The functions
here read such a token again from its first character.

Escapes in strings are decoded.  Half of a surrogate pair, which no character stands for, is written
as the replacement character followed by its four digits; a literal that needs this writes the
replacement character itself in the same way.

## Main definitions

* `Source.skipGap`: the blanks and comments in front of a token.
* `Source.readName`, `Source.readNumber`, `Source.readQuoted`, `Source.readTemplate`,
  `Source.readSymbol?`: the single kinds of token.
* `Source.readBare`: the token at the front of a text, and what is left behind it.
-/

namespace ModuleGraph.Source

open Text

/-- Whether a character ends a line. -/
def endsLine (c : Char) : Bool :=
  c == '\n' || c == '\r' || c.toNat == 0x2028 || c.toNat == 0x2029

/-- Whether a character separates tokens without ending a line. -/
def separates (c : Char) : Bool :=
  c == ' ' || c == '\t' || c.toNat == 0x0B || c.toNat == 0x0C || c.toNat == 0x85 ||
    c.toNat == 0xA0 || c.toNat == 0xFEFF || c.toNat == 0x1680 ||
    (Nat.ble 0x2000 c.toNat && Nat.ble c.toNat 0x200B) || c.toNat == 0x202F ||
    c.toNat == 0x205F || c.toNat == 0x3000

/-- What the reader of a gap is inside of: nothing, a comment that ends with the line, or one that
ends with its closing mark. -/
inductive Gap where
  | open
  | line
  | block
  deriving DecidableEq, Repr

/-- What is left behind a gap, whether a line ends in it, and whether every comment of it is
closed. -/
structure AfterGap where
  newline : Bool
  closed : Bool
  rest : List Char

/-- The blanks and comments in front of a token are skipped.  Scripts have two more marks of line
comments. -/
def skipGap (script : Bool) : Gap → Bool → List Char → AfterGap
  | gap, newline, [] => ⟨newline, gap != .block, []⟩
  | .open, newline, '/' :: '/' :: rest => skipGap script .line newline rest
  | .open, newline, '/' :: '*' :: rest => skipGap script .block newline rest
  | .open, newline, '<' :: '!' :: '-' :: '-' :: rest =>
    if script then skipGap script .line newline rest
    else ⟨newline, true, '<' :: '!' :: '-' :: '-' :: rest⟩
  | .open, newline, '-' :: '-' :: '>' :: rest =>
    if script && newline then skipGap script .line newline rest
    else ⟨newline, true, '-' :: '-' :: '>' :: rest⟩
  | .open, newline, c :: rest =>
    if endsLine c then skipGap script .open true rest
    else if separates c then skipGap script .open newline rest
    else ⟨newline, true, c :: rest⟩
  | .line, newline, c :: rest =>
    if endsLine c then skipGap script .open true rest else skipGap script .line newline rest
  | .block, newline, '*' :: '/' :: rest => skipGap script .open newline rest
  | .block, newline, c :: rest => skipGap script .block (newline || endsLine c) rest

/-! ### Escapes

The readers of escapes tell how many characters belong to an escape, so that the reader of the text
around it goes on behind them. -/

/-- The values of the hexadecimal digits a text begins with. -/
def hexDigits (cs : List Char) : List Nat :=
  (cs.takeWhile fun c => (Json.hexDigit? c).isSome).filterMap Json.hexDigit?

/-- The number that hexadecimal digits write. -/
def hexValue (digits : List Nat) : Nat := digits.foldl (fun n d => n * 16 + d) 0

/-- The code point between the braces of an escape, if it is well formed, and the number of
characters that were looked at. -/
def bracedPoint (cs : List Char) : Option Nat × Nat :=
  let digits := hexDigits cs
  if digits.isEmpty || hexValue digits > 0x10FFFF then (none, digits.length)
  else if cs[digits.length]? == some '}' then (some (hexValue digits), digits.length + 1)
  else (none, digits.length)

/-- The code unit of four digits, if they are all there, and the number of digits. -/
def unitPoint (cs : List Char) : Option Nat × Nat :=
  let digits := hexDigits (cs.take 4)
  (if digits.length == 4 then some (hexValue digits) else none, digits.length)

/-- The low half of a surrogate pair that is written as an escape of its own. -/
def lowHalf? (cs : List Char) : Option Nat :=
  match cs with
  | '\\' :: 'u' :: rest => (unitPoint rest).1.filter Json.isLowHalf
  | _ => none

/-- The code point of an escape behind `\u`, if it is well formed, and the number of characters that
belong to it.  Two halves of a surrogate pair that follow each other count as one code point. -/
def escapedPoint (cs : List Char) : Option Nat × Nat :=
  match cs with
  | '{' :: rest => ((bracedPoint rest).1, (bracedPoint rest).2 + 1)
  | cs => match unitPoint cs with
    | (some high, _) =>
      match (lowHalf? (cs.drop 4)).filter fun _ => Json.isHighHalf high with
      | some low => (some (Json.pairChar high low).toNat, 10)
      | none => (some high, 4)
    | (none, count) => (none, count)

/-- Whether a code point is half of a surrogate pair. -/
def isHalf (n : Nat) : Bool := Nat.ble 0xD800 n && Nat.ble n 0xDFFF

/-- The value of a digit below eight. -/
def octalDigit? (c : Char) : Option Nat :=
  if '0' ≤ c ∧ c ≤ '7' then some (c.toNat - '0'.toNat) else none

/-- The number that the first octal digits write, of which there are at most `most`, and their
number. -/
def octalPoint (most : Nat) (cs : List Char) : Nat × Nat :=
  let digits := (cs.take most).takeWhile (fun c => (octalDigit? c).isSome) |>.filterMap octalDigit?
  (digits.foldl (fun n d => n * 8 + d) 0, digits.length)

/-- What an escape stands for. -/
structure Escape where
  points : List Nat
  /-- The number of characters that belong to it, behind the backslash. -/
  length : Nat
  /-- Whether it is well formed; an ill-formed one stands for nothing. -/
  wellFormed : Bool := true

/-- An escape of a code point, of which the point is known if it is well formed. -/
def Escape.ofPoint (point : Option Nat) (length : Nat) : Escape :=
  ⟨point.toList, length, point.isSome⟩

/-- The code point of two hexadecimal digits, if they are both there, and the number of digits. -/
def bytePoint (cs : List Char) : Option Nat × Nat :=
  let digits := hexDigits (cs.take 2)
  (if digits.length == 2 then some (hexValue digits) else none, digits.length)

/-- The escape behind a backslash. -/
def readEscape : List Char → Escape
  | [] => { points := [], length := 0 }
  | '\r' :: '\n' :: _ => { points := [], length := 2 }
  | c :: rest =>
    if endsLine c then { points := [], length := 1 }
    else if c == 'b' then { points := [8], length := 1 }
    else if c == 'f' then { points := [12], length := 1 }
    else if c == 'n' then { points := [10], length := 1 }
    else if c == 'r' then { points := [13], length := 1 }
    else if c == 't' then { points := [9], length := 1 }
    else if c == 'v' then { points := [11], length := 1 }
    else if c == 'x' then Escape.ofPoint (bytePoint rest).1 ((bytePoint rest).2 + 1)
    else if c == 'u' then Escape.ofPoint (escapedPoint rest).1 ((escapedPoint rest).2 + 1)
    else if '0' ≤ c ∧ c ≤ '3' then
      { points := [(octalPoint 3 (c :: rest)).1], length := (octalPoint 3 (c :: rest)).2 }
    else if '4' ≤ c ∧ c ≤ '7' then
      { points := [(octalPoint 2 (c :: rest)).1], length := (octalPoint 2 (c :: rest)).2 }
    else { points := [c.toNat], length := 1 }

/-- The text of four hexadecimal digits. -/
def hexText (n : Nat) : List Char :=
  let digit (n : Nat) : Char := (Nat.toDigits 16 (n % 16)).headD '0'
  [digit (n / 0x1000), digit (n / 0x100), digit (n / 0x10), digit n]

/-- The characters of a list of code points, among which there may be halves of surrogate pairs. -/
def charsOfPoints (points : List Nat) : List Char :=
  if points.any isHalf then
    points.flatMap fun n =>
      if isHalf n || n == 0xFFFD then Char.ofNat 0xFFFD :: hexText n else [Char.ofNat n]
  else points.map Char.ofNat

/-! ### The kinds of token -/

/-- The character that an escape inside a name stands for, and the number of characters that belong
to the escape.  An escape that is ill formed, or that writes no character of a name, stands for
nothing. -/
def nameEscape (first : Bool) (cs : List Char) : Option Char × Nat :=
  match cs with
  | 'u' :: rest =>
    let (point, count) := escapedPoint rest
    let char := (point.filter fun n => !isHalf n).map Char.ofNat
    (char.filter fun c => if first then isNameStart c else isNamePart c, count + 1)
  | _ => (none, 1)

/-- A name that has been read. -/
structure NameReading where
  text : List Char
  escaped : Bool
  /-- Whether one of the escapes stands for nothing. -/
  flawed : Bool
  rest : List Char

/-- Read a name.  The first argument tells whether the name begins here, the second how many
characters still belong to an escape. -/
def readName : Bool → Nat → List Char → NameReading
  | _, _, [] => ⟨[], false, false, []⟩
  | first, skip + 1, _ :: rest => readName first skip rest
  | first, 0, c :: rest =>
    if c == '\\' then
      let (char, count) := nameEscape first rest
      let name := readName false count rest
      ⟨char.toList ++ name.text, true, name.flawed || char.isNone, name.rest⟩
    else if if first then isNameStart c else isNamePart c then
      let name := readName false 0 rest
      { name with text := c :: name.text }
    else ⟨[], false, false, c :: rest⟩

/-- What is left behind digits that may be grouped by underscores, unless an underscore ends
them. -/
def skipDigits? (digit : Char → Bool) : List Char → Option (List Char)
  | [] => some []
  | '_' :: c :: rest => if digit c then skipDigits? digit rest else none
  | ['_'] => none
  | c :: rest => if digit c then skipDigits? digit rest else some (c :: rest)

/-- Read decimal digits that may be grouped by underscores: whether the groups are flawed, and what
is left behind.  An underscore without a digit behind it is a flaw and ends the digits. -/
def skipDecimals : List Char → Bool × List Char
  | [] => (false, [])
  | '_' :: c :: rest => if c.isDigit then skipDecimals rest else (true, c :: rest)
  | ['_'] => (true, [])
  | c :: rest => if c.isDigit then skipDecimals rest else (false, c :: rest)

/-- A number that has been read. -/
structure NumberReading where
  kind : Token.Kind
  /-- Whether its groups of digits are flawed. -/
  flawed : Bool
  rest : List Char

/-- Whether a text begins with a decimal digit. -/
def startsDigit (cs : List Char) : Bool := (cs.head?.map Char.isDigit).getD false

/-- A number, unless a name or a digit follows it directly. -/
def closeNumber (wellFormed flawed : Bool) (cs : List Char) : NumberReading :=
  match cs with
  | c :: _ =>
    if isNameStart c || c.isDigit then ⟨.broken, flawed, cs⟩ else ⟨.number wellFormed, flawed, cs⟩
  | [] => ⟨.number wellFormed, flawed, []⟩

/-- A number behind the mark of its exponent. -/
def readPower (flawed : Bool) (cs : List Char) : NumberReading :=
  let cs := if cs.head? == some '+' || cs.head? == some '-' then cs.tail else cs
  if startsDigit cs then
    ⟨.number true, flawed || (skipDecimals cs).1, (skipDecimals cs).2⟩
  else ⟨.number false, true, cs⟩

/-- A number of which nothing is missing, unless a name or a digit follows it directly. -/
def NumberReading.close (n : NumberReading) : NumberReading :=
  closeNumber (n.kind == .number true) n.flawed n.rest

/-- A number behind its last digit, where an exponent may follow. -/
def readExponent (flawed : Bool) (cs : List Char) : NumberReading :=
  match cs with
  | c :: rest =>
    if c == 'e' || c == 'E' then (readPower flawed rest).close else closeNumber true flawed cs
  | [] => ⟨.number true, flawed, []⟩

/-- A number behind its point. -/
def readFraction (flawed : Bool) (cs : List Char) : NumberReading :=
  if startsDigit cs then readExponent (flawed || (skipDecimals cs).1) (skipDecimals cs).2
  else readExponent flawed cs

/-- A number behind its whole part. -/
def readNumberTail (flawed : Bool) (cs : List Char) : NumberReading :=
  match cs with
  | '.' :: rest => readFraction flawed rest
  | 'n' :: rest => closeNumber true flawed rest
  | cs => readExponent flawed cs

/-- A number with a base of its own, behind the mark of the base. -/
def readBased (digit : Char → Bool) (cs : List Char) : NumberReading :=
  match cs with
  | c :: rest =>
    if digit c then
      match skipDigits? digit rest with
      | some ('n' :: rest) => closeNumber true false rest
      | some rest => closeNumber true false rest
      | none => ⟨.broken, true, rest⟩
    else ⟨.broken, true, cs⟩
  | [] => ⟨.broken, true, []⟩

/-- A number that begins with a zero and goes on with a digit.  It is decimal if one of its digits
is, and only then has it a fraction or an exponent; nothing is asked of what follows its exponent.
-/
def readLegacy (cs : List Char) : NumberReading :=
  let digits := cs.takeWhile Char.isDigit
  let rest := cs.dropWhile Char.isDigit
  if digits.all fun c => (octalDigit? c).isSome then closeNumber true false rest
  else match rest with
    | '.' :: rest => readFraction false rest
    | 'e' :: rest => readPower false rest
    | rest => closeNumber true false rest

/-- The number a text begins with.  Behind the exponent of a lone zero everything may follow. -/
def readNumber (cs : List Char) : NumberReading :=
  match cs with
  | '0' :: c :: rest =>
    if c == 'b' || c == 'B' then readBased (fun c => c == '0' || c == '1') rest
    else if c == 'o' || c == 'O' then readBased (fun c => (octalDigit? c).isSome) rest
    else if c == 'x' || c == 'X' then readBased (fun c => (Json.hexDigit? c).isSome) rest
    else if c == 'e' || c == 'E' then readPower false rest
    else if c.isDigit then readLegacy (c :: rest)
    else if c == '_' then ⟨.broken, true, c :: rest⟩
    else readNumberTail false (c :: rest)
  | '.' :: rest => readFraction false rest
  | cs => readNumberTail (skipDecimals cs).1 (skipDecimals cs).2

/-- The code points of a string that has been read.  It is flawed if one of its escapes is ill
formed. -/
structure QuotedReading where
  points : List Nat
  flawed : Bool
  rest : List Char

/-- Read a string behind its opening mark, unless the line or the text ends before its closing one.
The second argument counts the characters that still belong to an escape. -/
def readQuoted (mark : Char) : Nat → List Char → Option QuotedReading
  | _, [] => none
  | skip + 1, _ :: rest => readQuoted mark skip rest
  | 0, c :: rest =>
    if c == '\\' then
      let escape := readEscape rest
      (readQuoted mark escape.length rest).map fun r =>
        { r with points := escape.points ++ r.points, flawed := r.flawed || !escape.wellFormed }
    else if c == mark then some ⟨[], false, rest⟩
    else if c == '\n' || c == '\r' then none
    else (readQuoted mark 0 rest).map fun r => { r with points := c.toNat :: r.points }

/-- How a piece of a template ends: the kind for a closing mark, the kind for a substitution. -/
structure TemplateEnds where
  close : Token.Kind
  substitution : Token.Kind

/-- A piece of a template, up to its closing mark or to the next substitution. -/
def readTemplate (ends : TemplateEnds) : List Char → Token.Kind × List Char
  | [] => (.broken, [])
  | ['\\'] => (.broken, [])
  | '\\' :: _ :: rest => readTemplate ends rest
  | '$' :: '{' :: rest => (ends.substitution, rest)
  | c :: rest => if c.toNat == 0x60 then (ends.close, rest) else readTemplate ends rest

/-- The symbols with their spellings, longer ones before their beginnings.  A closing angle bracket
always stands alone: the grammar decides what it belongs to. -/
def symbols : List (List Char × Symbol) :=
  [(['.', '.', '.'], .ellipsis), (['.'], .dot), ([';'], .semicolon), ([','], .comma),
    (['{'], .leftBrace), (['}'], .rightBrace), (['('], .leftParen), ([')'], .rightParen),
    (['['], .leftBracket), ([']'], .rightBracket), ([':'], .colon), (['@'], .at), (['~'], .tilde),
    (['<', '<', '='], .assignShiftLeft), (['<', '<'], .shiftLeft), (['<', '='], .lessEqual),
    (['<'], .less), (['>'], .greater), (['=', '=', '='], .same), (['=', '='], .equal),
    (['=', '>'], .arrow), (['='], .assign), (['!', '=', '='], .notSame), (['!', '='], .notEqual),
    (['!'], .bang), (['+', '+'], .increment), (['+', '='], .assignPlus), (['+'], .plus),
    (['-', '-'], .decrement), (['-', '='], .assignMinus), (['-'], .minus),
    (['*', '*', '='], .assignPower), (['*', '*'], .power), (['*', '='], .assignStar),
    (['*'], .star), (['/', '='], .assignSlash), (['/'], .slash), (['%', '='], .assignPercent),
    (['%'], .percent), (['&', '&', '='], .assignAnd), (['&', '&'], .and),
    (['&', '='], .assignAmpersand), (['&'], .ampersand), (['|', '|', '='], .assignOr),
    (['|', '|'], .or), (['|', '='], .assignBar), (['|'], .bar), (['^', '='], .assignCaret),
    (['^'], .caret), (['?', '?', '='], .assignCoalesce), (['?', '?'], .coalesce),
    (['?', '.'], .questionDot), (['?'], .question)]

/-- The symbols that begin with a closing angle bracket. -/
def angleSymbols : List (List Char × Symbol) :=
  [(['>', '>', '>', '='], .assignShiftRightZero), (['>', '>', '>'], .shiftRightZero),
    (['>', '>', '='], .assignShiftRight), (['>', '>'], .shiftRight), (['>', '='], .greaterEqual),
    (['>'], .greater)]

/-- The first symbol of a list that a text begins with, and what is left behind it. -/
def readSymbol? (table : List (List Char × Symbol)) (cs : List Char) :
    Option (Symbol × List Char) :=
  (table.find? fun s => s.1.isPrefixOf cs).map fun s => (s.2, cs.drop s.1.length)

/-- The symbol a text begins with.  A question mark in front of a fraction stands alone. -/
def readPunctuation? (cs : List Char) : Option (Symbol × List Char) :=
  match cs with
  | '?' :: '.' :: c :: rest =>
    if c.isDigit then some (.question, '.' :: c :: rest) else readSymbol? symbols cs
  | cs => readSymbol? symbols cs

/-- The kind of a name. -/
def nameKind (text : List Char) : Token.Kind :=
  match Keyword.ofChars? text with
  | some word => .keyword word
  | none => .name

/-- Whether a text begins with a name. -/
def startsName (cs : List Char) : Bool :=
  match cs with
  | c :: _ => isNameStart c || c == '\\'
  | [] => false

/-- The token a text begins with, without a gap in front of it, and what is left behind it. -/
def readBare (newline : Bool) (cs : List Char) : Token × List Char :=
  match cs with
  | [] => ({ kind := .finished true, newline }, [])
  | c :: rest =>
    if startsName cs then
      let name := readName true 0 cs
      (⟨nameKind name.text, name.text, newline, name.escaped, name.flawed⟩, name.rest)
    else if c == '"' || c == '\'' then
      match readQuoted c 0 rest with
      | some quoted =>
        (⟨.string, charsOfPoints quoted.points, newline, false, quoted.flawed⟩, quoted.rest)
      | none => ({ kind := .broken, newline }, rest)
    else if c.toNat == 0x60 then
      let (kind, rest) := readTemplate ⟨.template, .templateHead⟩ rest
      ({ kind, newline }, rest)
    else if c.isDigit || (c == '.' && startsDigit rest) then
      let number := readNumber cs
      ({ kind := number.kind, newline, flawed := number.flawed }, number.rest)
    else if c == '#' then
      if startsName rest then
        let name := readName true 0 rest
        (⟨.privateName, name.text, newline, name.escaped, name.flawed⟩, name.rest)
      else ({ kind := .broken, newline }, rest)
    else match readPunctuation? cs with
      | some (s, rest) => ({ kind := .symbol s, newline }, rest)
      | none => ({ kind := .broken, newline }, rest)

/-- A text without the line that tells how to run it. -/
def skipInterpreterLine (cs : List Char) : List Char :=
  match cs with
  | '#' :: '!' :: rest => rest.dropWhile fun c => !endsLine c
  | cs => cs

/-- What is left of a pattern behind its closing slash, unless the line or the text ends before it.
The flag tells whether a character class is open. -/
def skipPattern? : Bool → List Char → Option (List Char)
  | _, [] => none
  | _, ['\\'] => none
  | inClass, '\\' :: c :: rest => if endsLine c then none else skipPattern? inClass rest
  | inClass, c :: rest =>
    if endsLine c then none
    else if c == '/' && !inClass then some rest
    else skipPattern? (if c == '[' then true else if c == ']' then false else inClass) rest

/-- What is left behind the flags of a pattern, of which each may be given once. -/
def skipFlags? (cs : List Char) : Option (List Char) :=
  let flags := cs.takeWhile fun c => isAsciiWord c || c == '$'
  let known := flags.all fun c => "dgimsuvy".toList.contains c
  if known && flags.eraseDups.length == flags.length then some (cs.drop flags.length)
  else none

end ModuleGraph.Source

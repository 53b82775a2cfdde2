import ModuleGraph.Json.Number
import ModuleGraph.Json.Value

/-!
# Reading data text

The reader follows the standard grammar of data text: four blank characters, no comments, no
trailing commas, no leading zeros, and no control characters inside strings.  Nesting is bounded
only by the length of the text, which is the fuel of the recursion.  Readers differ in what they can
represent: in the numbers that fit, and in what becomes of half of a surrogate pair.

## Main definitions

* `Json.Limits`: what a reader can represent.
* `Json.readString?`: the characters behind an opening quote.
* `Json.readNumber?`: a number literal.
* `Json.readValue?`: a value at the beginning of a text.
* `Json.readWithin?`, `Json.readChars?`, `Json.read?`: the value of a whole text.
-/

namespace ModuleGraph.Json

/-- What a reader can represent. -/
structure Limits where
  fits : Literal → Bool
  /-- What half of a surrogate pair is read as, if it may stand alone. -/
  half : Option Char

/-- The limits of a reader that scales words of 64 bits and has no halves of surrogate pairs. -/
def Limits.scaled : Limits := ⟨Literal.scales, none⟩

/-- The limits of a reader that is exact on whole numbers and replaces halves of surrogate pairs. -/
def Limits.exact : Limits := ⟨Literal.isExact, some (Char.ofNat 0xFFFD)⟩

/-- Whether a character separates the tokens of a data text. -/
def isGap (c : Char) : Bool := c == ' ' || c == '\n' || c == '\t' || c == '\r'

/-- A text without its leading gap. -/
def skipGap (cs : List Char) : List Char := cs.dropWhile isGap

/-- The value of a hexadecimal digit. -/
def hexDigit? (c : Char) : Option Nat :=
  if '0' ≤ c ∧ c ≤ '9' then some (c.toNat - '0'.toNat)
  else if 'a' ≤ c ∧ c ≤ 'f' then some (c.toNat - 'a'.toNat + 10)
  else if 'A' ≤ c ∧ c ≤ 'F' then some (c.toNat - 'A'.toNat + 10)
  else none

/-- The value of four hexadecimal digits. -/
def hexUnit? (a b c d : Char) : Option Nat := do
  let a ← hexDigit? a
  let b ← hexDigit? b
  let c ← hexDigit? c
  let d ← hexDigit? d
  some (((a * 16 + b) * 16 + c) * 16 + d)

/-- Whether a code unit opens a surrogate pair. -/
def isHighHalf (n : Nat) : Bool := Nat.ble 0xD800 n && Nat.ble n 0xDBFF

/-- Whether a code unit closes a surrogate pair. -/
def isLowHalf (n : Nat) : Bool := Nat.ble 0xDC00 n && Nat.ble n 0xDFFF

/-- The character of a surrogate pair. -/
def pairChar (high low : Nat) : Char :=
  Char.ofNat (0x10000 + (high - 0xD800) * 0x400 + (low - 0xDC00))

/-- The character of a short escape. -/
def shortEscape? (c : Char) : Option Char :=
  match c with
  | '"' => some '"'
  | '\\' => some '\\'
  | '/' => some '/'
  | 'b' => some (Char.ofNat 8)
  | 'f' => some (Char.ofNat 12)
  | 'n' => some '\n'
  | 'r' => some '\r'
  | 't' => some '\t'
  | _ => none

/-- The code units behind an opening quote, up to the closing one. -/
def readUnits? : List Char → Option (List Nat × List Char)
  | [] => none
  | '"' :: rest => some ([], rest)
  | '\\' :: 'u' :: a :: b :: c :: d :: rest => do
    let unit ← hexUnit? a b c d
    let (units, rest) ← readUnits? rest
    some (unit :: units, rest)
  | '\\' :: c :: rest => do
    let escaped ← shortEscape? c
    let (units, rest) ← readUnits? rest
    some (escaped.toNat :: units, rest)
  | c :: rest =>
    if c.toNat < 32 ∨ c = '\\' then none
    else do
      let (units, rest) ← readUnits? rest
      some (c.toNat :: units, rest)

/-- The characters of a list of code units.  Half of a pair that stands alone becomes the given
character, if there is one. -/
def pairUnits? (half : Option Char) : List Nat → Option (List Char)
  | [] => some []
  | [n] => if isHighHalf n || isLowHalf n then half.map fun c => [c] else some [Char.ofNat n]
  | n :: m :: rest =>
    if isHighHalf n && isLowHalf m then (pairUnits? half rest).map (pairChar n m :: ·)
    else do
      let c ← if isHighHalf n || isLowHalf n then half else some (Char.ofNat n)
      (pairUnits? half (m :: rest)).map (c :: ·)

/-- The text behind an opening quote, which is absent if it cannot be represented. -/
def readString? (limits : Limits) (cs : List Char) : Option (Option String × List Char) := do
  let (units, rest) ← readUnits? cs
  some ((pairUnits? limits.half units).map String.ofList, rest)

/-- The digits a text begins with, of which there must be one. -/
def readDigits? (cs : List Char) : Option (List Char × List Char) :=
  let digits := cs.takeWhile Char.isDigit
  if digits.isEmpty then none else some (digits, cs.dropWhile Char.isDigit)

/-- The integer digits a text begins with: a zero stands alone. -/
def readWhole? : List Char → Option (List Char × List Char)
  | '0' :: rest => if (rest.head?.map Char.isDigit).getD false then none else some (['0'], rest)
  | cs => readDigits? cs

/-- The digits behind a point, if a point follows. -/
def readFraction? : List Char → Option (List Char × List Char)
  | '.' :: rest => readDigits? rest
  | cs => some ([], cs)

/-- The exponent, if its mark follows. -/
def readExponent? : List Char → Option (Option Int × List Char)
  | c :: rest =>
    if c == 'e' || c == 'E' then
      match rest with
      | '-' :: rest => (readDigits? rest).map fun r => (some (-(digitsValue r.1 : Int)), r.2)
      | '+' :: rest => (readDigits? rest).map fun r => (some (digitsValue r.1 : Int), r.2)
      | rest => (readDigits? rest).map fun r => (some (digitsValue r.1 : Int), r.2)
    else some (none, c :: rest)
  | [] => some (none, [])

/-- The number a text begins with. -/
def readNumber? (limits : Limits) (cs : List Char) : Option (Value × List Char) := do
  let negative := cs.head? == some '-'
  let (whole, rest) ← readWhole? (if negative then cs.tail else cs)
  let (fraction, rest) ← readFraction? rest
  let (exponent, rest) ← readExponent? rest
  let written := String.ofList (cs.take (cs.length - rest.length))
  let fits := limits.fits ⟨negative, whole, fraction, exponent⟩
  some (if fits then .number written else .unreadable, rest)

/-- What is left behind a given word. -/
def readWord? (word : List Char) (cs : List Char) : Option (List Char) :=
  if word.isPrefixOf cs then some (cs.drop word.length) else none

/-- An object, which is not represented if one of its keys is not. -/
def objectOf (members : List (Option String × Value)) : Value :=
  match members.mapM fun m => m.1.map fun key => (key, m.2) with
  | some members => .object members
  | none => .unreadable

mutual

/-- The value a text begins with. -/
def readValue? (limits : Limits) : Nat → List Char → Option (Value × List Char)
  | 0, _ => none
  | fuel + 1, cs =>
    match skipGap cs with
    | [] => none
    | '"' :: rest => (readString? limits rest).map fun r =>
      ((r.1.map Value.string).getD .unreadable, r.2)
    | '[' :: rest =>
      match skipGap rest with
      | ']' :: rest => some (.array [], rest)
      | rest => (readItems? limits fuel rest).map fun r => (.array r.1, r.2)
    | '{' :: rest =>
      match skipGap rest with
      | '}' :: rest => some (.object [], rest)
      | rest => (readMembers? limits fuel rest).map fun r => (objectOf r.1, r.2)
    | c :: rest =>
      if c == 'n' then (readWord? "ull".toList rest).map (Value.null, ·)
      else if c == 't' then (readWord? "rue".toList rest).map (Value.bool true, ·)
      else if c == 'f' then (readWord? "alse".toList rest).map (Value.bool false, ·)
      else readNumber? limits (c :: rest)

/-- The values of a list, up to its closing bracket. -/
def readItems? (limits : Limits) : Nat → List Char → Option (List Value × List Char)
  | 0, _ => none
  | fuel + 1, cs => do
    let (value, rest) ← readValue? limits fuel cs
    match skipGap rest with
    | ']' :: rest => some ([value], rest)
    | ',' :: rest =>
      let (values, rest) ← readItems? limits fuel rest
      some (value :: values, rest)
    | _ => none

/-- The members of an object, up to its closing brace. -/
def readMembers? (limits : Limits) :
    Nat → List Char → Option (List (Option String × Value) × List Char)
  | 0, _ => none
  | fuel + 1, cs =>
    match skipGap cs with
    | '"' :: rest => do
      let (key, rest) ← readString? limits rest
      match skipGap rest with
      | ':' :: rest =>
        let (value, rest) ← readValue? limits fuel rest
        match skipGap rest with
        | '}' :: rest => some ([(key, value)], rest)
        | ',' :: rest =>
          let (members, rest) ← readMembers? limits fuel rest
          some ((key, value) :: members, rest)
        | _ => none
      | _ => none
    | _ => none

end

/-- The value of a whole text, within the limits of a reader. -/
def readWithin? (limits : Limits) (cs : List Char) : Option Value := do
  let (value, rest) ← readValue? limits (2 * cs.length + 1) cs
  if (skipGap rest).isEmpty then some value else none

/-- The value of a whole text. -/
def readChars? (cs : List Char) : Option Value := readWithin? .scaled cs

/-- The value of a whole text. -/
def read? (text : String) : Option Value := readChars? text.toList

end ModuleGraph.Json

/-!
# Numbers of data text

A number literal is kept as its digits.  Which numbers a reader can represent depends on how it
computes them.  One reader gathers digits into a word of 64 bits, as far as they fit, and scales
the rounded word by the rounded power of ten that is left; another one takes whole numbers as words
of 64 bits and everything else as the nearest number of double precision.

## Main definitions

* `Json.Literal`: the parts of a number literal.
* `Json.rounded`: the nearest number that 53 binary digits can write.
* `Json.Literal.scales`, `Json.Literal.isExact`: whether the two readers can represent a literal.
-/

namespace ModuleGraph.Json

/-- The number that a list of decimal digits writes. -/
def digitsValue (digits : List Char) : Nat :=
  digits.foldl (fun n c => n * 10 + (c.toNat - '0'.toNat)) 0

/-- The parts of a number literal: its sign, the digits in front of its point and behind it, and its
exponent. -/
structure Literal where
  negative : Bool
  whole : List Char
  fraction : List Char
  exponent : Option Int
  deriving Repr

/-- The greatest number of a word of 64 bits. -/
def maxWord : Nat := Nat.pow 2 64 - 1

/-- The greatest exponent that is computed with. -/
def maxExponent : Nat := Nat.pow 2 31 - 1

/-- The least magnitude that rounds to infinity in double precision. -/
def overflowBound : Nat := Nat.pow 2 1024 - Nat.pow 2 970

/-- The nearest number that 53 binary digits can write; a tie goes to the even one. -/
def rounded (n : Nat) : Nat :=
  let shift := n.log2 + 1 - 53
  if shift == 0 then n
  else
    let unit := Nat.pow 2 shift
    let up := n % unit * 2 > unit || (n % unit * 2 == unit && n / unit % 2 == 1)
    (n / unit + if up then 1 else 0) * unit

/-- Gather digits into a word as far as they fit: the word, and the number of digits gathered. -/
def gather (word : Nat) : List Char → Nat × Nat
  | [] => (word, 0)
  | c :: rest =>
    let next := word * 10 + (c.toNat - '0'.toNat)
    if next > maxWord then (word, 0)
    else
      let (word, count) := gather next rest
      (word, count + 1)

namespace Literal

/-- Whether a literal is in range when its digits are gathered into a word and the rounded word is
scaled by a rounded power of ten.  Digits in front of the point that do not fit count as zeros,
those behind it are passed over. -/
def scales (l : Literal) : Bool :=
  let (front, taken) := gather 0 l.whole
  let (word, behind) := gather front l.fraction
  let exponent := l.exponent.getD 0
  let scale : Int := exponent + (l.whole.length - taken : Nat) - behind
  if word == 0 || scale < 0 then true
  else if exponent.natAbs > maxExponent || scale > 308 then false
  else rounded word * rounded (Nat.pow 10 scale.toNat) < overflowBound

/-- Whether a literal with a point or an exponent rounds to a finite number of double precision. -/
def isFinite (l : Literal) : Bool :=
  let mantissa := digitsValue (l.whole ++ l.fraction)
  let scale : Int := l.exponent.getD 0 - l.fraction.length
  let digits : Int := (Nat.toDigits 10 mantissa).length
  if mantissa == 0 || digits + scale ≤ 308 then true
  else if digits + scale > 310 then false
  else if 0 ≤ scale then mantissa * Nat.pow 10 scale.toNat < overflowBound
  else mantissa < overflowBound * Nat.pow 10 (-scale).toNat

/-- Whether a literal is in range when whole numbers are words of 64 bits, signed if they have a
sign, and all others are numbers of double precision. -/
def isExact (l : Literal) : Bool :=
  if l.fraction.isEmpty && l.exponent.isNone then
    digitsValue l.whole ≤ if l.negative then Nat.pow 2 63 else maxWord
  else l.isFinite

end Literal

end ModuleGraph.Json

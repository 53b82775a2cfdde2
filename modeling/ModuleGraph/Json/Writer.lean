import ModuleGraph.Json.Value

/-!
# Writing data text

Values are written over several lines, with two blanks for each level of nesting; an empty list or
object is written on one line.  Inside strings the quote, the backslash and the control characters
are escaped, and everything else stands as it is.

## Main definitions

* `Json.quote`: a string between its quotes.
* `Json.writeAt`, `Json.write`: a value at a level of nesting, and a value alone.
-/

namespace ModuleGraph.Json

/-- The hexadecimal digit of a number below sixteen. -/
def hexChar (n : Nat) : Char :=
  Char.ofNat (if n < 10 then '0'.toNat + n else 'a'.toNat + (n - 10))

/-- How one character is written inside a string. -/
def escape (c : Char) : List Char :=
  if c == '"' then ['\\', '"']
  else if c == '\\' then ['\\', '\\']
  else if c == '\n' then ['\\', 'n']
  else if c == '\r' then ['\\', 'r']
  else if c == '\t' then ['\\', 't']
  else if c.toNat == 8 then ['\\', 'b']
  else if c.toNat == 12 then ['\\', 'f']
  else if c.toNat < 32 then ['\\', 'u', '0', '0', hexChar (c.toNat / 16), hexChar (c.toNat % 16)]
  else [c]

/-- A text between its quotes. -/
def quote (text : List Char) : List Char := '"' :: text.flatMap escape ++ ['"']

/-- The beginning of a line at a level of nesting. -/
def newline (level : Nat) : List Char := '\n' :: List.replicate (2 * level) ' '

mutual

/-- A value at a level of nesting. -/
def writeAt (level : Nat) : Value → List Char
  | .null => "null".toList
  | .bool true => "true".toList
  | .bool false => "false".toList
  | .number literal => literal.toList
  | .string text => quote text.toList
  | .array [] => ['[', ']']
  | .array (v :: vs) =>
    '[' :: newline (level + 1) ++ writeAt (level + 1) v ++ writeItems (level + 1) vs ++
      newline level ++ [']']
  | .object [] => ['{', '}']
  | .object ((key, v) :: ms) =>
    '{' :: newline (level + 1) ++ quote key.toList ++ [':', ' '] ++ writeAt (level + 1) v ++
      writeMembers (level + 1) ms ++ newline level ++ ['}']
  | .unreadable => "null".toList

/-- The further values of a list. -/
def writeItems (level : Nat) : List Value → List Char
  | [] => []
  | v :: vs => ',' :: newline level ++ writeAt level v ++ writeItems level vs

/-- The further members of an object. -/
def writeMembers (level : Nat) : List (String × Value) → List Char
  | [] => []
  | (key, v) :: ms =>
    ',' :: newline level ++ quote key.toList ++ [':', ' '] ++ writeAt level v ++
      writeMembers level ms

end

/-- A value alone. -/
def write (v : Value) : List Char := writeAt 0 v

end ModuleGraph.Json

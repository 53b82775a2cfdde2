/-!
# Data values

The values that data text can hold.  A string or a key may be written with half of a surrogate pair,
and a number may be too large for any reader; such a value is well formed as text but cannot be
represented, and it is kept as `Json.Value.unreadable` so that a reader which skips it is not
disturbed.

## Main definitions

* `Json.Value`: a value.
* `Json.Value.member?`: the first member of a key.
* `Json.Value.isReadable`, `Json.Value.depth`: whether all of a value is represented, and how deeply
  it is nested.
-/

namespace ModuleGraph.Json

/-- A value of a data text. -/
inductive Value where
  | null
  | bool (value : Bool)
  /-- A number, as it is written. -/
  | number (literal : String)
  | string (text : String)
  | array (items : List Value)
  /-- Members in the order of the text, perhaps with repeated keys. -/
  | object (members : List (String × Value))
  /-- A well-formed value that cannot be represented. -/
  | unreadable
  deriving Repr, Inhabited

namespace Value

/-- The first member of a key. -/
def member? (key : String) : Value → Option Value
  | .object members => members.lookup key
  | _ => none

/-- The text of a string. -/
def text? : Value → Option String
  | .string text => some text
  | _ => none

mutual

/-- Whether all of a value is represented. -/
def isReadable : Value → Bool
  | .unreadable => false
  | .array items => areReadable items
  | .object members => membersReadable members
  | _ => true

/-- Whether all of every value of a list is represented. -/
def areReadable : List Value → Bool
  | [] => true
  | v :: vs => v.isReadable && areReadable vs

/-- Whether all of every member is represented. -/
def membersReadable : List (String × Value) → Bool
  | [] => true
  | m :: ms => m.2.isReadable && membersReadable ms

end

mutual

/-- How many lists and objects are open at the innermost place of a value. -/
def depth : Value → Nat
  | .array items => depthOfItems items + 1
  | .object members => depthOfMembers members + 1
  | _ => 0

/-- The greatest depth of a list of values. -/
def depthOfItems : List Value → Nat
  | [] => 0
  | v :: vs => max v.depth (depthOfItems vs)

/-- The greatest depth of the values of members. -/
def depthOfMembers : List (String × Value) → Nat
  | [] => 0
  | m :: ms => max m.2.depth (depthOfMembers ms)

end

end Value

end ModuleGraph.Json

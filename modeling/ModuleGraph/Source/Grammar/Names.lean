import ModuleGraph.Source.Grammar.Rules

/-!
# Names of properties, modifiers and decorators

## Main definitions

* `Source.propertyName`, `Source.memberName`: the name of a property, and of a member of a class.
* `Source.modifiers`: the modifiers in front of a declaration or a member.
* `Source.accessorWord`: the word in front of a property that is read or written by a function.
* `Source.decorators`: the decorators in front of a declaration or a member.
-/

namespace ModuleGraph.Source

open Reader

/-- An expression between brackets that gives a name. -/
def computedName (r : Rules) : Reader Expr := do
  expect .leftBracket
  let e ← r.plain
  expect .rightBracket
  return e

/-- The name of a property: a name, a string, a number, or an expression between brackets. -/
def propertyName (r : Rules) : Reader Unit := do
  match (← token).kind with
  | .name | .keyword _ | .string | .number true => advance
  | _ => discard (computedName r)

/-- The name of a member of a class, which may be private. -/
def memberName (r : Rules) : Reader Unit := do
  if (← token).kind == .privateName then advance else propertyName r

/-- Whether a word may be a modifier. -/
def Keyword.isModifier : Keyword → Bool
  | .abstract_ | .accessor_ | .async_ | .const_ | .declare_ | .default_ | .export_ | .in_ | .out_
  | .override_ | .private_ | .protected_ | .public_ | .readonly_ | .static_ => true
  | _ => false

/-- Whether a token is a word that may be a modifier. -/
def Token.isModifier (t : Token) : Bool :=
  match t.kind with
  | .keyword word => word.isModifier
  | _ => false

/-- Whether a token may follow a modifier. -/
def Token.followsModifier (t : Token) : Bool :=
  t.isName || t.isLiteralName || t.kind == .privateName || t.isSymbol .leftBracket ||
    t.isSymbol .leftBrace || t.isSymbol .star || t.isSymbol .ellipsis

/-- Whether a token may follow `default` where that is a modifier. -/
def followsDefault : Reader Bool := do
  let t ← token
  if t.isWord .class_ || t.isWord .function_ || t.isWord .interface_ || t.isSymbol .at then
    return true
  let n ← nextToken
  return (t.isWord .abstract_ && n.isWord .class_ && !n.newline) ||
    (t.isWord .async_ && n.isWord .function_ && !n.newline)

/-- Whether a token may follow `export` where that is a modifier. -/
def Token.followsExport (t : Token) : Bool :=
  t.isSymbol .at || (!t.isSymbol .star && !t.isWord .as_ && !t.isSymbol .leftBrace &&
    t.followsModifier)

/-- Whether the word at the cursor is a modifier, by what follows it. -/
def isModifierHere (word : Keyword) : Reader Bool := lookahead do
  advance
  let t ← token
  match word with
  | .const_ => return t.isWord .enum_
  | .export_ =>
    if t.isWord .default_ then advance; followsDefault
    else if t.isWord .type_ then return (← nextToken).followsExport
    else return t.followsExport
  | .default_ => followsDefault
  | .static_ => return t.followsModifier
  | _ => return t.followsModifier && !t.newline

/-- Where modifiers are read, which decides what `const` and `static` mean. -/
structure ModifierPlace where
  /-- Whether `const` may be a modifier in front of any name. -/
  constant : Bool := false
  /-- Whether `static` may open a block. -/
  staticBlock : Bool := false
  /-- Whether a second `static` is a modifier as well. -/
  repeated : Bool := false

namespace ModifierPlace

/-- In front of a declaration. -/
def declaration : ModifierPlace := { repeated := true }

/-- In front of a parameter, a member of an object or a decorated class. -/
def plain : ModifierPlace := {}

/-- In front of a member of a class. -/
def classMember : ModifierPlace := { constant := true, staticBlock := true }

/-- In front of a type parameter or a member of an object type. -/
def typeMember : ModifierPlace := { constant := true }

end ModifierPlace

/-- Read one modifier if it is there. -/
def modifier? (place : ModifierPlace) (seen : List Keyword) : Reader (Option Keyword) := do
  match (← token).kind with
  | .keyword word =>
    if !word.isModifier then return none
    let n ← nextToken
    if word == .static_ && place.staticBlock && n.isSymbol .leftBrace then return none
    if word == .static_ && !place.repeated && seen.contains .static_ then return none
    let here ←
      if word == .const_ && place.constant then pure (!n.newline && n.followsModifier)
      else isModifierHere word
    if here then
      advance
      return some word
    else return none
  | _ => return none

/-- Read the modifiers that are there. -/
def modifiersFrom (place : ModifierPlace) (seen : List Keyword) : Nat → Reader (List Keyword)
  | 0 => refuse
  | fuel + 1 => do
    match ← modifier? place seen with
    | some word => modifiersFrom place (seen ++ [word]) fuel
    | none => return seen

/-- The modifiers in front of a declaration or a member. -/
def modifiers (r : Rules) (place : ModifierPlace) : Reader (List Keyword) :=
  modifiersFrom place [] r.budget

/-- Read `get` or `set` if the name of a property follows it; whether that is so. -/
def accessorWord : Reader Bool := do
  if !(← atWord .get_) && !(← atWord .set_) then return false
  let n ← nextToken
  if n.isName || n.isLiteralName || n.kind == .privateName || n.isSymbol .leftBracket then
    advance
    return true
  else return false

/-- The decorators in front of a declaration or a member. -/
def decorators (r : Rules) : Reader Unit := do
  let _ ← repeatWhile (at? .at) (do
    advance
    let _ ← within (fun s => { s with inDecorator := true }) r.operand) r.budget

end ModuleGraph.Source

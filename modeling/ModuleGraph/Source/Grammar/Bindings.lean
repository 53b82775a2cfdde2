import ModuleGraph.Source.Grammar.Names

/-!
# Bindings and parameters

A binding is a name or a pattern of names.  The last element of a pattern, or of a list of
parameters, may take all that is left; nothing but a comma may follow it then.

## Main definitions

* `Source.binding`: a name, or a pattern of names.
* `Source.bindingElement`, `Source.restElement`: an element of a pattern, and one that takes all
  that is left.
* `Source.parameters`: the parameters of a function.
-/

namespace ModuleGraph.Source

open Reader

/-- Read a mark of optionality if annotations are understood and it is there. -/
def optionalMark : Reader Bool := do
  if (← dialect).typed then eat .question else return false

/-- A binding with a mark of optionality, an annotation and an initial value. -/
def bindingElement (r : Rules) : Reader Unit := do
  r.binding
  let _ ← optionalMark
  r.annotation
  let _ ← r.initializer

/-- A binding that takes all that is left, behind its dots; whether it is a name and nothing more.
It should have neither a mark of optionality nor an initial value. -/
def restElement (r : Rules) : Reader Bool := do
  let named := (← token).isBindingName
  r.binding
  if ← optionalMark then overlook
  r.annotation
  match ← r.initializer with
  | some _ =>
    overlook
    return false
  | none => return named

/-- Elements with commas between them, up to a closing symbol that is not read.  Each one tells
whether it takes all that is left; behind such a one there should not even be a comma. -/
def elementsUntil (close : Symbol) (element : Reader Bool) : Nat → Reader Unit
  | 0 => refuse
  | fuel + 1 => do
    if ← at? close then return
    let takesRest ← element
    if ← at? close then return
    expect .comma
    if !takesRest then elementsUntil close element fuel
    else if ← at? close then overlook
    else refuse

/-- An element of a pattern of elements, which may be missing. -/
def patternElement (r : Rules) : Reader Bool := do
  if ← at? .comma then return false
  if ← eat .ellipsis then
    let _ ← restElement r
    return true
  bindingElement r
  return false

/-- A property of a pattern of properties.  What takes the rest of them has to be a name. -/
def patternProperty (r : Rules) : Reader Bool := do
  if ← eat .ellipsis then
    if ← restElement r then return true else refuse
  let t ← token
  propertyName r
  if t.isBindingName && !(← at? .colon) then
    let _ ← r.initializer
  else
    expect .colon
    bindingElement r
  return false

/-- A name, or a pattern of names. -/
def binding (r : Rules) : Reader Unit := do
  if ← eat .leftBracket then
    withIn (elementsUntil .rightBracket (patternElement r) r.budget)
    expect .rightBracket
  else if ← eat .leftBrace then
    withIn (elementsUntil .rightBrace (patternProperty r) r.budget)
    expect .rightBrace
  else bindingName

/-- A parameter of a function; whether it takes all that is left. -/
def parameter (r : Rules) : Reader Bool := do
  decorators r
  let _ ← modifiers r .plain
  if ← eat .ellipsis then
    let _ ← restElement r
    return true
  bindingElement r
  return false

/-- The type that a function expects of `this`, in front of its parameters. -/
def thisParameter (r : Rules) : Reader Unit := do
  if (← dialect).typed && (← atWord .this_) then
    advance
    r.annotation
    if !(← at? .rightParen) then expect .comma

/-- The parameters of a function. -/
def parameters (r : Rules) : Reader Unit := do
  expect .leftParen
  withIn do
    thisParameter r
    elementsUntil .rightParen (parameter r) r.budget
  expect .rightParen

end ModuleGraph.Source

import ModuleGraph.Source.Grammar.Functions

/-!
# Classes

## Main definitions

* `Source.classMember`: a member of a class.
* `Source.classFrom`, `Source.classRest`: a class from its announcing word on, or behind it.
-/

namespace ModuleGraph.Source

open Reader

/-- A property of a class behind its name. -/
def classProperty (r : Rules) : Reader Unit := do
  let _ ← eat .bang
  r.annotation
  if ← eat .assign then
    let _ ← inFunction false false r.anyExpression
  endStatement

/-- A member of a class behind its modifiers: a property or a method.  The one whose name is the
word for it, and that belongs to the instances, has to be a method. -/
def classNamed (r : Rules) (found : List Keyword) : Reader Unit := do
  let async := found.contains .async_
  if (← atWord .constructor_) && !found.contains .static_ then
    advance
    functionRest r async false true
  else
    let generator ← eat .star
    memberName r
    let _ ← eat .question
    let callable ← pure (generator || (← at? .leftParen) || (← at? .less))
    if callable && !found.contains .accessor_ then functionRest r async generator true
    else classProperty r

/-- A member of a class. -/
def classMember (r : Rules) : Reader Unit := do
  if ← eat .semicolon then return
  decorators r
  let found ← modifiers r .classMember
  if (← atWord .static_) && (← nextToken).isSymbol .leftBrace then
    advance
    inFunction true false (functionBody r)
  else if (← dialect).typed && (← at? .leftBracket) && (← opensIndex) then indexMember r
  else if ← accessorWord then
    memberName r
    functionRest r false false true
  else classNamed r found

/-- The members of a class, between braces. -/
def classBody (r : Rules) : Reader Unit := do
  expect .leftBrace
  let _ ← repeatWhile (do return !(← at? .rightBrace)) (classMember r) r.budget
  expect .rightBrace

/-- What a class or an interface extends: an operand with type arguments. -/
def parentReference (r : Rules) : Reader Unit := do
  let _ ← r.operand
  if (← dialect).typed then
    let _ ← typeArguments? r

/-- What a class implements: a named type. -/
def implementedType (r : Rules) : Reader Unit := do
  anyName
  dottedTail r
  let _ ← typeArguments? r

/-- The clauses of a class between its name and its members. -/
def classClauses (r : Rules) : Reader Unit := do
  let _ ← repeatWhile (do return (← atWord .extends_) || (← atWord .implements_)) (do
    if ← eatWord .extends_ then
      let _ ← listOne (parentReference r) r.budget
    else
      expectWord .implements_
      let _ ← listOne (implementedType r) r.budget) r.budget

/-- A class behind its announcing word. -/
def classRest (r : Rules) : Reader Unit := do
  let t ← token
  if t.isBindingName && !t.isWord .implements_ then advance
  typeParameters r
  classClauses r
  classBody r

/-- A class from its announcing word on. -/
def classFrom (r : Rules) : Reader Unit := do
  expectWord .class_
  classRest r

end ModuleGraph.Source

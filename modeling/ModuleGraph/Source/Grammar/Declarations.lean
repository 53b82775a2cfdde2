import ModuleGraph.Source.Grammar.Expressions

/-!
# Declarations

Variables, and the declarations that come with type annotations: type aliases, interfaces,
enumerations and namespaces.

## Main definitions

* `Source.declarators`: a list of variables with their initial values.
* `Source.startsDeclaration`: whether a declaration that comes with annotations begins here.
* `Source.typeAlias`, `Source.interfaceFrom`, `Source.enumeration`, `Source.namespaceFrom`: these
  declarations.
-/

namespace ModuleGraph.Source

open Reader

/-- A variable with its annotation and its initial value.  A name may be marked as assigned
elsewhere, on its own line. -/
def declaredVariable (r : Rules) : Reader (Option Expr) := do
  let named := (← token).isBindingName
  r.binding
  if (← dialect).typed then
    if named && !(← token).newline then
      let _ ← eat .bang
    let _ ← eat .question
  r.annotation
  r.initializer

/-- A list of variables, of which the initial values are kept. -/
def declarators (r : Rules) : Reader (List Expr) := do
  let found ← listOne (declaredVariable r) r.budget
  return found.filterMap id

/-- A statement that declares variables, behind the word that announces it. -/
def variableStatement (r : Rules) : Reader Stmt := do
  let initial ← declarators r
  endStatement
  return .declaration initial

/-- Whether a declaration that comes with annotations begins here, behind its modifiers. -/
def startsDeclarationFrom : Nat → Reader Bool
  | 0 => return false
  | fuel + 1 => do
    let t ← token
    let n ← nextToken
    match t.kind with
    | .keyword word =>
      match word with
      | .var_ | .let_ | .const_ | .function_ | .class_ | .enum_ => return true
      | .interface_ | .type_ => return n.isBindingName && !n.newline
      | .module_ | .namespace_ => return (n.isBindingName || n.kind == .string) && !n.newline
      | .abstract_ | .accessor_ | .async_ | .declare_ | .private_ | .protected_ | .public_
      | .readonly_ =>
        advance
        if n.newline then return false else startsDeclarationFrom fuel
      | .global_ => return n.kind == .name || n.isSymbol .leftBrace || n.isWord .export_
      | .import_ =>
        return n.kind == .string || n.isSymbol .star || n.isSymbol .leftBrace || n.isBindingName
      | .static_ =>
        advance
        startsDeclarationFrom fuel
      | .export_ =>
        advance
        let _ ← eatWord .type_
        let t ← token
        if t.isSymbol .assign || t.isSymbol .star || t.isSymbol .leftBrace || t.isWord .default_ ||
            t.isWord .as_ || t.isSymbol .at then
          return true
        else startsDeclarationFrom fuel
      | _ => return false
    | _ => return false

/-- Whether a declaration that comes with annotations begins here. -/
def startsDeclaration (r : Rules) : Reader Bool := do
  if (← dialect).typed then lookahead (startsDeclarationFrom r.budget) else return false

/-- A name for a type, from the announcing word on. -/
def typeAlias (r : Rules) : Reader Unit := do
  expectWord .type_
  bindingName
  typeParameters r
  expect .assign
  if (← atWord .intrinsic_) && !(← nextToken).isSymbol .dot then advance else anyType r
  endStatement

/-- An interface, from the announcing word on. -/
def interfaceFrom (r : Rules) : Reader Unit := do
  expectWord .interface_
  bindingName
  typeParameters r
  classClauses r
  typeMembers r

/-- The name of a member of an enumeration.  Between brackets there may be a string or a template
without substitutions, but no other expression. -/
def enumerationName (r : Rules) : Reader Unit := do
  match (← token).kind with
  | .template | .string => advance
  | .symbol .leftBracket =>
    let plain := (← nextToken).kind == .template
    match ← computedName r with
    | .string _ => pure ()
    | .other => if !plain then refuse
    | _ => refuse
  | _ => anyName

/-- A member of an enumeration with its value. -/
def enumerationMember (r : Rules) : Reader Unit := do
  enumerationName r
  let _ ← r.initializer

/-- An enumeration, from the announcing word on. -/
def enumeration (r : Rules) : Reader Unit := do
  expectWord .enum_
  bindingName
  expect .leftBrace
  let _ ← listUntil .rightBrace (enumerationMember r) r.budget
  expect .rightBrace

/-- The statements between braces. -/
def block (r : Rules) : Reader Unit := do
  expect .leftBrace
  let _ ← repeatWhile (do return !(← at? .rightBrace)) (r.statement false) r.budget
  expect .rightBrace

/-- The statements of a module that is only described, if they are given. -/
def ambientBlock (r : Rules) : Reader Unit := do
  if ← at? .leftBrace then block r else endStatement

/-- A namespace or a module with a name, from the announcing word on. -/
def namespaceFrom (r : Rules) : Reader Unit := do
  if ← eatWord .global_ then ambientBlock r
  else
    let isModule ← atWord .module_
    advance
    if isModule && (← token).kind == .string then
      advance
      ambientBlock r
    else
      bindingName
      let _ ← repeatWhile (eat .dot) bindingName r.budget
      block r

/-- Whether a list of resources that are given back at the end begins here.  The flag tells whether
`of` may name one. -/
def startsUsing (namesOf : Bool) : Reader Bool := do
  let n ← nextToken
  if ← atWord .using_ then
    return !n.newline && (n.isSymbol .leftBrace || (n.isBindingName && (namesOf || !n.isWord .of_)))
  else if ← atWord .await_ then
    lookahead do
      advance
      let t ← token
      let n ← nextToken
      return t.isWord .using_ && !t.newline && !n.newline &&
        (n.isBindingName || n.isSymbol .leftBrace || n.isSymbol .leftBracket)
  else return false

/-- A list of resources that are given back at the end, as a statement. -/
def usingStatement (r : Rules) : Reader Stmt := do
  let _ ← eatWord .await_
  expectWord .using_
  variableStatement r

end ModuleGraph.Source

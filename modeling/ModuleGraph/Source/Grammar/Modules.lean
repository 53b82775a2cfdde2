import ModuleGraph.Source.Grammar.Declarations

/-!
# Imports and exports

## Main definitions

* `Source.importStatement`: an import declaration.
* `Source.exportStatement`, `Source.Stmt.exported`: an export declaration, and what is kept of it.
* `Source.declaration`: a declaration behind its modifiers.
-/

namespace ModuleGraph.Source

open Reader

/-- The name under which a module exports something: a name or a string. -/
def exportName : Reader Unit := do
  let t ← token
  if t.isName || t.kind == .string then advance else refuse

/-- An attribute of an import: a key and a string. -/
def importAttribute : Reader Unit := do
  exportName
  expect .colon
  let _ ← stringLiteral

/-- The attributes of an import, if there are any. -/
def importAttributes (r : Rules) : Reader Unit := do
  let t ← token
  if t.isWord .with_ || (t.isWord .assert_ && !t.newline) then
    advance
    expect .leftBrace
    let _ ← listUntil .rightBrace importAttribute r.budget
    expect .rightBrace

/-- The module that an import or export declaration names, up to the end of the declaration. -/
def moduleSource (r : Rules) : Reader Literal := do
  let source ← stringLiteral
  importAttributes r
  endStatement
  return source

/-- Whether `type` is a modifier of a listed name, by what follows it: it is the name itself if it
is followed by the end of the entry, or by `as` and a name. -/
def listedTypeModifier : Reader Bool := do
  if !(← dialect).typed then return false
  if !(← atWord .type_) then return false
  lookahead do
    advance
    let t ← token
    if t.isWord .as_ then
      -- `type as`, `type as x`, `type as as`, `type as as x`
      advance
      let t ← token
      if t.isWord .as_ then
        advance
        let t ← token
        return t.isName || t.kind == .string
      return !(t.isName || t.kind == .string)
    return t.isName || t.kind == .string

/-- A name in the list of an import or an export, and the name it goes by on the other side. -/
def listedName : Reader Unit := do
  if ← listedTypeModifier then advance
  exportName
  if ← eatWord .as_ then exportName

/-- The list of an import, between braces. -/
def importList (r : Rules) : Reader Unit := do
  expect .leftBrace
  let _ ← listUntil .rightBrace listedName r.budget
  expect .rightBrace

/-- All exports of a module under one name. -/
def wholeImport : Reader Unit := do
  expect .star
  expectWord .as_
  bindingName

/-- An import declaration that gives a name to a required module or to a member of a namespace,
behind that name. -/
def importEqualsRest (r : Rules) : Reader Stmt := do
  expect .assign
  let source ←
    if ← eatWord .require_ then
      expect .leftParen
      let source ← stringLiteral
      expect .rightParen
      pure (some source)
    else
      anyName
      dottedTail r
      pure none
  endStatement
  return .importEquals source

/-- The clause of an import behind its first name or at its list, up to the end of the
declaration. -/
def importClauseRest (r : Rules) (named typeOnly : Bool) : Reader Stmt := do
  if !named || (← eat .comma) then
    if ← at? .star then wholeImport else importList r
  expectWord .from_
  return .importFrom typeOnly (← moduleSource r)

/-- Whether `type` is a modifier of the whole import: a list or a name follows it, and not the
source of the import. -/
def typeModifier : Reader Bool := do
  if !(← dialect).typed || !(← atWord .type_) then return false
  lookahead do
    advance
    let t ← token
    let n ← nextToken
    if t.isSymbol .leftBrace || t.isSymbol .star then return true
    return t.isBindingName && !(t.isWord .from_ && n.kind == .string)

/-- Whether the word for a phase of loading is a modifier of the whole import. -/
def phaseModifier : Reader Bool := do
  let t ← token
  let n ← nextToken
  if t.isWord .defer_ then return n.isSymbol .star
  if !t.isWord .source_ then return false
  lookahead do
    advance
    let t ← token
    let n ← nextToken
    return t.isBindingName && n.isWord .from_

/-- An import declaration, behind its announcing word. -/
def importRest (r : Rules) : Reader Stmt := do
  if (← token).kind == .string then return .importFrom false (← moduleSource r)
  if ← phaseModifier then advance
  let typeOnly ← typeModifier
  if typeOnly then advance
  if (← token).isBindingName then
    advance
    if (← token).kind == .string then return .importFrom typeOnly (← moduleSource r)
    else if (← at? .comma) || (← atWord .from_) then importClauseRest r true typeOnly
    else importEqualsRest r
  else importClauseRest r false typeOnly

/-- An import declaration, from its announcing word on. -/
def importStatement (r : Rules) : Reader Stmt := do
  expectWord .import_
  importRest r

/-- A function that is declared, behind its modifiers.  One that is only described ends like a
statement, even if it has a body. -/
def declaredFunction (r : Rules) (found : List Keyword) : Reader Unit := do
  if ← atWord .function_ then functionFrom r (found.contains .async_) true
  else if ← startsFunction then announcedFunction r true
  else refuse
  if found.contains .declare_ then endStatement

/-- An import declaration that gives a name, behind its modifiers. -/
def declaredImport (r : Rules) : Reader Stmt := do
  expectWord .import_
  if (← dialect).typed && (← atWord .type_) && (← nextToken).isBindingName then advance
  bindingName
  importEqualsRest r

/-- A declaration behind its modifiers. -/
def declaration (r : Rules) (found : List Keyword) : Reader Stmt := do
  match (← token).kind with
  | .keyword word =>
    match word with
    | .module_ | .namespace_ | .global_ => namespaceFrom r; return .other
    | .type_ => typeAlias r; return .other
    | .enum_ => enumeration r; return .other
    | .interface_ => interfaceFrom r; return .other
    | .class_ => classFrom r; return .other
    | .function_ | .async_ => declaredFunction r found; return .other
    | .import_ => declaredImport r
    | .const_ =>
      advance
      if (← atWord .enum_) && (← dialect).typed then
        enumeration r
        return .other
      else variableStatement r
    | .var_ | .let_ =>
      advance
      variableStatement r
    | _ => refuse
  | _ => refuse

/-- Whether a token is a literal that is no string. -/
def Token.isOtherLiteral (t : Token) : Bool :=
  t.isNumber || t.isWord .null_ || t.isWord .true_ || t.isWord .false_

/-- The list of an export, up to the end of the declaration.  Without a literal behind it, the word
that announces a source announces none. -/
def exportList (r : Rules) : Reader Stmt := do
  expect .leftBrace
  let _ ← listUntil .rightBrace listedName r.budget
  expect .rightBrace
  if ← eatWord .from_ then
    let t ← token
    if t.kind == .string then return .exportFrom (← moduleSource r)
    if t.isOtherLiteral then refuse
  endStatement
  return .other

/-- The export of all names of another module, up to the end of the declaration. -/
def exportAll (r : Rules) : Reader Stmt := do
  expect .star
  if ← eatWord .as_ then exportName
  expectWord .from_
  return .exportFrom (← moduleSource r)

/-- A decorated class that is exported.  Whatever single token stands behind the decorators and
modifiers is taken for the word that announces the class. -/
def decoratedExport (r : Rules) : Reader Unit := do
  decorators r
  let _ ← modifiers r .plain
  advance
  classRest r

/-- The default export, behind its announcing words. -/
def exportDefault (r : Rules) : Reader Stmt := do
  let t ← token
  let n ← nextToken
  if t.isSymbol .at then decoratedExport r
  else if t.isWord .class_ then classFrom r
  else if t.isWord .abstract_ && n.isWord .class_ && !n.newline then
    advance
    classFrom r
  else if t.isWord .interface_ && !n.newline then interfaceFrom r
  else if ← startsFunction then announcedFunction r true
  else
    let _ ← r.assignment true
    endStatement
  return .other

/-- The export of what a statement declares.  Only required modules and variables are kept. -/
def Stmt.exported : Stmt → Stmt
  | .importEquals source => .importEquals source
  | .declaration initial => .exportedDeclaration initial
  | _ => .other

/-- An exported declaration, behind its announcing word. -/
def exportDeclaration (r : Rules) : Reader Stmt := within (fun s => { s with inAwait := true }) do
  let typed := (← dialect).typed
  let found ← if typed then modifiers r .declaration else pure []
  let untyped := match (← token).kind with
    | .keyword word =>
      match word with
      | .module_ | .namespace_ | .global_ | .type_ | .enum_ | .interface_ => false
      | _ => true
    | _ => true
  if !typed && !untyped then refuse
  return (← declaration r found).exported

/-- An export declaration, from its announcing word on. -/
def exportStatement (r : Rules) : Reader Stmt := do
  expectWord .export_
  let t ← token
  let n ← nextToken
  let typed := (← dialect).typed
  match t.kind with
  | .symbol .leftBrace => exportList r
  | .symbol .star => exportAll r
  | .symbol .assign =>
    if !typed then refuse
    advance
    let _ ← r.assignment true
    endStatement
    return .other
  | .symbol .at =>
    decoratedExport r
    return .other
  | .keyword .import_ => declaredImport r
  | .keyword .as_ =>
    if !typed || !n.isWord .namespace_ then refuse
    advance
    advance
    anyName
    endStatement
    return .other
  | .keyword .default_ =>
    advance
    exportDefault r
  | .keyword .type_ =>
    if typed && n.isSymbol .leftBrace then
      advance
      exportList r
    else if typed && n.isSymbol .star then
      advance
      exportAll r
    else exportDeclaration r
  | _ => exportDeclaration r

end ModuleGraph.Source

import ModuleGraph.Source.Grammar.Modules

/-!
# Statements

## Main definitions

* `Source.statement`: a statement.
-/

namespace ModuleGraph.Source

open Reader

/-- An expression between parentheses, as the head of a statement. -/
def head (r : Rules) : Reader Unit := do
  expect .leftParen
  let _ ← r.expression
  expect .rightParen

/-- A statement inside another one. -/
def inner (r : Rules) : Reader Unit := discard (r.statement true)

/-- A choice between two statements. -/
def ifStatement (r : Rules) : Reader Unit := do
  advance
  head r
  inner r
  if ← eatWord .else_ then inner r

/-- A loop that tests behind its body. -/
def doStatement (r : Rules) : Reader Unit := do
  advance
  inner r
  expectWord .while_
  head r
  let _ ← eat .semicolon

/-- The rest of a loop over the keys or the elements of a value. -/
def iteration (r : Rules) : Reader Unit := do
  if ← eatWord .in_ then
    let _ ← r.expression
  else
    expectWord .of_
    let _ ← r.assignment true
  expect .rightParen
  inner r

/-- The rest of a loop with a test and a step, from the first semicolon on. -/
def counting (r : Rules) : Reader Unit := do
  expect .semicolon
  if !(← at? .semicolon) then
    let _ ← r.anyExpression
  expect .semicolon
  if !(← at? .rightParen) then
    let _ ← r.anyExpression
  expect .rightParen
  inner r

/-- Whether the head of a loop declares variables. -/
def startsLoopVariables : Reader Bool := do
  let t ← token
  let n ← nextToken
  if t.isWord .var_ || t.isWord .const_ then return true
  if t.isWord .let_ then
    return !n.isWord .in_ && !n.isWord .instanceof_ &&
      (n.isName || n.isSymbol .leftBrace || n.isSymbol .leftBracket)
  startsUsing false

/-- A loop with a head of three parts, or over a value. -/
def forStatement (r : Rules) : Reader Unit := do
  advance
  let _ ← eatWord .await_
  expect .leftParen
  if ← at? .semicolon then counting r
  else if ← startsLoopVariables then
    let _ ← eatWord .await_
    advance
    let _ ← within (fun s => { s with allowIn := false }) (declarators r)
    if (← atWord .in_) || (← atWord .of_) then iteration r else counting r
  else
    let e ← within (fun s => { s with allowIn := false }) r.expression
    if (← atWord .in_) || (← atWord .of_) then
      if e.isTarget then iteration r else refuse
    else counting r

/-- The statements of one case, up to the next one. -/
def caseStatement (r : Rules) : Reader Unit := do
  if ← eatWord .default_ then expect .colon
  else
    expectWord .case_
    let _ ← r.expression
    expect .colon
  let _ ← repeatWhile
    (do return !(← at? .rightBrace) && !(← atWord .case_) && !(← atWord .default_))
    (r.statement false) r.budget

/-- A choice between cases. -/
def switchStatement (r : Rules) : Reader Unit := do
  advance
  head r
  expect .leftBrace
  let _ ← repeatWhile (do return !(← at? .rightBrace)) (caseStatement r) r.budget
  expect .rightBrace

/-- Statements with a way to deal with their failure. -/
def tryStatement (r : Rules) : Reader Unit := do
  advance
  block r
  if ← eatWord .catch_ then
    if ← eat .leftParen then
      r.binding
      r.annotation
      expect .rightParen
    block r
  if ← eatWord .finally_ then block r

/-- A jump out of a loop, perhaps with a label. -/
def jumpStatement : Reader Unit := do
  advance
  if !(← canEnd) then
    let t ← token
    if !t.isBindingName || (← isOperatorWord t) then refuse
    advance
  endStatement

/-- The end of a function, perhaps with a result. -/
def returnStatement (r : Rules) : Reader Unit := do
  advance
  if !(← canEnd) then
    let _ ← r.anyExpression
  endStatement

/-- A statement that is an expression, or that has a label. -/
def expressionStatement (r : Rules) : Reader Stmt := do
  let e ← r.expression
  if e.isName && (← at? .colon) then
    advance
    inner r
    return .other
  endStatement
  return .expression e

/-- Whether a token behind a word shows that the word is a name: it assigns to it or computes with
it.  The operators that choose between their operands do not show it. -/
def Token.usesName (t : Token) : Bool :=
  match t.kind with
  | .symbol .coalesce | .symbol .or | .symbol .and => false
  | .symbol s => s.assigns || s.strength?.isSome
  | .keyword .in_ | .keyword .instanceof_ => true
  | _ => false

/-- A statement that begins with `let`, which may be a name. -/
def letStatement (r : Rules) (alone : Bool) : Reader Stmt := do
  let n ← nextToken
  if n.usesName then
    let e ← r.assignment true
    endStatement
    return .expression e
  else if n.isSymbol .dot || n.isSymbol .leftParen then return .expression (← r.expression)
  else if (alone && !n.isSymbol .leftBracket) || n.isSymbol .semicolon then
    let t ← token
    advance
    endStatement
    return .expression (.name t.text)
  else
    advance
    variableStatement r

/-- A declaration behind its decorators. -/
def decoratedStatement (r : Rules) : Reader Stmt := do
  decorators r
  if ← atWord .export_ then exportStatement r
  else
    let _ ← modifiers r .plain
    classFrom r
    return .other

/-- A declaration that comes with annotations, if one begins here, and else an expression. -/
def modifiedStatement (r : Rules) : Reader Stmt := do
  if ← startsDeclaration r then
    within (fun s => { s with inAwait := false }) do
      let found ← modifiers r .declaration
      declaration r found
  else expressionStatement r

/-- A statement that is announced by a word of its own. -/
def wordStatement (r : Rules) (alone : Bool) (word : Keyword) : Reader Stmt := do
  let t ← token
  let n ← nextToken
  match word with
  | .if_ => ifStatement r; return .other
  | .do_ => doStatement r; return .other
  | .while_ | .with_ => advance; head r; inner r; return .other
  | .for_ => forStatement r; return .other
  | .continue_ | .break_ => jumpStatement; return .other
  | .switch_ => switchStatement r; return .other
  | .throw_ => advance; let _ ← r.expression; endStatement; return .other
  | .try_ => tryStatement r; return .other
  | .debugger_ => advance; endStatement; return .other
  | .return_ => returnStatement r; return .other
  | .class_ => classFrom r; return .other
  | .function_ => functionFrom r false true; return .other
  | .export_ => exportStatement r
  | .import_ =>
    if n.isSymbol .dot || n.isSymbol .leftParen then expressionStatement r else importStatement r
  | .var_ => advance; variableStatement r
  | .const_ => declaration r []
  | .let_ => if t.escaped then expressionStatement r else letStatement r alone
  | .async_ =>
    if ← startsFunction then
      announcedFunction r true
      return .other
    else modifiedStatement r
  | .using_ | .await_ =>
    if ← startsUsing true then usingStatement r else expressionStatement r
  | .interface_ | .type_ | .module_ | .namespace_ | .declare_ | .enum_ | .private_ | .protected_
  | .public_ | .abstract_ | .accessor_ | .static_ | .readonly_ | .global_ => modifiedStatement r
  | _ => expressionStatement r

/-- A statement. -/
def statement (r : Rules) (alone : Bool) : Reader Stmt := do
  match (← token).kind with
  | .symbol .leftBrace => block r; return .other
  | .symbol .semicolon => advance; return .other
  | .symbol .at => decoratedStatement r
  | .keyword word => wordStatement r alone word
  | _ => expressionStatement r

end ModuleGraph.Source

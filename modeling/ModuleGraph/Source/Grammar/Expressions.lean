import ModuleGraph.Source.Grammar.Classes
import ModuleGraph.Source.Grammar.Markup
import ModuleGraph.Source.Grammar.Targets

/-!
# Expressions

Operands with their members and calls, operators in front of and between operands, conditions,
assignments and arrow functions.  A parenthesis may open the parameters of an arrow function; where
the first tokens leave that open, the parameters are tried first.

## Main definitions

* `Source.primary`: the smallest operands.
* `Source.operand`: an operand with its members and calls.
* `Source.unary`: an operand with the operators in front of it.
* `Source.binary`: operands with operators between them.
* `Source.assignment`: an expression without commas.
-/

namespace ModuleGraph.Source

open Reader

/-! ### Operands -/

/-- An element of a list: it may be missing, or spread out. -/
def arrayElement (r : Rules) : Reader Expr := do
  if ← at? .comma then return .hole
  if ← eat .ellipsis then return .spread (← r.assignment true)
  r.assignment true

/-- A list of elements. -/
def arrayLiteral (r : Rules) : Reader Expr := do
  expect .leftBracket
  let elements ← withIn (listUntil .rightBracket (arrayElement r) r.budget)
  expect .rightBracket
  return .array elements

/-- A property of an object behind its modifiers: a method, a value, or a name that is also its own
value. -/
def objectProperty (r : Rules) (async : Bool) : Reader Expr := do
  let generator ← eat .star
  let t ← token
  propertyName r
  if generator || (← at? .leftParen) || (← at? .less) then
    functionRest r async generator false
    return .other
  else if ← eat .colon then r.assignment true
  else if t.isBindingName && !(← isOperatorWord t) then
    let _ ← r.initializer
    return .shorthand
  else refuse

/-- A member of an object, of which its value is kept. -/
def objectMember (r : Rules) : Reader Expr := do
  if ← eat .ellipsis then return .spread (← r.assignment true)
  let found ← modifiers r .plain
  if ← accessorWord then
    propertyName r
    functionRest r false false false
    return .other
  objectProperty r (found.contains .async_)

/-- An object. -/
def objectLiteral (r : Rules) : Reader Expr := do
  expect .leftBrace
  let values ← withIn (listUntil .rightBrace (objectMember r) r.budget)
  expect .rightBrace
  return .object values

/-- An expression between parentheses. -/
def parenthesized (r : Rules) : Reader Expr := do
  expect .leftParen
  let e ← r.anyExpression
  expect .rightParen
  return .paren e

/-- A template with its substitutions. -/
def templateLiteral (r : Rules) : Reader Unit := do
  if (← token).kind == .template then advance
  else
    advance
    templateRest (do
      let _ ← r.anyExpression
      if !(← at? .rightBrace) then refuse) r.budget

/-- An `import` expression, or a property of the module itself. -/
def importExpression (r : Rules) : Reader Expr := do
  expectWord .import_
  if ← eat .dot then
    if ← eatWord .meta_ then return .other
    if !((← eatWord .source_) || (← eatWord .defer_)) then refuse
  expect .leftParen
  let source ← r.plain
  if ← eat .comma then
    if !(← at? .rightParen) then
      let _ ← r.plain
    let _ ← eat .comma
  expect .rightParen
  return .importCall source

/-- What is left behind a pattern between slashes and its flags. -/
def skipFlaggedPattern? (c : Cursor) : Option (List Char) :=
  (skipPattern? false (c.here.drop 1)).bind skipFlags?

theorem skipFlaggedPattern?_suffix {c : Cursor} {rest : List Char}
    (h : skipFlaggedPattern? c = some rest) : rest <:+ c.here := by
  obtain ⟨behind, hpattern, hflags⟩ := Option.bind_eq_some_iff.mp h
  exact ((skipFlags?_suffix hflags).trans (skipPattern?_suffix hpattern)).trans
    (List.drop_suffix 1 c.here)

/-- A pattern between slashes with its flags.  No token in front of it may be flawed. -/
def patternLiteral : Reader Unit := do
  if (← cursor).lexicallyFlawed then refuse
  skip skipFlaggedPattern? fun _ h => skipFlaggedPattern?_suffix h

/-- A class behind its decorators, as an expression. -/
def decoratedClass (r : Rules) : Reader Unit := do
  decorators r
  classFrom r

/-- The elements of a call, between parentheses. -/
def callArguments (r : Rules) : Reader (List Expr) := do
  expect .leftParen
  let args ← within (fun s => { s with allowIn := true, inDecorator := false })
    (listUntil .rightParen (do
      if ← eat .ellipsis then return .spread (← r.assignment true)
      r.assignment true) r.budget)
  expect .rightParen
  return args

/-- The smallest operands, and those that announce themselves by a word. -/
def primary (r : Rules) : Reader Expr := do
  let c ← cursor
  match c.token.kind with
  | .string => return .string (← stringLiteral)
  | .number true => advance; return .other
  | .template | .templateHead => templateLiteral r; return .other
  | .name => advance; return .name c.token.text
  | .symbol .leftParen => parenthesized r
  | .symbol .leftBracket => arrayLiteral r
  | .symbol .leftBrace => objectLiteral r
  | .symbol .slash | .symbol .assignSlash => patternLiteral; return .other
  | .symbol .at => decoratedClass r; return .other
  | .keyword word =>
    match word with
    | .null_ | .true_ | .false_ | .this_ | .super_ => advance; return .other
    | .function_ => functionFrom r false false; return .other
    | .class_ => classFrom r; return .other
    | .import_ => importExpression r
    | .async_ =>
      if ← startsFunction then
        announcedFunction r false
        return .other
      else
        advance
        return .name c.token.text
    | word =>
      if word.isReserved then refuse
      else
        advance
        return .name c.token.text
  | _ => refuse

/-- The expression without its outermost type arguments, which a call takes over. -/
def Expr.withoutArguments : Expr → Expr
  | .instantiation e => e
  | e => e

/-- Which parts may follow an operand, and whether an optional one has been read. -/
structure Chain where
  calls : Bool
  optional : Bool

/-- Whether a token opens a template. -/
def Token.opensTemplate (t : Token) : Bool := t.kind == .template || t.kind == .templateHead

/-- An optional part of an operand, behind its mark: a member, a template or a call. -/
def optionalPart (r : Rules) (e : Expr) : Reader Expr := do
  let t ← token
  if t.isSymbol .leftBracket then
    advance
    let _ ← r.anyExpression
    expect .rightBracket
    return .member
  if t.isName || t.kind == .privateName then
    advance
    return .member
  let _ ← expressionTypeArguments? r
  if (← token).opensTemplate then
    templateLiteral r
    return .other
  return .call e (← callArguments r)

/-- The parts that follow an operand: members, calls, templates and type arguments.  The second
result tells whether one of them was optional.  Where no calls may follow, an optional member may
not follow either. -/
def operandParts (r : Rules) : Nat → Chain → Expr → Reader (Expr × Bool)
  | 0, _, _ => refuse
  | fuel + 1, chain, e => do
    let t ← token
    match t.kind with
    | .symbol .dot =>
      advance
      let t ← token
      if t.isName || t.kind == .privateName then advance else refuse
      operandParts r fuel chain .member
    | .symbol .questionDot =>
      if !chain.calls then
        let n ← nextToken
        if n.isName || n.kind == .privateName || n.isSymbol .leftBracket || n.opensTemplate then
          refuse
        return (e, chain.optional)
      advance
      operandParts r fuel { chain with optional := true } (← optionalPart r e)
    | .symbol .leftBracket =>
      if (← scope).inDecorator then return (e, chain.optional)
      advance
      let _ ← r.anyExpression
      expect .rightBracket
      operandParts r fuel chain .member
    | .symbol .bang =>
      if t.newline || !(← dialect).typed then return (e, chain.optional)
      advance
      operandParts r fuel chain (.typed e)
    | .template | .templateHead =>
      templateLiteral r
      operandParts r fuel chain .other
    | .symbol .less | .symbol .shiftLeft =>
      if ← expressionTypeArguments? r then operandParts r fuel chain (.instantiation e)
      else return (e, chain.optional)
    | .symbol .leftParen =>
      if !chain.calls then return (e, chain.optional)
      let args ← callArguments r
      operandParts r fuel chain (.call e.withoutArguments args)
    | _ => return (e, chain.optional)

/-- A construction of an object, or the target of one. -/
def construction (r : Rules) : Nat → Reader Expr
  | 0 => refuse
  | fuel + 1 => do
    expectWord .new_
    if ← eat .dot then
      expectWord .target_
      return .other
    let head ← if ← atWord .new_ then construction r fuel else primary r
    let _ ← operandParts r r.budget ⟨false, false⟩ head
    if ← at? .leftParen then
      let _ ← callArguments r
    return .other

/-- An operand with its members and calls.  A chain with an optional part is a leaf of the tree. -/
def operand (r : Rules) : Reader Expr := do
  let head ← if ← atWord .new_ then construction r r.budget else primary r
  let (e, optional) ← operandParts r r.budget ⟨true, false⟩ head
  return if optional then .other else e

/-! ### Operators -/

/-- Whether an operand follows a word that is not known to be an operator: a name or a literal on
the same line, unless it is an operator between two operands. -/
def operandFollows : Reader Bool := do
  let n ← nextToken
  return !n.newline && !n.isWord .in_ && !n.isWord .instanceof_ && (n.isName || n.isLiteralName)

/-- Whether `await` is an operator here. -/
def awaits : Reader Bool := do
  if !(← atWord .await_) then return false
  return (← scope).inAwait || (!(← nextToken).isWord .of_ && (← operandFollows))

/-- Whether `yield` is an operator here. -/
def yields : Reader Bool := do
  if ← atWord .yield_ then return (← scope).inYield || (← operandFollows) else return false

/-- An operand with the operator that changes it in place, behind or in front of it. -/
def update (r : Rules) : Reader Expr := do
  if (← eat .increment) || (← eat .decrement) then
    let e ← r.unary
    if e.isSimpleTarget then return .other else refuse
  if (← at? .less) && (← dialect).markup then
    r.element false
    return .other
  let e ← operand r
  let t ← token
  if (t.isSymbol .increment || t.isSymbol .decrement) && !t.newline then
    advance
    if e.isSimpleTarget then return .other else refuse
  return e

/-- An operand with the operators in front of it. -/
def unary (r : Rules) : Reader Expr := do
  match (← token).kind with
  | .symbol .plus | .symbol .minus | .symbol .tilde | .symbol .bang
  | .keyword .typeof_ | .keyword .void_ | .keyword .delete_ =>
    advance
    let _ ← r.unary
    return .other
  | .symbol .less =>
    let d ← dialect
    if d.typed && !d.markup then
      advance
      anyType r
      expect .greater
      return .typed (← r.unary)
    else update r
  | .keyword .await_ =>
    if ← awaits then
      advance
      return .await (← within (fun s => { s with inAwait := true }) r.unary)
    else update r
  | _ => update r

/-- A cursor at all the closing angle brackets that stand together as one symbol. -/
def Cursor.joinAngles (c : Cursor) : Cursor :=
  if c.token.isSymbol .greater then
    match readSymbol? angleSymbols c.here with
    | some (s, rest) => c.retake (.symbol s) rest
    | none => c
  else c

theorem Cursor.leads_joinAngles (c : Cursor) : c.Leads c.joinAngles := by
  unfold joinAngles
  split
  · split
    · next h => exact c.leads_retake (readSymbol?_suffix h) (by simp)
    · exact .refl c
  · exact .refl c

/-- Take all the closing angle brackets that stand together as one symbol. -/
def joinAngles : Reader Unit := move Cursor.joinAngles Cursor.leads_joinAngles

/-- The operators and operands that follow an operand and bind tighter than a given strength. -/
def binaryRest (r : Rules) (least : Nat) : Nat → Expr → Reader Expr
  | 0, _ => refuse
  | fuel + 1, e => do
    joinAngles
    let t ← token
    match t.strength? with
    | none => return e
    | some strength =>
      let goesOn := if t.isSymbol .power then least ≤ strength else least < strength
      if !goesOn || (t.isWord .in_ && !(← scope).allowIn) then return e
      if t.isWord .as_ || t.isWord .satisfies_ then
        if t.newline then return e
        advance
        anyType r
        binaryRest r least fuel (.typed e)
      else
        advance
        let _ ← r.binary strength
        binaryRest r least fuel .other

/-- A test for a private member, where `in` is an operator.  The operand may not be such a test. -/
def privateTest (r : Rules) : Reader Expr := do
  if !(← scope).allowIn then refuse
  advance
  expectWord .in_
  if (← token).kind == .privateName then refuse
  let _ ← r.binary relationStrength
  return .other

/-- An expression whose operators bind tighter than a given strength. -/
def binary (r : Rules) (least : Nat) : Reader Expr := do
  let left ← if (← token).kind == .privateName then privateTest r else unary r
  binaryRest r least r.budget left

/-! ### Arrow functions -/

/-- Whether the tokens ahead are the head of an arrow function. -/
inductive Guess where
  | yes
  | no
  | maybe
  deriving DecidableEq, Repr

/-- Guess by the tokens behind an opening parenthesis. -/
def guessBehindParen : Reader Guess := do
  let t ← token
  if t.isSymbol .rightParen then
    let n ← nextToken
    return if n.isSymbol .arrow || n.isSymbol .colon || n.isSymbol .leftBrace then .yes else .no
  if t.isSymbol .leftBracket || t.isSymbol .leftBrace then return .maybe
  if t.isSymbol .ellipsis then return .yes
  let n ← nextToken
  match t.kind with
  | .keyword word =>
    if word.isModifier && word != .async_ && n.isBindingName then
      return if n.isWord .as_ then .no else .yes
  | _ => pure ()
  if !t.isBindingName && !t.isWord .this_ then return .no
  if n.isSymbol .colon then return .yes
  if n.isSymbol .question then
    advance
    let n ← nextToken
    return if n.isSymbol .colon || n.isSymbol .comma || n.isSymbol .assign ||
      n.isSymbol .rightParen then .yes else .no
  return if n.isSymbol .comma || n.isSymbol .assign || n.isSymbol .rightParen then .maybe else .no

/-- Guess by the tokens behind an opening angle bracket.  Where markup is understood, only what
cannot be an element is taken for type parameters. -/
def guessBehindAngle : Reader Guess := do
  let t ← token
  if !t.isBindingName && !t.isWord .const_ then return .no
  if !(← dialect).markup then return .maybe
  let _ ← eatWord .const_
  advance
  let t ← token
  if t.isWord .extends_ then
    let n ← nextToken
    return if n.isSymbol .assign || n.isSymbol .greater || n.isSymbol .slash then .no else .maybe
  return if t.isSymbol .comma || t.isSymbol .assign then .yes else .no

/-- Guess whether an arrow function with parentheses begins here. -/
def guessArrow : Reader Guess := peek .no do
  if ← eatWord .async_ then
    if (← token).newline then return .no
  if ← eat .leftParen then guessBehindParen
  else if ← eat .less then guessBehindAngle
  else return .no

/-- The head of an arrow function with parentheses; whether it is asynchronous, and whether it names
the type of its result. -/
def arrowHead (r : Rules) : Reader (Bool × Bool) := do
  let async ← eatWord .async_
  within (fun s => { s with inAwait := s.inAwait || async }) do
    typeParameters r
    parameters r
    let named ← at? .colon
    resultAnnotation r
    return (async, named)

/-- The body of an arrow function, from the arrow on. -/
def arrowBody (r : Rules) (async arrowType : Bool) : Reader Unit := do
  expect .arrow
  inFunction async false do
    if ← at? .leftBrace then functionBody r
    else
      let _ ← r.assignment arrowType

/-- The head of an arrow function, if that is what can be read here. -/
def arrowHead? (r : Rules) : Reader (Option (Bool × Bool)) := attempt do
  let head ← arrowHead r
  if ← at? .arrow then return head else refuse

/-- An arrow function with parentheses, if one begins here.  Between the marks of a condition, a
type of the result counts only if the second mark is left behind it; where the first tokens leave no
doubt, the body is read as if it stood alone. -/
def arrow? (r : Rules) (arrowType : Bool) : Reader Bool := do
  match ← guessArrow with
  | .no => return false
  | .yes =>
    let (async, _) ← arrowHead r
    arrowBody r async true
    return true
  | .maybe => unlessIdle do
    match ← arrowHead? r with
    | none => return false
    | some (async, named) =>
      arrowBody r async arrowType
      return arrowType || !named || (← at? .colon)

/-- Whether an expression is a plain name. -/
def Expr.isName : Expr → Bool
  | .name _ => true
  | _ => false

/-- Whether an asynchronous arrow function of a single name begins here. -/
def startsAsyncArrow : Reader Bool := lookahead do
  expectWord .async_
  let t ← token
  let n ← nextToken
  return !t.newline && t.isBindingName && !(← awaits) && !n.newline && n.isSymbol .arrow

/-! ### Whole expressions -/

/-- The operand of `yield`, if there is one. -/
def yieldExpression (r : Rules) : Reader Unit := do
  expectWord .yield_
  let t ← token
  if t.newline then return
  let delegate ← eat .star
  let t ← token
  let ends := match t.kind with
    | .symbol .semicolon | .symbol .rightBrace | .symbol .rightBracket | .symbol .rightParen
    | .symbol .colon | .symbol .comma | .keyword .in_ | .finished _ => true
    | _ => false
  if delegate || !ends then
    let _ ← within (fun s => { s with inYield := true }) (r.assignment true)

/-- Whether a symbol that assigns may have a pattern on its left. -/
def Symbol.takesPattern : Symbol → Bool
  | .assign | .assignAnd | .assignOr | .assignCoalesce => true
  | _ => false

/-- What follows the first part of an expression: an assignment, or a choice. -/
def assignmentRest (r : Rules) (arrowType : Bool) (left : Expr) : Reader Expr := do
  match (← token).kind with
  | .symbol .question =>
    advance
    let yes ← withIn (r.assignment false)
    expect .colon
    let no ← r.assignment arrowType
    return .conditional left yes no
  | .symbol s =>
    if !s.assigns then return left
    let assignable := if s.takesPattern then left.isTarget else left.isSimpleTarget
    if !assignable then refuse
    advance
    return .assignment (← r.assignment arrowType)
  | _ => return left

/-- An expression without commas. -/
def assignment (r : Rules) (arrowType : Bool) : Reader Expr := do
  if ← yields then
    yieldExpression r
    return .other
  if ← arrow? r arrowType then return .other
  if ← startsAsyncArrow then
    advance
    advance
    arrowBody r true arrowType
    return .other
  let left ← binary r 0
  if left.isName && (← at? .arrow) then
    arrowBody r false arrowType
    return .other
  assignmentRest r arrowType left

end ModuleGraph.Source

import ModuleGraph.Source.Grammar.Bindings

/-!
# Types

Nothing of a type is kept in the syntax tree, but it has to be read to find its end.

## Main definitions

* `Source.typ`: a type.
* `Source.typeArguments?`, `Source.typeParameters`: what stands between angle brackets.
* `Source.resultType`: the type of the result of a function, which may be a predicate.
* `Source.typeMember`, `Source.typeMembers`: the members of an object type.
* `Source.expressionTypeArguments?`: type arguments in an expression, where an angle bracket may
  also be an operator.
-/

namespace ModuleGraph.Source

open Reader

/-- Read a type that may not go on with a condition. -/
def plainType (r : Rules) : Reader Unit := within (fun s => { s with plainTypes := true }) r.typ

/-- Read a type that may go on with a condition. -/
def anyType (r : Rules) : Reader Unit := within (fun s => { s with plainTypes := false }) r.typ

/-- Move behind the first of two opening angle brackets that stand together. -/
def splitAngles : Reader Unit :=
  move (fun c => (c.retake (.symbol .less) (c.here.drop 1)).next) fun c =>
    (c.leads_retake (List.drop_suffix 1 c.here) (by simp)).trans (Cursor.leads_next _)

/-- Read an opening angle bracket if it is there; of two that stand together the first is read. -/
def eatAngle : Reader Bool := do
  match (← token).kind with
  | .symbol .less => advance; return true
  | .symbol .shiftLeft => splitAngles; return true
  | _ => return false

/-- Whether the cursor stands at an opening angle bracket. -/
def atAngle : Reader Bool := do return (← at? .less) || (← at? .shiftLeft)

/-- The types between angle brackets, if they are there. -/
def typeArguments? (r : Rules) : Reader Bool := do
  if ← eatAngle then
    let _ ← listUntil .greater (anyType r) r.budget
    expect .greater
    return true
  else return false

/-- The types between angle brackets behind a name on the same line. -/
def lineTypeArguments (r : Rules) : Reader Unit := do
  if !(← token).newline then
    let _ ← typeArguments? r

/-- A type parameter with its bound and its default. -/
def typeParameter (r : Rules) : Reader Unit := do
  let _ ← modifiers r .typeMember
  bindingName
  if ← eatWord .extends_ then anyType r
  if ← eat .assign then anyType r

/-- The type parameters of a declaration, where annotations are understood. -/
def typeParameters (r : Rules) : Reader Unit := do
  if (← dialect).typed then
    if ← eatAngle then
      let _ ← listUntil .greater (typeParameter r) r.budget
      expect .greater

/-- The type of a result: a type, or a name with the type it is found to have. -/
def resultType (r : Rules) : Reader Unit := do
  let t ← token
  let n ← nextToken
  if t.isName && n.isWord .is_ && !n.newline then
    advance
    advance
  r.typ

/-- The type of a result behind a colon, if it is there. -/
def memberResult (r : Rules) : Reader Unit := do
  if ← eat .colon then within (fun s => { s with plainTypes := false }) (resultType r)

/-- The type of the result of a function behind a colon, where annotations are understood. -/
def resultAnnotation (r : Rules) : Reader Unit := do
  if (← dialect).typed then memberResult r

/-- Names with dots between them, behind the first. -/
def dottedTail (r : Rules) : Reader Unit := do
  let _ ← repeatWhile (eat .dot) anyName r.budget

/-- A reference to a named type. -/
def typeReference (r : Rules) : Reader Unit := do
  anyName
  dottedTail r
  lineTypeArguments r

/-- Whether a token begins a parameter of a function. -/
def Token.startsParameter (t : Token) : Bool :=
  t.isBindingName || t.isModifier || t.kind == .privateName || t.isSymbol .ellipsis ||
    t.isSymbol .at

/-- Whether a type begins here.  A parenthesis begins one if it may open parameters or stand around
a type, and a minus sign if a number follows it. -/
def startsType : Nat → Reader Bool
  | 0 => return false
  | fuel + 1 => do
    let t ← token
    match t.kind with
    | .name | .string | .number _ | .template | .templateHead => return true
    | .keyword word =>
      match word with
      | .void_ | .null_ | .this_ | .typeof_ | .new_ | .true_ | .false_ | .import_ | .function_
      | .break_ => return true
      | _ => return t.isFreeName
    | .symbol s =>
      match s with
      | .leftBrace | .leftBracket | .less | .bar | .ampersand | .star | .question
      | .ellipsis => return true
      | .minus => return (← nextToken).isNumber
      | .leftParen => lookahead do
        advance
        let t ← token
        if t.isSymbol .rightParen || t.startsParameter then return true else startsType fuel
      | _ => return false
    | _ => return false

/-- Forget that a flawed token or a flawed binding has been read. -/
def forgetFlaws : Reader Unit :=
  move (fun c => { c with lexicallyFlawed := false, bindingFlawed := false }) fun c =>
    c.leads_note _ _

/-- Read a pattern of names that breaks no rule. -/
def flawlessPattern (r : Rules) : Reader Unit := do
  forgetFlaws
  if !(← at? .leftBracket) && !(← at? .leftBrace) then refuse
  r.binding
  let c ← cursor
  if c.lexicallyFlawed || c.bindingFlawed then refuse

/-- Whether a parenthesis opens the parameters of a function type. -/
def opensFunctionType (r : Rules) : Reader Bool := lookahead do
  expect .leftParen
  if (← at? .rightParen) || (← at? .ellipsis) then return true
  let _ ← modifiers r .plain
  let t ← token
  if t.isBindingName || t.isWord .this_ then advance else flawlessPattern r
  let t ← token
  return t.isSymbol .colon || t.isSymbol .comma || t.isSymbol .question || t.isSymbol .assign ||
    (t.isSymbol .rightParen && (← nextToken).isSymbol .arrow)

/-- Whether a function type begins here. -/
def startsFunctionType (r : Rules) : Reader Bool := do
  let t ← token
  if t.isSymbol .less || t.isWord .new_ then return true
  if t.isSymbol .leftParen then opensFunctionType r
  else return t.isWord .abstract_ && (← nextToken).isWord .new_

/-- The type of a function or of a constructor.  Whatever single token stands between the parameters
and the result is taken for the arrow. -/
def functionType (r : Rules) : Reader Unit := within (fun s => { s with plainTypes := false }) do
  let _ ← eatWord .abstract_
  let _ ← eatWord .new_
  typeParameters r
  parameters r
  advance
  resultType r

/-- The end of a member of an object type, which may be left unwritten. -/
def endMember : Reader Unit := do
  if ← eat .comma then return
  let _ ← eat .semicolon

/-- Whether a bracket opens the parameter of an index, and not a computed name. -/
def opensIndex : Reader Bool := lookahead do
  expect .leftBracket
  let t ← token
  if t.isSymbol .ellipsis || t.isSymbol .leftBracket then return true
  if !t.isModifier && !t.isFreeName then return false
  advance
  let n ← token
  if t.isModifier && n.isFreeName then return true
  if n.isSymbol .colon || n.isSymbol .comma then return true
  if !n.isSymbol .question then return false
  let n ← nextToken
  return n.isSymbol .colon || n.isSymbol .comma || n.isSymbol .rightBracket

/-- A type behind a colon, both of which have to be there. -/
def requiredAnnotation (r : Rules) : Reader Unit := do
  expect .colon
  anyType r

/-- The index of an object type or of a class. -/
def indexMember (r : Rules) : Reader Unit := do
  expect .leftBracket
  let _ ← listUntil .rightBracket (do anyName; requiredAnnotation r) r.budget
  expect .rightBracket
  requiredAnnotation r
  endMember

/-- The parameters and the result of a member that can be called. -/
def signature (r : Rules) : Reader Unit := do
  typeParameters r
  parameters r
  memberResult r
  endMember

/-- A member of an object type that is read or written by a function, behind the word for it. -/
def accessorMember (r : Rules) : Reader Unit := do
  propertyName r
  parameters r
  memberResult r
  endMember

/-- A named member of an object type. -/
def namedMember (r : Rules) : Reader Unit := do
  propertyName r
  let _ ← eat .question
  if (← at? .leftParen) || (← at? .less) then signature r
  else
    if ← eat .colon then anyType r
    endMember

/-- A member of an object type. -/
def typeMember (r : Rules) : Reader Unit := do
  let t ← token
  let n ← nextToken
  if t.isSymbol .leftParen || t.isSymbol .less then signature r
  else if t.isWord .new_ && (n.isSymbol .leftParen || n.isSymbol .less) then
    advance
    signature r
  else
    let _ ← modifiers r .typeMember
    if (← at? .leftBracket) && (← opensIndex) then indexMember r
    else if ← accessorWord then accessorMember r
    else namedMember r

/-- The members of an object type between braces. -/
def typeMembers (r : Rules) : Reader Unit := do
  expect .leftBrace
  let _ ← repeatWhile (do return !(← at? .rightBrace)) (typeMember r) r.budget
  expect .rightBrace

/-- Read a sign if it is there. -/
def eatSign : Reader Bool := do
  if (← at? .plus) || (← at? .minus) then
    advance
    return true
  else return false

/-- Whether a brace opens a type that is mapped over its keys. -/
def opensMapped : Reader Bool := lookahead do
  expect .leftBrace
  if ← eatSign then return ← atWord .readonly_
  let _ ← eatWord .readonly_
  expect .leftBracket
  return (← nextToken).isWord .in_

/-- A type that is mapped over its keys. -/
def mappedType (r : Rules) : Reader Unit := do
  expect .leftBrace
  if ← eatSign then expectWord .readonly_
  else
    let _ ← eatWord .readonly_
  expect .leftBracket
  bindingName
  expectWord .in_
  anyType r
  if ← eatWord .as_ then anyType r
  expect .rightBracket
  if ← eatSign then expect .question
  else
    let _ ← eat .question
  if ← eat .colon then anyType r
  let _ ← eat .semicolon
  expect .rightBrace

/-- Whether a name of an element of a tuple begins here. -/
def startsElementName : Reader Bool := lookahead do
  let _ ← eat .ellipsis
  anyName
  if ← at? .colon then return true
  return (← at? .question) && (← nextToken).isSymbol .colon

/-- An element of a tuple. -/
def tupleElement (r : Rules) : Reader Unit := do
  if ← startsElementName then
    let _ ← eat .ellipsis
    anyName
    let _ ← eat .question
    expect .colon
  let _ ← eat .ellipsis
  anyType r

/-- A type that stands for a module. -/
def importType (r : Rules) : Reader Unit := do
  expectWord .import_
  expect .leftParen
  anyType r
  if ← eat .comma then
    match ← r.operand with
    | .object _ => pure ()
    | _ => refuse
  expect .rightParen
  dottedTail r
  lineTypeArguments r

/-- The type of a value. -/
def valueType (r : Rules) : Reader Unit := do
  expectWord .typeof_
  if ← atWord .import_ then importType r
  else
    anyName
    dottedTail r
    lineTypeArguments r

/-- A cursor at the piece of a template that its closing brace begins, if it stands at one. -/
def Cursor.resumeTemplate (c : Cursor) : Cursor :=
  if c.token.isSymbol .rightBrace then
    let (kind, rest) := readTemplate ⟨.templateTail, .templateMiddle⟩ (c.here.drop 1)
    c.retake kind rest
  else c

theorem Cursor.leads_resumeTemplate (c : Cursor) : c.Leads c.resumeTemplate := by
  unfold resumeTemplate
  split
  · refine c.leads_retake ((readTemplate_suffix _ _).trans (List.drop_suffix 1 c.here)) ?_
    intro hstring
    have hkind := readTemplate_kind ⟨.templateTail, .templateMiddle⟩ (c.here.drop 1)
    rw [hstring] at hkind
    simp at hkind
  · exact .refl c

/-- Go on with a template behind a substitution, if its closing brace is here. -/
def resumeTemplate : Reader Unit := move Cursor.resumeTemplate Cursor.leads_resumeTemplate

/-- The substitutions of a template, behind its first piece. -/
def templateRest (substitution : Reader Unit) : Nat → Reader Unit
  | 0 => refuse
  | fuel + 1 => do
    match (← token).kind with
    | .templateTail => advance
    | .templateMiddle =>
      advance
      templateRest substitution fuel
    | _ =>
      substitution
      resumeTemplate
      templateRest substitution fuel

/-- Whether a word is the name of a built-in type. -/
def Keyword.isBuiltinType : Keyword → Bool
  | .any_ | .unknown_ | .string_ | .number_ | .bigint_ | .symbol_ | .boolean_ | .undefined_
  | .never_ | .object_ | .null_ => true
  | _ => false

/-- Whether nothing is left of a type whose first token is a question mark, by the token behind
it. -/
def Token.endsUnknownType (t : Token) : Bool :=
  match t.kind with
  | .symbol s =>
    match s with
    | .comma | .rightBrace | .rightParen | .greater | .assign | .bar => true
    | _ => false
  | _ => false

/-- A type that is announced by a word, or the reference to a named one. -/
def wordType (r : Rules) (word : Keyword) : Reader Unit := do
  let n ← nextToken
  match word with
  | .void_ | .true_ | .false_ => advance
  | .this_ =>
    advance
    let t ← token
    if t.isWord .is_ && !t.newline then
      advance
      r.typ
  | .typeof_ => valueType r
  | .import_ => importType r
  | .asserts_ =>
    if n.isName && !n.newline then
      advance
      advance
      if ← eatWord .is_ then r.typ
    else typeReference r
  | word => if word.isBuiltinType && !n.isSymbol .dot then advance else typeReference r

/-- A type without operators. -/
def basicType (r : Rules) : Nat → Reader Unit
  | 0 => refuse
  | fuel + 1 => do
    match (← token).kind with
    | .string | .number true | .template => advance
    | .templateHead =>
      advance
      templateRest (anyType r) r.budget
    | .symbol .minus =>
      advance
      if (← token).kind == .number true then advance else refuse
    | .symbol .leftBrace => if ← opensMapped then mappedType r else typeMembers r
    | .symbol .leftBracket =>
      advance
      let _ ← listUntil .rightBracket (tupleElement r) r.budget
      expect .rightBracket
    | .symbol .leftParen =>
      advance
      anyType r
      expect .rightParen
    | .symbol .question =>
      advance
      if !(← token).endsUnknownType then r.typ
    | .symbol .bang =>
      advance
      basicType r fuel
    | .keyword word => wordType r word
    | .name => typeReference r
    | _ => refuse

/-- What may follow a type on the same line: a lookup, or a mark of optionality. -/
def typeSuffixes (r : Rules) : Nat → Reader Unit
  | 0 => refuse
  | fuel + 1 => do
    let t ← token
    if t.newline then return
    if t.isSymbol .leftBracket then
      advance
      if ← startsType r.budget then anyType r
      expect .rightBracket
      typeSuffixes r fuel
    else if t.isSymbol .bang then
      advance
      typeSuffixes r fuel
    else if t.isSymbol .question then
      if ← lookahead (do advance; startsType r.budget) then return
      advance
      typeSuffixes r fuel

/-- A type with its suffixes. -/
def suffixedType (r : Rules) : Reader Unit := within (fun s => { s with plainTypes := false }) do
  basicType r r.budget
  typeSuffixes r r.budget

/-- The bound of an inferred type, which is left alone where it would be a condition. -/
def inferredBound (r : Rules) : Reader Unit := do
  let _ ← attempt do
    expectWord .extends_
    plainType r
    if !(← scope).plainTypes && (← at? .question) then refuse

/-- A type with the operators in front of it. -/
def operatorType (r : Rules) : Nat → Reader Unit
  | 0 => refuse
  | fuel + 1 => do
    match (← token).kind with
    | .keyword .keyof_ | .keyword .unique_ | .keyword .readonly_ =>
      advance
      operatorType r fuel
    | .keyword .infer_ =>
      advance
      bindingName
      inferredBound r
    | _ => suffixedType r

/-- Types with a symbol between them, which may also stand in front. -/
def typesBetween (s : Symbol) (part : Reader Unit) : Nat → Reader Unit
  | 0 => refuse
  | fuel + 1 => do
    part
    if ← eat s then typesBetween s part fuel

/-- An intersection of types. -/
def intersectionType (r : Rules) : Reader Unit := do
  let _ ← eat .ampersand
  typesBetween .ampersand (operatorType r r.budget) r.budget

/-- A union of types. -/
def unionType (r : Rules) : Reader Unit := do
  let _ ← eat .bar
  typesBetween .bar (intersectionType r) r.budget

/-- A type. -/
def typ (r : Rules) : Reader Unit := do
  if ← startsFunctionType r then functionType r
  else
    unionType r
    let t ← token
    if !(← scope).plainTypes && t.isWord .extends_ && !t.newline then
      advance
      plainType r
      expect .question
      anyType r
      expect .colon
      anyType r

/-! ### Type arguments in expressions -/

/-- How tightly a comparison binds its operands. -/
def relationStrength : Nat := 8

/-- How tightly a symbol binds its operands, if it stands between two. -/
def Symbol.strength? : Symbol → Option Nat
  | .coalesce => some 1
  | .or => some 2
  | .and => some 3
  | .bar => some 4
  | .caret => some 5
  | .ampersand => some 6
  | .equal | .notEqual | .same | .notSame => some 7
  | .less | .greater | .lessEqual | .greaterEqual => some relationStrength
  | .shiftLeft | .shiftRight | .shiftRightZero => some 9
  | .plus | .minus => some 10
  | .star | .slash | .percent => some 11
  | .power => some 12
  | _ => none

/-- How tightly a token binds its operands, if it stands between two. -/
def Token.strength? (t : Token) : Option Nat :=
  match t.kind with
  | .symbol s => s.strength?
  | .keyword .in_ | .keyword .instanceof_ | .keyword .as_ | .keyword .satisfies_ =>
    some relationStrength
  | _ => none

/-- Whether a token begins an expression, given the one behind it.  Of the words that may also be
names only the operators do. -/
def Token.startsExpression (t n : Token) : Bool :=
  match t.kind with
  | .name | .privateName | .string | .number _ | .template | .templateHead => true
  | .keyword word =>
    match word with
    | .this_ | .super_ | .null_ | .true_ | .false_ | .function_ | .class_ | .new_ | .delete_
    | .typeof_ | .void_ | .await_ | .yield_ => true
    | .import_ => n.isSymbol .leftParen || n.isSymbol .less || n.isSymbol .dot
    | _ => false
  | .symbol s =>
    match s with
    | .leftParen | .leftBracket | .leftBrace | .slash | .assignSlash | .plus | .minus | .tilde
    | .bang | .increment | .decrement | .less | .at => true
    | _ => false
  | _ => false

/-- Whether type arguments may end in front of the token at the cursor. -/
def endsTypeArguments : Reader Bool := do
  let t ← token
  match t.kind with
  | .symbol .leftParen | .template | .templateHead => return true
  | .symbol .less | .symbol .greater | .symbol .plus | .symbol .minus => return false
  | _ => return t.newline || t.strength?.isSome || !t.startsExpression (← nextToken)

/-- Type arguments in an expression, if annotations are understood and if the angle brackets cannot
be operators. -/
def expressionTypeArguments? (r : Rules) : Reader Bool := do
  if !(← dialect).typed || !(← atAngle) then return false
  let read ← attempt do
    let _ ← eatAngle
    let _ ← listUntil .greater (anyType r) r.budget
    if ['>', '='].isPrefixOf (← cursor).here then refuse
    expect .greater
    if ← endsTypeArguments then return else refuse
  return read.isSome

end ModuleGraph.Source

import ModuleGraph.Source.Grammar.Types

/-!
# Functions

Nothing inside a function is kept in the syntax tree, but it has to be read to find its end, and to
find out whether the text has a syntax tree at all.

## Main definitions

* `Source.functionBody`: the statements between braces.
* `Source.functionRest`: a function behind its name.
* `Source.functionFrom`, `Source.announcedFunction`: a function from the word on that announces it,
  or from the word on that makes it asynchronous.
-/

namespace ModuleGraph.Source

open Reader

/-- The statements of a function, between braces. -/
def functionBody (r : Rules) : Reader Unit := do
  expect .leftBrace
  let _ ← repeatWhile (do return !(← at? .rightBrace)) (r.statement false) r.budget
  expect .rightBrace

/-- Read something inside a function of the given kinds. -/
def inFunction {α : Type} (async generator : Bool) (p : Reader α) : Reader α :=
  within (fun s => { s with inAwait := async, inYield := generator }) p

/-- A function behind its name: its parameters, the type of its result and its body.  Where
annotations are understood, a declaration may lack the body. -/
def functionRest (r : Rules) (async generator declares : Bool) : Reader Unit :=
  withIn <| inFunction async generator do
    typeParameters r
    parameters r
    resultAnnotation r
    if ← at? .leftBrace then functionBody r
    else if declares && (← dialect).typed then endStatement
    else refuse

/-- A function from its announcing word on. -/
def functionFrom (r : Rules) (async declares : Bool) : Reader Unit := do
  expectWord .function_
  let generator ← eat .star
  if (← token).isBindingName then advance
  functionRest r async generator declares

/-- Whether a function is announced here, perhaps as an asynchronous one. -/
def startsFunction : Reader Bool := do
  if ← atWord .function_ then return true
  let n ← nextToken
  return (← atWord .async_) && n.isWord .function_ && !n.newline

/-- A function from the words on that announce it. -/
def announcedFunction (r : Rules) (declares : Bool) : Reader Unit := do
  let async ← eatWord .async_
  functionFrom r async declares

end ModuleGraph.Source

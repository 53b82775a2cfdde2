import ModuleGraph.Source.Keyword

/-!
# Tokens of program text

A token is a name, a literal, a piece of a template or a symbol, together with the text it stands
for and a note on whether a line ends in front of it.  The end of the text is a token of its own,
and so is a piece of text that is no token: nothing behind such a piece is ever read.

## Main definitions

* `Source.Symbol`: the symbols.
* `Source.Token.Kind`, `Source.Token`: what a token is, and the token.
* `Source.Token.isName`, `Source.Token.isBindingName`, `Source.Token.isFreeName`: which tokens are
  names, which of them may name a binding, and which of those are never operators.
-/

namespace ModuleGraph.Source

/-- A symbol. -/
inductive Symbol where
  | leftBrace | rightBrace | leftParen | rightParen | leftBracket | rightBracket
  | dot | ellipsis | semicolon | comma | less | lessEqual | greater | greaterEqual
  | equal | notEqual | same | notSame | plus | minus | star | power | slash | percent
  | increment | decrement | shiftLeft | shiftRight | shiftRightZero
  | ampersand | bar | caret | bang | tilde | and | or | question | coalesce | questionDot | colon
  | assign | assignPlus | assignMinus | assignStar | assignPower | assignSlash | assignPercent
  | assignShiftLeft | assignShiftRight | assignShiftRightZero | assignAmpersand | assignBar
  | assignCaret | assignAnd | assignOr | assignCoalesce | arrow | at
  deriving DecidableEq, Repr

/-- Whether the symbol assigns to what stands on its left. -/
def Symbol.assigns : Symbol → Bool
  | .assign | .assignPlus | .assignMinus | .assignStar | .assignPower | .assignSlash
  | .assignPercent | .assignShiftLeft | .assignShiftRight | .assignShiftRightZero
  | .assignAmpersand | .assignBar | .assignCaret | .assignAnd | .assignOr | .assignCoalesce => true
  | _ => false

/-- What a token is.  Substitutions cut a template into pieces.  A piece of text that is no token is
broken. -/
inductive Token.Kind where
  | name
  /-- A name with a meaning of its own. -/
  | keyword (word : Keyword)
  /-- A private name, written with a leading `#`. -/
  | privateName
  | string
  /-- A number, which may be ill formed at its very end. -/
  | number (wellFormed : Bool)
  | template
  | templateHead
  | templateMiddle
  | templateTail
  | symbol (symbol : Symbol)
  /-- The end of the text, and whether it was reached with every comment closed. -/
  | finished (clean : Bool)
  | broken
  deriving DecidableEq, Repr

/-- A token. -/
structure Token where
  kind : Token.Kind
  /-- The text of a name, or the value of a string. -/
  text : List Char := []
  /-- Whether a line ends in front of the token. -/
  newline : Bool := false
  escaped : Bool := false
  /-- Whether the token breaks a rule of its own that is overlooked: it holds an escape or a group
  of digits that is not well formed. -/
  flawed : Bool := false
  deriving DecidableEq, Repr

namespace Token

/-- Whether the token is a name of any kind. -/
def isName (t : Token) : Bool :=
  match t.kind with
  | .name | .keyword _ => true
  | _ => false

/-- Whether the token may name a binding. -/
def isBindingName (t : Token) : Bool :=
  match t.kind with
  | .name => true
  | .keyword word => !word.isReserved
  | _ => false

/-- Whether the token may name a binding and is never an operator. -/
def isFreeName (t : Token) : Bool :=
  match t.kind with
  | .name => true
  | .keyword word => !word.isReserved && word != .await_ && word != .yield_
  | _ => false

/-- Whether the token is a number. -/
def isNumber (t : Token) : Bool :=
  match t.kind with
  | .number _ => true
  | _ => false

/-- Whether the token is a string or a number. -/
def isLiteralName (t : Token) : Bool :=
  match t.kind with
  | .string | .number _ => true
  | _ => false

/-- Whether the token is a given symbol. -/
def isSymbol (t : Token) (s : Symbol) : Bool := t.kind == .symbol s

/-- Whether the token is a given word. -/
def isWord (t : Token) (k : Keyword) : Bool := t.kind == .keyword k

/-- Whether nothing is read behind the token. -/
def isLast (t : Token) : Bool :=
  match t.kind with
  | .finished _ | .broken => true
  | _ => false

end Token

end ModuleGraph.Source

import ModuleGraph.Text.Blank

/-!
# Removing comments

Line comments and block comments are removed from program text, and from data text that tolerates
them, in one traversal.  Quoted text (with any of the three quote marks) is copied verbatim, so a
comment mark inside it survives.  A block comment leaves a single space, so the tokens on its two
sides never fuse; a line comment is cut up to, and not including, the end of its line.  A block
comment that is never closed swallows the rest of the text.

The traversal is a function of the reading mode and of the text still to be read, and
`Comment.modeAfter` gives the mode in which it leaves a piece of text.

## Main definitions

* `Comment.Mode`: what the traversal is inside of.
* `Comment.stripFrom`, `Comment.modeAfter`: what it writes, and the mode it ends in.
* `Comment.strip`: a text without its comments.
-/

namespace ModuleGraph.Comment

/-- What the traversal is inside of: plain text, a comment that ends with the line or with its
closing mark, or text quoted by a mark. -/
inductive Mode where
  | code
  | line
  | block
  | quoted (mark : Char)
  deriving DecidableEq, Repr

/-- The three marks that open quoted text. -/
def isQuote (c : Char) : Bool := c == '"' || c == '\'' || c.toNat == 0x60

/-- Whether a character ends a line comment. -/
def isLineEnd (c : Char) : Bool := c == '\n' || c == '\r'

/-- Whether a character of quoted text brings the traversal back to plain text: the closing mark,
or a line feed, where a quote that may not span lines was never closed. -/
def endsQuoted (mark c : Char) : Bool := c == mark || (c == '\n' && mark.toNat != 0x60)

/-- The text written by the traversal that starts in a given mode. -/
def stripFrom : Mode → List Char → List Char
  | _, [] => []
  | .code, '/' :: '/' :: rest => stripFrom .line rest
  | .code, '/' :: '*' :: rest => stripFrom .block rest
  | .code, c :: rest => c :: stripFrom (if isQuote c then .quoted c else .code) rest
  | .line, c :: rest => if isLineEnd c then c :: stripFrom .code rest else stripFrom .line rest
  | .block, '*' :: '/' :: rest => ' ' :: stripFrom .code rest
  | .block, _ :: rest => stripFrom .block rest
  | .quoted _, ['\\'] => ['\\']
  | .quoted mark, '\\' :: c :: rest => '\\' :: c :: stripFrom (.quoted mark) rest
  | .quoted mark, c :: rest =>
    c :: stripFrom (if endsQuoted mark c then .code else .quoted mark) rest

/-- The mode in which the traversal that starts in a given mode leaves a text. -/
def modeAfter : Mode → List Char → Mode
  | mode, [] => mode
  | .code, '/' :: '/' :: rest => modeAfter .line rest
  | .code, '/' :: '*' :: rest => modeAfter .block rest
  | .code, c :: rest => modeAfter (if isQuote c then .quoted c else .code) rest
  | .line, c :: rest => modeAfter (if isLineEnd c then .code else .line) rest
  | .block, '*' :: '/' :: rest => modeAfter .code rest
  | .block, _ :: rest => modeAfter .block rest
  | .quoted mark, ['\\'] => .quoted mark
  | .quoted mark, '\\' :: _ :: rest => modeAfter (.quoted mark) rest
  | .quoted mark, c :: rest => modeAfter (if endsQuoted mark c then .code else .quoted mark) rest

/-- The characters of a text without its comments. -/
def stripChars (cs : List Char) : List Char := stripFrom .code cs

/-- A text without its comments. -/
def strip (text : String) : String := String.ofList (stripChars text.toList)

end ModuleGraph.Comment

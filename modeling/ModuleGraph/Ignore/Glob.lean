/-!
# Glob patterns

A glob is a pattern for paths.  A question mark stands for one byte of a name and a star for any
number of them, two stars between slashes stand for any number of directories, brackets for one byte
of a class, and braces for a choice.  A backslash takes the next character as it is.  Patterns are
matched against the bytes of a path.

## Main definitions

* `Ignore.Glob.Token`, `Ignore.Glob`: the parts of a pattern, and the pattern.
* `Ignore.Glob.Fault`: why a text is no pattern.
* `Ignore.Glob.read`: read a pattern.
* `Ignore.Glob.accepts`: whether a path fits a pattern.
-/

namespace ModuleGraph.Ignore

namespace Glob

/-- A part of a pattern. -/
inductive Token where
  | literal (c : Char)
  /-- One byte of a name. -/
  | one
  /-- Any number of bytes of a name. -/
  | many
  /-- Any number of directories in front of the rest. -/
  | leadingDirectories
  /-- Anything inside of what stands in front. -/
  | anythingInside
  /-- Any number of directories between two parts. -/
  | directories
  /-- One byte of a class, or one that is not in it. -/
  | oneOf (negated : Bool) (ranges : List (Char × Char))
  | choice (alternatives : List (List Token))

/-- Why a text is no pattern. -/
inductive Fault where
  | danglingEscape
  | invalidRange (first last : Char)
  | unopenedChoice
  | unclosedChoice
  deriving DecidableEq, Repr

/-- The words for a fault. -/
def Fault.message : Fault → String
  | .danglingEscape => "dangling '\\'"
  | .invalidRange first last =>
    "invalid range; '" ++ String.singleton first ++ "' > '" ++ String.singleton last ++ "'"
  | .unopenedChoice =>
    "unopened alternate group; missing '\x7b' (maybe escape '\x7d' with '[\x7d]'?)"
  | .unclosedChoice =>
    "unclosed alternate group; missing '\x7d' (maybe escape '\x7b' with '[\x7b]'?)"

end Glob

/-- A pattern for paths. -/
abbrev Glob := List Glob.Token

namespace Glob

/-! ### Reading patterns -/

/-- A choice that is being read: the finished alternatives and the current one, both in reverse. -/
structure Frame where
  finished : List (List Token) := []
  current : List Token := []

/-- What has been read of a pattern: the innermost choice, or the pattern itself, the choices around
it, the innermost first, and the last character. -/
structure Reading where
  frame : Frame := {}
  outer : List Frame := []
  before : Option Char := none
  /-- Whether a class was opened that is never closed; brackets stand for themselves from then
  on. -/
  brokenClass : Bool := false

namespace Reading

/-- Whether a choice is open. -/
def inChoice (r : Reading) : Bool := !r.outer.isEmpty

/-- Add a part. -/
def push (r : Reading) (t : Token) : Reading :=
  { r with frame := { r.frame with current := t :: r.frame.current } }

/-- Replace the last part. -/
def replaceLast (r : Reading) (change : Token → Token) : Reading :=
  match r.frame.current with
  | t :: ts => { r with frame := { r.frame with current := change t :: ts } }
  | [] => r

/-- Open a choice. -/
def openChoice (r : Reading) : Reading :=
  { r with frame := {}, outer := r.frame :: r.outer }

/-- Begin the next alternative. -/
def nextAlternative (r : Reading) : Reading :=
  { r with frame := ⟨r.frame.current.reverse :: r.frame.finished, []⟩ }

/-- Close a choice. -/
def closeChoice? (r : Reading) : Option Reading :=
  match r.outer with
  | [] => none
  | frame :: outer =>
    let alternatives := (r.frame.current.reverse :: r.frame.finished).reverse
    some { r with frame := { frame with current := .choice alternatives :: frame.current }, outer }

/-- What has been read behind a character. -/
def behind (r : Reading) (c : Char) : Reading := { r with before := some c }

end Reading

/-- A reading together with the characters that are left. -/
abbrev Progress := Reading × List Char

/-- Two stars that stand for two stars. -/
def plainStars (r : Reading) (rest : List Char) : Progress :=
  (((r.push .many).push .many).behind '*', rest)

/-- Two stars at the beginning of a pattern or an alternative. -/
def leadingStars (r : Reading) : List Char → Progress
  | [] => ((r.push .leadingDirectories).behind '*', [])
  | '/' :: rest => ((r.push .leadingDirectories).behind '/', rest)
  | rest => plainStars r rest

/-- The part that two stars make together with the slash in front of them. -/
def joinStars (atEnd : Bool) : Token → Token
  | .leadingDirectories => .leadingDirectories
  | .anythingInside => .anythingInside
  | _ => if atEnd then .anythingInside else .directories

/-- Whether two stars begin a segment of the pattern. -/
def beginsSegment (r : Reading) : Bool :=
  r.before == some '/' || (r.inChoice && (r.before == some ',' || r.before == some '{'))

/-- Two stars inside a pattern. -/
def innerStars (r : Reading) (rest : List Char) : Progress :=
  if !beginsSegment r then plainStars r rest
  else match rest with
    | [] => ((r.replaceLast (joinStars true)).behind '*', [])
    | '/' :: rest => ((r.replaceLast (joinStars false)).behind '/', rest)
    | c :: _ =>
      if r.inChoice && (c == ',' || c == '}') then
        ((r.replaceLast (joinStars true)).behind '*', rest)
      else plainStars r rest

/-- The first star, and what it makes together with a second one. -/
def stars (r : Reading) : List Char → Progress
  | '*' :: rest => if r.frame.current.isEmpty then leadingStars r rest else innerStars r rest
  | rest => ((r.push .many).behind '*', rest)

/-- What has been read of a class, and whether the next character ends a range or is the first. -/
structure ClassReading where
  /-- The ranges, in reverse. -/
  ranges : List (Char × Char) := []
  inRange : Bool := false
  first : Bool := true

/-- End the last range of a class with a character. -/
def endRange (r : ClassReading) (c : Char) : Except Fault ClassReading :=
  match r.ranges with
  | (low, _) :: more =>
    if c.toNat < low.toNat then .error (.invalidRange low c)
    else .ok ⟨(low, c) :: more, false, false⟩
  | [] => .ok ⟨[(c, c)], false, false⟩

/-- The ranges of a class behind its opening bracket, and what is left behind it; none if the class
is never closed. -/
def readClass (r : ClassReading) :
    List Char → Except Fault (Option (List (Char × Char) × List Char))
  | [] => .ok none
  | c :: rest =>
    if c == ']' && !r.first then
      let ranges := if r.inRange then ('-', '-') :: r.ranges else r.ranges
      .ok (some (ranges.reverse, rest))
    else if c == '-' && !r.first && !r.inRange then readClass { r with inRange := true } rest
    else if r.inRange then
      match endRange r c with
      | .ok r => readClass r rest
      | .error e => .error e
    else readClass ⟨(c, c) :: r.ranges, false, false⟩ rest

/-- Whether a class begins with the sign for its complement, and the class without that sign. -/
def splitNegation : List Char → Bool × List Char
  | '!' :: body => (true, body)
  | '^' :: body => (true, body)
  | body => (false, body)

/-- A class behind its opening bracket; a bracket that is never closed stands for itself. -/
def classPart (r : Reading) (rest : List Char) : Except Fault Progress := do
  let (negated, body) := splitNegation rest
  match ← readClass {} body with
  | some (ranges, rest) => .ok ((r.push (.oneOf negated ranges)).behind ']', rest)
  | none => .ok ({ (r.push (.literal '[')).behind '[' with brokenClass := true }, rest)

/-- Read one part of a pattern, of which the first character is given. -/
def readPart (r : Reading) (c : Char) (rest : List Char) : Except Fault Progress :=
  let literal : Except Fault Progress := .ok ((r.push (.literal c)).behind c, rest)
  match c with
  | '?' => .ok ((r.push .one).behind c, rest)
  | '*' => .ok (stars r rest)
  | '[' => if r.brokenClass then literal else classPart r rest
  | '{' => .ok (r.openChoice.behind c, rest)
  | '}' =>
    match r.closeChoice? with
    | some r => .ok (r.behind c, rest)
    | none => .error .unopenedChoice
  | ',' => if r.inChoice then .ok (r.nextAlternative.behind c, rest) else literal
  | '\\' =>
    match rest with
    | [] => .error .danglingEscape
    | escaped :: rest => .ok ((r.push (.literal escaped)).behind escaped, rest)
  | _ => literal

/-- Read the rest of a pattern.  Every part takes at least one character, so that the number of
characters bounds the number of parts. -/
def readFrom : Nat → Reading → List Char → Except Fault Glob
  | _, r, [] => if r.inChoice then .error .unclosedChoice else .ok r.frame.current.reverse
  | 0, _, _ :: _ => .error .unclosedChoice
  | fuel + 1, r, c :: rest => do
    let (r, rest) ← readPart r c rest
    readFrom fuel r rest

/-- Read a pattern. -/
def read (cs : List Char) : Except Fault Glob := readFrom cs.length {} cs

/-! ### Matching paths -/

/-- The byte of a slash. -/
def slashByte : UInt8 := 0x2F

/-- The bytes of a character. -/
def bytesOf (c : Char) : List UInt8 := (String.singleton c).toUTF8.toList

/-- Whether a byte lies in a range of characters.  Characters of several bytes contribute each of
their bytes. -/
def inRange (b : UInt8) (range : Char × Char) : Bool :=
  let low := bytesOf range.1
  let high := bytesOf range.2
  if range.1 == range.2 then low.contains b
  else low.dropLast.contains b || (high.drop 1).contains b ||
    (match low.getLast?, high.head? with
      | some l, some h => l ≤ b && b ≤ h
      | _, _ => false)

/-- All ends of a list, the list itself first. -/
def ends : List UInt8 → List (List UInt8)
  | [] => [[]]
  | b :: bs => (b :: bs) :: ends bs

/-- The ends of a list behind each of its slashes. -/
def behindSlashes : List UInt8 → List (List UInt8)
  | [] => []
  | b :: bs => if b == slashByte then bs :: behindSlashes bs else behindSlashes bs

/-- The ends of a list behind any number of bytes that are no slashes. -/
def behindName : List UInt8 → List (List UInt8)
  | [] => [[]]
  | b :: bs => if b == slashByte then [b :: bs] else (b :: bs) :: behindName bs

/-- Ends of one list without repetitions; an end is known by its length. -/
def distinct (es : List (List UInt8)) : List (List UInt8) :=
  es.foldr (fun e kept => if kept.any (fun k => k.length == e.length) then kept else e :: kept) []

mutual

/-- Whether a part stands for nothing: it is a choice between patterns that stand for nothing. -/
def Token.isVoid : Token → Bool
  | .choice alternatives => areVoid alternatives
  | _ => false

/-- Whether a pattern stands for nothing. -/
def isVoid : List Token → Bool
  | [] => true
  | t :: ts => t.isVoid && isVoid ts

/-- Whether several patterns stand for nothing. -/
def areVoid : List (List Token) → Bool
  | [] => true
  | a :: as => isVoid a && areVoid as

end

mutual

/-- What may be left of a path behind a part of a pattern. -/
def Token.behind : Token → List UInt8 → List (List UInt8)
  | .literal c, bs =>
    if (bytesOf c).isPrefixOf bs then [bs.drop (bytesOf c).length] else []
  | .one, b :: bs => if b == slashByte then [] else [bs]
  | .one, [] => []
  | .many, bs => behindName bs
  | .leadingDirectories, bs => bs :: behindSlashes bs
  | .anythingInside, bs => if bs.head? == some slashByte then ends bs.tail else []
  | .directories, bs =>
    if bs.head? == some slashByte then bs.tail :: behindSlashes bs.tail else []
  | .oneOf negated ranges, b :: bs => if ranges.any (inRange b) != negated then [bs] else []
  | .oneOf _ _, [] => []
  | .choice alternatives, bs =>
    if areVoid alternatives then [bs] else behindAny alternatives bs

/-- What may be left of a path behind a pattern. -/
def behindAll : List Token → List UInt8 → List (List UInt8)
  | [], bs => [bs]
  | t :: ts, bs => distinct ((distinct (t.behind bs)).flatMap (behindAll ts))

/-- What may be left of a path behind one of several patterns.  Patterns that stand for nothing do
not count beside others. -/
def behindAny : List (List Token) → List UInt8 → List (List UInt8)
  | [], _ => []
  | a :: as, bs => (if isVoid a then [] else behindAll a bs) ++ behindAny as bs

end

/-- Whether a pattern is made of two stars alone. -/
def isEverything : Glob → Bool
  | [.leadingDirectories] => true
  | _ => false

/-- Whether the bytes of a path fit a pattern. -/
def accepts (g : Glob) (path : List UInt8) : Bool :=
  isEverything g || (behindAll g path).any List.isEmpty

end Glob

end ModuleGraph.Ignore

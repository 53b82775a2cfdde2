import ModuleGraph.Files.Disk
import ModuleGraph.Ignore.Glob
import ModuleGraph.Text.Blank

/-!
# Rules for paths to leave out

A file of rules holds one rule a line.  A rule is a glob; `!` in front of it takes back earlier
rules, a slash at its end restricts it to directories, and a slash elsewhere ties it to the
directory of the file.  Of all the rules that fit a path, the last one decides.

## Main definitions

* `Ignore.Rule`, `Ignore.Rule.read?`: a rule, and how it is read off a line.
* `Ignore.linesOf`: the lines of a file.
* `Ignore.Rules`, `Ignore.Rules.read`: the rules of a file, with the faults of its lines.
* `Ignore.Verdict`, `Ignore.decide?`: what rules say of a path.
-/

namespace ModuleGraph.Ignore

/-- A rule. -/
structure Rule where
  glob : Glob
  /-- Whether it takes back earlier rules. -/
  negated : Bool
  directoriesOnly : Bool

/-- A line without its trailing blanks, unless the last of them is escaped. -/
def trimLine (line : List Char) : List Char :=
  if ['\\', ' '].isSuffixOf line then line else Text.trimBlanksEnd line

/-- The body of a rule as it is taken apart. -/
structure Body where
  pattern : List Char
  negated : Bool := false
  /-- Whether the pattern is tied to the directory of the file. -/
  tied : Bool := false
  directoriesOnly : Bool := false

/-- Take off the slash that ties a rule to its directory. -/
def Body.tie (b : Body) : Body :=
  match b.pattern with
  | '/' :: rest => { b with pattern := rest, tied := true }
  | _ => b

/-- Take off the signs in front of a pattern.  An escaped sign stands for itself. -/
def Body.ofLine : List Char → Body
  | '\\' :: '!' :: rest => { pattern := '!' :: rest }
  | '\\' :: '#' :: rest => { pattern := '#' :: rest }
  | '!' :: rest => Body.tie { pattern := rest, negated := true }
  | line => Body.tie { pattern := line }

/-- Take off the slash that restricts a rule to directories, and the backslash in front of it. -/
def Body.dropEnd (b : Body) : Body :=
  match b.pattern.reverse with
  | '/' :: '\\' :: rest => { b with pattern := rest.reverse, directoriesOnly := true }
  | '/' :: rest => { b with pattern := rest.reverse, directoriesOnly := true }
  | _ => b

/-- Whether a pattern already begins with any number of directories. -/
def beginsAnywhere (pattern : List Char) : Bool :=
  ['*', '*', '/'].isPrefixOf pattern || pattern == ['*', '*']

/-- The pattern that is matched against paths.  A pattern without a slash may stand in any
directory, and one that ends with any number of directories needs something inside of them. -/
def Body.fullPattern (b : Body) : List Char :=
  let pattern :=
    if b.tied || b.pattern.contains '/' || beginsAnywhere b.pattern then b.pattern
    else ['*', '*', '/'] ++ b.pattern
  if ['/', '*', '*'].isSuffixOf pattern then pattern ++ ['/', '*'] else pattern

/-- The rule of a line, of which the trailing blanks have been dropped. -/
def Rule.ofLine (line : List Char) : Except Glob.Fault Rule := do
  let body := (Body.ofLine line).dropEnd
  .ok ⟨← Glob.read body.fullPattern, body.negated, body.directoriesOnly⟩

/-- The rule of a line, if it holds one. -/
def Rule.read? (line : List Char) : Except Glob.Fault (Option Rule) :=
  if line.head? == some '#' || (trimLine line).isEmpty then .ok none
  else (Rule.ofLine (trimLine line)).map some

/-! ### Files of rules -/

/-- Drop the carriage return at the end of a line. -/
def dropReturn (line : List UInt8) : List UInt8 :=
  if line.getLast? == some 13 then line.dropLast else line

/-- The lines of a file.  A line ends with a line feed, or a carriage return and a line feed; the
first argument holds the current line in reverse. -/
def linesFrom : List UInt8 → List UInt8 → List (List UInt8)
  | [], [] => []
  | line, [] => [line.reverse]
  | line, b :: bs =>
    if b == 10 then dropReturn line.reverse :: linesFrom [] bs else linesFrom (b :: line) bs

/-- The lines of a file. -/
def linesOf (contents : ByteArray) : List (List UInt8) := linesFrom [] contents.toList

/-- The text of a line, if it is one. -/
def textOf? (line : List UInt8) : Option (List Char) :=
  (String.fromUTF8? ⟨line.toArray⟩).map String.toList

/-- What is wrong with a line. -/
inductive LineFault where
  | badGlob (line : String) (fault : Glob.Fault)
  | unreadable (fault : Files.Fault)
  deriving DecidableEq, Repr

/-- The words for what is wrong with a line. -/
def LineFault.message : LineFault → String
  | .badGlob line fault => "error parsing glob '" ++ line ++ "': " ++ fault.message
  | .unreadable fault => fault.message

/-- Whether a line could not even be read. -/
def LineFault.isUnreadable : LineFault → Bool
  | .badGlob _ _ => false
  | .unreadable _ => true

/-- The rules of a file, with the faults of its lines and their numbers. -/
structure Rules where
  rules : List Rule := []
  faults : List (Nat × LineFault) := []

/-- A file with a rule in front. -/
def Rules.withRule (rs : Rules) (r : Rule) : Rules := { rs with rules := r :: rs.rules }

/-- A file with a fault in front. -/
def Rules.withFault (rs : Rules) (number : Nat) (f : LineFault) : Rules :=
  { rs with faults := (number, f) :: rs.faults }

/-- The first line of a file without marks of byte order. -/
def dropMarks (number : Nat) (line : List Char) : List Char :=
  if number == 1 then line.dropWhile (·.toNat == 0xFEFF) else line

/-- The rules of lines, which are numbered from a given number on.  A line that is no text ends the
file. -/
def Rules.ofLines : Nat → List (List UInt8) → Rules
  | _, [] => {}
  | number, line :: lines =>
    match textOf? line with
    | none => { faults := [(number, .unreadable .notText)] }
    | some line =>
      let line := dropMarks number line
      let rest := Rules.ofLines (number + 1) lines
      match Rule.read? line with
      | .ok (some r) => rest.withRule r
      | .ok none => rest
      | .error fault =>
        rest.withFault number (.badGlob (String.ofList (trimLine line)) fault)

/-- The rules of the contents of a file. -/
def Rules.read (contents : ByteArray) : Rules := Rules.ofLines 1 (linesOf contents)

/-- The faults of a file that count: a file of which one line cannot be read, and which has no other
fault, is not worth mentioning. -/
def Rules.notableFaults (rs : Rules) : List (Nat × LineFault) :=
  match rs.faults with
  | [fault] => if fault.2.isUnreadable then [] else [fault]
  | faults => faults

/-! ### What rules say -/

/-- What rules say of a path. -/
inductive Verdict where
  | ignored
  | kept
  deriving DecidableEq, Repr

/-- Whether a rule is about a path, given by its bytes relative to the directory of the rule. -/
def Rule.concerns (r : Rule) (path : List UInt8) (isDirectory : Bool) : Bool :=
  (!r.directoriesOnly || isDirectory) && r.glob.accepts path

/-- What a rule says of the paths it is about. -/
def Rule.verdict (r : Rule) : Verdict := if r.negated then .kept else .ignored

/-- What rules say of a path: the last one that is about it decides. -/
def decide? (rules : List Rule) (path : List UInt8) (isDirectory : Bool) : Option Verdict :=
  (rules.reverse.find? fun r => r.concerns path isDirectory).map Rule.verdict

end ModuleGraph.Ignore

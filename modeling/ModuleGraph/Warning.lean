import ModuleGraph.Files.Disk
import ModuleGraph.Text.Printable

/-!
# Warnings

What goes wrong on the way to an answer, without standing in the way of it, is noted beside the
answer.

## Main definitions

* `Warning`, `Warning.message`: a note, and its words.
* `Noted`: an answer with its notes.
-/

namespace ModuleGraph

/-- What went wrong on the way to an answer. -/
inductive Warning where
  | unreadable (file : Path) (fault : Files.Fault)
  | malformed (file : Path)
  /-- The targets of an alias are not texts. -/
  | strangeTargets (name : String) (file : Path)
  /-- The search for a configuration was given up. -/
  | gaveUp (directory : Path)
  | noModules (root : Path)
  | failedModule (file : Path) (message : String)
  deriving DecidableEq, Repr

namespace Warning

/-- One character of a path between quotes. -/
def showChar (c : Char) : List Char :=
  if c == '"' then ['\\', '"']
  else if c == '\\' then ['\\', '\\']
  else if c == '\n' then ['\\', 'n']
  else if c == '\r' then ['\\', 'r']
  else if c == '\t' then ['\\', 't']
  else if c.toNat == 0 then ['\\', '0']
  else if Text.isShown c then [c]
  else ['\\', 'u', '{'] ++ Nat.toDigits 16 c.toNat ++ ['}']

/-- A path between quotes. -/
def quoted (p : Path) : String :=
  String.ofList ('"' :: p.text.toList.flatMap showChar ++ ['"'])

/-- The words for a warning. -/
def message : Warning → String
  | .unreadable file fault => "Failed to read " ++ file.text ++ ": " ++ fault.message
  | .malformed file => "Ignoring malformed " ++ file.text
  | .strangeTargets name file =>
    "Ignoring non-string targets for '" ++ name ++ "' in " ++ file.text
  | .gaveUp directory =>
    "Gave up looking for tsconfig.json after 256 directories above " ++ quoted directory
  | .noModules root => "No modules found under " ++ root.text
  | .failedModule file message =>
    "Error resolving dependencies for " ++ file.text ++ ": " ++ message

end Warning

/-- An answer with its notes. -/
structure Noted (α : Type) where
  value : α
  warnings : List Warning := []

end ModuleGraph

import ModuleGraph.Alias.Basic
import ModuleGraph.Comment
import ModuleGraph.Json.Reader

/-!
# The configuration of a project

The configuration is data text in which comments and trailing commas are tolerated.  Of all its
contents only the base directory and the paths of the compiler options are read.  Each of the two
records may also be written as the list of its fields; a field that is given twice, or a value of
the wrong kind, makes the whole configuration malformed, while everything else is passed over.

## Main definitions

* `Alias.dropTrailingCommas`: a text without the commas in front of closing brackets.
* `Alias.Options`: the compiler options that are read.
* `Alias.Document.options?`: the options of a configuration.
* `Alias.targets?`: the targets of an alias.
* `Alias.Config.ofOptions`: the aliases that the options give.
-/

namespace ModuleGraph.Alias

/-- Whether the next character that is not blank closes a list or an object. -/
def closesNext (cs : List Char) : Bool :=
  match Text.trimBlanks cs with
  | c :: _ => c == '}' || c == ']'
  | [] => false

/-- A text without the commas that stand directly in front of a closing bracket, outside of strings.
The flag tells whether a string is open. -/
def dropTrailingCommasFrom : Bool → List Char → List Char
  | _, [] => []
  | true, ['\\'] => ['\\']
  | true, '\\' :: c :: rest => '\\' :: c :: dropTrailingCommasFrom true rest
  | true, c :: rest => c :: dropTrailingCommasFrom (c != '"') rest
  | false, c :: rest =>
    if c == ',' && closesNext rest then dropTrailingCommasFrom false rest
    else c :: dropTrailingCommasFrom (c == '"') rest

/-- A text without the commas that stand directly in front of a closing bracket. -/
def dropTrailingCommas (cs : List Char) : List Char := dropTrailingCommasFrom false cs

/-- The compiler options that are read. -/
structure Options where
  baseUrl : Option String := none
  paths : Option (List (String × Json.Value)) := none

namespace Document

/-- The greatest depth of nesting of a value that is read. -/
def maxDepth : Nat := 127

/-- The value of a field that may be given once; a null counts as not given. -/
def field? (name : String) (members : List (String × Json.Value)) :
    Option (Option Json.Value) :=
  match members.filter fun m => m.1 == name with
  | [] => some none
  | [(_, .null)] => some none
  | [(_, v)] => some (some v)
  | _ => none

/-- The fields of a record that is written as an object or as the list of its fields. -/
def fields? (names : List String) : Json.Value → Option (List (Option Json.Value))
  | .object members => names.mapM fun name => field? name members
  | .array items =>
    if items.length == names.length then
      some (items.map fun
        | .null => none
        | v => some v)
    else none
  | _ => none

/-- The text of a field that is a text or not given. -/
def text? : Option Json.Value → Option (Option String)
  | none => some none
  | some (.string text) => some (some text)
  | some _ => none

/-- Members without repeated keys: a key keeps its first place and takes its last value. -/
def lastValues (members : List (String × Json.Value)) : List (String × Json.Value) :=
  members.foldl (fun done m =>
    if done.any fun d => d.1 == m.1 then
      done.map fun d => if d.1 == m.1 then (d.1, m.2) else d
    else done ++ [m]) []

/-- The members of a field that is an object or not given.  All of it is read, so all of it has to
be represented, and it may not be nested too deeply. -/
def members? : Option Json.Value → Option (Option (List (String × Json.Value)))
  | none => some none
  | some v =>
    if v.isReadable && v.depth + 2 ≤ maxDepth then
      match v with
      | .object members => some (some (lastValues members))
      | _ => none
    else none

/-- The options of a record of options. -/
def ofRecord? (v : Json.Value) : Option Options := do
  match ← fields? ["baseUrl", "paths"] v with
  | [baseUrl, paths] => some ⟨← text? baseUrl, ← members? paths⟩
  | _ => none

/-- The options of a configuration, if it is well formed and has any. -/
def ofValue? (v : Json.Value) : Option (Option Options) := do
  match ← fields? ["compilerOptions"] v with
  | [some options] => some (some (← ofRecord? options))
  | _ => some none

/-- The text of a configuration as plain data text. -/
def plainText (cs : List Char) : List Char := dropTrailingCommas (Comment.stripChars cs)

/-- The options of the text of a configuration, if it is well formed and has any. -/
def options? (text : String) : Option (Option Options) :=
  (Json.readChars? (plainText text.toList)).bind ofValue?

end Document

/-- The targets of an alias: one text, or a list of texts. -/
def targets? : Json.Value → Option (List String)
  | .string text => some [text]
  | .array items => items.mapM Json.Value.text?
  | _ => none

/-- The aliases of one entry of the paths. -/
def ofEntry (baseDir : Path) (key : String) (targets : List String) : List Alias :=
  targets.map fun target => ⟨stripWildcard key, (baseDir.join (stripWildcard target)).clean⟩

/-- The aliases of all entries of the paths; an entry whose targets are not texts gives none. -/
def ofPaths (baseDir : Path) (paths : List (String × Json.Value)) : List Alias :=
  paths.flatMap fun entry => ofEntry baseDir entry.1 ((targets? entry.2).getD [])

/-- The keys of the entries whose targets are not texts. -/
def strangeKeys (paths : List (String × Json.Value)) : List String :=
  (paths.filter fun entry => (targets? entry.2).isNone).map Prod.fst

/-- The aliases that options give, relative to the directory of the configuration.  Without a base
directory there are none. -/
def Config.ofOptions (directory : Path) (o : Options) : Config :=
  match o.baseUrl with
  | none => {}
  | some baseUrl =>
    let baseDir := (directory.join baseUrl).clean
    ⟨some baseDir, ofPaths baseDir (o.paths.getD [])⟩

end ModuleGraph.Alias

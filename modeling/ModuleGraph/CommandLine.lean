/-!
# The arguments of a command

A command takes options with a value (`--name value` or `--name=value`), flags (`--name`) and,
for some commands, files.  An option that still waits for its value keeps what follows it, unless
that looks like an option itself, and is settled only when the next known option, a file or the end
comes; so an unknown option is reported before the option in front of it is looked at.  Everything
behind `--` is a file.

## Main definitions

* `CommandLine.Fault`: why arguments are refused.
* `CommandLine.Grammar`: the options, flags and files of a command.
* `CommandLine.Given`: what the arguments say.
* `CommandLine.read`: read the arguments of a command.
* `CommandLine.Command`, `CommandLine.command`: the commands of the program.
-/

namespace ModuleGraph.CommandLine

/-- Why arguments are refused.  To ask for help is no fault, but ends the reading as one does. -/
inductive Fault where
  | unknownArgument
  /-- An option without a value, or an empty text where a path is expected. -/
  | invalidValue
  | repeatedArgument
  | unexpectedValue
  | helpRequested
  | missingFile
  | missingCommand
  | unknownCommand
  deriving DecidableEq, Repr

/-- What a command understands: the options whose value is a path, those whose value is any text,
the flags, and whether files are understood. -/
structure Grammar where
  paths : List String
  texts : List String
  flags : List String
  files : Bool
  deriving Repr

/-- What the arguments say. -/
structure Given where
  options : List (String × String) := []
  flags : List String := []
  files : List String := []
  /-- The option that is not settled yet, with its value if it has one. -/
  pending : Option (String × Option String) := none
  deriving Repr

/-- Settle one option: it has a value, it is given once, and a path is not empty. -/
def Given.settleOption (g : Grammar) (given : Given) (name : String) (value : Option String) :
    Except Fault Given :=
  match value with
  | none => .error .invalidValue
  | some value =>
    if (given.options.lookup name).isSome then .error .repeatedArgument
    else if g.paths.contains name && value.isEmpty then .error .invalidValue
    else .ok { given with options := given.options ++ [(name, value)] }

/-- Settle the option that is not settled yet. -/
def Given.settle (g : Grammar) (given : Given) : Except Fault Given :=
  match given.pending with
  | none => .ok given
  | some (name, value) => { given with pending := none }.settleOption g name value

/-- Take a flag. -/
def Given.raise (g : Grammar) (given : Given) (name : String) : Except Fault Given := do
  let given ← given.settle g
  if name = "help" then .error .helpRequested
  else if given.flags.contains name then .error .repeatedArgument
  else .ok { given with flags := given.flags ++ [name] }

/-- Take a file. -/
def Given.addFile (g : Grammar) (given : Given) (file : String) : Except Fault Given :=
  if !g.files then .error .unknownArgument
  else do
    let given ← given.settle g
    if file.isEmpty then .error .invalidValue
    else .ok { given with files := given.files ++ [file] }

/-- The name and the attached value of a long option, of which the leading `--` has been read. -/
def splitValue (cs : List Char) : String × Option String :=
  (String.ofList (cs.takeWhile (· != '=')),
    match cs.dropWhile (· != '=') with
    | [] => none
    | _ :: value => some (String.ofList value))

/-- Take a long option. -/
def Given.takeLong (g : Grammar) (given : Given) (cs : List Char) : Except Fault Given :=
  let (name, value) := splitValue cs
  if g.paths.contains name || g.texts.contains name then do
    let given ← given.settle g
    match value with
    | some _ => given.settleOption g name value
    | none => .ok { given with pending := some (name, none) }
  else if name = "help" || g.flags.contains name then
    if value.isSome then .error .unexpectedValue else given.raise g name
  else .error .unknownArgument

/-- Take an argument that is neither an option nor `--`: the value of the option that waits for one,
or a file. -/
def Given.takeWord (g : Grammar) (given : Given) (word : String) : Except Fault Given :=
  match given.pending with
  | some (name, none) => .ok { given with pending := some (name, some word) }
  | _ => given.addFile g word

/-- Read arguments one after the other; the flag tells whether `--` has been read. -/
def readFrom (g : Grammar) : Bool → Given → List String → Except Fault Given
  | _, given, [] => given.settle g
  | true, given, a :: as => do readFrom g true (← given.addFile g a) as
  | false, given, a :: as =>
    match a.toList with
    | ['-', '-'] => readFrom g true given as
    | '-' :: '-' :: cs => do readFrom g false (← given.takeLong g cs) as
    | '-' :: 'h' :: _ => do readFrom g false (← given.raise g "help") as
    | '-' :: _ :: _ => .error .unknownArgument
    | _ => do readFrom g false (← given.takeWord g a) as

/-- What the arguments of a command say. -/
def read (g : Grammar) (args : List String) : Except Fault Given := readFrom g false {} args

/-- What the command for whole projects is told. -/
structure GraphOptions where
  root : Option String := none
  filter : Option String := none
  dynamic : Bool := false
  json : Bool := false
  deriving DecidableEq, Repr

/-- What the command for single modules is told. -/
structure DepsOptions where
  files : List String
  dynamic : Bool := false
  json : Bool := false
  deriving DecidableEq, Repr

/-- The arguments of the command for whole projects. -/
def graphGrammar : Grammar := ⟨["root"], ["filter"], ["dynamic", "json"], false⟩

/-- The arguments of the command for single modules. -/
def depsGrammar : Grammar := ⟨[], [], ["dynamic", "json"], true⟩

/-- What the arguments of the command for whole projects say. -/
def graphOptions (args : List String) : Except Fault GraphOptions := do
  let given ← read graphGrammar args
  .ok ⟨given.options.lookup "root", given.options.lookup "filter", given.flags.contains "dynamic",
    given.flags.contains "json"⟩

/-- What the arguments of the command for single modules say. -/
def depsOptions (args : List String) : Except Fault DepsOptions := do
  let given ← read depsGrammar args
  if given.files.isEmpty then .error .missingFile
  else .ok ⟨given.files, given.flags.contains "dynamic", given.flags.contains "json"⟩

/-- The commands of the program. -/
inductive Command where
  | deps (options : DepsOptions)
  | graph (options : GraphOptions)
  deriving DecidableEq, Repr

/-- The names of the commands. -/
def commandNames : List String := ["deps", "graph", "help"]

/-- What becomes of a request for help on some commands: it is for all of them or for a known
one. -/
def helpOn : List String → Fault
  | [] => .helpRequested
  | [name] => if commandNames.contains name then .helpRequested else .unknownCommand
  | _ => .unknownCommand

/-- Why an argument that is not the name of a command is refused in its place. -/
def refuse (name : String) : Fault :=
  match name.toList with
  | '-' :: 'h' :: _ => .helpRequested
  | '-' :: _ => if name = "--help" then .helpRequested else .unknownArgument
  | _ => .unknownCommand

/-- The command that the arguments of the program give. -/
def command : List String → Except Fault Command
  | [] => .error .missingCommand
  | "deps" :: args => (depsOptions args).map .deps
  | "graph" :: args => (graphOptions args).map .graph
  | "help" :: names => .error (helpOn names)
  | name :: _ => .error (refuse name)

/-- How the program is used. -/
def usage : String :=
  "Usage: modulegraph deps [--dynamic] [--json] FILE...\n" ++
  "       modulegraph graph [--root ROOT] [--filter FILTER] [--dynamic] [--json]\n"

end ModuleGraph.CommandLine

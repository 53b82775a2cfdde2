import ModuleGraph.CommandLine
import ModuleGraph.Project
import ModuleGraph.Report

/-!
# The outcome of a command

A command writes a report and messages about what failed, and ends with a code.  The command for
single modules reports every module that can be analysed, also when others fail, and ends with 1 if
any does.  The report on a whole project is closed by a line that tells how long it took.

## Main definitions

* `Outcome`: the report, the messages and the code.
* `Outcome.ofDeps`, `Outcome.ofGraph`: the outcomes of the two commands.
* `Outcome.of`: the outcome of the arguments of the program.
* `Outcome.lastLine`: the line that closes a report.
* `Outcome.wantsColour`: whether a report is written in colours.
-/

namespace ModuleGraph

/-- What a command leaves behind. -/
structure Outcome where
  code : Nat
  report : List Report.Run
  messages : List Report.Run := []
  /-- The number of modules of the project, if the report is closed by a line that tells it. -/
  finishedOn : Option Nat := none
  deriving DecidableEq, Repr

namespace Outcome

/-- The entries of the modules that can be analysed, each under the text it was asked for by. -/
def analysed (o : Dependencies.Options) (d : Files.Disk) (files : List String) :
    List Graph.Entry :=
  files.filterMap fun file =>
    match Dependencies.of o d ⟨file⟩ with
    | .ok found => some ⟨file, found.value⟩
    | .error _ => none

/-- The faults of the modules that cannot be analysed. -/
def faults (o : Dependencies.Options) (d : Files.Disk) (files : List String) :
    List Dependencies.Fault :=
  files.filterMap fun file =>
    match Dependencies.of o d ⟨file⟩ with
    | .ok _ => none
    | .error fault => some fault

/-- The outcome of the command for single modules. -/
def ofDeps (d : Files.Disk) (options : CommandLine.DepsOptions) : Outcome :=
  let o : Dependencies.Options := { dynamic := options.dynamic }
  let entries := analysed o d options.files
  let faults := faults o d options.files
  { code := if faults.isEmpty then 0 else 1
    report :=
      if options.json then Report.listingData entries else entries.flatMap Report.dependencies
    messages := faults.flatMap fun fault => Report.failed fault.message }

/-- What the command for whole projects is about. -/
def projectOptions (options : CommandLine.GraphOptions) : Project.Options :=
  ⟨options.root.map Path.mk, options.filter, options.dynamic⟩

/-- The outcome of the command for whole projects. -/
def ofGraph (d : Files.Disk) (options : CommandLine.GraphOptions) : Outcome :=
  match Project.graph (projectOptions options) d with
  | .error fault =>
    { code := 1, report := [], messages := [Report.text ("Error: " ++ fault.message ++ "\n")] }
  | .ok graph =>
    if options.json then { code := 0, report := Report.graphData graph.value }
    else
      { code := 0, report := Report.tree graph.value,
        finishedOn := some graph.value.entries.length }

/-- The outcome of a command. -/
def ofCommand (d : Files.Disk) : CommandLine.Command → Outcome
  | .deps options => ofDeps d options
  | .graph options => ofGraph d options

/-- The outcome of the arguments of the program. -/
def of (d : Files.Disk) (args : List String) : Except CommandLine.Fault Outcome :=
  (CommandLine.command args).map (ofCommand d)

/-- The line that closes a report, given the texts for the time it took and for the number of
threads. -/
def lastLine (o : Outcome) (elapsed threads : String) : List Report.Run :=
  match o.finishedOn with
  | none => []
  | some modules => Report.finished elapsed modules threads

/-- Whether a setting of the environment is on. -/
def isOn (setting : Option String) : Option Bool := setting.map (· != "0")

/-- Whether a report is written in colours, by the settings that force, forbid and allow them and by
whether it goes to a terminal. -/
def wantsColour (force forbid allow : Option String) (terminal : Bool) : Bool :=
  if isOn force == some true then true
  else if (isOn forbid).isSome then false
  else (isOn allow).getD true && terminal

end Outcome

end ModuleGraph

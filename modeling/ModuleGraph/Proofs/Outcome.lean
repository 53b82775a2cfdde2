import Mathlib.Data.List.Forall2
import ModuleGraph.Outcome
import ModuleGraph.Proofs.Report

/-!
# What the command for single modules leaves behind

The command for single modules takes its files one by one.  Each of them is either reported, under
the text it was asked for by, or complained about, and none changes what becomes of another.  The
code tells whether there was a complaint.

## Main definitions

* `CommandLine.DepsOptions.arguments`: arguments that tell the command what it shall do.
* `Outcome.succeeds`: whether a file can be analysed.
* `Outcome.sought`: what counts as an import.
* `Outcome.Accounts`: what an outcome tells about the files.

## Main results

* `CommandLine.command_arguments`: the arguments are understood.
* `Outcome.accounts_ofDeps`: every file is accounted for.
* `Outcome.of_arguments`: the outcome of the command for single modules.
-/

namespace ModuleGraph

/-! ### Arguments -/

namespace CommandLine

/-- The flags that tell the command for single modules what it shall do. -/
def DepsOptions.flags (options : DepsOptions) : List String :=
  (if options.dynamic then ["dynamic"] else []) ++ if options.json then ["json"] else []

/-- Arguments that tell the command for single modules what it shall do. -/
def DepsOptions.arguments (options : DepsOptions) : List String :=
  "deps" :: (options.flags.map ("--" ++ ·) ++ "--" :: options.files)

/-- Behind `--`, every argument is a file, unless it is empty. -/
theorem readFrom_files (options : List (String × String)) (flags known files : List String) :
    readFrom depsGrammar true { options, flags, files := known } files =
      if "" ∈ files then .error .invalidValue
      else .ok { options, flags, files := known ++ files } := by
  induction files generalizing known with
  | nil => rw [List.append_nil]; rfl
  | cons file files ih =>
    by_cases hfile : file = ""
    · subst hfile
      rw [if_pos List.mem_cons_self]
      rfl
    · have hadd : Given.addFile depsGrammar { options, flags, files := known } file =
          .ok { options, flags, files := known ++ [file] } := by
        have hempty : file.isEmpty = false := by simpa using hfile
        simp only [Given.addFile, depsGrammar, Given.settle, hempty]
        rfl
      rw [readFrom, hadd]
      refine (ih (known ++ [file])).trans ?_
      simp [Ne.symm hfile]

/-- Files behind flags are understood if there is one and none is empty. -/
theorem command_arguments (options : DepsOptions) :
    command options.arguments =
      if "" ∈ options.files then .error .invalidValue
      else if options.files = [] then .error .missingFile else .ok (.deps options) := by
  have hcommand : command options.arguments = (depsOptions options.arguments.tail).map .deps := rfl
  have hread : read depsGrammar options.arguments.tail =
      readFrom depsGrammar true { flags := options.flags } options.files := by
    obtain ⟨files, dynamic, json⟩ := options
    cases dynamic <;> cases json <;> rfl
  have hcontains : options.flags.contains "dynamic" = options.dynamic ∧
      options.flags.contains "json" = options.json := by
    rw [DepsOptions.flags]
    cases options.dynamic <;> cases options.json <;> decide
  rw [hcommand, depsOptions, hread, readFrom_files]
  split
  · rfl
  · change Except.map Command.deps (if options.files.isEmpty then .error Fault.missingFile else
      .ok ⟨options.files, options.flags.contains "dynamic", options.flags.contains "json"⟩) = _
    rw [hcontains.1, hcontains.2]
    by_cases hne : options.files = [] <;> simp [hne, Except.map]

end CommandLine

namespace Outcome

/-! ### Files one by one -/

section Files

variable (o : Dependencies.Options) (d : Files.Disk)

/-- Whether a file can be analysed. -/
def succeeds (file : String) : Bool :=
  match Dependencies.of o d ⟨file⟩ with
  | .ok _ => true
  | .error _ => false

/-- There is one entry for each file that can be analysed, in order. -/
theorem forall₂_analysed (files : List String) :
    List.Forall₂ (fun file e => ∃ found, Dependencies.of o d ⟨file⟩ = .ok found ∧
        e = ⟨file, found.value⟩)
      (files.filter (succeeds o d)) (analysed o d files) := by
  induction files with
  | nil => exact .nil
  | cons file files ih =>
    cases h : Dependencies.of o d ⟨file⟩ with
    | ok found =>
      simp only [analysed, List.filter_cons, List.filterMap_cons, succeeds, h]
      exact .cons ⟨found, h, rfl⟩ ih
    | error fault =>
      simp only [analysed, List.filter_cons, List.filterMap_cons, succeeds, h]
      exact ih

/-- There is one fault for each file that cannot be analysed, in order. -/
theorem forall₂_faults (files : List String) :
    List.Forall₂ (fun file fault => Dependencies.of o d ⟨file⟩ = .error fault)
      (files.filter fun file => !succeeds o d file) (faults o d files) := by
  induction files with
  | nil => exact .nil
  | cons file files ih =>
    cases h : Dependencies.of o d ⟨file⟩ with
    | ok found =>
      simp only [faults, List.filter_cons, List.filterMap_cons, succeeds, h]
      exact ih
    | error fault =>
      simp only [faults, List.filter_cons, List.filterMap_cons, succeeds, h]
      exact .cons h ih

theorem analysed_append (xs ys : List String) :
    analysed o d (xs ++ ys) = analysed o d xs ++ analysed o d ys := List.filterMap_append

end Files

/-- What the command for single modules counts as an import. -/
def sought (options : CommandLine.DepsOptions) : Dependencies.Options :=
  { dynamic := options.dynamic }

/-- What an outcome tells about the files that the command for single modules was given. -/
structure Accounts (options : CommandLine.DepsOptions) (d : Files.Disk) (outcome : Outcome) :
    Prop where
  /-- The report is on the files that can be analysed: a tree for each of them, or one list. -/
  reported : ∃ entries : List Graph.Entry,
    List.Forall₂ (fun file e => ∃ found, Dependencies.of (sought options) d ⟨file⟩ = .ok found ∧
        e = ⟨file, found.value⟩)
      (options.files.filter (succeeds (sought options) d)) entries ∧
    ∀ colour, if options.json then
        ∃ document, Report.render colour outcome.report = document ++ "\n" ∧
          ∀ limits, ∀ text ∈ [document, Report.render colour outcome.report],
            Json.readWithin? limits text.toList = some (.array (entries.map fun e => .object
              [("module", .string e.key),
                ("dependencies", .array (e.dependencies.map .string))]))
      else
        Report.render colour outcome.report =
          String.join (entries.map fun e => Report.render colour (Report.dependencies e))
  /-- There is one message for each of the other files. -/
  complained : ∃ faults : List Dependencies.Fault,
    List.Forall₂ (fun file fault => Dependencies.of (sought options) d ⟨file⟩ = .error fault)
      (options.files.filter fun file => !succeeds (sought options) d file) faults ∧
    Report.render false outcome.messages =
      String.join (faults.map fun fault => "error: " ++ fault.message ++ "\n")
  code_eq : outcome.code =
    if ∃ file ∈ options.files, succeeds (sought options) d file = false then 1 else 0
  finishedOn_eq : outcome.finishedOn = none

/-- Every tree begins with the text its module was asked for by. -/
theorem key_prefix_dependencies (e : Graph.Entry) :
    (e.key ++ " (").toList <+: (Report.render false (Report.dependencies e)).toList := by
  rw [Report.dependencies]
  split
  · refine ⟨"no dependencies)\n".toList, ?_⟩
    simp [Report.render, Report.plain, Report.styled, Report.text]
  · simp [Report.render, Report.plain, Report.styled, Report.text]

/-- Every file that the command is given is accounted for. -/
theorem accounts_ofDeps (d : Files.Disk) (options : CommandLine.DepsOptions) :
    Accounts options d (ofDeps d options) where
  reported := by
    refine ⟨_, forall₂_analysed _ d options.files, fun colour => ?_⟩
    cases hjson : options.json with
    | true =>
      simp only [ofDeps, hjson, if_true]
      exact Report.exists_document (fun _ => Graph.isWritable_listing _ _) colour
    | false =>
      simp only [ofDeps, hjson]
      exact Report.render_flatMap colour Report.dependencies _
  complained := by
    refine ⟨_, forall₂_faults _ d options.files, ?_⟩
    simp only [ofDeps, sought, Report.render_flatMap, Report.render_failed]
  code_eq := by
    have hnone : (faults (sought options) d options.files).isEmpty = true ↔
        ¬ ∃ file ∈ options.files, succeeds (sought options) d file = false := by
      rw [List.isEmpty_iff_length_eq_zero, ← (forall₂_faults _ d options.files).length_eq,
        List.length_eq_zero_iff, List.filter_eq_nil_iff]
      simp
    have hcode : (ofDeps d options).code =
      if (faults (sought options) d options.files).isEmpty then 0 else 1 := rfl
    simp only [hcode, hnone, ite_not]
  finishedOn_eq := rfl

/-- As trees, the report on some files and then others is the report on the former and then on the
latter. -/
theorem render_ofDeps_append (d : Files.Disk) (options : CommandLine.DepsOptions)
    (more : List String) (colour : Bool) :
    Report.render colour
        (ofDeps d { options with files := options.files ++ more, json := false }).report =
      Report.render colour (ofDeps d { options with json := false }).report ++
        Report.render colour (ofDeps d { options with files := more, json := false }).report := by
  simp only [ofDeps, analysed_append, List.flatMap_append, Bool.false_eq_true, if_false]
  exact Report.render_append colour _ _

/-- **The outcome of the command for single modules.**  The arguments are understood if there is a
file and none is empty, and so is every other way to tell the command the same.  The report is on
exactly the files that can be analysed, in the order of the arguments, with repetitions, and each
under the text it was asked for by; there is a message for each of the others, in order; and the
code is 1 if there is one, and 0 otherwise.  As trees, the report on some files and then others is
the report on the former and then on the latter. -/
theorem of_arguments (d : Files.Disk) (options : CommandLine.DepsOptions) :
    (of d options.arguments = .ok (ofDeps d options) ↔ options.files ≠ [] ∧ "" ∉ options.files) ∧
      (∀ args, CommandLine.command args = .ok (.deps options) →
        of d args = .ok (ofDeps d options)) ∧
      Accounts options d (ofDeps d options) ∧
      (∀ e : Graph.Entry,
        (e.key ++ " (").toList <+: (Report.render false (Report.dependencies e)).toList) ∧
      ∀ colour more,
        Report.render colour
            (ofDeps d { options with files := options.files ++ more, json := false }).report =
          Report.render colour (ofDeps d { options with json := false }).report ++
            Report.render colour
              (ofDeps d { options with files := more, json := false }).report := by
  refine ⟨?_, fun args hargs => by rw [of, hargs]; rfl, accounts_ofDeps d options,
    key_prefix_dependencies, fun colour more => render_ofDeps_append d options more colour⟩
  rw [of, CommandLine.command_arguments]
  by_cases hempty : "" ∈ options.files
  · simp [hempty, Except.map]
  · by_cases hne : options.files = [] <;> simp [hempty, hne, Except.map, ofCommand]

/-- A project with a module that imports another one, and with a file that is no text. -/
def garbledProject : Files.Disk where
  entries := [(["p"], .directory), (["p", "a.ts"], .file "import './b'; import './c';".toUTF8),
    (["p", "b.ts"], .file "".toUTF8), (["p", "c.ts"], .file ⟨#[0xFF]⟩)]
  here := []
  distinct := by decide
  proper := by decide

/-- One file is asked for twice, in two ways, between files that cannot be analysed. -/
theorem of_garbledProject :
    ∃ outcome : Outcome, of garbledProject
        ["deps", "--", "/p/c.ts", "/p/a.ts", "/p/none.ts", "/p//a.ts"] = .ok outcome ∧
      outcome.code = 1 ∧
      Report.render false outcome.report =
        "/p/a.ts (2 dependencies)\n├──  b.ts\n└──  c.ts\n" ++
          "/p//a.ts (2 dependencies)\n├──  b.ts\n└──  c.ts\n" ∧
      Report.render false outcome.messages =
        "error: Failed to read /p/c.ts: stream did not contain valid UTF-8\n" ++
          "error: Module path /p/none.ts is not an existing regular file\n" := by
  obtain ⟨harguments, -, haccounts, -⟩ := of_arguments garbledProject
    { files := ["/p/c.ts", "/p/a.ts", "/p/none.ts", "/p//a.ts"] }
  refine ⟨_, harguments.mpr (by decide), haccounts.code_eq.trans ?_, ?_, ?_⟩
  all_goals decide +kernel

end Outcome

end ModuleGraph

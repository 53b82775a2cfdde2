import ModuleGraph.Outcome

/-!
# The program

The program reads the part of the file system that a command may look at into a tree, asks for the
outcome of the command on that tree, and writes it.  It looks at the repositories around the current
directory and around the paths that the command names, or at those directories themselves outside of
repositories, and at the configurations and rules in the directories above them.  Of the directories
that belong to the user, it looks at the settings and at the rules that they name.
-/

namespace ModuleGraph.Main

open Files

/-- The place of an absolute path. -/
def placeOf (text : String) : Place := segmentsOf text.toList

/-- The path without links to the same entry, if there is one. -/
def realText? (text : String) : IO (Option String) :=
  try
    let path ← IO.FS.realPath text
    if ← path.pathExists then return some path.toString else return none
  catch _ => return none

mutual

/-- Add the entry at a path without links in front of its last name. -/
partial def addEntry (d : Disk) (place : Place) : IO Disk := do
  let text := (Disk.pathOf place).text
  let path ← IO.FS.realPath (Disk.pathOf place.dropLast).text
  match (← (path / place.getLastD "").symlinkMetadata).type with
  | .file => return d.write ⟨text⟩ (← IO.FS.readBinFile text)
  | .dir => addTree (d.makeDirectories ⟨text⟩) place
  | .symlink =>
    match ← realText? text with
    | none => return d
    | some target =>
      let d := d.link ⟨text⟩ target
      if (d.entry? (placeOf target)).isSome then return d else addEntry d (placeOf target)
  | .other => return d

/-- Add everything below a directory.  What cannot be read is left out. -/
partial def addTree (d : Disk) (place : Place) : IO Disk := do
  let mut d := d
  for entry in ← (← IO.FS.realPath (Disk.pathOf place).text).readDir do
    let child := place ++ [entry.fileName]
    if (d.entry? child).isNone then
      d ← try addEntry d child catch _ => pure d
  return d

end

/-- What counts in a directory above the ones that are looked at. -/
def namesAbove : List Place :=
  [["tsconfig.json"], ["package.json"], [".ignore"], [".gitignore"], [".git", "info", "exclude"]]

/-- Add the configurations and rules in the directories above a place, and what marks the roots of
repositories there. -/
def addAbove (d : Disk) (place : Place) : IO Disk := do
  let mut d := d
  for dir in Ignore.above place do
    for name in Ignore.rootNames do
      let text := (Disk.pathOf (dir ++ [name])).text
      if ((← realText? text).isSome && !d.occupied ⟨text⟩) then d := d.makeDirectories ⟨text⟩
    for name in namesAbove do
      if (← realText? (Disk.pathOf (dir ++ name)).text).isSome then
        d ← try addEntry d (dir ++ name) catch _ => pure d
  return d

/-- Add the file at a path, if there is one. -/
def addFile (d : Disk) (path : Path) : IO Disk := do
  let above := (path.parent?.getD ⟨""⟩).text
  let some above ← realText? (if above.isEmpty then "." else above) | return d
  let some name := path.fileName? | return d
  if (← realText? path.text).isNone then return d
  try addEntry (d.makeDirectories ⟨above⟩) (placeOf above ++ [name]) catch _ => return d

/-- A directory that a variable of the environment names, without links if there is one. -/
def directoryOf? (name : String) : IO (Option Path) := do
  let some text ← IO.getEnv name | return none
  return some ⟨(← realText? text).getD text⟩

/-- Add the settings of the user and the rules that they name. -/
def addUser (d : Disk) : IO Disk := do
  let mut d := d.seenFrom (← directoryOf? "HOME") (← directoryOf? "XDG_CONFIG_HOME")
  for file in Ignore.settingsFiles d do d ← addFile d file
  if let some file := Ignore.userFile? d then d ← addFile d file
  return d

/-- The directory to look at for a path without links: that of the repository around it. -/
def baseOf (place : Place) : IO Place := do
  for dir in place :: Ignore.above place do
    if (← realText? (Disk.pathOf (dir ++ [".git"])).text).isSome then return dir
  return place

/-- The paths that a command names. -/
def namedPaths : CommandLine.Command → List String
  | .deps options => options.files.map fun file => ((⟨file⟩ : Path).parent?.getD ⟨"."⟩).text
  | .graph options => options.root.toList

/-- The tree that a command may look at. -/
def treeFor (command : CommandLine.Command) : IO Disk := do
  let here := placeOf (← IO.FS.realPath ".").toString
  let mut d := (Disk.empty.makeDirectories (Disk.pathOf here)).startingFrom here
  for text in "." :: namedPaths command do
    let text := if text.isEmpty then "." else text
    if let some target ← realText? text then
      let base ← baseOf (placeOf target)
      d ← addTree (d.makeDirectories (Disk.pathOf base)) base
      d ← addAbove d base
  addUser d

/-- Run a command and write its outcome. -/
def run (command : CommandLine.Command) : IO UInt32 := do
  let start ← IO.monoMsNow
  let stdout ← IO.getStdout
  let colour := Outcome.wantsColour (← IO.getEnv "CLICOLOR_FORCE") (← IO.getEnv "NO_COLOR")
    (← IO.getEnv "CLICOLOR") (← stdout.isTty)
  let outcome := Outcome.ofCommand (← treeFor command) command
  (← IO.getStderr).putStr (Report.render colour outcome.messages)
  stdout.putStr (Report.render colour outcome.report)
  let elapsed := (← IO.monoMsNow) - start
  stdout.putStr (Report.render colour (outcome.lastLine s!"{elapsed}" "1"))
  return outcome.code.toUInt32

end ModuleGraph.Main

/-- The program. -/
def main (args : List String) : IO UInt32 := do
  match ModuleGraph.CommandLine.command args with
  | .ok command => ModuleGraph.Main.run command
  | .error .helpRequested =>
    (← IO.getStdout).putStr ModuleGraph.CommandLine.usage
    return 0
  | .error _ =>
    (← IO.getStderr).putStr ModuleGraph.CommandLine.usage
    return 2

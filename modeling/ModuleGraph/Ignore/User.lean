import ModuleGraph.Files.Lookup

/-!
# The file of the rules of a user

Besides the rules that lie in a tree, there may be rules that a user wants to have in all
repositories.  The settings of the user name the file that holds them; if they do not, the file has
a usual place.  There may be two files of settings, of which the one in the home directory comes
first.  Of a file of settings, only the first line that names the file of rules is understood, in
whatever section it stands.

## Main definitions

* `Ignore.setting?`: what a file of settings names.
* `Ignore.settingsFiles`, `Ignore.userFile?`: the files of settings, and the file of rules.
* `Ignore.userBytes`: what the rules of a user are about.
-/

namespace ModuleGraph.Ignore

/-! ### Settings -/

/-- Whether a byte is a blank or ends a line. -/
def isSpace (b : UInt8) : Bool := b == 32 || (9 ≤ b && b ≤ 13)

/-- A byte, in lower case if it is a letter. -/
def lowered (b : UInt8) : UInt8 := if 65 ≤ b && b ≤ 90 then b + 32 else b

/-- The name of the setting. -/
def settingName : List UInt8 := "excludesfile".toUTF8.toList

/-- What stands behind the name of the setting. -/
def behindName? (bytes : List UInt8) : Option (List UInt8) :=
  if (bytes.take settingName.length).map lowered == settingName then
    some (bytes.drop settingName.length)
  else none

/-- Whether there are only blanks up to the end of the line. -/
def endsLine (bytes : List UInt8) : Bool :=
  match bytes.dropWhile fun b => isSpace b && b != 10 with
  | [] => true
  | b :: _ => b == 10

/-- Whether a value may end here.  There may be a quotation mark behind it. -/
def endsValue (bytes : List UInt8) : Bool :=
  endsLine bytes ||
    match bytes.dropWhile isSpace with
    | 34 :: rest => endsLine rest
    | _ => false

/-- A value, which holds no blanks and ends as soon as it may. -/
def value? : List UInt8 → Option (List UInt8)
  | [] => none
  | b :: rest =>
    if isSpace b then none
    else if endsValue rest then some [b]
    else (value? rest).map (b :: ·)

/-- The value behind the name of the setting.  A quotation mark in front of it is passed over, if
there is a value behind the mark. -/
def settingValue? (bytes : List UInt8) : Option (List UInt8) :=
  match bytes.dropWhile isSpace with
  | 61 :: rest =>
    let rest := rest.dropWhile isSpace
    match rest with
    | 34 :: quoted => (value? (quoted.dropWhile isSpace)).or (value? rest)
    | _ => value? rest
  | _ => none

/-- The value of the first line that is a setting.  The flag tells whether a line starts here. -/
def settingFrom? : Bool → List UInt8 → Option (List UInt8)
  | _, [] => none
  | starts, b :: rest =>
    (if starts then (behindName? ((b :: rest).dropWhile isSpace)).bind settingValue?
      else none).or (settingFrom? (b == 10) rest)

/-- What a file of settings names. -/
def setting? (contents : ByteArray) : Option String :=
  (settingFrom? true contents.toList).bind fun value => String.fromUTF8? ⟨value.toArray⟩

/-- The setting may be written in capital letters, and its value between quotation marks. -/
example : setting? "[core]\n\tExcludesFile = \"~/rules\"\n".toUTF8 = some "~/rules" := by
  decide +kernel

/-! ### The file of rules -/

/-- The path that a setting names, in which `~` stands for the home directory. -/
def expandHome (home : Option Path) (text : String) : Path :=
  match home with
  | none => ⟨text⟩
  | some home =>
    ⟨String.ofList (text.toList.flatMap fun c => if c == '~' then home.text.toList else [c])⟩

/-- The path that the file of settings at a path names. -/
def namedIn? (d : Files.Disk) (file : Path) : Option Path :=
  match d.readBytes file with
  | .ok contents => (setting? contents).map (expandHome d.home)
  | .error _ => none

/-- The directory of the configurations of the user. -/
def configDirectory? (d : Files.Disk) : Option Path :=
  (d.configHome.filter (·.text != "")).or (d.home.map (·.join ".config"))

/-- The files of settings. -/
def settingsFiles (d : Files.Disk) : List Path :=
  (d.home.map (·.join ".gitconfig")).toList ++
    ((configDirectory? d).map (·.join "git/config")).toList

/-- The file of the rules of the user. -/
def userFile? (d : Files.Disk) : Option Path :=
  ((settingsFiles d).findSome? (namedIn? d)).or
    ((configDirectory? d).map (·.join "git/ignore"))

/-! ### What the rules are about -/

/-- Drop the current directory in front of a text. -/
def dropHere : List Char → List Char
  | '.' :: '/' :: rest => rest
  | cs => cs

/-- The bytes that the rules of the user are about: those of a path, from the current directory on
if its text begins with that. -/
def userBytes (d : Files.Disk) (p : Path) : List UInt8 :=
  let text := dropHere (dropHere p.text.toList)
  let here := (Files.Disk.pathOf d.here).text.toList
  let text :=
    if here.isPrefixOf text then
      match text.drop here.length with
      | '/' :: rest => rest
      | rest => rest
    else text
  (String.ofList text).toUTF8.toList

end ModuleGraph.Ignore

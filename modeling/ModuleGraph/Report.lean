import ModuleGraph.Graph
import ModuleGraph.Json.Writer

/-!
# Reports

A report is a list of runs of text, each with a style.  It is read in two ways: plainly, as the text
of its runs, and in colours, where each styled run stands between the code that opens its style and
the code that closes it.

## Main definitions

* `Report.Style`, `Report.Run`: a style, and text in it.
* `Report.plain`, `Report.coloured`: the two readings.
* `Report.dependencies`: one module with its dependencies, as a tree.
* `Report.tree`: a whole graph with a summary.
* `Report.data`, `Report.graphData`, `Report.listingData`: the same as data text.
-/

namespace ModuleGraph

/-- How a run of text looks.  Names of modules are headings, names of dependencies are links, and
what stands in the background is dimmed. -/
inductive Report.Style where
  | normal
  | heading
  | dimmed
  | count
  | link
  | bullet
  | title
  | total
  | caution
  | alarm
  | failure
  deriving DecidableEq, Repr

/-- A run of text in one style. -/
structure Report.Run where
  style : Report.Style
  text : List Char
  deriving DecidableEq, Repr

namespace Report

/-- The parameters of the code that opens a style. -/
def Style.parameters : Style → List Char
  | .normal => []
  | .heading => "1;97".toList
  | .dimmed => "2".toList
  | .count => "36".toList
  | .link => "34".toList
  | .bullet => "94".toList
  | .title => "1".toList
  | .total => "1;36".toList
  | .caution => "33".toList
  | .alarm => "31".toList
  | .failure => "1;31".toList

/-- The character that begins a code. -/
def escapeChar : Char := Char.ofNat 0x1B

/-- The code that opens a style. -/
def Style.opening (s : Style) : List Char := escapeChar :: '[' :: s.parameters ++ ['m']

/-- The code that closes every style. -/
def closing : List Char := [escapeChar, '[', '0', 'm']

/-- A text in which every closing code is followed by the code that opens the style again.  The
first argument counts the characters of a closing code that are still to be copied. -/
def reopened (opening : List Char) : Nat → List Char → List Char
  | _, [] => []
  | 0, c :: cs =>
    if closing.isPrefixOf (c :: cs) then c :: reopened opening 3 cs
    else c :: reopened opening 0 cs
  | 1, c :: cs => c :: opening ++ reopened opening 0 cs
  | n + 2, c :: cs => c :: reopened opening (n + 1) cs

/-- The coloured reading of a run. -/
def Run.coloured (r : Run) : List Char :=
  if r.style = .normal then r.text
  else r.style.opening ++ reopened r.style.opening 0 r.text ++ closing

/-- The plain reading of a report. -/
def plain (runs : List Run) : List Char := runs.flatMap Run.text

/-- The coloured reading of a report. -/
def coloured (runs : List Run) : List Char := runs.flatMap Run.coloured

/-- The reading of a report, in colours on request. -/
def render (colour : Bool) (runs : List Run) : String :=
  String.ofList (if colour then coloured runs else plain runs)

/-- A run without a style. -/
def text (s : String) : Run := ⟨.normal, s.toList⟩

/-- A run in a style. -/
def styled (style : Style) (s : String) : Run := ⟨style, s.toList⟩

/-- A number in a style. -/
def number (style : Style) (n : Nat) : Run := ⟨style, Nat.toDigits 10 n⟩

/-- The lines of the dependencies, of which the last has a connector of its own. -/
def branches : List String → List Run
  | [] => []
  | [d] => [styled .dimmed "└──", text "  ", styled .link d, text "\n"]
  | d :: ds => [styled .dimmed "├──", text "  ", styled .link d, text "\n"] ++ branches ds

/-- One module followed by its dependencies as a tree. -/
def dependencies (e : Graph.Entry) : List Run :=
  if e.dependencies.isEmpty then
    [styled .heading e.key, text " ", styled .dimmed "(no dependencies)", text "\n"]
  else
    [styled .heading e.key, text " (", number .count e.dependencies.length,
      text " dependencies)\n"] ++ branches e.dependencies

/-- The last of the modules that have the most dependencies. -/
def busiest? : List Graph.Entry → Option Graph.Entry
  | [] => none
  | e :: es => some (es.foldl
      (fun best e => if best.dependencies.length ≤ e.dependencies.length then e else best) e)

/-- The line of the module with the most dependencies, if any module has one. -/
def busiestLine (g : Graph) : List Run :=
  match busiest? g.entries with
  | none => []
  | some e =>
    if e.dependencies.isEmpty then []
    else [text "  Most dependencies: ", styled .link e.key, text " (",
      number .alarm e.dependencies.length, text ")\n"]

/-- The counts at the end of a graph. -/
def summary (g : Graph) : List Run :=
  [⟨.dimmed, List.replicate 60 '─'⟩, text "\n", styled .title "Summary", text "\n",
    text "  Modules: ", number .total g.entries.length, text "\n",
    text "  Dependencies: ", number .total g.edgeCount, text "\n",
    text "  Without dependencies: ",
    number .caution (g.entries.countP fun e => e.dependencies.isEmpty), text "\n"] ++
    busiestLine g

/-- A whole graph as trees, with a summary. -/
def tree (g : Graph) : List Run :=
  [styled .bullet "●", text " ", styled .title g.root.text, text "\n\n"] ++
    g.entries.flatMap (fun e => dependencies e ++ [text "\n"]) ++ summary g

/-- A data value as a report of its own, on lines of its own. -/
def data (v : Json.Value) : List Run := [⟨.normal, Json.write v ++ ['\n']⟩]

/-- A whole graph as data text. -/
def graphData (g : Graph) : List Run := data g.toValue

/-- A list of modules as data text. -/
def listingData (entries : List Graph.Entry) : List Run := data (Graph.listing entries)

/-- The line that closes a run over a project: how long it took, on how many modules and with how
many threads. -/
def finished (elapsed : String) (modules : Nat) (threads : String) : List Run :=
  [text "\n", styled .bullet "●", text " Finished in ", styled .count elapsed, text "ms on ",
    number .count modules, text " files (using ", styled .count threads, text " threads).\n"]

/-- The line of a module that could not be analysed. -/
def failed (message : String) : List Run :=
  [styled .failure "error:", text " ", text message, text "\n"]

end Report

end ModuleGraph

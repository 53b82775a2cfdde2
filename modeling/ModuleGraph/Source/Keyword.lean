/-!
# Words with a meaning of their own

Program text gives some words a meaning.  The *reserved* ones may never name a binding; the others
have their meaning only in certain places and are ordinary names elsewhere.

## Main definitions

* `Source.Keyword`: the words.
* `Source.Keyword.text`: how a word is written.
* `Source.Keyword.ofChars?`: the word that is written so.
* `Source.Keyword.isReserved`: whether the word may never name a binding.
-/

namespace ModuleGraph.Source

/-- A word with a meaning of its own.  The underscore keeps its name apart from the words of this
library's own language. -/
inductive Keyword where
  | break_ | case_ | catch_ | class_ | const_ | continue_ | debugger_ | default_ | delete_ | do_
  | else_ | enum_ | export_ | extends_ | false_ | finally_ | for_ | function_ | if_ | import_
  | in_ | instanceof_ | new_ | null_ | return_ | super_ | switch_ | this_ | throw_ | true_ | try_
  | typeof_ | var_ | void_ | while_ | with_ | abstract_ | accessor_ | any_ | as_ | assert_
  | asserts_ | async_ | await_ | bigint_ | boolean_ | constructor_ | declare_ | defer_ | from_
  | get_ | global_ | implements_ | infer_ | interface_ | intrinsic_ | is_ | keyof_ | let_ | meta_
  | module_ | namespace_ | never_ | number_ | object_ | of_ | out_ | override_ | package_
  | private_ | protected_ | public_ | readonly_ | require_ | satisfies_ | set_ | source_ | static_
  | string_ | symbol_ | target_ | type_ | undefined_ | unique_ | unknown_ | using_ | yield_
  deriving DecidableEq, Repr

namespace Keyword

/-- All words, the reserved ones first. -/
def all : List Keyword :=
  [.break_, .case_, .catch_, .class_, .const_, .continue_, .debugger_, .default_, .delete_, .do_,
    .else_, .enum_, .export_, .extends_, .false_, .finally_, .for_, .function_, .if_, .import_,
    .in_, .instanceof_, .new_, .null_, .return_, .super_, .switch_, .this_, .throw_, .true_, .try_,
    .typeof_, .var_, .void_, .while_, .with_, .abstract_, .accessor_, .any_, .as_, .assert_,
    .asserts_, .async_, .await_, .bigint_, .boolean_, .constructor_, .declare_, .defer_, .from_,
    .get_, .global_, .implements_, .infer_, .interface_, .intrinsic_, .is_, .keyof_, .let_, .meta_,
    .module_, .namespace_, .never_, .number_, .object_, .of_, .out_, .override_, .package_,
    .private_, .protected_, .public_, .readonly_, .require_, .satisfies_, .set_, .source_, .static_,
    .string_, .symbol_, .target_, .type_, .undefined_, .unique_, .unknown_, .using_, .yield_]

/-- How a word is written. -/
def text : Keyword → String
  | .break_ => "break"
  | .case_ => "case"
  | .catch_ => "catch"
  | .class_ => "class"
  | .const_ => "const"
  | .continue_ => "continue"
  | .debugger_ => "debugger"
  | .default_ => "default"
  | .delete_ => "delete"
  | .do_ => "do"
  | .else_ => "else"
  | .enum_ => "enum"
  | .export_ => "export"
  | .extends_ => "extends"
  | .false_ => "false"
  | .finally_ => "finally"
  | .for_ => "for"
  | .function_ => "function"
  | .if_ => "if"
  | .import_ => "import"
  | .in_ => "in"
  | .instanceof_ => "instanceof"
  | .new_ => "new"
  | .null_ => "null"
  | .return_ => "return"
  | .super_ => "super"
  | .switch_ => "switch"
  | .this_ => "this"
  | .throw_ => "throw"
  | .true_ => "true"
  | .try_ => "try"
  | .typeof_ => "typeof"
  | .var_ => "var"
  | .void_ => "void"
  | .while_ => "while"
  | .with_ => "with"
  | .abstract_ => "abstract"
  | .accessor_ => "accessor"
  | .any_ => "any"
  | .as_ => "as"
  | .assert_ => "assert"
  | .asserts_ => "asserts"
  | .async_ => "async"
  | .await_ => "await"
  | .bigint_ => "bigint"
  | .boolean_ => "boolean"
  | .constructor_ => "constructor"
  | .declare_ => "declare"
  | .defer_ => "defer"
  | .from_ => "from"
  | .get_ => "get"
  | .global_ => "global"
  | .implements_ => "implements"
  | .infer_ => "infer"
  | .interface_ => "interface"
  | .intrinsic_ => "intrinsic"
  | .is_ => "is"
  | .keyof_ => "keyof"
  | .let_ => "let"
  | .meta_ => "meta"
  | .module_ => "module"
  | .namespace_ => "namespace"
  | .never_ => "never"
  | .number_ => "number"
  | .object_ => "object"
  | .of_ => "of"
  | .out_ => "out"
  | .override_ => "override"
  | .package_ => "package"
  | .private_ => "private"
  | .protected_ => "protected"
  | .public_ => "public"
  | .readonly_ => "readonly"
  | .require_ => "require"
  | .satisfies_ => "satisfies"
  | .set_ => "set"
  | .source_ => "source"
  | .static_ => "static"
  | .string_ => "string"
  | .symbol_ => "symbol"
  | .target_ => "target"
  | .type_ => "type"
  | .undefined_ => "undefined"
  | .unique_ => "unique"
  | .unknown_ => "unknown"
  | .using_ => "using"
  | .yield_ => "yield"

/-- Whether the word may never name a binding. -/
def isReserved : Keyword → Bool
  | .break_ | .case_ | .catch_ | .class_ | .const_ | .continue_ | .debugger_ | .default_
  | .delete_ | .do_ | .else_ | .enum_ | .export_ | .extends_ | .false_ | .finally_ | .for_
  | .function_ | .if_ | .import_ | .in_ | .instanceof_ | .new_ | .null_ | .return_ | .super_
  | .switch_ | .this_ | .throw_ | .true_ | .try_ | .typeof_ | .var_ | .void_ | .while_
  | .with_ => true
  | _ => false

/-- The words with their spellings. -/
def spellings : List (List Char × Keyword) := all.map fun k => (k.text.toList, k)

/-- The word that is written so. -/
def ofChars? (cs : List Char) : Option Keyword := spellings.lookup cs

end Keyword

end ModuleGraph.Source

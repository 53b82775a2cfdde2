import ModuleGraph.Json.Reader
import ModuleGraph.Path.Basic

/-!
# Requests

A request is a path, perhaps with a query behind `?` and a fragment behind `#`.  At the very
beginning neither mark counts, and a `#` behind a NUL character belongs to the path.  A path may
also be the address of a file on this host.

## Main definitions

* `Resolution.Request`, `Resolution.Request.read?`: a request, and reading one.
* `Resolution.fileAddress?`: the path of a file address.
-/

namespace ModuleGraph.Resolution

/-- A request with its parts. -/
structure Request where
  path : List Char
  query : Bool
  /-- The fragment with its mark. -/
  fragment : Option (List Char)
  deriving DecidableEq, Repr

/-- A text in front of its fragment, and the fragment: it begins with the first `#` that no NUL
character protects.  The first argument is the character in front. -/
def splitFragment : Char → List Char → List Char × Option (List Char)
  | _, [] => ([], none)
  | before, c :: rest =>
    if c == '#' && before.toNat != 0 then ([], some (c :: rest))
    else
      let (front, fragment) := splitFragment c rest
      (c :: front, fragment)

/-- Whether a NUL character protects a `#` in a text. -/
def hasProtected : List Char → Bool
  | a :: b :: rest => (a.toNat == 0 && b == '#') || hasProtected (b :: rest)
  | _ => false

/-- A text without the NUL characters that protect a `#`. -/
def dropProtection : List Char → List Char
  | a :: b :: rest =>
    if a.toNat == 0 && b == '#' then dropProtection (b :: rest) else a :: dropProtection (b :: rest)
  | cs => cs

/-- The characters whose code points are the bytes of a text. -/
def bytewise (cs : List Char) : List Char :=
  (String.ofList cs).toUTF8.toList.map fun b => Char.ofNat b.toNat

/-- Read a request; an empty path is none.  Where a `#` is protected, the path is read byte by
byte. -/
def Request.read? (cs : List Char) : Option Request :=
  match cs with
  | [] => none
  | first :: rest =>
    let skipped := first == '/' || first == '.' || first == '#'
    let (lead, body) := if skipped then ([first], rest) else ([], cs)
    let (front, fragment) := splitFragment first body
    let path := lead ++ front.takeWhile (· != '?')
    let path := if hasProtected front then bytewise (dropProtection path) else path
    if path.isEmpty then none
    else some ⟨path, front.contains '?', fragment⟩

/-! ### File addresses -/

/-- The bytes of a text in which a percent sign and two digits stand for a byte. -/
def percentDecode : List Char → List UInt8
  | [] => []
  | '%' :: a :: b :: rest =>
    match Json.hexDigit? a, Json.hexDigit? b with
    | some a, some b => UInt8.ofNat (a * 16 + b) :: percentDecode rest
    | _, _ => 0x25 :: percentDecode (a :: b :: rest)
  | c :: rest => (String.singleton c).toUTF8.toList ++ percentDecode rest

/-- The path of a file address, if the text is one and names this host. -/
def fileAddress? (cs : List Char) : Option (List Char) :=
  let scheme := "file://".toList
  if scheme.isPrefixOf cs then
    let address := cs.drop scheme.length
    let host := address.takeWhile (· != '/')
    let path := address.dropWhile (· != '/')
    if host.isEmpty || host == "localhost".toList then
      (String.fromUTF8? ⟨(percentDecode path).toArray⟩).map String.toList
    else none
  else none

end ModuleGraph.Resolution

import ModuleGraph.Source.Grammar.Types

/-!
# Markup elements

Inside an element the text is read in its own way: names may hold hyphens, though not behind a dot,
the values of attributes are written without escapes, and between the tags everything up to the next
brace or tag is text.

## Main definitions

* `Source.markupName`: the name of an element or an attribute.
* `Source.markupElement`: an element with all that is inside of it.
-/

namespace ModuleGraph.Source

open Reader

/-- What is left of a name that may hold hyphens, behind its first part. -/
def skipMarkupName (cs : List Char) : List Char :=
  cs.dropWhile fun c => Text.isNamePart c || c == '-'

theorem skipMarkupName_suffix (cs : List Char) : skipMarkupName cs <:+ cs :=
  List.dropWhile_suffix _

/-- A part of a name that may hold hyphens. -/
def markupWord : Reader Unit := do
  if (← token).isName then
    move (fun c => (c.retake .name (skipMarkupName c.rest)).next) fun c hsound =>
      (c.leads_retake ((skipMarkupName_suffix _).trans hsound.behind) (by simp)).trans
        (Cursor.leads_next _) hsound
  else refuse

/-- A part of a name behind a dot, which may not hold hyphens. -/
def markupMember : Reader Unit := do
  if (← token).isName && (← cursor).rest.head? != some '-' then advance else refuse

/-- The name of an element. -/
def markupName (r : Rules) : Reader Unit := do
  markupWord
  if ← eat .colon then markupWord
  else
    let _ ← repeatWhile (eat .dot) markupMember r.budget

/-- The value of an attribute between quotes, which is written without escapes. -/
def skipAttributeText? (mark : Char) (cs : List Char) : Option (List Char) :=
  match cs.dropWhile (· != mark) with
  | [] => none
  | _ :: rest => some rest

theorem skipAttributeText?_suffix {mark : Char} {cs rest : List Char}
    (h : skipAttributeText? mark cs = some rest) : rest <:+ cs := by
  have hdrop : cs.dropWhile (· != mark) <:+ cs := List.dropWhile_suffix _
  unfold skipAttributeText? at h
  split at h
  · cases h
  · next found heq =>
    rw [heq] at hdrop
    rw [← Option.some.inj h]
    exact (List.suffix_cons _ _).trans hdrop

/-- The text behind the gap that follows the token. -/
def Cursor.behindGap (c : Cursor) : List Char :=
  (skipGap (!c.dialect.isModule) .open false c.rest).rest

theorem Cursor.IsSound.behindGap_suffix {c : Cursor} (h : c.IsSound) : c.behindGap <:+ c.here :=
  (skipGap_suffix _ _ _ _).trans h.behind

/-- Take the quoted value of an attribute, if a quote mark is the next thing behind the equal
sign. -/
def attributeText : Reader Bool := do
  match (← cursor).behindGap with
  | mark :: _ =>
    if mark == '"' || mark == '\'' then
      skip (fun c => skipAttributeText? mark c.behindGap.tail) fun hsound h =>
        ((skipAttributeText?_suffix h).trans (List.tail_suffix _)).trans hsound.behindGap_suffix
      return true
    else return false
  | [] => return false

/-- The value of an attribute, behind its equal sign. -/
def attributeValue (r : Rules) : Reader Unit := do
  if ← attributeText then return
  advance
  if ← eat .leftBrace then
    if !(← at? .rightBrace) then
      let _ ← r.expression
    expect .rightBrace
  else if ← at? .less then r.element false
  else refuse

/-- An attribute of an element. -/
def markupAttribute (r : Rules) : Reader Unit := do
  if ← eat .leftBrace then
    expect .ellipsis
    let _ ← r.expression
    expect .rightBrace
  else
    markupWord
    if ← eat .colon then markupWord
    if ← at? .assign then attributeValue r

/-- A cursor at the next brace or tag behind the text of an element. -/
def Cursor.behindMarkupText? (c : Cursor) : Option Cursor :=
  let here := c.rest.dropWhile fun x => x != '{' && x != '<' && x != '}' && x != '>'
  match here with
  | '{' :: rest => some { c with token := { kind := .symbol .leftBrace }, here, rest }
  | '<' :: rest => some { c with token := { kind := .symbol .less }, here, rest }
  | _ => none

theorem Cursor.leads_behindMarkupText? {c c' : Cursor} (h : c.behindMarkupText? = some c') :
    c.Leads c' := by
  intro hsound
  have hhere :
      (c.rest.dropWhile fun x => x != '{' && x != '<' && x != '}' && x != '>') <:+ c.here :=
    (List.dropWhile_suffix _).trans hsound.behind
  unfold behindMarkupText? at h
  dsimp only at h
  split at h
  · next heq =>
    rw [← Option.some.inj h]
    exact c.leads_token hhere (by rw [heq]; exact List.suffix_cons _ _) (by simp) hsound
  · next heq =>
    rw [← Option.some.inj h]
    exact c.leads_token hhere (by rw [heq]; exact List.suffix_cons _ _) (by simp) hsound
  · cases h

/-- Move to the next brace or tag behind the text of an element.  A closing brace or bracket has no
place in such a text. -/
def skipMarkupText : Reader Unit :=
  leap Cursor.behindMarkupText? Cursor.leads_behindMarkupText?

/-- What stands between the tags of an element.  The cursor stands at the bracket that closes the
opening tag, and is left at the bracket that opens the closing one. -/
def children (r : Rules) : Nat → Reader Unit
  | 0 => refuse
  | fuel + 1 => do
    skipMarkupText
    if ← eat .leftBrace then
      let spread ← eat .ellipsis
      if spread || !(← at? .rightBrace) then
        let _ ← r.expression
      if ← at? .rightBrace then children r fuel else refuse
    else
      if (← nextToken).isSymbol .slash then return
      r.element true
      children r fuel

/-- Leave an element at its last bracket.  Inside another element the bracket is kept, because the
text behind it is read in its own way. -/
def leaveElement (nested : Bool) : Reader Unit := do
  if !(← at? .greater) then refuse
  if !nested then advance

/-- The closing tag of an element. -/
def closingTag (r : Rules) (nested named : Bool) : Reader Unit := do
  expect .less
  expect .slash
  if named then markupName r
  leaveElement nested

/-- A markup element with all that is inside of it. -/
def markupElement (r : Rules) (nested : Bool) : Reader Unit := do
  expect .less
  if ← at? .greater then
    children r r.budget
    closingTag r nested false
  else
    markupName r
    if (← dialect).typed then
      let _ ← typeArguments? r
    let _ ← repeatWhile (do return !(← at? .slash) && !(← at? .greater)) (markupAttribute r)
      r.budget
    if ← eat .slash then leaveElement nested
    else
      if !(← at? .greater) then refuse
      children r r.budget
      closingTag r nested true

end ModuleGraph.Source

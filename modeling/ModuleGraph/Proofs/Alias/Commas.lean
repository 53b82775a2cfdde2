import ModuleGraph.Alias.Document
import ModuleGraph.Proofs.Comment.Composition

/-!
# Trailing commas

A comma of a configuration is dropped if it stands outside of strings and the next character that is
not blank closes a list or an object.  This says which places of a text lose their characters, for
any text: strings are told by what stands in front of a place, and a string that is never closed
goes on to the end.  The traversal that drops the commas knows only whether a string is open, and
takes two characters at once behind a backslash; at each character it is where the text in front of
it leads.

A string is copied.  It also separates: what is dropped in front of it does not depend on it, since
a quote mark is neither blank nor a closing bracket, and behind it the traversal starts anew.

The traversal can be written over offsets in bytes, where the text behind a comma is cut out of the
whole text.  A comma is one byte long, so each of these cuts is at the border of a character.

## Main definitions

* `Alias.IsStringBody`, `Alias.IsOutside`: what stands in a string, and text behind which none is
  open.
* `Alias.ClosesNext`, `Alias.IsTrailingComma`: the commas that are dropped.
* `Alias.placeBehind`: where a text leaves its reader.
* `Alias.dropTrailingCommasAt?`: the traversal over offsets in bytes.

## Main results

* `Alias.isOutside_iff`: the places outside of strings, read from left to right.
* `Alias.dropTrailingCommasFrom_eq_keptBehind`: the characters that are left.
* `Alias.dropTrailingCommas_append_string`, `Alias.dropTrailingCommas_string`: strings are copied.
* `Alias.dropTrailingCommasAt?_eq_some`: all cuts are at borders of characters.
* `Alias.dropTrailingCommas_eq`: what dropping trailing commas leaves.
-/

namespace ModuleGraph.Alias

/-! ### Strings -/

/-- What stands between the marks of a string: a backslash takes the character behind it with it. -/
inductive IsStringBody : List Char → Prop
  | nil : IsStringBody []
  | plain {c : Char} {body : List Char} (mark : c ≠ '"') (backslash : c ≠ '\\')
      (more : IsStringBody body) : IsStringBody (c :: body)
  | escaped {c : Char} {body : List Char} (more : IsStringBody body) :
      IsStringBody ('\\' :: c :: body)

/-- A text behind which no string is open. -/
inductive IsOutside : List Char → Prop
  | nil : IsOutside []
  | plain {c : Char} {cs : List Char} (mark : c ≠ '"') (more : IsOutside cs) : IsOutside (c :: cs)
  | string {body cs : List Char} (hbody : IsStringBody body) (more : IsOutside cs) :
      IsOutside ('"' :: (body ++ '"' :: cs))

/-- A text whose first character that is not blank closes a list or an object. -/
def ClosesNext (cs : List Char) : Prop :=
  ∃ blanks close behind, cs = blanks ++ close :: behind ∧
    (∀ c ∈ blanks, Text.isBlank c = true) ∧ (close = '}' ∨ close = ']')

/-- A comma that stands at a place of a text, outside of strings and in front of a closing
bracket. -/
def IsTrailingComma (cs : List Char) (k : Nat) : Prop :=
  cs[k]? = some ',' ∧ IsOutside (cs.take k) ∧ ClosesNext (cs.drop (k + 1))

/-! ### Where strings are open -/

/-- Where a text leaves its reader. -/
inductive Place where
  | outside
  | inside
  /-- In a string, behind a backslash that takes the next character with it. -/
  | escaped
  deriving DecidableEq, Repr

/-- The place behind a character. -/
def Place.step : Place → Char → Place
  | outside, c => if c = '"' then inside else outside
  | inside, c => if c = '"' then outside else if c = '\\' then escaped else inside
  | escaped, _ => inside

/-- The place behind a text. -/
def placeBehind (cs : List Char) : Place := cs.foldl Place.step .outside

theorem placeBehind_concat (cs : List Char) (c : Char) :
    placeBehind (cs ++ [c]) = (placeBehind cs).step c := by
  rw [placeBehind, List.foldl_append]
  rfl

theorem foldl_step_inside {body : List Char} (h : IsStringBody body) (cs : List Char) :
    (body ++ '"' :: cs).foldl Place.step .inside = cs.foldl Place.step .outside := by
  induction h with
  | nil => rfl
  | plain mark backslash more ih =>
    rw [List.cons_append, List.foldl_cons, Place.step, if_neg mark, if_neg backslash, ih]
  | escaped more ih => exact ih

theorem IsOutside.placeBehind_eq {cs : List Char} (h : IsOutside cs) :
    placeBehind cs = .outside := by
  induction h with
  | nil => rfl
  | plain mark more ih =>
    rw [placeBehind, List.foldl_cons, Place.step, if_neg mark]
    exact ih
  | string hbody more ih =>
    rw [placeBehind, List.foldl_cons]
    exact (foldl_step_inside hbody _).trans ih

/-- What a text must look like if it leads out of a string, or back out of it. -/
def LeadsOut : Place → List Char → Prop
  | .outside, cs => IsOutside cs
  | .inside, cs => ∃ body rest, cs = body ++ '"' :: rest ∧ IsStringBody body ∧ IsOutside rest
  | .escaped, cs =>
    ∃ c body rest, cs = c :: (body ++ '"' :: rest) ∧ IsStringBody body ∧ IsOutside rest

theorem leadsOut_of_foldl_eq {place : Place} {cs : List Char}
    (h : cs.foldl Place.step place = .outside) : LeadsOut place cs := by
  induction cs generalizing place with
  | nil =>
    obtain rfl : place = .outside := h
    exact .nil
  | cons c cs ih =>
    have hbehind := ih h
    cases place with
    | outside =>
      rw [Place.step] at hbehind
      split at hbehind
      · obtain ⟨body, rest, rfl, hbody, hrest⟩ := hbehind
        rename_i hc
        exact hc ▸ .string hbody hrest
      · rename_i hc
        exact .plain hc hbehind
    | inside =>
      rw [Place.step] at hbehind
      split at hbehind
      · rename_i hc
        exact ⟨[], cs, by rw [hc]; rfl, .nil, hbehind⟩
      · rename_i hmark
        split at hbehind
        · obtain ⟨d, body, rest, rfl, hbody, hrest⟩ := hbehind
          rename_i hc
          exact ⟨'\\' :: d :: body, rest, by rw [hc]; rfl, .escaped hbody, hrest⟩
        · obtain ⟨body, rest, rfl, hbody, hrest⟩ := hbehind
          rename_i hback
          exact ⟨c :: body, rest, rfl, .plain hmark hback hbody, hrest⟩
    | escaped =>
      obtain ⟨body, rest, rfl, hbody, hrest⟩ := hbehind
      exact ⟨c, body, rest, rfl, hbody, hrest⟩

/-- No string is open behind a text just if its reader is outside of strings. -/
theorem isOutside_iff {cs : List Char} : IsOutside cs ↔ placeBehind cs = .outside :=
  ⟨IsOutside.placeBehind_eq, leadsOut_of_foldl_eq⟩

instance (cs : List Char) : Decidable (IsOutside cs) := decidable_of_iff _ isOutside_iff.symm

/-! ### Closing brackets -/

theorem closesNext_iff {cs : List Char} : closesNext cs = true ↔ ClosesNext cs := by
  constructor
  · intro h
    obtain ⟨blanks, hcs, hblanks⟩ := Text.exists_append_trimBlanks cs
    rw [closesNext] at h
    split at h
    · rename_i close behind hbehind
      exact ⟨blanks, close, behind, hbehind ▸ hcs, hblanks, by simpa using h⟩
    · simp at h
  · rintro ⟨blanks, close, behind, rfl, hblanks, hclose⟩
    have hnotBlank : Text.isBlank close = false := by
      rcases hclose with rfl | rfl <;> rfl
    rw [closesNext, Text.trimBlanks_append hblanks hnotBlank]
    simpa using hclose

instance (cs : List Char) : Decidable (ClosesNext cs) := decidable_of_iff _ closesNext_iff

instance (cs : List Char) (k : Nat) : Decidable (IsTrailingComma cs k) :=
  inferInstanceAs (Decidable (_ ∧ _))

/-! ### What is left -/

/-- The characters behind a beginning of a text that are no trailing commas of the text. -/
def keptBehind (front cs : List Char) : List Char :=
  ((cs.zipIdx front.length).filter fun p => ¬ IsTrailingComma (front ++ cs) p.2).map Prod.fst

theorem isTrailingComma_length_iff {front cs : List Char} {c : Char} :
    IsTrailingComma (front ++ c :: cs) front.length ↔
      c = ',' ∧ IsOutside front ∧ ClosesNext cs := by
  have hget : (front ++ c :: cs)[front.length]? = some c := by simp
  have hdrop : (front ++ c :: cs).drop (front.length + 1) = cs := by simp
  rw [IsTrailingComma, hget, hdrop, List.take_left, Option.some.injEq]

theorem keptBehind_cons (front : List Char) (c : Char) (cs : List Char) :
    keptBehind front (c :: cs) =
      if c = ',' ∧ IsOutside front ∧ ClosesNext cs then keptBehind (front ++ [c]) cs
      else c :: keptBehind (front ++ [c]) cs := by
  have htext : front ++ [c] ++ cs = front ++ c :: cs := List.append_cons front c cs |>.symm
  have hlength : (front ++ [c]).length = front.length + 1 := List.length_append
  rw [keptBehind, keptBehind, htext, hlength, List.zipIdx_cons, List.filter_cons]
  simp only [isTrailingComma_length_iff, decide_not]
  split <;> split <;> simp_all

/-- In a string no character is a trailing comma. -/
theorem keptBehind_cons_of_ne {front : List Char} (h : placeBehind front ≠ .outside) (c : Char)
    (cs : List Char) : keptBehind front (c :: cs) = c :: keptBehind (front ++ [c]) cs := by
  rw [keptBehind_cons, if_neg fun hcomma => h (isOutside_iff.mp hcomma.2.1)]

/-- What is left behind a beginning of a text, given whether a string is open there. -/
theorem dropTrailingCommasFrom_eq_keptBehind {inside : Bool} {front cs : List Char}
    (h : placeBehind front = if inside then .inside else .outside) :
    dropTrailingCommasFrom inside cs = keptBehind front cs := by
  fun_induction dropTrailingCommasFrom inside cs generalizing front with
  | case1 => rfl
  | case2 =>
    have hinside : placeBehind front = .inside := h
    rw [keptBehind_cons_of_ne (by simp [hinside])]
    rfl
  | case3 c rest ih =>
    have hinside : placeBehind front = .inside := h
    have hescaped : placeBehind (front ++ ['\\']) = .escaped := by
      rw [placeBehind_concat, hinside]
      rfl
    have hbehind : placeBehind (front ++ ['\\'] ++ [c]) = .inside := by
      rw [placeBehind_concat, hescaped]
      rfl
    rw [keptBehind_cons_of_ne (by simp [hinside]), keptBehind_cons_of_ne (by simp [hescaped]),
      ih hbehind]
  | case4 c rest hlone hescape ih =>
    have hinside : placeBehind front = .inside := h
    have hback := Comment.ne_backslash hlone hescape
    have hbehind : placeBehind (front ++ [c]) = if c != '"' then .inside else .outside := by
      rw [placeBehind_concat, hinside, Place.step, if_neg hback]
      by_cases hmark : c = '"' <;> simp [hmark]
    rw [keptBehind_cons_of_ne (by simp [hinside]), ih hbehind]
  | case5 c rest hdrop ih =>
    have houtside : placeBehind front = .outside := h
    obtain ⟨hcomma, hcloses⟩ : c = ',' ∧ closesNext rest = true := by simpa using hdrop
    have hbehind : placeBehind (front ++ [c]) = .outside := by
      rw [placeBehind_concat, houtside, hcomma]
      rfl
    rw [keptBehind_cons, if_pos ⟨hcomma, isOutside_iff.mpr houtside, closesNext_iff.mp hcloses⟩,
      ih hbehind]
  | case6 c rest hkeep ih =>
    have houtside : placeBehind front = .outside := h
    have hbehind : placeBehind (front ++ [c]) = if c == '"' then .inside else .outside := by
      rw [placeBehind_concat, houtside, Place.step]
      by_cases hmark : c = '"' <;> simp [hmark]
    have hnone : ¬ (c = ',' ∧ IsOutside front ∧ ClosesNext rest) := by
      rintro ⟨hcomma, -, hcloses⟩
      exact hkeep (by simp [hcomma, closesNext_iff.mpr hcloses])
    rw [keptBehind_cons, if_neg hnone, ih hbehind]

/-! ### Strings are copied -/

/-- The body of a string is copied. -/
theorem dropTrailingCommasFrom_body {body : List Char} (h : IsStringBody body) (rest : List Char) :
    dropTrailingCommasFrom true (body ++ rest) = body ++ dropTrailingCommasFrom true rest := by
  induction h with
  | nil => rfl
  | @plain c body mark backslash more ih =>
    rw [List.cons_append, dropTrailingCommasFrom, bne_iff_ne.mpr mark, ih, List.cons_append]
    · exact fun hc _ => backslash hc
    · exact fun _ _ hc _ => backslash hc
  | escaped more ih =>
    rw [List.cons_append, List.cons_append, dropTrailingCommasFrom, ih]
    rfl

/-- A string closes no list and no object. -/
theorem closesNext_append_string (cs rest : List Char) :
    closesNext (cs ++ '"' :: rest) = closesNext cs := by
  induction cs with
  | nil => rfl
  | cons c cs ih =>
    by_cases hblank : Text.isBlank c = true
    · have htrim (cs : List Char) : closesNext (c :: cs) = closesNext cs := by
        rw [closesNext, Text.trimBlanks, List.dropWhile_cons_of_pos hblank]
        rfl
      rw [List.cons_append, htrim, htrim, ih]
    · have hstay (cs : List Char) : closesNext (c :: cs) = (c == '}' || c == ']') := by
        rw [closesNext, Text.trimBlanks, List.dropWhile_cons_of_neg hblank]
      rw [List.cons_append, hstay, hstay]

/-- A string is copied, and the text behind it is read from its beginning. -/
theorem dropTrailingCommas_string {body : List Char} (h : IsStringBody body) (rest : List Char) :
    dropTrailingCommas ('"' :: (body ++ '"' :: rest)) =
      '"' :: (body ++ '"' :: dropTrailingCommas rest) :=
  congrArg ('"' :: ·) (dropTrailingCommasFrom_body h ('"' :: rest))

/-- Outside of strings, a character that opens none is dropped or kept. -/
theorem dropTrailingCommas_cons {c : Char} (h : c ≠ '"') (cs : List Char) :
    dropTrailingCommas (c :: cs) =
      if c == ',' && closesNext cs then dropTrailingCommas cs else c :: dropTrailingCommas cs := by
  rw [dropTrailingCommas, dropTrailingCommasFrom, beq_eq_false_iff_ne.mpr h]
  rfl

/-- Where a string opens, the text in front of it and the text from there on are read apart. -/
theorem dropTrailingCommas_append_string {front : List Char} (h : IsOutside front)
    (rest : List Char) :
    dropTrailingCommas (front ++ '"' :: rest) =
      dropTrailingCommas front ++ dropTrailingCommas ('"' :: rest) := by
  induction h with
  | nil => rfl
  | @plain c cs mark more ih =>
    rw [List.cons_append, dropTrailingCommas_cons mark, dropTrailingCommas_cons mark,
      closesNext_append_string, ih]
    split <;> rfl
  | @string body cs hbody more ih =>
    have htext : '"' :: (body ++ '"' :: cs) ++ '"' :: rest =
        '"' :: (body ++ '"' :: (cs ++ '"' :: rest)) := by simp
    rw [htext, dropTrailingCommas_string hbody, dropTrailingCommas_string hbody, ih]
    simp

/-! ### Offsets in bytes -/

/-- The characters of a text, each with its offset in bytes. -/
def indexed (offset : Nat) : List Char → List (Nat × Char)
  | [] => []
  | c :: cs => (offset, c) :: indexed (offset + c.utf8Size) cs

/-- The text from an offset on, if a character begins or the text ends there. -/
def sliceFrom? (text : String) (offset : Nat) : Option (List Char) :=
  if h : String.Pos.Raw.IsValid text ⟨offset⟩ then
    some (text.sliceFrom (text.pos ⟨offset⟩ h)).copy.toList
  else none

/-- The traversal over characters with their offsets, where the text behind a comma is cut out of
the whole text one byte behind the offset of the comma.  Without a result, a cut went through a
character. -/
def dropTrailingCommasAt? (text : String) : Bool → List (Nat × Char) → Option (List Char)
  | _, [] => some []
  | true, [(_, '\\')] => some ['\\']
  | true, (_, '\\') :: (_, c) :: rest =>
    (dropTrailingCommasAt? text true rest).map ('\\' :: c :: ·)
  | true, (_, c) :: rest => (dropTrailingCommasAt? text (c != '"') rest).map (c :: ·)
  | false, (offset, c) :: rest =>
    if c = ',' then do
      let behind ← sliceFrom? text (offset + 1)
      let kept ← dropTrailingCommasAt? text false rest
      return if closesNext behind then kept else c :: kept
    else (dropTrailingCommasAt? text (c == '"') rest).map (c :: ·)

theorem sliceFrom?_append (front behind : String) :
    sliceFrom? (front ++ behind) front.utf8ByteSize = some behind.toList := by
  have hvalid : String.Pos.Raw.IsValid (front ++ behind) ⟨front.utf8ByteSize⟩ :=
    String.Pos.Raw.isValid_iff_exists_append.mpr ⟨front, behind, rfl, rfl⟩
  have hsplits : ((front ++ behind).pos ⟨front.utf8ByteSize⟩ hvalid).Splits front behind :=
    ⟨rfl, rfl⟩
  rw [sliceFrom?, dif_pos hvalid, String.copy_sliceFrom_eq_iff_exists_splits.mpr ⟨front, hsplits⟩]

theorem utf8ByteSize_concat (front : List Char) (c : Char) :
    (String.ofList (front ++ [c])).utf8ByteSize =
      (String.ofList front).utf8ByteSize + c.utf8Size := by
  rw [String.ofList_append, String.utf8ByteSize_append]
  simp

/-- The text behind a comma begins one byte behind it. -/
theorem sliceFrom?_comma (front rest : List Char) :
    sliceFrom? (String.ofList (front ++ ',' :: rest)) ((String.ofList front).utf8ByteSize + 1) =
      some rest := by
  have htext : String.ofList (front ++ ',' :: rest) =
      String.ofList (front ++ [',']) ++ String.ofList rest := by
    rw [← String.ofList_append, ← List.append_cons]
  have hsize : (String.ofList front).utf8ByteSize + 1 =
      (String.ofList (front ++ [','])).utf8ByteSize := (utf8ByteSize_concat front ',').symm
  rw [htext, hsize, sliceFrom?_append, String.toList_ofList]

/-- A comma is dropped or kept as the text says that is cut out behind it. -/
theorem dropTrailingCommasAt?_comma {text : String} {offset : Nat} {more : List (Nat × Char)}
    {behind kept : List Char} (hslice : sliceFrom? text (offset + 1) = some behind)
    (hmore : dropTrailingCommasAt? text false more = some kept) :
    dropTrailingCommasAt? text false ((offset, ',') :: more) =
      some (if closesNext behind then kept else ',' :: kept) := by
  rw [dropTrailingCommasAt?, if_pos rfl, hslice, hmore]
  rfl

/-- The characters behind a text and one more. -/
theorem indexed_concat (front : List Char) (c : Char) (cs : List Char) :
    indexed (String.ofList front).utf8ByteSize (c :: cs) =
      ((String.ofList front).utf8ByteSize, c) ::
        indexed (String.ofList (front ++ [c])).utf8ByteSize cs := by
  rw [indexed, utf8ByteSize_concat]

/-- Every cut is at the border of a character, and the traversal by offsets leaves what the other
leaves. -/
theorem dropTrailingCommasAt?_eq_some (inside : Bool) (front cs : List Char) :
    dropTrailingCommasAt? (String.ofList (front ++ cs)) inside
      (indexed (String.ofList front).utf8ByteSize cs) =
        some (dropTrailingCommasFrom inside cs) := by
  fun_induction dropTrailingCommasFrom inside cs generalizing front with
  | case1 => rfl
  | case2 => rfl
  | case3 c rest ih =>
    rw [indexed_concat, indexed_concat, dropTrailingCommasAt?, List.append_cons, List.append_cons,
      ih]
    rfl
  | case4 c rest hlone hescape ih =>
    have hback := Comment.ne_backslash hlone hescape
    rw [indexed_concat, dropTrailingCommasAt?, List.append_cons, ih]
    · rfl
    · exact fun _ hc => hback hc
    · exact fun _ _ _ _ hc => hback hc
  | case5 c rest hdrop ih =>
    obtain ⟨rfl, hcloses⟩ : c = ',' ∧ closesNext rest = true := by simpa using hdrop
    rw [indexed_concat, dropTrailingCommasAt?_comma (sliceFrom?_comma front rest)
      (List.append_cons _ _ rest ▸ ih _), if_pos hcloses]
  | case6 c rest hkeep ih =>
    by_cases hcomma : c = ','
    · subst hcomma
      have hopen : ¬ closesNext rest = true := by simpa using hkeep
      rw [indexed_concat, dropTrailingCommasAt?_comma (sliceFrom?_comma front rest)
        (List.append_cons _ _ rest ▸ ih _), if_neg hopen]
    · rw [indexed_concat, dropTrailingCommasAt?, if_neg hcomma, List.append_cons, ih]
      rfl

/-! ### The commas that are dropped -/

/-- Dropping trailing commas leaves just the characters of a text that are no trailing commas, in
their order, whether the text is well formed or not.  A string is copied and separates what stands
in front of it from what stands behind it, and a string that is not closed is copied up to the end,
which may be a lone backslash.  The text behind each comma begins at the border of a character. -/
theorem dropTrailingCommas_eq (cs : List Char) :
    dropTrailingCommas cs = (cs.zipIdx.filter fun p => ¬ IsTrailingComma cs p.2).map Prod.fst ∧
    (∀ front body behind, cs = front ++ '"' :: (body ++ '"' :: behind) → IsOutside front →
      IsStringBody body →
      dropTrailingCommas cs =
        dropTrailingCommas front ++ '"' :: (body ++ '"' :: dropTrailingCommas behind)) ∧
    (∀ front body ending, cs = front ++ '"' :: (body ++ ending) → IsOutside front →
      IsStringBody body → ending = [] ∨ ending = ['\\'] →
      dropTrailingCommas cs = dropTrailingCommas front ++ '"' :: (body ++ ending)) ∧
    dropTrailingCommasAt? (String.ofList cs) false (indexed 0 cs) =
      some (dropTrailingCommas cs) := by
  have hkept : dropTrailingCommasFrom false cs = keptBehind [] cs :=
    dropTrailingCommasFrom_eq_keptBehind rfl
  refine ⟨hkept, ?_, ?_, dropTrailingCommasAt?_eq_some false [] cs⟩
  · rintro front body behind rfl hfront hbody
    rw [dropTrailingCommas_append_string hfront, dropTrailingCommas_string hbody]
  · rintro front body ending rfl hfront hbody hending
    have hcopied : dropTrailingCommas ('"' :: (body ++ ending)) = '"' :: (body ++ ending) := by
      refine congrArg ('"' :: ·) ((dropTrailingCommasFrom_body hbody ending).trans ?_)
      rcases hending with rfl | rfl <;> rfl
    rw [dropTrailingCommas_append_string hfront, hcopied]

section Sample

/-- The body of a string with an escaped quote mark and a comma in front of a bracket. -/
def markedBody : List Char := ['é', '\\', '"', ',', ']']

/-- A text between two strings, with a comma in front of a wide blank. -/
def betweenStrings : List Char := [' ', ',', '\u2003', ']', ',', ' ']

/-- The body of a string that is never closed. -/
def openBody : List Char := ['x', ',', ']']

theorem isStringBody_markedBody : IsStringBody markedBody :=
  .plain (by decide) (by decide) (.escaped (.plain (by decide) (by decide)
    (.plain (by decide) (by decide) .nil)))

theorem isStringBody_openBody : IsStringBody openBody :=
  .plain (by decide) (by decide) (.plain (by decide) (by decide)
    (.plain (by decide) (by decide) .nil))

/-- A list with a string, and a string behind it that is never closed. -/
def unclosedList : List Char :=
  ['['] ++ '"' :: (markedBody ++ '"' :: (betweenStrings ++ '"' :: (openBody ++ ['\\'])))

/-- The comma in front of the wide blank is dropped, and no other. -/
theorem dropTrailingCommas_eq_unclosedList :
    IsOutside ['['] ∧
    IsOutside (['['] ++ '"' :: (markedBody ++ '"' :: betweenStrings)) ∧
    dropTrailingCommas unclosedList =
      ['['] ++ '"' :: (markedBody ++ '"' :: dropTrailingCommas
        (betweenStrings ++ '"' :: (openBody ++ ['\\']))) ∧
    dropTrailingCommas unclosedList =
      dropTrailingCommas (['['] ++ '"' :: (markedBody ++ '"' :: betweenStrings)) ++
        '"' :: (openBody ++ ['\\']) ∧
    dropTrailingCommasAt? (String.ofList unclosedList) false (indexed 0 unclosedList) =
      some (['['] ++ '"' :: (markedBody ++ '"' :: ([' ', '\u2003', ']', ',', ' '] ++
        '"' :: (openBody ++ ['\\'])))) := by
  obtain ⟨-, hstring, hunclosed, hcuts⟩ := dropTrailingCommas_eq unclosedList
  have hfront : IsOutside ['['] := by decide
  have hbetween : IsOutside (['['] ++ '"' :: (markedBody ++ '"' :: betweenStrings)) := by decide
  have htext : unclosedList = (['['] ++ '"' :: (markedBody ++ '"' :: betweenStrings)) ++
      '"' :: (openBody ++ ['\\']) := by decide
  refine ⟨hfront, hbetween, hstring ['['] _ _ rfl hfront isStringBody_markedBody,
    hunclosed _ _ _ htext hbetween isStringBody_openBody (.inr rfl), hcuts.trans ?_⟩
  exact congrArg some (by decide)

end Sample

end ModuleGraph.Alias

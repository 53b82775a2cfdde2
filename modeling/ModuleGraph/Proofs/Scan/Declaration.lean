import ModuleGraph.Extraction
import ModuleGraph.Proofs.Comment.Gap

/-!
# Declarations that name a module

A declaration that imports from a module or forwards its exports is a sequence of tokens: words,
signs, and the request between its quotes.  Two neighbours may touch, except two words and except
behind a *modifier*: behind the word `export`, and behind the word `type` where it is not a name.

## Main definitions

* `Declaration.Name`, `Declaration.Request`: names of bindings, and requests between quotes.
* `Declaration`, `Declaration.tokens`: the declarations, and their tokens.
* `Declaration.needsGap`: the neighbours that may not touch.
* `Declaration.specifier`, `Declaration.statement`: what a declaration names, and its syntax tree.
* `Declaration.Token.IsMadeOf`: tokens of words made like names, and of given signs and requests.

## Main results

* `Declaration.specifiers_statement`: the syntax tree of a declaration gives its specifier.
* `Declaration.isMadeOf_tokens`: what the tokens of a declaration are.
-/

namespace ModuleGraph

namespace Declaration

/-! ### Tokens -/

/-- The name of a binding, made of ASCII letters, digits, underscores and dollar signs. -/
structure Name where
  first : Char
  later : List Char
  starts : first.toNat < 128 ∧ Text.isNameStart first = true
  continues : ∀ c ∈ later, c.toNat < 128 ∧ Text.isNamePart c = true

/-- A name of one letter has no later characters. -/
theorem Name.continues_nil : ∀ c ∈ ([] : List Char), c.toNat < 128 ∧ Text.isNamePart c = true :=
  List.forall_mem_nil _

/-- The characters of a name. -/
def Name.chars (n : Name) : List Char := n.first :: n.later

/-- The word `type` as a name. -/
def typeName : Name := ⟨'t', "ype".toList, by decide, List.all_iff_forall_prop.mp (by decide)⟩

/-- A request between two quote marks that agree. -/
structure Request where
  mark : Char
  chars : List Char
  isMark : Scan.isMark mark = true
  nonempty : chars ≠ []
  plain : ∀ c ∈ chars, Scan.isRequestChar c = true ∧ c ≠ '\\'

theorem isMark_apostrophe : Scan.isMark '\'' = true := rfl

theorem isGap_space : Json.isGap ' ' = true := rfl

/-- A token of a declaration. -/
inductive Token where
  /-- A word that a gap has to follow in every layout. -/
  | modifier (text : List Char)
  | word (text : List Char)
  | sign (c : Char)
  | request (r : Request)

/-- The characters of a token. -/
def Token.chars : Token → List Char
  | .modifier text | .word text => text
  | .sign c => [c]
  | .request r => r.mark :: r.chars ++ [r.mark]

/-- Whether a token is a word. -/
def Token.isWord : Token → Bool
  | .modifier _ | .word _ => true
  | .sign _ | .request _ => false

/-- Whether a gap has to stand between two neighbours: behind a modifier, and between two words. -/
def needsGap : Token → Token → Bool
  | .modifier _, _ => true
  | a, b => a.isWord && b.isWord

/-- The token of a name. -/
def Name.token (n : Name) : Token := .word n.chars

/-- The token of a keyword. -/
def keyword (text : String) : Token := .word text.toList

/-- The modifier `type`, if there is one. -/
def typeTokens (typeOnly : Bool) : List Token :=
  if typeOnly then [.modifier "type".toList] else []

/-! ### Declarations -/

/-- A member of a list in braces: its name in the other module, and the name that takes its
place. -/
structure Member where
  typeOnly : Bool
  name : Name
  renamed : Option Name

/-- The tokens of a member. -/
def Member.tokens (m : Member) : List Token :=
  typeTokens m.typeOnly ++ m.name.token ::
    (m.renamed.map fun n => [keyword "as", n.token]).getD []

/-- The members of a list in braces, perhaps with a comma behind the last one. -/
structure Members where
  list : List Member
  trailing : Bool

/-- The tokens of members with commas between neighbours, and perhaps behind the last one. -/
def memberTokens (trailing : Bool) : List Member → List Token
  | [] => []
  | [m] => m.tokens ++ if trailing then [.sign ','] else []
  | m :: n :: more => m.tokens ++ .sign ',' :: memberTokens trailing (n :: more)

/-- The tokens of a list in braces. -/
def Members.tokens (ms : Members) : List Token :=
  .sign '{' :: memberTokens ms.trailing ms.list ++ [.sign '}']

/-- What an import declaration binds beside a default name. -/
inductive Bindings where
  | star (name : Name)
  | named (members : Members)

/-- The tokens of bindings. -/
def Bindings.tokens : Bindings → List Token
  | .star name => [.sign '*', keyword "as", name.token]
  | .named members => members.tokens

/-- What an import declaration binds. -/
inductive Clause where
  | default (name : Name) (more : Option Bindings)
  | bindings (b : Bindings)

/-- The tokens of a clause. -/
def Clause.tokens : Clause → List Token
  | .default name more => name.token :: (more.map fun b => .sign ',' :: b.tokens).getD []
  | .bindings b => b.tokens

/-- The default name of a clause. -/
def Clause.defaultName? : Clause → Option Name
  | .default name _ => some name
  | .bindings _ => none

end Declaration

/-- A declaration that names a module. -/
inductive Declaration where
  /-- `import "x"`. -/
  | bare (r : Declaration.Request)
  /-- `import … from "x"`, perhaps of types. -/
  | importFrom (typeOnly : Bool) (clause : Declaration.Clause) (r : Declaration.Request)
  /-- `import name = require("x")`, perhaps exported. -/
  | importEquals (exported : Bool) (name : Declaration.Name) (r : Declaration.Request)
  /-- `export * from "x"`, perhaps under a name, perhaps of types. -/
  | exportAll (typeOnly : Bool) (name : Option Declaration.Name) (r : Declaration.Request)
  /-- `export {…} from "x"`, perhaps of types. -/
  | exportNamed (typeOnly : Bool) (members : Declaration.Members) (r : Declaration.Request)

namespace Declaration

/-- The word `from` and the request behind it. -/
def sourceTokens (r : Request) : List Token := [keyword "from", .request r]

/-- The tokens of a declaration. -/
def tokens : Declaration → List Token
  | .bare r => [keyword "import", .request r]
  | .importFrom typeOnly clause r =>
    keyword "import" :: typeTokens typeOnly ++ clause.tokens ++ sourceTokens r
  | .importEquals exported name r =>
    (if exported then [.modifier "export".toList] else []) ++
      [keyword "import", name.token, .sign '=', keyword "require", .sign '(', .request r, .sign ')']
  | .exportAll typeOnly name r =>
    .modifier "export".toList :: typeTokens typeOnly ++
      .sign '*' :: (name.map fun n => [keyword "as", n.token]).getD [] ++ sourceTokens r
  | .exportNamed typeOnly members r =>
    .modifier "export".toList :: typeTokens typeOnly ++ members.tokens ++ sourceTokens r

/-- The request of a declaration. -/
def request : Declaration → Request
  | .bare r | .importFrom _ _ r | .importEquals _ _ r | .exportAll _ _ r | .exportNamed _ _ r => r

/-- The form in which a declaration names a module. -/
def form : Declaration → Specifier.Form
  | .bare _ | .importFrom false _ _ => .static
  | .importFrom true _ _ => .typeOnly
  | .importEquals _ _ _ => .importEquals
  | .exportAll _ _ _ | .exportNamed _ _ _ => .reExport

/-- What a declaration names. -/
def specifier (d : Declaration) : Specifier := ⟨String.ofList d.request.chars, d.form⟩

/-- The default name that a declaration binds. -/
def defaultName? : Declaration → Option Name
  | .importFrom _ clause _ => clause.defaultName?
  | _ => none

/-- The syntax tree of a declaration whose request stands at a place of the text. -/
def statement (offset : Nat) (d : Declaration) : Source.Stmt :=
  let source : Source.Literal := ⟨String.ofList d.request.chars, offset⟩
  match d with
  | .bare _ => .importFrom false source
  | .importFrom typeOnly _ _ => .importFrom typeOnly source
  | .importEquals _ _ _ => .importEquals (some source)
  | .exportAll _ _ _ | .exportNamed _ _ _ => .exportFrom source

/-- The syntax tree of a declaration gives its specifier, whether calls count or not. -/
theorem specifiers_statement (dynamic : Bool) (offset : Nat) (d : Declaration) :
    (d.statement offset).specifiers dynamic = [d.specifier] := by
  rcases d with r | ⟨typeOnly | typeOnly, clause, r⟩ | _ | _ | _ <;>
    simp [statement, Source.Stmt.specifiers, Source.Stmt.mentions, specifier, form, request]

/-! ### Characters of tokens -/

theorem Name.isBindingChar_of_mem {n : Name} {c : Char} (h : c ∈ n.chars) :
    Scan.isBindingChar c = true := by
  rcases List.mem_cons.mp h with rfl | hc
  · obtain ⟨hascii, hstart⟩ := n.starts
    simp only [Text.isNameStart, if_pos hascii, Bool.or_eq_true] at hstart
    simp only [Scan.isBindingChar, Text.isWordChar, if_pos hascii, Text.isAsciiWord,
      Char.isAlphanum, Bool.or_eq_true]
    tauto
  · obtain ⟨hascii, hpart⟩ := n.continues c hc
    simpa [Scan.isBindingChar, Text.isWordChar, Text.isNamePart, hascii] using hpart

/-- What holds of the ASCII characters that may start a name holds of the first character. -/
theorem Name.first_of_ascii {p : Char → Bool}
    (h : ∀ k < 128, Text.isNameStart (Char.ofNat k) = true → p (Char.ofNat k) = true) (n : Name) :
    p n.first = true := by
  have hfirst := h n.first.toNat n.starts.1
  rw [Char.ofNat_toNat] at hfirst
  exact hfirst n.starts.2

theorem isQuiet_of_isBindingChar {c : Char} (h : Scan.isBindingChar c = true) :
    Comment.IsQuiet c := by
  have hother : ∀ d ∈ ['/', '"', '\'', Char.ofNat 0x60], Scan.isBindingChar d = false :=
    List.all_iff_forall_prop.mp (by decide)
  apply Comment.isQuiet_of_ne
  rintro d hd rfl
  simp [hother c hd] at h

/-! ### What tokens are made of -/

/-- Whether a text is made like the name of a binding. -/
def isNameText (cs : List Char) : Bool :=
  (cs.head?.map fun c => Nat.blt c.toNat 128 && Text.isNameStart c).getD false &&
    cs.tail.all fun c => Nat.blt c.toNat 128 && Text.isNamePart c

theorem exists_name_of_isNameText {cs : List Char} (h : isNameText cs = true) :
    ∃ n : Name, cs = n.chars := by
  cases cs with
  | nil => simp [isNameText] at h
  | cons c cs =>
    simp only [isNameText, List.head?_cons, Option.map_some, Option.getD_some, List.tail_cons,
      Bool.and_eq_true, Nat.blt_eq, List.all_eq_true] at h
    exact ⟨⟨c, cs, h.1, h.2⟩, rfl⟩

/-- A token whose words are made like names, and whose sign or request is of a given kind. -/
def Token.IsMadeOf (P : Char → Prop) (Q : Request → Prop) : Token → Prop
  | .modifier text | .word text => ∃ n : Name, text = n.chars
  | .sign c => P c
  | .request r => Q r

section Tokens

variable {P : Char → Prop} {Q : Request → Prop}

/-- Where there are no requests, the characters of a token are those of names and of signs. -/
theorem Token.IsMadeOf.forall_chars (hword : ∀ c, Scan.isBindingChar c = true → P c) {t : Token}
    (h : t.IsMadeOf P fun _ => False) : ∀ c ∈ t.chars, P c := by
  cases t with
  | modifier text | word text =>
    obtain ⟨n, rfl⟩ := h
    exact fun c hc => hword c (n.isBindingChar_of_mem hc)
  | sign c => exact List.forall_mem_singleton.mpr h
  | request r => exact h.elim

theorem Name.isMadeOf_token (n : Name) : n.token.IsMadeOf P Q := ⟨n, rfl⟩

theorem isMadeOf_keyword {text : String} (h : isNameText text.toList = true) :
    (keyword text).IsMadeOf P Q := exists_name_of_isNameText h

theorem isMadeOf_export : (Token.modifier "export".toList).IsMadeOf P Q :=
  exists_name_of_isNameText (by decide)

theorem isMadeOf_typeTokens (typeOnly : Bool) : ∀ t ∈ typeTokens typeOnly, t.IsMadeOf P Q := by
  cases typeOnly with
  | false => exact List.forall_mem_nil _
  | true => exact List.forall_mem_singleton.mpr ⟨typeName, rfl⟩

/-- The tokens `as name` of a binding that is given a name, if there is one. -/
theorem isMadeOf_renamed (renamed : Option Name) :
    ∀ t ∈ (renamed.map fun n => [keyword "as", n.token]).getD [], t.IsMadeOf P Q := by
  cases renamed with
  | none => exact List.forall_mem_nil _
  | some n =>
    exact List.forall_mem_cons.mpr
      ⟨isMadeOf_keyword (by decide), List.forall_mem_singleton.mpr n.isMadeOf_token⟩

theorem isMadeOf_member (m : Member) : ∀ t ∈ m.tokens, t.IsMadeOf P Q :=
  List.forall_mem_append.mpr ⟨isMadeOf_typeTokens m.typeOnly,
    List.forall_mem_cons.mpr ⟨m.name.isMadeOf_token, isMadeOf_renamed m.renamed⟩⟩

theorem isMadeOf_memberTokens (hcomma : P ',') (trailing : Bool) (ms : List Member) :
    ∀ t ∈ memberTokens trailing ms, t.IsMadeOf P Q := by
  fun_induction memberTokens trailing ms with
  | case1 => exact List.forall_mem_nil _
  | case2 m =>
    refine List.forall_mem_append.mpr ⟨isMadeOf_member m, ?_⟩
    cases trailing with
    | false => exact List.forall_mem_nil _
    | true => exact List.forall_mem_singleton.mpr hcomma
  | case3 m n more ih =>
    exact List.forall_mem_append.mpr
      ⟨isMadeOf_member m, List.forall_mem_cons.mpr ⟨hcomma, ih⟩⟩

theorem isMadeOf_members (hsigns : ∀ c ∈ [',', '{', '}'], P c) (ms : Members) :
    ∀ t ∈ ms.tokens, t.IsMadeOf P Q :=
  List.forall_mem_append.mpr
    ⟨List.forall_mem_cons.mpr
      ⟨hsigns '{' (by simp), isMadeOf_memberTokens (hsigns ',' (by simp)) ms.trailing ms.list⟩,
    List.forall_mem_singleton.mpr (hsigns '}' (by simp))⟩

theorem isMadeOf_bindings (hsigns : ∀ c ∈ [',', '{', '}', '*'], P c) (b : Bindings) :
    ∀ t ∈ b.tokens, t.IsMadeOf P Q := by
  cases b with
  | star n => exact List.forall_mem_cons.mpr ⟨hsigns '*' (by simp), isMadeOf_renamed (some n)⟩
  | named ms => exact isMadeOf_members (fun c hc => hsigns c (List.mem_of_mem_take (i := 3) hc)) ms

theorem isMadeOf_clause (hsigns : ∀ c ∈ [',', '{', '}', '*'], P c) (clause : Clause) :
    ∀ t ∈ clause.tokens, t.IsMadeOf P Q := by
  cases clause with
  | default n more =>
    refine List.forall_mem_cons.mpr ⟨n.isMadeOf_token, ?_⟩
    cases more with
    | none => exact List.forall_mem_nil _
    | some b =>
      exact List.forall_mem_cons.mpr ⟨hsigns ',' (by simp), isMadeOf_bindings hsigns b⟩
  | bindings b => exact isMadeOf_bindings hsigns b

theorem isMadeOf_sourceTokens {r : Request} (hrequest : Q r) :
    ∀ t ∈ sourceTokens r, t.IsMadeOf P Q :=
  List.forall_mem_cons.mpr
    ⟨isMadeOf_keyword (by decide), List.forall_mem_singleton.mpr hrequest⟩

theorem isMadeOf_importEquals (hsigns : ∀ c ∈ ['=', '(', ')'], P c) (exported : Bool) (n : Name)
    {r : Request} (hrequest : Q r) :
    ∀ t ∈ (importEquals exported n r).tokens, t.IsMadeOf P Q := by
  refine List.forall_mem_append.mpr ⟨?_, ?_⟩
  · cases exported with
    | false => exact List.forall_mem_nil _
    | true => exact List.forall_mem_singleton.mpr isMadeOf_export
  · simp only [List.forall_mem_cons]
    exact ⟨isMadeOf_keyword (by decide), n.isMadeOf_token, hsigns '=' (by simp),
      isMadeOf_keyword (by decide), hsigns '(' (by simp), hrequest, hsigns ')' (by simp),
      List.forall_mem_nil _⟩

/-- The tokens of a declaration are words made like names, seven signs, and its request. -/
theorem isMadeOf_tokens (hsigns : ∀ c ∈ [',', '{', '}', '*', '=', '(', ')'], P c)
    {d : Declaration} (hrequest : Q d.request) : ∀ t ∈ d.tokens, t.IsMadeOf P Q := by
  have hlists : ∀ c ∈ [',', '{', '}', '*'], P c := fun c hc =>
    hsigns c (List.mem_of_mem_take (i := 4) hc)
  have hsource := isMadeOf_sourceTokens (P := P) hrequest
  cases d with
  | bare r =>
    exact List.forall_mem_cons.mpr
      ⟨isMadeOf_keyword (by decide), List.forall_mem_singleton.mpr hrequest⟩
  | importFrom typeOnly clause r =>
    simp only [tokens, List.cons_append, List.forall_mem_cons, List.forall_mem_append]
    exact ⟨isMadeOf_keyword (by decide),
      ⟨isMadeOf_typeTokens typeOnly, isMadeOf_clause hlists clause⟩, hsource⟩
  | importEquals exported n r =>
    exact isMadeOf_importEquals (fun c hc => hsigns c (List.mem_of_mem_drop (i := 4) hc)) exported n
      hrequest
  | exportAll typeOnly n r =>
    simp only [tokens, List.cons_append, List.forall_mem_cons, List.forall_mem_append]
    exact ⟨isMadeOf_export,
      ⟨isMadeOf_typeTokens typeOnly, hsigns '*' (by simp), isMadeOf_renamed n⟩, hsource⟩
  | exportNamed typeOnly ms r =>
    simp only [tokens, List.cons_append, List.forall_mem_cons, List.forall_mem_append]
    exact ⟨isMadeOf_export, ⟨isMadeOf_typeTokens typeOnly,
      isMadeOf_members (fun c hc => hlists c (List.mem_of_mem_take (i := 3) hc)) ms⟩, hsource⟩

end Tokens

end Declaration

end ModuleGraph

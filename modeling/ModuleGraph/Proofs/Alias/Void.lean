import Mathlib.Data.List.Forall2
import ModuleGraph.Proofs.Alias.Precedence

/-!
# Configurations that say nothing

A configuration says nothing if it does not hold text, if its text is not well formed, if a value of
it is of the wrong kind, if it has no compiler options, or if these name no base directory.  These
are the only ways: loading a configuration gives no alias and no base directory exactly if it says
nothing in one of them.

## Main definitions

* `Alias.Document.IsField`, `Alias.Document.IsRecord`: the fields of a record, which may be written
  as an object or as a list.
* `Alias.Document.IsTyped`: a configuration whose values are of the kinds that are asked for.
* `Alias.Document.IsVoid`: the contents of a configuration that says nothing.

## Main results

* `Alias.load_value_eq_empty_iff`: what a configuration gives is empty exactly if it says nothing.
-/

namespace ModuleGraph.Alias

namespace Document

/-! ### Records -/

/-- The value of a field of an object.  It is given once, or it is not given and counts as null. -/
inductive IsField (members : List (String × Json.Value)) (name : String) : Json.Value → Prop
  | given {v : Json.Value} (h : (members.filter fun m => m.1 == name) = [(name, v)]) :
    IsField members name v
  | absent (h : ∀ m ∈ members, m.1 ≠ name) : IsField members name .null

/-- The values of the fields of a record, which is written as an object or as the list of its
fields. -/
inductive IsRecord (names : List String) : Json.Value → List Json.Value → Prop
  | object {members : List (String × Json.Value)} {values : List Json.Value}
    (h : List.Forall₂ (IsField members) names values) : IsRecord names (.object members) values
  | list {values : List Json.Value} (h : values.length = names.length) :
    IsRecord names (.array values) values

/-- What is given by a value: nothing by a null. -/
def given? : Json.Value → Option Json.Value
  | .null => none
  | v => some v

variable {name : String} {names : List String} {members : List (String × Json.Value)}
  {v : Json.Value}

theorem given?_eq_none_iff : given? v = none ↔ v = .null := by
  cases v <;> simp [given?]

theorem given?_of_ne (h : v ≠ .null) : given? v = some v := by
  cases v <;> simp_all [given?]

theorem field?_of_isField (h : IsField members name v) : field? name members = some (given? v) := by
  cases h with
  | given h => cases v <;> simp [field?, h, given?]
  | absent h =>
    have hnone : (members.filter fun m => m.1 == name) = [] := by
      simpa [List.filter_eq_nil_iff] using fun k v hm => h (k, v) hm
    simp [field?, hnone, given?]

theorem exists_isField_of_field? {given : Option Json.Value}
    (h : field? name members = some given) : ∃ v, IsField members name v ∧ given? v = given := by
  have hname {k : String} {v : Json.Value}
      (hfilter : (members.filter fun m => m.1 == name) = [(k, v)]) : IsField members name v := by
    have hk : (k == name) = true :=
      List.of_mem_filter (p := fun m : String × Json.Value => m.1 == name)
        (hfilter ▸ List.mem_singleton_self _)
    exact .given (by rw [hfilter, eq_of_beq hk])
  unfold field? at h
  split at h
  · next hnil =>
    refine ⟨.null, .absent fun m hm hk => ?_, by simpa [given?] using h⟩
    simpa using List.filter_eq_nil_iff.mp hnil m hm (by simpa using hk)
  · next k hfilter => exact ⟨.null, hname hfilter, by simpa [given?] using h⟩
  · next k v hv hfilter =>
    exact ⟨v, hname hfilter, by rw [given?_of_ne hv]; exact Option.some.inj h⟩
  · cases h

theorem fields?_of_isRecord {values : List Json.Value} (h : IsRecord names v values) :
    fields? names v = some (values.map given?) := by
  cases h with
  | list h =>
    rw [fields?, if_pos (by simpa using h)]
    rfl
  | object h =>
    rw [fields?]
    induction h with
    | nil => rfl
    | cons hfield _ ih =>
      rw [List.mapM_cons, field?_of_isField hfield, ih]
      rfl

theorem exists_isRecord_of_fields? {given : List (Option Json.Value)}
    (h : fields? names v = some given) :
    ∃ values, IsRecord names v values ∧ values.map given? = given := by
  unfold fields? at h
  split at h
  · next members =>
    suffices ∃ values, List.Forall₂ (IsField members) names values ∧ values.map given? = given by
      obtain ⟨values, hvalues, rfl⟩ := this
      exact ⟨values, .object hvalues, rfl⟩
    induction names generalizing given with
    | nil => exact ⟨[], .nil, by simpa using h⟩
    | cons name names ih =>
      rw [List.mapM_cons] at h
      obtain ⟨first, hfirst, hrest⟩ := Option.bind_eq_some_iff.mp h
      obtain ⟨later, hlater, hgiven⟩ := Option.bind_eq_some_iff.mp hrest
      obtain ⟨v, hv, rfl⟩ := exists_isField_of_field? hfirst
      obtain ⟨values, hvalues, rfl⟩ := ih hlater
      exact ⟨v :: values, .cons hv hvalues, by simpa using hgiven⟩
  · next items =>
    split_ifs at h with hlength
    exact ⟨items, .list (by simpa using hlength), Option.some.inj h⟩
  · cases h

theorem IsRecord.length_eq {values : List Json.Value} (h : IsRecord names v values) :
    values.length = names.length := by
  cases h with
  | object h => exact h.length_eq.symm
  | list h => exact h

/-! ### Options -/

/-- A base directory is a text, or not given. -/
def IsBase (v : Json.Value) : Prop := v = .null ∨ ∃ text, v = .string text

/-- Paths are an object that can be read, or not given. -/
def IsPaths (v : Json.Value) : Prop :=
  v = .null ∨ ∃ members, v = .object members ∧ IsAccepted members

/-- A configuration whose values are of the kinds that are asked for. -/
def IsTyped (v : Json.Value) : Prop :=
  ∃ options, IsRecord ["compilerOptions"] v [options] ∧ (options = .null ∨
    ∃ baseUrl paths, IsRecord ["baseUrl", "paths"] options [baseUrl, paths] ∧
      IsBase baseUrl ∧ IsPaths paths)

theorem isSome_text?_iff : (text? (given? v)).isSome = true ↔ IsBase v := by
  cases v <;> simp [text?, given?, IsBase]

theorem isSome_members?_iff : (members? (given? v)).isSome = true ↔ IsPaths v := by
  cases v with
  | null => simp [members?, given?, IsPaths]
  | object members =>
    by_cases haccepted : IsAccepted members
    · have hread := haccepted
      simp only [IsAccepted] at hread
      simp [members?, given?, hread, IsPaths, haccepted]
    · have hread := haccepted
      simp only [IsAccepted] at hread
      simp [members?, given?, hread, IsPaths, haccepted]
  | _ => simp [members?, given?, IsPaths]

/-- The options of a record whose fields are known. -/
theorem ofRecord?_of_isRecord {baseUrl paths : Json.Value}
    (h : IsRecord ["baseUrl", "paths"] v [baseUrl, paths]) :
    ofRecord? v = (text? (given? baseUrl)).bind fun base =>
      (members? (given? paths)).map (Options.mk base) := by
  rw [ofRecord?, fields?_of_isRecord h]
  simp only [bind, Option.bind_some, List.map_cons, List.map_nil, Option.map_eq_bind,
    Function.comp_def]

theorem exists_isRecord_of_ofRecord? {options : Options} (h : ofRecord? v = some options) :
    ∃ baseUrl paths, IsRecord ["baseUrl", "paths"] v [baseUrl, paths] ∧
      text? (given? baseUrl) = some options.baseUrl ∧
      members? (given? paths) = some options.paths := by
  obtain ⟨given, hgiven, -⟩ := Option.bind_eq_some_iff.mp h
  obtain ⟨values, hrecord, -⟩ := exists_isRecord_of_fields? hgiven
  obtain ⟨baseUrl, paths, rfl⟩ := List.length_eq_two.mp hrecord.length_eq
  rw [ofRecord?_of_isRecord hrecord] at h
  obtain ⟨base, hbase, hrest⟩ := Option.bind_eq_some_iff.mp h
  obtain ⟨members, hmembers, rfl⟩ := Option.map_eq_some_iff.mp hrest
  exact ⟨baseUrl, paths, hrecord, hbase, hmembers⟩

/-- The options of a configuration whose one field is known. -/
theorem ofValue?_of_isRecord {options : Json.Value}
    (h : IsRecord ["compilerOptions"] v [options]) :
    ofValue? v = (given? options).elim (some none) fun record => (ofRecord? record).map some := by
  rw [ofValue?, fields?_of_isRecord h]
  simp only [bind, Option.bind_some, List.map_cons, List.map_nil]
  cases given? options with
  | none => rfl
  | some record => simp only [Option.elim_some, Option.map_eq_bind, Function.comp_def]

theorem exists_isRecord_of_ofValue? {found : Option Options} (h : ofValue? v = some found) :
    ∃ options, IsRecord ["compilerOptions"] v [options] ∧
      (options = .null ∧ found = none ∨
        ∃ o, ofRecord? options = some o ∧ found = some o) := by
  obtain ⟨given, hgiven, -⟩ := Option.bind_eq_some_iff.mp h
  obtain ⟨values, hrecord, -⟩ := exists_isRecord_of_fields? hgiven
  obtain ⟨options, rfl⟩ := List.length_eq_one_iff.mp hrecord.length_eq
  refine ⟨options, hrecord, ?_⟩
  rw [ofValue?_of_isRecord hrecord] at h
  by_cases hnull : options = .null
  · rw [given?_eq_none_iff.mpr hnull] at h
    exact .inl ⟨hnull, (Option.some.inj h).symm⟩
  · rw [given?_of_ne hnull] at h
    obtain ⟨o, ho, rfl⟩ := Option.map_eq_some_iff.mp h
    exact .inr ⟨o, ho, rfl⟩

/-- A configuration is read exactly if its values are of the kinds that are asked for. -/
theorem isSome_ofValue?_iff : (ofValue? v).isSome = true ↔ IsTyped v := by
  constructor
  · intro h
    obtain ⟨found, hfound⟩ := Option.isSome_iff_exists.mp h
    obtain ⟨options, hrecord, ⟨hnull, -⟩ | ⟨o, ho, -⟩⟩ := exists_isRecord_of_ofValue? hfound
    · exact ⟨options, hrecord, .inl hnull⟩
    · obtain ⟨baseUrl, paths, hfields, hbase, hpaths⟩ := exists_isRecord_of_ofRecord? ho
      exact ⟨options, hrecord, .inr ⟨baseUrl, paths, hfields,
        isSome_text?_iff.mp (by rw [hbase]; rfl), isSome_members?_iff.mp (by rw [hpaths]; rfl)⟩⟩
  · rintro ⟨options, hrecord, rfl | ⟨baseUrl, paths, hfields, hbase, hpaths⟩⟩
    · rw [ofValue?_of_isRecord hrecord]
      rfl
    · obtain ⟨base, hbase⟩ := Option.isSome_iff_exists.mp (isSome_text?_iff.mpr hbase)
      obtain ⟨members, hmembers⟩ := Option.isSome_iff_exists.mp (isSome_members?_iff.mpr hpaths)
      rw [ofValue?_of_isRecord hrecord, given?_of_ne (by rintro rfl; cases hfields),
        Option.elim_some, ofRecord?_of_isRecord hfields, hbase, hmembers]
      rfl

/-! ### Void configurations -/

/-- The contents of a configuration that says nothing. -/
inductive IsVoid (bytes : ByteArray) : Prop
  | notText (h : String.fromUTF8? bytes = none)
  | malformed {text : String} (htext : String.fromUTF8? bytes = some text)
    (h : Json.readChars? (plainText text.toList) = none)
  | illTyped {text : String} {v : Json.Value} (htext : String.fromUTF8? bytes = some text)
    (hvalue : Json.readChars? (plainText text.toList) = some v) (h : ¬ IsTyped v)
  | noOptions {text : String} {v : Json.Value} (htext : String.fromUTF8? bytes = some text)
    (hvalue : Json.readChars? (plainText text.toList) = some v)
    (h : IsRecord ["compilerOptions"] v [.null])
  | noBase {text : String} {v options paths : Json.Value}
    (htext : String.fromUTF8? bytes = some text)
    (hvalue : Json.readChars? (plainText text.toList) = some v)
    (hoptions : IsRecord ["compilerOptions"] v [options])
    (h : IsRecord ["baseUrl", "paths"] options [.null, paths])

/-- A text says nothing unless it gives options that name a base directory. -/
theorem isVoid_iff {bytes : ByteArray} {text : String}
    (htext : String.fromUTF8? bytes = some text) :
    IsVoid bytes ↔ ∀ o, options? text = some (some o) → o.baseUrl = none := by
  have hoptions {v : Json.Value} (hvalue : Json.readChars? (plainText text.toList) = some v) :
      options? text = ofValue? v := by rw [options?, hvalue, Option.bind_some]
  constructor
  · intro h o ho
    cases h with
    | notText h => simp [htext] at h
    | malformed htext' h =>
      obtain rfl := Option.some.inj (htext.symm.trans htext')
      simp [options?, h] at ho
    | illTyped htext' hvalue h =>
      obtain rfl := Option.some.inj (htext.symm.trans htext')
      rw [hoptions hvalue] at ho
      exact absurd (isSome_ofValue?_iff.mp (by rw [ho]; rfl)) h
    | noOptions htext' hvalue h =>
      obtain rfl := Option.some.inj (htext.symm.trans htext')
      rw [hoptions hvalue, ofValue?_of_isRecord h] at ho
      cases ho
    | noBase htext' hvalue hrecord h =>
      obtain rfl := Option.some.inj (htext.symm.trans htext')
      rw [hoptions hvalue, ofValue?_of_isRecord hrecord, given?_of_ne (by rintro rfl; cases h),
        Option.elim_some, ofRecord?_of_isRecord h] at ho
      obtain ⟨found, hfound, hsome⟩ := Option.map_eq_some_iff.mp ho
      obtain ⟨members, -, hmembers⟩ := Option.map_eq_some_iff.mp hfound
      rw [← Option.some.inj hsome, ← hmembers]
  · intro h
    rcases hvalue : Json.readChars? (plainText text.toList) with _ | v
    · exact .malformed htext hvalue
    · rw [hoptions hvalue] at h
      rcases hfound : ofValue? v with _ | found
      · exact .illTyped htext hvalue fun htyped => by
          simpa [hfound] using isSome_ofValue?_iff.mpr htyped
      · obtain ⟨options, hrecord, ⟨rfl, -⟩ | ⟨o, ho, rfl⟩⟩ := exists_isRecord_of_ofValue? hfound
        · exact .noOptions htext hvalue hrecord
        · obtain ⟨baseUrl, paths, hfields, hbase, -⟩ := exists_isRecord_of_ofRecord? ho
          rw [h o hfound] at hbase
          have hnull : baseUrl = .null := by
            cases baseUrl <;> simp [text?, given?] at hbase ⊢
          exact .noBase htext hvalue hrecord (hnull ▸ hfields)

end Document

/-- What a configuration gives is empty exactly if it says nothing. -/
theorem load_value_eq_empty_iff {d : Files.Disk} {file : Path} {bytes : ByteArray}
    (h : d.readBytes file = .ok bytes) : (load d file).value = {} ↔ Document.IsVoid bytes := by
  rcases htext : String.fromUTF8? bytes with _ | text
  · have hread : d.readText file = .error .notText := by
      simp [Files.Disk.readText, h, htext, bind, Except.bind]
    rw [load, hread]
    exact ⟨fun _ => .notText htext, fun _ => rfl⟩
  · have hread : d.readText file = .ok text := by
      simp [Files.Disk.readText, h, htext, bind, Except.bind]
    rw [load, hread, Document.isVoid_iff htext]
    rcases hoptions : Document.options? text with _ | _ | o
    · simp [hoptions]
    · simp [hoptions]
    · rcases hbase : o.baseUrl with _ | baseUrl
      · simp [hoptions, Config.ofOptions, hbase]
      · simp [hoptions, Config.ofOptions, hbase]

end ModuleGraph.Alias

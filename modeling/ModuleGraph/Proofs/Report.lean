import ModuleGraph.Proofs.Json.Printing
import ModuleGraph.Report

/-!
# Reports as data text

A graph and a listing of modules consist of texts and lists of them, and so their data text can be
read back, whatever their texts hold.  Nothing of a graph is lost on the way, so different graphs
have different reports.

## Main results

* `Report.render_data`: a report as data text is the same in colours.
* `Report.exists_document`: such a report is read back.
* `Report.data_determines`: the reports on graphs and on listings, and what can be told from them.
-/

namespace ModuleGraph

/-! ### The values of graphs -/

namespace Graph

theorem areWritable_strings (limits : Json.Limits) (texts : List String) :
    Json.Value.AreWritable limits (texts.map .string) := by
  induction texts with
  | nil => trivial
  | cons text texts ih => exact ⟨trivial, ih⟩

theorem isWritable_entry (limits : Json.Limits) (e : Entry) : e.toValue.IsWritable limits :=
  ⟨trivial, areWritable_strings limits e.dependencies, trivial⟩

theorem isWritable_listing (limits : Json.Limits) (entries : List Entry) :
    (listing entries).IsWritable limits := by
  induction entries with
  | nil => trivial
  | cons e es ih => exact ⟨isWritable_entry limits e, ih⟩

theorem isWritable_toValue (limits : Json.Limits) (g : Graph) : g.toValue.IsWritable limits :=
  ⟨trivial, isWritable_listing limits g.entries, trivial⟩

theorem Entry.toValue_injective : Function.Injective Entry.toValue := by
  rintro ⟨key, dependencies⟩ ⟨key', dependencies'⟩ h
  have hstring : Function.Injective Json.Value.string := fun _ _ h => Json.Value.string.inj h
  simpa [toValue, hstring.list_map.eq_iff] using h

theorem listing_injective : Function.Injective listing := fun _ _ h =>
  Entry.toValue_injective.list_map (Json.Value.array.inj h)

theorem toValue_injective : Function.Injective toValue := by
  rintro ⟨⟨root⟩, entries⟩ ⟨⟨root'⟩, entries'⟩ h
  simpa [toValue, listing_injective.eq_iff] using h

end Graph

namespace Report

/-! ### Reports in parts -/

theorem render_append (colour : Bool) (rs ts : List Run) :
    render colour (rs ++ ts) = render colour rs ++ render colour ts := by
  cases colour <;> simp [render, plain, coloured]

theorem render_flatMap {α : Type} (colour : Bool) (f : α → List Run) (xs : List α) :
    render colour (xs.flatMap f) = String.join (xs.map fun x => render colour (f x)) := by
  induction xs with
  | nil => cases colour <;> rfl
  | cons x xs ih => rw [List.flatMap_cons, render_append, ih, List.map_cons, String.join_cons]

/-- A message is on a line of its own. -/
theorem render_failed (message : String) :
    render false (failed message) = "error: " ++ message ++ "\n" := by
  rw [← String.toList_inj]
  simp [render, plain, failed, styled, text]

/-! ### Reading reports back -/

/-- A report as data text is the text of its value on lines of its own, in colours as well. -/
theorem render_data (colour : Bool) (v : Json.Value) :
    render colour (data v) = String.ofList (Json.write v) ++ "\n" := by
  cases colour <;> simp [render, data, plain, coloured, Run.coloured]

/-- A report as data text is read back, with the end of its last line or without. -/
theorem readWithin?_data {limits : Json.Limits} {v : Json.Value} (h : v.IsWritable limits)
    (colour : Bool) :
    Json.readWithin? limits (Json.write v) = some v ∧
      Json.readWithin? limits (render colour (data v)).toList = some v := by
  have hnothing := Json.readWithin?_write h [] (by simp)
  have hfeed := Json.readWithin?_write h ['\n'] (by simp [Json.isGap])
  rw [List.append_nil] at hnothing
  refine ⟨hnothing, ?_⟩
  rwa [render_data, String.toList_append, String.toList_ofList]

/-- A report as data text is one document and the end of its last line, and read back as its value
by every reader that can tell the value from its text. -/
theorem exists_document {v : Json.Value} (h : ∀ limits, v.IsWritable limits) (colour : Bool) :
    ∃ document : String, render colour (data v) = document ++ "\n" ∧
      ∀ limits, ∀ text ∈ [document, render colour (data v)],
        Json.readWithin? limits text.toList = some v := by
  refine ⟨String.ofList (Json.write v), render_data colour v, fun limits => ?_⟩
  simpa using readWithin?_data (h limits) colour

/-- Reports as data text tell writable values apart. -/
theorem render_data_inj {v w : Json.Value} (hv : v.IsWritable .scaled) (hw : w.IsWritable .scaled)
    (colour : Bool) : render colour (data v) = render colour (data w) ↔ v = w := by
  refine ⟨fun h => ?_, fun h => by rw [h]⟩
  have hread := (readWithin?_data hv colour).2
  rw [h, (readWithin?_data hw colour).2] at hread
  exact (Option.some.inj hread).symm

/-- The report on a graph is one document as data text and the end of its last line.  It is read
back as the root and the modules in order, each with its dependencies in order, whatever the reader
can represent; and so are listings of modules.  Different graphs and different listings have
different reports. -/
theorem data_determines (colour : Bool) :
    (∀ g : Graph, ∃ document : String, render colour (graphData g) = document ++ "\n" ∧
      ∀ limits, ∀ text ∈ [document, render colour (graphData g)],
        Json.readWithin? limits text.toList = some (.object
          [("root", .string g.root.text),
            ("modules", .array (g.entries.map fun e => .object
              [("module", .string e.key),
                ("dependencies", .array (e.dependencies.map .string))]))])) ∧
    (∀ entries : List Graph.Entry, ∃ document : String,
      render colour (listingData entries) = document ++ "\n" ∧
      ∀ limits, ∀ text ∈ [document, render colour (listingData entries)],
        Json.readWithin? limits text.toList = some (.array (entries.map fun e => .object
          [("module", .string e.key), ("dependencies", .array (e.dependencies.map .string))]))) ∧
    (∀ g g' : Graph, render colour (graphData g) = render colour (graphData g') ↔ g = g') ∧
    ∀ es es' : List Graph.Entry,
      render colour (listingData es) = render colour (listingData es') ↔ es = es' := by
  refine ⟨fun g => exists_document (fun _ => Graph.isWritable_toValue _ g) colour,
    fun es => exists_document (fun _ => Graph.isWritable_listing _ es) colour,
    fun g g' => ?_, fun es es' => ?_⟩
  · exact (render_data_inj (Graph.isWritable_toValue _ g) (Graph.isWritable_toValue _ g')
      colour).trans Graph.toValue_injective.eq_iff
  · exact (render_data_inj (Graph.isWritable_listing _ es) (Graph.isWritable_listing _ es')
      colour).trans Graph.listing_injective.eq_iff

end Report

end ModuleGraph

import AssetBundler.Proofs.SourceMap.Decoder

/-!
What a map says of a joined text. Each line of the text is led back to its line in the source that
it comes from.
-/

namespace AssetBundler

namespace SourceMap

/-- The number of lines of several texts. -/
def lineCount : List CodeText → Nat
  | [] => 0
  | text :: rest => (Text.pointLines text).length + lineCount rest

theorem length_flatMap_lines (texts : List CodeText) :
    (texts.flatMap Text.pointLines).length = lineCount texts := by
  induction texts with
  | nil => rfl
  | cons text rest inductionHypothesis =>
      rw [List.flatMap_cons, List.length_append, inductionHypothesis, lineCount]

/-- A position leads back to the start of an equal line, which stands as far behind the lines of the
earlier contents as the output line. -/
def LeadsBack (contents : List CodeText) (index : Nat) (line : CodeText) (position : Position) :
    Prop :=
  ∃ (source sourceLine : Nat) (content : CodeText), position = ⟨0, source, sourceLine, 0⟩ ∧
    contents[source]? = some content ∧ (Text.pointLines content)[sourceLine]? = some line ∧
    index = sourceLine + lineCount (contents.take source)

/-- Mappings describe a text by its contents when each of its lines has one segment, and this
segment leads back. -/
def Describes (contents : List CodeText) (mappings : String) (text : CodeText) : Prop :=
  ∃ decoded, readMappings mappings = some decoded ∧
    decoded.length = (Text.pointLines text).length ∧
    ∀ index line, (Text.pointLines text)[index]? = some line →
      ∃ position, decoded[index]? = some [position] ∧ LeadsBack contents index line position

theorem length_targetsFrom (source : Nat) (sources : List (CodeText × CodeText)) :
    (targetsFrom source sources).length = lineCount (sources.map Prod.snd) := by
  induction sources generalizing source with
  | nil => rfl
  | cons first rest inductionHypothesis =>
      simp [targetsFrom, lineCount, inductionHypothesis]

/-- The target of an output line leads to the line that the output line comes from. -/
theorem targetsFrom_getElem? (source : Nat) {sources : List (CodeText × CodeText)} {index : Nat}
    {line : CodeText}
    (found : ((sources.map Prod.snd).flatMap Text.pointLines)[index]? = some line) :
    ∃ (place sourceLine : Nat) (content : CodeText),
      (targetsFrom source sources)[index]? = some ⟨source + place, sourceLine⟩ ∧
      (sources.map Prod.snd)[place]? = some content ∧
      (Text.pointLines content)[sourceLine]? = some line ∧
      index = sourceLine + lineCount ((sources.map Prod.snd).take place) := by
  induction sources generalizing source index with
  | nil => simp at found
  | cons first rest inductionHypothesis =>
      rw [List.map_cons, List.flatMap_cons] at found
      by_cases here : index < (Text.pointLines first.2).length
      · rw [List.getElem?_append_left here] at found
        refine ⟨0, index, first.2, ?_, rfl, found, rfl⟩
        rw [targetsFrom, List.getElem?_append_left (by simpa using here), List.getElem?_map,
          List.getElem?_range here]
        rfl
      · have behind := Nat.le_of_not_lt here
        rw [List.getElem?_append_right behind] at found
        obtain ⟨place, sourceLine, content, target, inRest, sameLine, counted⟩ :=
          inductionHypothesis (source + 1) found
        refine ⟨place + 1, sourceLine, content, ?_, inRest, sameLine, ?_⟩
        · rw [targetsFrom, List.getElem?_append_right (by simpa using behind), List.length_map,
            List.length_range, target, Nat.add_assoc, Nat.add_comm 1 place]
        · rw [List.map_cons, List.take_succ_cons, lineCount]
          omega

/-- The mappings of sources describe the join of their contents. -/
theorem describes_mappings {map : SourceMap} (filled : map.sources ≠ []) :
    Describes (map.sources.map Prod.snd) map.mappings
      (Text.joinPoints (map.sources.map Prod.snd)) := by
  have joined : Text.pointLines (Text.joinPoints (map.sources.map Prod.snd)) =
      (map.sources.map Prod.snd).flatMap Text.pointLines :=
    Text.pointLines_joinPoints (by simpa using filled)
  refine ⟨_, readMappings_mappings filled, ?_, ?_⟩
  · rw [joined, List.length_map, length_targetsFrom, length_flatMap_lines]
  · intro index line found
    rw [joined] at found
    obtain ⟨place, sourceLine, content, target, inSources, sameLine, counted⟩ :=
      targetsFrom_getElem? 0 found
    rw [Nat.zero_add] at target
    refine ⟨⟨0, place, sourceLine, 0⟩, ?_, place, sourceLine, content, rfl, inSources, sameLine,
      counted⟩
    rw [List.getElem?_map, target]
    rfl

/-- Sources that are added one after the other are listed in that order. -/
theorem foldl_add (calls : List (CodeText × CodeText)) (map : SourceMap) :
    calls.foldl (fun map call => map.add call.1 call.2) map =
      { map with sources := map.sources ++ calls } := by
  induction calls generalizing map with
  | nil => simp
  | cons call rest inductionHypothesis =>
      rw [List.foldl_cons, inductionHypothesis, add]
      simp only [List.append_assoc, List.singleton_append]

theorem sources_foldl_add (calls : List (CodeText × CodeText)) (map : SourceMap) :
    (calls.foldl (fun map call => map.add call.1 call.2) map).sources = map.sources ++ calls := by
  rw [foldl_add]

end SourceMap

/-- A document is a map of a text when its mappings describe the text by the contents of its
sources. -/
def Json.IsMapOf (document : Json CodeText) (text : CodeText) : Prop :=
  ∃ (fields : Options) (contents : List CodeText) (mappings : String), document = .object fields ∧
    Assoc.find? fields "sourcesContent" = some (.array (contents.map Json.string)) ∧
    Assoc.find? fields "mappings" = some (.string mappings) ∧
    SourceMap.Describes contents mappings text

theorem SourceMap.toJson_isMapOf {map : SourceMap} (filled : map.sources ≠ []) :
    (map.toJson true).IsMapOf (Text.joinPoints (map.sources.map Prod.snd)) := by
  refine ⟨_, map.sources.map Prod.snd, map.mappings, rfl, ?_, rfl, describes_mappings filled⟩
  simp [Assoc.find?, Function.comp_def]

end AssetBundler

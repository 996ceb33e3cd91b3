import AssetBundler.Config.Values
import AssetBundler.Proofs.Json.RoundTrip
import AssetBundler.Proofs.SourceMap.Description

/-!
Maps as documents. The text of a map is ASCII, and reading it as options gives back the names and
the contents of the sources with the mappings. A pair of surrogates in these comes back as the
character that the two stand for.
-/

namespace AssetBundler.SourceMap

open Json (IsReadable)

variable {file : CodeText} {sources : List (CodeText × CodeText)} {mappings : String}

/-- The fields of a map in their order. -/
def fields (file : CodeText) (sources : List (CodeText × CodeText)) (mappings : String) : Options :=
  [("version", .integer 3), ("file", .string file),
    ("sources", .array (sources.map fun source => .string source.1)),
    ("sourcesContent", .array (sources.map fun source => .string source.2)),
    ("names", .array []), ("mappings", .string mappings)]

theorem toJson_eq (map : SourceMap) (includesMappings : Bool) :
    map.toJson includesMappings =
      .object (fields map.file map.sources (if includesMappings then map.mappings else "")) := by
  cases includesMappings <;> rfl

theorem isReadable_texts {depth : Nat} (texts : List (CodeText × CodeText))
    (pick : CodeText × CodeText → CodeText) :
    IsReadable (depth + 1) (.array (texts.map fun text => .string (pick text))) := by
  refine .array fun item member => ?_
  obtain ⟨text, -, rfl⟩ := List.mem_map.mp member
  exact .string (pick text)

theorem isReadable_fields (file : CodeText) (sources : List (CodeText × CodeText))
    (mappings : String) :
    IsReadable Json.nestingLimit (.object (fields file sources mappings)) := by
  refine .object (by simp [fields, Assoc.keys]) ?_
  simp only [fields, List.forall_mem_cons]
  refine ⟨.integer (by decide), .string file, isReadable_texts sources Prod.fst,
    isReadable_texts sources Prod.snd, .array (List.forall_mem_nil _), .string _,
    List.forall_mem_nil _⟩

/-- Fusing the texts of the fields fuses the texts that the map was made of. -/
theorem mapText_fields : (Json.object (fields file sources mappings)).mapText CodeText.fuse =
    .object (fields file.fuse (sources.map fun source => (source.1.fuse, source.2.fuse))
      mappings) := by
  simp [fields, Json.mapText, Json.mapFields, Json.mapItems_eq, Function.comp_def]

/-- The fields stay as they are exactly when none of the texts has a pair. -/
theorem fields_fuse : fields file.fuse (sources.map fun source => (source.1.fuse, source.2.fuse))
      mappings = fields file sources mappings ↔
    ¬ file.HasPair ∧ ∀ source ∈ sources, ¬ source.1.HasPair ∧ ¬ source.2.HasPair := by
  have first : (sources.map fun source => Json.string source.1.fuse) =
      (sources.map fun source => .string source.1) ↔
        ∀ source ∈ sources, ¬ source.1.HasPair := by
    simp only [List.map_inj_left, Json.string.injEq, CodeText.fuse_eq_self]
  have second : (sources.map fun source => Json.string source.2.fuse) =
      (sources.map fun source => .string source.2) ↔
        ∀ source ∈ sources, ¬ source.2.HasPair := by
    simp only [List.map_inj_left, Json.string.injEq, CodeText.fuse_eq_self]
  simp only [fields, List.map_map, Function.comp_def, List.cons.injEq, Prod.mk.injEq,
    Json.string.injEq, Json.array.injEq, first, second, CodeText.fuse_eq_self, true_and, and_true,
    forall_and]

/-- A map is got back from its text with fused texts. -/
theorem load_rendered (map : SourceMap) (includesMappings : Bool) :
    Json.load (map.render includesMappings) =
      .ok (.object (fields map.file.fuse
        (map.sources.map fun source => (source.1.fuse, source.2.fuse))
        (if includesMappings then map.mappings else ""))) := by
  rw [render, toJson_eq, ← mapText_fields]
  exact Json.load_rendered (isReadable_fields map.file map.sources _)

/-- The text of a map is visible ASCII, and it is read back as the fields of the map with fused
texts. These are the fields of the map when no name and no content has a pair. Without mappings only
these are empty. -/
theorem render_reads_back (file : CodeText) (calls : List (CodeText × CodeText))
    (includesMappings : Bool) (key section_ : String) :
    let map := calls.foldl (fun map call => map.add call.1 call.2) (SourceMap.mk file [])
    let mappings := if includesMappings then map.mappings else ""
    let fused := fields file.fuse (calls.map fun call => (call.1.fuse, call.2.fuse)) mappings
    (∀ c ∈ (map.render includesMappings).toList, Json.IsVisible c) ∧
      map.toJson includesMappings = .object (fields file calls mappings) ∧
      Json.load (map.render includesMappings) = .ok (.object fused) ∧
      Config.parseOptions [(key, map.render includesMappings)] key section_ = .ok fused ∧
      (fused = fields file calls mappings ↔
        ¬ file.HasPair ∧ ∀ call ∈ calls, ¬ call.1.HasPair ∧ ¬ call.2.HasPair) := by
  intro map mappings fused
  have listed : map.file = file ∧ map.sources = calls := by
    simp [map, foldl_add]
  have whole : map.toJson includesMappings = .object (fields file calls mappings) := by
    rw [toJson_eq, listed.1, listed.2]
  have loaded : Json.load (map.render includesMappings) = .ok (.object fused) := by
    rw [load_rendered, listed.1, listed.2]
  refine ⟨?_, whole, loaded, ?_, fields_fuse⟩
  · rw [render, whole, Json.render, String.toList_ofList]
    exact Json.isVisible_of_mem_write (isReadable_fields file calls _)
  · have value : Config.setting [(key, map.render includesMappings)] key =
        map.render includesMappings := by
      simp [Config.setting, Assoc.find?]
    have filled : map.render includesMappings ≠ "" := by
      intro empty
      rw [empty] at loaded
      cases loaded
    rw [Config.parseOptions]
    simp only [value, if_neg filled, loaded]

/-- A content of two surrogates comes back as the character that they stand for. -/
theorem render_fuses :
    let apart := (SourceMap.mk "all.js" []).add "a.js" [0xD83D, 0xDE00]
    let fused := (SourceMap.mk "all.js" []).add "a.js" [0x1F600]
    Json.load (apart.render true) = .ok (fused.toJson true) ∧
      fused.toJson true ≠ apart.toJson true := by
  intro apart fused
  have mappings : apart.mappings = fused.mappings := by decide +kernel
  have contents : CodeText.fuse [0xD83D, 0xDE00] = [0x1F600] := by decide
  have differ : ([0x1F600] : CodeText) ≠ [0xD83D, 0xDE00] := by decide
  refine ⟨?_, fun same => ?_⟩
  · rw [load_rendered, toJson_eq, mappings]
    simp [apart, fused, add, contents]
  · simp only [toJson_eq, fields, Json.object.injEq, List.cons.injEq, Prod.mk.injEq,
      Json.array.injEq, apart, fused, add, List.nil_append, List.map_cons, List.map_nil,
      Json.string.injEq, differ, false_and, and_false] at same

end AssetBundler.SourceMap

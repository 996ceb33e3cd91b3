import AssetBundler.Proofs.Builder.WrittenMap
import AssetBundler.Proofs.Path.Relative
import AssetBundler.Proofs.SourceMap.Document

/-!
The names of the sources in a written map. From the directory of the map they lead to the files
that the bundle was made of.
-/

namespace AssetBundler

/-- The names that a map gives to its sources. -/
def Json.ListsSources (document : Json CodeText) (names : List String) : Prop :=
  ∃ fields : Options, document = .object fields ∧
    Assoc.find? fields "sources" = some (.array (names.map fun name => .string (.ofString name)))

theorem SourceMap.listsSources_fields {names : List String} {sources : List (CodeText × CodeText)}
    (named : sources.map Prod.fst = names.map CodeText.ofString) (file : CodeText)
    (mappings : String) : (Json.object (fields file sources mappings)).ListsSources names := by
  refine ⟨_, rfl, ?_⟩
  have texts : (sources.map fun source => Json.string source.1) =
      names.map fun name => .string (.ofString name) := by
    have mapped := congrArg (List.map Json.string) named
    rwa [List.map_map, List.map_map] at mapped
  simp [fields, Assoc.find?, texts]

namespace Builder

/-- The parent of a map is the directory that it is written to. -/
theorem parent_joinText_mapName (target : Path) {name : String} (clean : '/' ∉ name.toList) :
    (target.joinText (Output.mapName name)).parent = target := by
  have mapClean : '/' ∉ (Output.mapName name).toList := by simpa [Output.mapName] using clean
  rw [joinText_eq mapClean, List.filter_cons_of_pos (isPart_mapName name), List.filter_nil,
    Path.parent, List.dropLast_concat]

/-- What a build has delivered when it reports a map. -/
theorem delivers_map {builder : Builder} {output : String} {workspace : Workspace}
    {given : BuildResult} {mapPath : Path}
    (built : (builder.build output workspace).1 = .ok given)
    (mapped : given.mapPath = some mapPath) :
    let left := (builder.build output workspace).2.2.tree
    ∃ (name : String) (sources : List SourceFile) (rest : List (Path × Bytes)),
      given.sources = sources.map SourceFile.origin ∧
      workspace.tree.deliver workspace.directory mapPath.parent
        ((mapPath, Utf8.encode ((sourceMapOf name
          (mapPath.parent.absolute ⟨.root, workspace.directory⟩) sources).render
            (!builder.minify))) :: rest) = (.ok (), left) ∧
      ∀ later ∈ rest, later.1 ≠ mapPath := by
  cases checked : builder.checkBuild output with
  | error failure =>
      rw [build_refused checked] at built
      cases built
  | ok place =>
      obtain ⟨folder, name⟩ := place
      have clean := Output.slash_not_mem_of_split (checkBuild_eq_ok.mp checked).2.2
      obtain ⟨events, ran⟩ := build_accepted checked workspace
      rw [ran] at built
      simp only [ran]
      obtain ⟨sources, -, ⟨-, rfl, -⟩ | ⟨-, text, -, rfl, delivered⟩⟩ :=
        assembled_ok (Prod.ext built rfl)
      · cases mapped
      · cases withMaps : builder.sourceMaps with
        | false => simp [deliveredResult, mapFile?, withMaps] at mapped
        | true =>
            obtain ⟨rest, split, apart⟩ := files_eq withMaps workspace.directory folder clean
              sources text
            have same :
                (builder.base.joinText folder).joinText (Output.mapName name) = mapPath := by
              simpa [deliveredResult, mapFile?, withMaps] using mapped
            subst same
            rw [split] at delivered
            refine ⟨name, sources, rest, rfl, ?_, apart⟩
            rw [parent_joinText_mapName _ clean]
            exact delivered

/-- The way to a normal path, as a map spells it, leads from a normal directory back to the path.
So a name in a written map leads from the directory of the map to its source, and the names are
distinct when the sources are. -/
theorem sourceNames_lead_back :
    (∀ origin directory : Path, origin.IsNormal → directory.IsNormal →
      (directory.joinText (origin.relativeFrom directory).toString).normalize = origin) ∧
    ∀ (builder : Builder) (output : String) (workspace : Workspace) (given : BuildResult)
        (mapPath : Path),
      (builder.build output workspace).1 = .ok given → given.mapPath = some mapPath →
      let directory := mapPath.parent.absolute ⟨.root, workspace.directory⟩
      directory.IsNormal → (∀ origin ∈ given.sources, origin.IsNormal) →
      let left := (builder.build output workspace).2.2.tree
      ∃ (text : String) (rest : List (Path × Bytes)) (document : Json CodeText)
          (names : List String),
        workspace.tree.deliver workspace.directory mapPath.parent
          ((mapPath, Utf8.encode text) :: rest) = (.ok (), left) ∧
        (∀ later ∈ rest, later.1 ≠ mapPath) ∧
        Json.load text = .ok document ∧ document.ListsSources names ∧
        names.map (fun name => (directory.joinText name).normalize) = given.sources ∧
        (names.Nodup ↔ given.sources.Nodup) := by
  refine ⟨fun origin directory => Path.normalize_joinText_relativeFrom, ?_⟩
  intro builder output workspace given mapPath built mapped directory target normal left
  obtain ⟨name, sources, rest, origins, delivered, apart⟩ := delivers_map built mapped
  let map := sourceMapOf name directory sources
  let names := given.sources.map fun origin => (origin.relativeFrom directory).toString
  have back : names.map (fun name => (directory.joinText name).normalize) = given.sources := by
    rw [List.map_map]
    refine (List.map_congr_left fun origin member => ?_).trans (List.map_id given.sources)
    exact Path.normalize_joinText_relativeFrom (normal origin member) target
  have named : (map.sources.map fun source => (source.1.fuse, source.2.fuse)).map Prod.fst =
      names.map CodeText.ofString := by
    simp [map, names, sourceMapOf, origins, Function.comp_def]
  refine ⟨_, rest, _, names, delivered, apart, map.load_rendered _,
    SourceMap.listsSources_fields named _ _, back, ?_⟩
  constructor
  · exact List.Nodup.of_map _
  · intro distinct
    rw [← back] at distinct
    exact distinct.of_map _

/-- A bundle of two files goes to a directory that shares only the root with them. -/
theorem sourceNames_lead_back_sample :
    let directory := Path.ofString "/q/r"
    let origins := ["/p/b.scss", "/p/a.css"].map Path.ofString
    (directory.joinText "../../p/a.css").normalize = Path.ofString "/p/a.css" ∧
      ((sample.build "../q/r/all.css" sampleWorkspace).1.toOption.map BuildResult.sources =
        some origins) ∧
      ∃ (text : String) (document : Json CodeText) (names : List String),
        Json.load text = .ok document ∧ document.ListsSources names ∧ names.Nodup ∧
        names.map (fun name => (directory.joinText name).normalize) = origins := by
  intro directory origins
  have target : directory.IsNormal := Path.isNormal_ofString rfl (by decide +kernel)
  have normal : ∀ origin ∈ origins, origin.IsNormal := by
    simp only [origins, List.map_cons, List.map_nil, List.forall_mem_cons]
    exact ⟨Path.isNormal_ofString rfl (by decide +kernel),
      Path.isNormal_ofString rfl (by decide +kernel), List.forall_mem_nil _⟩
  have given : (sample.build "../q/r/all.css" sampleWorkspace).1.toOption.map
      (fun given => (given.mapPath, given.sources)) =
        some (some (Path.ofString "/p/../q/r/all.css.map"), origins) := by decide +kernel
  have place : (Path.ofString "/p/../q/r/all.css.map").parent.absolute
      ⟨.root, sampleWorkspace.directory⟩ = directory := by decide +kernel
  cases built : (sample.build "../q/r/all.css" sampleWorkspace).1 with
  | error failure =>
      rw [built] at given
      cases given
  | ok result =>
      rw [built] at given
      obtain ⟨mapped, sources⟩ := Prod.mk.inj (Option.some.inj given)
      obtain ⟨text, -, document, names, -, -, parsed, listed, back, distinct⟩ :=
        sourceNames_lead_back.2 sample "../q/r/all.css" sampleWorkspace result _ built mapped
          (place ▸ target) (sources ▸ normal)
      rw [place, sources] at back
      refine ⟨?_, congrArg some sources, text, document, names, parsed, listed, ?_, back⟩
      · exact sourceNames_lead_back.1 (Path.ofString "/p/a.css") directory
          (normal _ (by decide +kernel)) target
      · rw [distinct, sources]
        decide +kernel

end Builder

end AssetBundler

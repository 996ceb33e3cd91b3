import AssetBundler.Proofs.Builder.Effect
import AssetBundler.Proofs.SourceMap.Description

/-!
The map that a build writes beside its bundle.
-/

namespace AssetBundler.Builder

theorem minified_of_off {builder : Builder} (off : builder.minify = false) (contents : String) :
    builder.minified contents = .ok contents := by
  unfold minified
  cases builder.compilers with
  | nil => rfl
  | cons first rest => rw [off]; rfl

/-- With maps the first file that is delivered is the map, and no later file has its path. -/
theorem files_eq {builder : Builder} (mapped : builder.sourceMaps = true) (directory : Location)
    (folder : String) {name : String} (clean : '/' ∉ name.toList) (sources : List SourceFile)
    (text : String) :
    let mapPath := (builder.base.joinText folder).joinText (Output.mapName name)
    ∃ rest, builder.files directory folder name sources text =
        (mapPath, Utf8.encode ((builder.mapOf directory folder name sources).render
          (!builder.minify))) :: rest ∧
      ∀ file ∈ rest, file.1 ≠ mapPath := by
  intro mapPath
  have mapClean : '/' ∉ (Output.mapName name).toList := by simpa [Output.mapName] using clean
  have gzipClean : '/' ∉ (Output.gzipName name).toList := by simpa [Output.gzipName] using clean
  have other {different : String} (isClean : '/' ∉ different.toList)
      (apart : different ≠ Output.mapName name) :
      (builder.base.joinText folder).joinText different ≠ mapPath :=
    joinText_ne isClean mapClean (isPart_mapName name) apart
  simp only [files, artifacts, mapFile?, mapped, if_true, Option.toList_some, List.cons_append,
    List.nil_append]
  refine ⟨_, rfl, ?_⟩
  intro file member
  rcases List.mem_append.mp member with compressed | bundle
  · rw [Option.mem_toList, gzipFile?] at compressed
    split at compressed
    · cases compressed
      exact other gzipClean (Output.gzipName_ne_mapName name)
    · cases compressed
  · rw [List.mem_singleton.mp bundle]
    exact other clean (Output.name_ne_mapName name)

end AssetBundler.Builder

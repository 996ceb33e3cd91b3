import AssetBundler.Builder.Build
import AssetBundler.Proofs.Compiler.Parts
import AssetBundler.Proofs.FileSystem.ReadBack
import AssetBundler.Proofs.Text.Lines

/-!
The files that a build writes. They form a list, and the last step of a build writes this list from
its first to its last file.
-/

namespace AssetBundler

namespace Builder

open AssetBundler.Action

/-- The joined contents as the minifier of the first compiler leaves them. -/
def minified (builder : Builder) (contents : String) : Except Failure String :=
  match builder.compilers with
  | [] => .ok contents
  | first :: _ =>
      if builder.minify then
        match first.kind.minifier? with
        | none => .ok contents
        | some name =>
            Compiler.applied builder.registry name contents "" builder.minifyOptions
      else .ok contents

/-- The comment of the map stands on a line of its own at the end. -/
def bundleText (builder : Builder) (name contents : String) : String :=
  if builder.sourceMaps then
    contents ++ "\n" ++ SourceMap.comment (Output.mapName name) name
  else contents

/-- The comment names the map beside the bundle, in the form of a comment of a style sheet when the
bundle is named as one. -/
theorem comment_mapName (name : String) :
    SourceMap.comment (Output.mapName name) name =
      if ".css".toList <:+ name.toList then "/*# sourceMappingURL=" ++ name ++ ".map */"
      else "//# sourceMappingURL=" ++ name ++ ".map" := by
  have closed : (".map */" : String) = ".map" ++ " */" := by simp
  rw [SourceMap.comment, Output.mapName]
  simp only [Text.endsWith_iff, closed, String.append_assoc]

def mapFile? (builder : Builder) (target : Path) (name : String) (map : SourceMap) :
    Option (Path × Bytes) :=
  if builder.sourceMaps then
    some (target.joinText (Output.mapName name), Utf8.encode (map.render (!builder.minify)))
  else none

def gzipFile? (builder : Builder) (target : Path) (name : String) (data : Bytes) :
    Option (Path × Bytes) :=
  if builder.gzip then
    some (target.joinText (Output.gzipName name), Gzip.compress builder.packedAt data)
  else none

/-- The map comes first, then the compressed copy, then the bundle. -/
def artifacts (builder : Builder) (target : Path) (name : String) (map : SourceMap)
    (contents : String) : List (Path × Bytes) :=
  let data := Utf8.encode (builder.bundleText name contents)
  (builder.mapFile? target name map).toList ++ (builder.gzipFile? target name data).toList ++
    [(target.joinText name, data)]

/-- What a build reports that wrote its files. -/
def deliveredResult (builder : Builder) (target : Path) (name : String) (map : SourceMap)
    (sources : List SourceFile) (contents : String) : BuildResult :=
  let data := Utf8.encode (builder.bundleText name contents)
  { success := true
    outputPath := some (target.joinText name)
    mapPath := (builder.mapFile? target name map).map Prod.fst
    gzipPath := (builder.gzipFile? target name data).map Prod.fst
    sources := sources.map SourceFile.origin
    size := data.length
    message := "Built " ++ name ++ " from " ++ toString sources.length ++ " source files" }

section Told

variable (builder : Builder) (target : Path) (name : String) (map : SourceMap)
  (sources : List SourceFile) (contents : String)

theorem mapPath_deliveredResult :
    (builder.deliveredResult target name map sources contents).mapPath =
      if builder.sourceMaps then some (target.joinText (Output.mapName name)) else none := by
  unfold deliveredResult mapFile?
  cases builder.sourceMaps <;> rfl

theorem gzipPath_deliveredResult :
    (builder.deliveredResult target name map sources contents).gzipPath =
      if builder.gzip then some (target.joinText (Output.gzipName name)) else none := by
  unfold deliveredResult gzipFile?
  cases builder.gzip <;> rfl

end Told

/-- The last step of a build. -/
def deliverFiles (builder : Builder) (target : Path) (files : List (Path × Bytes)) :
    Action Unit := do
  Action.makeDirectories target
  forM files fun file => builder.writeArtifact file.1 file.2

theorem observes_minifyContents (builder : Builder) (contents : String) :
    Observes anyEvent (builder.minifyContents contents) fun _ _ =>
      builder.minified contents := by
  unfold minifyContents minified
  cases builder.compilers with
  | nil => exact Observes.pure contents
  | cons first rest =>
      cases builder.minify with
      | false => exact Observes.pure contents
      | true =>
          simp only [if_true, Compiler.minify, Compiler.minifier]
          cases first.kind.minifier? with
          | none => exact Observes.pure contents
          | some name =>
              cases registered : Compiler.lookUp builder.registry name with
              | ok capability =>
                  simp only [Except.map, registered]
                  exact Observes.after (Observes.ofExcept (.ok (some (name, capability))))
                    (Compiler.observes_applied registered contents "" _)
              | error failure =>
                  simp only [Except.map, Compiler.applied, registered]
                  exact Observes.stop (Observes.fail failure)

/-- A name without a slash is one part of a path, or none. -/
theorem joinText_eq {target : Path} {name : String} (clean : '/' ∉ name.toList) :
    target.joinText name = ⟨target.anchor, target.parts ++ [name].filter Path.isPart⟩ := by
  have anchor : Path.anchorOf name.toList = .here := by
    unfold Path.anchorOf
    split <;> simp_all
  simp [Path.joinText, Path.join, Path.ofString, anchor, Text.splitOn_of_not_mem clean]

/-- The name of a file in a directory is the last part of its path. -/
theorem name_joinText {target : Path} {name : String} (clean : '/' ∉ name.toList)
    (isName : Path.isPart name = true) : (target.joinText name).name = name := by
  simp [joinText_eq clean, Path.name, isName]

/-- Files of one directory with different names have different paths. -/
theorem joinText_ne {target : Path} {name other : String} (clean : '/' ∉ name.toList)
    (otherClean : '/' ∉ other.toList) (isName : Path.isPart other = true) (apart : name ≠ other) :
    target.joinText name ≠ target.joinText other := by
  intro same
  rw [joinText_eq clean, joinText_eq otherClean, Path.mk.injEq, List.append_cancel_left_eq] at same
  by_cases isOther : Path.isPart name = true <;> simp [isName, isOther, apart] at same

theorem isPart_mapName (name : String) : Path.isPart (Output.mapName name) = true := by
  have long (text : String) (same : Output.mapName name = text) : 4 ≤ text.toList.length := by
    rw [← same]
    simp [Output.mapName]
  simp only [Path.isPart, bne_iff_ne, Bool.and_eq_true]
  constructor
  · intro same
    simpa using long "" same
  · intro same
    simpa using long "." same

theorem writeBundle_eq (builder : Builder) (target : Path) (name : String) (map : SourceMap)
    (sources : List SourceFile) (clean : '/' ∉ name.toList) :
    builder.writeBundle target name map sources = (do
      let text ← builder.minifyContents (joinSources sources)
      builder.deliverFiles target (builder.artifacts target name map text)
      return builder.deliveredResult target name map sources text) := by
  have mapNamed : (target.joinText (Output.mapName name)).name = Output.mapName name := by
    apply name_joinText
    · simpa [Output.mapName] using clean
    · exact isPart_mapName name
  cases builder with
  | mk registry base runtime verbose showsProgress compilers sourceMaps minify options gzip time
      built =>
      cases sourceMaps <;> cases gzip <;>
        simp [writeBundle, deliverFiles, writeMap, writeGzip, artifacts, deliveredResult, mapFile?,
          gzipFile?, bundleText, mapNamed]

/-- A refusal of the tree is a failure of the build. -/
def fileEffect {Value : Type} (stored : Except FileFault Value × Tree) :
    Except Failure Value × Tree :=
  (stored.1.mapError Failure.file, stored.2)

theorem performs_writeFile (path : Path) (contents : Bytes) :
    Performs (Action.writeFile path contents) fun tree directory =>
      fileEffect (tree.writeFiles directory [(path, contents)]) := by
  intro workspace
  refine ⟨[], ?_⟩
  simp only [Action.writeFile, run_bind, run_get, Tree.writeFiles]
  cases workspace.tree.write workspace.directory path contents <;> rfl

theorem performs_makeDirectories (path : Path) :
    Performs (Action.makeDirectories path) fun tree directory =>
      fileEffect (tree.makeDirectories directory path) := by
  intro workspace
  refine ⟨[], ?_⟩
  simp only [Action.makeDirectories, run_bind, run_get, run_set, fileEffect]
  cases (workspace.tree.makeDirectories workspace.directory path).1 <;> rfl

theorem observes_reportWritten (builder : Builder) (path : Path) (size : Nat) :
    Observes anyEvent (builder.reportWritten path size) fun _ _ => .ok () :=
  Observes.after (Observes.recordAny _) (Compiler.observes_printWhen _ _)

/-- A report changes nothing, so a file that is reported is a file that is written. -/
theorem performs_writeArtifact (builder : Builder) (path : Path) (contents : Bytes) :
    Performs (builder.writeArtifact path contents) fun tree directory =>
      fileEffect (tree.writeFiles directory [(path, contents)]) := by
  refine (Performs.bind (performs_writeFile path contents) fun _ =>
    (observes_reportWritten builder path contents.length).performs).congr ?_
  intro tree directory
  simp only [followedBy, fileEffect]
  rcases tree.writeFiles directory [(path, contents)] with ⟨result, changed⟩
  cases result <;> rfl

/-- Files are written as the tree takes them, up to the first one that it refuses. -/
theorem performs_writeArtifacts (builder : Builder) (files : List (Path × Bytes)) :
    Performs (forM files fun file => builder.writeArtifact file.1 file.2) fun tree directory =>
      fileEffect (tree.writeFiles directory files) := by
  induction files with
  | nil => exact Performs.pure ()
  | cons file rest inductionHypothesis =>
      rw [List.forM_cons]
      refine (Performs.bind (performs_writeArtifact builder file.1 file.2) fun _ =>
        inductionHypothesis).congr ?_
      intro tree directory
      simp only [followedBy, fileEffect, Tree.writeFiles]
      cases tree.write directory file.1 file.2 <;> rfl

theorem performs_deliverFiles (builder : Builder) (target : Path) (files : List (Path × Bytes)) :
    Performs (builder.deliverFiles target files) fun tree directory =>
      fileEffect (tree.deliver directory target files) := by
  refine (Performs.bind (performs_makeDirectories target) fun _ =>
    performs_writeArtifacts builder files).congr ?_
  intro tree directory
  simp only [followedBy, fileEffect, Tree.deliver]
  rcases tree.makeDirectories directory target with ⟨result, changed⟩
  cases result <;> rfl

end Builder

end AssetBundler

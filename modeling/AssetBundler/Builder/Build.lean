import AssetBundler.Builder.Basic
import AssetBundler.Decimal.Grouped
import AssetBundler.Gzip.Basic
import AssetBundler.SourceMap.Basic

/-!
Building of a bundle. The capabilities are looked up first. Then the sources are compiled and
joined, and nothing is written before that is done.
-/

namespace AssetBundler

/-- What a build gave. The paths are those of the files that it wrote. -/
structure BuildResult where
  success : Bool
  outputPath : Option Path := none
  mapPath : Option Path := none
  gzipPath : Option Path := none
  sources : List Path := []
  size : Nat := 0
  message : String := ""
  bundle : Option String := none
  deriving DecidableEq, Repr

namespace Builder

def logSource : String := "webbuild.build.builder"

def defaultOutput : String := "./compiled"

/-- Every name has to be registered. -/
def checkCapabilities (registry : Registry Capability) (dialect : Dialect) :
    List String → Action Unit
  | [] => return ()
  | name :: rest => do
      let _ ← Action.ofExcept (Compiler.lookUp registry name)
      Action.log logSource .debug
        ("Resolved capability '" ++ name ++ "' for " ++ dialect.name)
      checkCapabilities registry dialect rest

def checkCompilers (registry : Registry Capability) : List Compiler → Action Unit
  | [] => return ()
  | compiler :: rest => do
      checkCapabilities registry compiler.dialect compiler.requiredCapabilities
      checkCompilers registry rest

def checkMinifier (builder : Builder) : List String → Action Unit
  | [] => return ()
  | name :: rest => do
      let _ ← Action.ofExcept (Compiler.lookUp builder.registry name)
      checkMinifier builder rest

def reportWritten (builder : Builder) (path : Path) (size : Nat) : Action Unit := do
  Action.log logSource .debug ("Wrote " ++ path.toString)
  Action.printWhen builder.verbose
    ("Wrote " ++ path.toString ++ " (" ++ Decimal.grouped size ++ " bytes)")

/-- A file is written and reported. -/
def writeArtifact (builder : Builder) (path : Path) (contents : Bytes) : Action Unit := do
  Action.writeFile path contents
  builder.reportWritten path contents.length

/-- The sources by their paths from the directory of the map. -/
def sourceMapOf (name : String) (directory : Path) (sources : List SourceFile) : SourceMap :=
  ⟨name, sources.map fun source =>
    ((source.origin.relativeFrom directory).toString, source.contents)⟩

def joinSources (sources : List SourceFile) : String :=
  Text.joinLines (sources.map SourceFile.contents)

def minifyContents (builder : Builder) (contents : String) : Action String :=
  match builder.compilers with
  | [] => return contents
  | first :: _ =>
      if builder.minify then first.minify builder.registry contents builder.minifyOptions
      else return contents

/-- The map is written before the bundle, and its comment goes to the end of the bundle. -/
def writeMap (builder : Builder) (directory : Path) (name : String) (map : SourceMap)
    (contents : String) : Action (String × Option Path) := do
  if builder.sourceMaps then
    let path := directory.joinText (Output.mapName name)
    builder.writeArtifact path (Utf8.encode (map.render (!builder.minify)))
    return (contents ++ "\n" ++ SourceMap.comment path.name name, some path)
  else return (contents, none)

def writeGzip (builder : Builder) (directory : Path) (name : String) (data : Bytes) :
    Action (Option Path) := do
  if builder.gzip then
    let path := directory.joinText (Output.gzipName name)
    builder.writeArtifact path (Gzip.compress builder.packedAt data)
    return some path
  else return none

/-- The compiled sources are joined and written. -/
def writeBundle (builder : Builder) (directory : Path) (name : String) (map : SourceMap)
    (sources : List SourceFile) : Action BuildResult := do
  let contents ← builder.minifyContents (joinSources sources)
  Action.makeDirectories directory
  let (contents, mapPath) ← builder.writeMap directory name map contents
  let data := Utf8.encode contents
  let gzipPath ← builder.writeGzip directory name data
  let path := directory.joinText name
  builder.writeArtifact path data
  return {
    success := true
    outputPath := some path
    mapPath := mapPath
    gzipPath := gzipPath
    sources := sources.map SourceFile.origin
    size := data.length
    message := "Built " ++ name ++ " from " ++ toString sources.length ++ " source files" }

/-- Without a source nothing is written. -/
def emptyResult (name : String) : BuildResult :=
  { success := true, message := "No source files selected for " ++ name ++ "; nothing written" }

/-- The sources of all compilers. -/
def compileSources (builder : Builder) : Action (List SourceFile) := do
  checkCompilers builder.registry builder.compilers
  builder.checkMinifier builder.minifierNames
  let prepared ← Action.ofExcept
    (builder.compilers.mapM fun compiler => compiler.prepare builder.registry)
  let base ← Action.absolute builder.base
  if builder.showsProgress then Action.record .progress
  Stream.drain base prepared

def assemble (builder : Builder) (directory name : String) : Action BuildResult := do
  let sources ← builder.compileSources
  if sources.isEmpty then
    Action.log logSource .warning ("No source files selected for " ++ name)
    return emptyResult name
  else
    let target := builder.base.joinText directory
    let map := sourceMapOf name (← Action.absolute target) sources
    builder.writeBundle target name map sources

/-- A builder whose checks pass is frozen, whatever the build then gives. -/
def build (builder : Builder) (output : String) (workspace : Workspace) :
    Except Failure BuildResult × Builder × Workspace :=
  match builder.checkBuild output with
  | .error failure => (.error failure, builder, workspace)
  | .ok (directory, name) =>
      let frozen := builder.freeze
      let (result, workspace) := (frozen.assemble directory name).run workspace
      (result, frozen, workspace)

end Builder

end AssetBundler

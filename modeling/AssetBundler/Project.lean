import AssetBundler.Builder.Build
import AssetBundler.Builder.Definition
import AssetBundler.Capability.Adapters
import AssetBundler.Config.Basic

/-!
Building of the bundles that a project configures. The failure of one bundle is a result among the
others, and only an interruption ends the build.
-/

namespace AssetBundler

/-- Where the capabilities come from. Libraries are adapted anew for each bundle. -/
inductive Toolchain where
  | registered (registry : Registry Capability)
  | libraries (installed : Assoc Library)

namespace Toolchain

def logSource : String := "webbuild.build.capabilities"

def logNotices : List String → Action Unit
  | [] => return ()
  | notice :: rest => do
      Action.log logSource .debug notice
      logNotices rest

/-- A library that is not installed is noticed. -/
def registry : Toolchain → Action (Registry Capability)
  | .registered registry => return registry
  | .libraries installed => do
      logNotices (Capability.missingNotices installed)
      return Capability.standardRegistry installed

end Toolchain

structure Project where
  toolchain : Toolchain
  runtime : String
  verbose : Bool := false
  showsProgress : Bool := false

namespace Project

def findConfig (directory : Path) : Action (Option Path) := do
  let workspace ← get
  Action.ofExcept (Config.find? workspace.tree workspace.directory directory)

def loadConfigAt (path : Path) : Action Config := do
  let workspace ← get
  Action.ofExcept (Config.load workspace.tree workspace.directory path)

/-- A project without a configuration cannot be built. -/
def loadConfig (directory : Path) : Action Config := do
  match ← findConfig directory with
  | none => Action.fail (.project (.noConfig directory))
  | some path => loadConfigAt path

/-- The files that stood at the paths of the artifacts, which are then gone. -/
def removeArtifacts (directory : Path) : List String → Action (List Path)
  | [] => return []
  | name :: rest => do
      let path := directory.joinText name
      let removed ← Action.removeFile path
      let others ← removeArtifacts directory rest
      return if removed then path :: others else others

def clean (directory : Path) (output : String) : Action (List Path) := do
  let (folder, name) ← Action.ofExcept (Output.split output)
  removeArtifacts (directory.joinText folder) (Output.artifactNames name)

/-- A new builder without compilers. The time of its compressed copies is left zero, so trees that
it leaves are to be compared by what these copies hold. -/
def emptyBuilder (project : Project) (directory : Path) (verbose : Bool) : Action Builder := do
  let registry ← project.toolchain.registry
  return {
    registry := registry
    base := directory
    runtime := project.runtime
    verbose := verbose
    showsProgress := project.showsProgress }

/-- A builder is run for its result alone. -/
def runBuilder (builder : Builder) (output : String) : Action BuildResult :=
  ExceptT.mk fun workspace =>
    let (result, _, workspace) := builder.build output workspace
    (result, workspace)

/-- The configuration is loaded unless it is given. -/
def buildSteps (project : Project) (directory : Path) (name : String) (cleans verbose : Bool)
    (given : Option Config) : Action BuildResult := do
  let config ←
    match given with
    | some config => pure config
    | none => loadConfig directory
  Action.printWhen verbose ("[1/3] Loading bundle '" ++ name ++ "'...")
  let bundle ← Action.ofExcept (config.bundle name)
  Action.printWhen verbose ("      Output: " ++ bundle.output)
  Action.printWhen verbose
    ("      Sources: " ++ ", ".intercalate (bundle.sources.map SourceDefinition.name))
  let builder ← project.emptyBuilder directory verbose
  let builder ← Action.ofExcept (builder.ofDefinition bundle)
  if cleans then
    Action.printWhen verbose "[2/3] Removing previous artifacts..."
    let _ ← clean directory bundle.output
  Action.printWhen verbose "[3/3] Building bundle..."
  let result ← runBuilder builder bundle.output
  return { result with bundle := some name }

/-- The message of a failure that is not reported by itself is marked. -/
def failureMessage (failure : Failure) : String :=
  if failure.isReported then failure.message else "Unexpected error: " ++ failure.message

def failedResult (name : String) (failure : Failure) : BuildResult :=
  { success := false, message := failureMessage failure, bundle := some name }

/-- Every failure becomes a result, but an interruption ends the build. -/
def buildBundle (project : Project) (directory : Path) (name : String)
    (cleans : Bool) (verbose : Option Bool) (given : Option Config) : Action BuildResult := do
  let directory ← Action.absolute directory
  let steps := project.buildSteps directory name cleans (verbose.getD project.verbose) given
  match ← Action.attempt steps with
  | .ok result => return result
  | .error failure =>
      if failure.isInterruption then Action.fail failure else return failedResult name failure

def buildAll (project : Project) (directory : Path) (cleans : Bool) (verbose : Option Bool)
    (config : Config) : List String → Action (List BuildResult)
  | [] => return []
  | name :: rest => do
      let result ← project.buildBundle directory name cleans verbose (some config)
      let results ← project.buildAll directory cleans verbose config rest
      return result :: results

/-- A fault of the configuration becomes a fault of the project. -/
def asProjectFault : Failure → Failure
  | .config fault => .project (.config fault)
  | failure => failure

def raiseAsProject {Value : Type} (action : Action Value) : Action Value := do
  match ← Action.attempt action with
  | .ok value => return value
  | .error failure => Action.fail (asProjectFault failure)

/-- The configuration, and the bundles that are asked for or else the default ones. -/
def choose (directory : Path) (bundles : List String) : Action (Config × List String) := do
  let config ← loadConfig directory
  if bundles.isEmpty then return (config, ← Action.ofExcept config.defaultBundles)
  else return (config, bundles)

/-- One result for each bundle, in their order. -/
def build (project : Project) (directory : Path) (bundles : List String) (cleans : Bool)
    (verbose : Option Bool) : Action (List BuildResult) := do
  let directory ← Action.absolute directory
  let (config, names) ← raiseAsProject (choose directory bundles)
  if names.isEmpty then Action.fail (.project .noBundles)
  else
    project.buildAll directory cleans (some (verbose.getD project.verbose)) config names

/-- The configuration of a directory that has to hold one. -/
def openConfig (directory : Path) : Action Config := do
  match ← findConfig directory with
  | none => Action.fail (.noConfigFile directory)
  | some path => loadConfigAt path

/-- The bundles to build: those that are asked for, if all of them are known, or the default
ones. -/
def select (directory : Path) (bundles : List String) : Action (List String) := do
  let config ← openConfig directory
  if bundles.isEmpty then
    let selected ← Action.ofExcept config.defaultBundles
    if selected.isEmpty then Action.fail (.choice .noBundles) else return selected
  else
    let unknown := bundles.filter fun name => !config.hasBundle name
    if unknown.isEmpty then return bundles
    else Action.fail (.choice (.unknownBundles unknown config.bundles))

end Project

end AssetBundler

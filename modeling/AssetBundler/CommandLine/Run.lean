import AssetBundler.CommandLine.Invocation
import AssetBundler.Console
import AssetBundler.Project

/-!
Running of a command line. The answer is the exit code, and everything that is shown is recorded.
-/

namespace AssetBundler.CommandLine

def red : String := "\x1b[1;31m"

def green : String := "\x1b[1;32m"

def yellow : String := "\x1b[1;33m"

def plain : String := "\x1b[0m"

/-- A title in red, and the message between blank lines. -/
def showError (title message : String) : Action Unit := do
  Action.printLine ""
  Action.printLine (red ++ "✗ " ++ title ++ plain)
  Action.printLine ""
  Action.printLine message
  Action.printLine ""

def showSuccess (message : String) : Action Unit := do
  Action.printLine ""
  Action.printLine (green ++ "✓ " ++ message ++ plain)

def showWarning (message : String) : Action Unit := do
  Action.printLine ""
  Action.printLine (yellow ++ "✗ " ++ message ++ plain)

/-- A failure without a title of its own is shown with its label, and on demand with a trace. -/
def showUnexpected (failure : Failure) (verbose : Bool) : Action Nat := do
  let text := failure.label ++ ": " ++ failure.message
  showError "Unexpected error" text
  if verbose then
    Action.printLine "Traceback:"
    Action.printLine (text ++ "\n")
  return 1

def showMissingFile (failure : Failure) : Action Nat := do
  showError "Error: File not found" failure.message
  Action.printLine
    ("Make sure you're in a webbuild project directory with a " ++ configName ++ " file.")
  return 1

def showConfigFault (failure : Failure) : Action Nat := do
  showError ("Error: Invalid " ++ configName) failure.message
  return 1

def isConfigFault : Failure → Bool
  | .config _ => true
  | _ => false

def isProjectFault : Failure → Bool
  | .project _ => true
  | _ => false

/-- The exit code after a failed build. -/
def showBuildFailure (failure : Failure) (verbose : Bool) : Action Nat := do
  if failure.isMissingFile then showMissingFile failure
  else if isConfigFault failure then showConfigFault failure
  else if failure.isValueFault then
    showError "Error: Invalid bundle selection" failure.message
    return 1
  else if isProjectFault failure then
    showError "Build failed!" failure.message
    return 1
  else if failure.isInterruption then
    showWarning "Build interrupted"
    return 130
  else showUnexpected failure verbose

/-- The exit code after a failed listing. -/
def showListFailure (failure : Failure) : Action Nat := do
  if failure.isMissingFile then showMissingFile failure
  else if isConfigFault failure then showConfigFault failure
  else showUnexpected failure false

def showBuilt (result : BuildResult) : Action Unit := do
  showSuccess ("Bundle '" ++ result.bundle.getD "" ++ "' built")
  match result.outputPath with
  | none => Action.printLine result.message
  | some path =>
      Action.printLine
        ("Output:     " ++ path.toString ++ " (" ++ Decimal.grouped result.size ++ " bytes)")
      match result.mapPath with
      | some path => Action.printLine ("Source map: " ++ path.toString)
      | none => pure ()
      match result.gzipPath with
      | some path => Action.printLine ("Gzip:       " ++ path.toString)
      | none => pure ()
      Action.printLine ("Sources:    " ++ toString result.sources.length ++ " files")

def showResults : List BuildResult → Action Unit
  | [] => return ()
  | result :: rest => do
      if result.success then showBuilt result
      else showError ("Bundle '" ++ result.bundle.getD "" ++ "' failed!") result.message
      showResults rest

/-- The names of the bundles, which cannot be listed when one of them has no name. -/
def namesOf (bundles : List (Option String)) : Except Failure (List String) :=
  match bundles.findIdx? Option.isNone with
  | some position => .error (.namelessBundle position)
  | none => .ok bundles.reduceOption

/-- A bundle without a name is looked up under an empty list. -/
def isKnown (config : Config) (bundle : Option String) : Bool :=
  config.hasBundle (bundle.getD "[]")

/-- The bundles to build. A bundle without a name is no more than looked up. -/
def selectBundles (directory : Path) (bundles : List (Option String)) :
    Action (List (Option String)) := do
  if bundles.all Option.isSome then
    return (← Project.select directory bundles.reduceOption).map some
  else
    let config ← Project.openConfig directory
    let unknown := bundles.filter fun bundle => !isKnown config bundle
    if unknown.isEmpty then return bundles
    else
      let names ← Action.ofExcept (namesOf unknown)
      Action.fail (.choice (.unknownBundles names config.bundles))

def showPlan (arguments : Arguments) (directory : Path) (bundles : List (Option String)) :
    Action (List String) := do
  Action.printWhen arguments.verbose ("Building project: " ++ directory.toString)
  let names ← Action.ofExcept (namesOf bundles)
  let line := ", ".intercalate names
  if arguments.verbose then
    Action.printLine ("Bundles: " ++ line)
    Action.printLine ""
  else Action.printLine ("Building bundles: " ++ line ++ "...")
  return names

def buildSteps (toolchain : Toolchain) (runtime : String) (arguments : Arguments)
    (directory : Path) : Action Nat := do
  let bundles ← selectBundles directory arguments.bundles
  let bundles ← showPlan arguments directory bundles
  let project : Project := ⟨toolchain, runtime, arguments.verbose, arguments.progress⟩
  let results ← project.build directory bundles arguments.clean (some arguments.verbose)
  showResults results
  Action.printLine ""
  Action.record .buildTime
  return if results.all BuildResult.success then 0 else 1

def runBuild (toolchain : Toolchain) (runtime : String) (arguments : Arguments)
    (directory : Path) : Action Nat := do
  Action.printLine ("webbuild v" ++ programVersion)
  Action.printLine ""
  match ← Action.attempt (buildSteps toolchain runtime arguments directory) with
  | .ok code => return code
  | .error failure => showBuildFailure failure arguments.verbose

/-- Names are padded to sixteen characters. -/
def padName (name : String) : String :=
  name ++ String.ofList (List.replicate (16 - name.length) ' ')

/-- A star marks the bundles that are built by default. -/
def listBundles (config : Config) (defaults : List String) : List String → Action Unit
  | [] => return ()
  | name :: rest => do
      let bundle ← Action.ofExcept (config.bundle name)
      let mark := if defaults.contains name then "*" else " "
      let sources := ", ".intercalate (bundle.sources.map SourceDefinition.name)
      Action.printLine
        (mark ++ " " ++ padName name ++ " " ++ bundle.output ++ "  [" ++ sources ++ "]")
      listBundles config defaults rest

def listSteps (directory : Path) : Action Nat := do
  let config ← Project.openConfig directory
  let defaults ← Action.ofExcept config.defaultBundles
  listBundles config defaults config.bundles
  return 0

def runList (directory : Path) : Action Nat := do
  match ← Action.attempt (listSteps directory) with
  | .ok code => return code
  | .error failure => showListFailure failure

def refuse (message : String) : Action Nat := do
  Action.printLine (red ++ "✗ Error: " ++ message ++ plain)
  return 2

/-- A command runs in a directory that exists. -/
def inDirectory (directory : Path) (command : Action Nat) : Action Nat := do
  let workspace ← get
  match workspace.tree.probe workspace.directory directory with
  | .error fault => Action.fail (.file fault)
  | .ok none => refuse ("Path does not exist: " ++ directory.toString)
  | .ok (some .directory) => command
  | .ok (some _) => refuse ("Path is not a directory: " ++ directory.toString)

/-- The current directory serves when none is named. -/
def directoryOf (arguments : Arguments) : Action Path := do
  match arguments.directory with
  | some text => return Path.ofString text
  | none => return ⟨.root, (← get).directory⟩

def runHalt : Halt → Action Nat
  | .help grammar => do
      Action.record (.output grammar.help)
      return 0
  | .version => do
      Action.printLine ("webbuild " ++ programVersion)
      return 0
  | .misuse grammar message => do
      Action.record (.complaint grammar.usage)
      Action.record (.complaint (grammar.program ++ ": error: " ++ message ++ "\n"))
      return 2

def runInvocation (toolchain : Toolchain) (runtime : String) :
    Invocation → Action Nat
  | .halt cause => runHalt cause
  | .build arguments => do
      let directory ← directoryOf arguments
      inDirectory directory (runBuild toolchain runtime arguments directory)
  | .list arguments => do
      let directory ← directoryOf arguments
      inDirectory directory (runList directory)

def run (toolchain : Toolchain) (runtime : String) (arguments : List String) : Action Nat :=
  runInvocation toolchain runtime (parse arguments)

/-- Log records below the level of a warning are only shown on demand. -/
def showsLevel (arguments : List String) (level : Level) : Bool :=
  match parse arguments, level with
  | _, .warning => true
  | .build given, .debug => given.verbose
  | _, .debug => false

end AssetBundler.CommandLine

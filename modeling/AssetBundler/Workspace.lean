import AssetBundler.Failure
import AssetBundler.Selection

/-!
The surroundings of a build: the tree, the current directory, and a record of what the build did
that can be observed. An action may fail, and what it did before stays done.
-/

namespace AssetBundler

inductive Level where
  | debug
  | warning
  deriving DecidableEq, Repr

def Level.name : Level → String
  | .debug => "DEBUG"
  | .warning => "WARNING"

/-- What can be observed of a build. The time that a build took is only known outside. -/
inductive Event where
  | log (source : String) (level : Level) (message : String)
  | output (text : String)
  | complaint (text : String)
  | progress
  | buildTime
  | read (path : Path)
  | called (capability subject : String)
  deriving DecidableEq, Repr

/-- The last event comes first. -/
structure Workspace where
  tree : Tree
  directory : Location
  events : List Event := []
  deriving DecidableEq, Repr

/-- An action changes the surroundings and gives a value or a failure. -/
abbrev Action (Value : Type) := ExceptT Failure (StateM Workspace) Value

namespace Action

def run {Value : Type} (action : Action Value) (workspace : Workspace) :
    Except Failure Value × Workspace :=
  StateT.run (ExceptT.run action) workspace

def fail {Value : Type} (failure : Failure) : Action Value := throw failure

def ofExcept {Value : Type} (result : Except Failure Value) : Action Value :=
  match result with
  | .ok value => pure value
  | .error failure => fail failure

/-- A failure becomes a value. -/
def attempt {Value : Type} (action : Action Value) : Action (Except Failure Value) :=
  ExceptT.mk do
    let result ← ExceptT.run action
    return .ok result

def record (event : Event) : Action Unit :=
  modify fun workspace => { workspace with events := event :: workspace.events }

def log (source : String) (level : Level) (message : String) : Action Unit :=
  record (.log source level message)

def printLine (text : String) : Action Unit := record (.output (text ++ "\n"))

def printWhen (condition : Bool) (text : String) : Action Unit :=
  if condition then printLine text else pure ()

/-- A path with the current directory before it, without steps up. -/
def absolute (path : Path) : Action Path := do
  return path.absolute ⟨.root, (← get).directory⟩

def expand (base : Path) (patterns : List String) : Action (List Path) := do
  ofExcept (Selection.expand (← get).tree base patterns)

def readSource (base path : Path) : Action SourceFile := do
  record (.read path)
  ofExcept (Selection.read (← get).tree base path)

def call (name : String) (capability : Capability) (contents subject : String)
    (options : Options) : Action String := do
  record (.called name subject)
  match capability contents subject options with
  | .ok text => return text
  | .error fault => fail (.capability fault)

def makeDirectories (path : Path) : Action Unit := do
  let workspace ← get
  let (result, tree) := workspace.tree.makeDirectories workspace.directory path
  set { workspace with tree := tree }
  match result with
  | .ok () => return ()
  | .error fault => fail (.file fault)

def writeFile (path : Path) (contents : Bytes) : Action Unit := do
  let workspace ← get
  match workspace.tree.write workspace.directory path contents with
  | .ok tree => set { workspace with tree := tree }
  | .error fault => fail (.file fault)

/-- Whether a file stood at the path, which is then gone. -/
def removeFile (path : Path) : Action Bool := do
  let workspace ← get
  match workspace.tree.isFile workspace.directory path with
  | .error fault => fail (.file fault)
  | .ok false => return false
  | .ok true =>
      match workspace.tree.remove workspace.directory path with
      | .ok tree =>
          set { workspace with tree := tree }
          return true
      | .error fault => fail (.file fault)

end Action

end AssetBundler

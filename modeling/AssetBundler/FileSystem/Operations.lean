import AssetBundler.FileSystem.Walk

/-!
Reading and changing files by their paths.
-/

namespace AssetBundler

/-- A refused path is shown with its number. A path with a null character is not even tried. -/
inductive FileFault where
  | refused (refusal : Refusal) (path : Path)
  | nullCharacter
  deriving DecidableEq, Repr

def FileFault.message : FileFault → String
  | .refused refusal path =>
      "[Errno " ++ toString refusal.number ++ "] " ++ refusal.message ++ ": " ++
        Text.quoted path.toString
  | .nullCharacter => "embedded null byte"

namespace Tree

def holdsNull (path : Path) : Bool := path.toString.toList.contains '\x00'

/-- The node behind a path, if there is one. Only a name that is too long is a fault. -/
def probe (tree : Tree) (directory : Location) (path : Path) :
    Except FileFault (Option Node) :=
  if holdsNull path then .ok none
  else
    match tree.status directory path with
    | .ok node => .ok (some node)
    | .error .nameTooLong => .error (.refused .nameTooLong path)
    | .error _ => .ok none

def isFileNode : Node → Bool
  | .file _ => true
  | _ => false

def isFile (tree : Tree) (directory : Location) (path : Path) : Except FileFault Bool :=
  (tree.probe directory path).map (·.any isFileNode)

def isDirectory (tree : Tree) (directory : Location) (path : Path) : Except FileFault Bool :=
  (tree.probe directory path).map (· == some .directory)

def hasNode (tree : Tree) (directory : Location) (path : Path) : Except FileFault Bool :=
  (tree.probe directory path).map (·.isSome)

def read (tree : Tree) (directory : Location) (path : Path) : Except FileFault Bytes :=
  if holdsNull path then .error .nullCharacter
  else
    match tree.status directory path with
    | .ok (.file contents) => .ok contents
    | .ok _ => .error (.refused .isDirectory path)
    | .error refusal => .error (.refused refusal path)

/-- A file is replaced, also behind a link, or it is created where its directory exists. -/
def write (tree : Tree) (directory : Location) (path : Path) (contents : Bytes) :
    Except FileFault Tree :=
  if holdsNull path then .error .nullCharacter
  else
    match tree.locate directory true path with
    | .error refusal => .error (.refused refusal path)
    | .ok location =>
        if tree.get? location = some .directory then .error (.refused .isDirectory path)
        else .ok (tree.set location (.file contents))

/-- The node at a path goes. A link goes itself and not what it leads to. -/
def remove (tree : Tree) (directory : Location) (path : Path) : Except FileFault Tree :=
  match tree.locate directory false path with
  | .error refusal => .error (.refused refusal path)
  | .ok location => .ok (tree.erase location)

/-- One directory is created. A last step that is no name leads to something that exists. -/
def makeDirectory (tree : Tree) (directory : Location) (path : Path) : Except FileFault Tree :=
  if holdsNull path then .error .nullCharacter
  else
    match tree.locate directory false path with
    | .error refusal => .error (.refused refusal path)
    | .ok location =>
        match tree.get? location with
        | some _ => .error (.refused .exists path)
        | none => .ok (tree.set location .directory)

/-- A fault is forgiven where a directory stands already. -/
def forgive (tree : Tree) (directory : Location) (path : Path) (fault : FileFault) :
    Except FileFault Unit × Tree :=
  match fault, tree.isDirectory directory path with
  | .refused _ _, .ok true => (.ok (), tree)
  | _, _ => (.error fault, tree)

/-- A missing parent is created first. What was created stays when a later step fails. -/
def makeDirectories (tree : Tree) (directory : Location) (path : Path) :
    Except FileFault Unit × Tree :=
  match tree.makeDirectory directory path with
  | .ok made => (.ok (), made)
  | .error (.refused .missing refused) =>
      if path.parts = [] then (.error (.refused .missing refused), tree)
      else
        match tree.makeDirectories directory path.parent with
        | (.error fault, made) => (.error fault, made)
        | (.ok (), made) =>
            match made.makeDirectory directory path with
            | .ok made => (.ok (), made)
            | .error (.refused .missing refused) => (.error (.refused .missing refused), made)
            | .error fault => made.forgive directory path fault
  | .error fault => tree.forgive directory path fault
  termination_by path.parts.length
  decreasing_by
    have := List.length_pos_iff.mpr (by assumption)
    simp only [Path.parent, List.length_dropLast]
    omega

end Tree

end AssetBundler

import AssetBundler.FileSystem.Operations
import AssetBundler.FileSystem.Wildcard

/-!
Search for files by patterns. A segment of two stars stands for any number of directories. Names
that start with a point are only found by patterns that start with a point.
-/

namespace AssetBundler.Glob

def isHidden (name : String) : Bool := name.startsWith "."

def isRecursive (segment : String) : Bool := segment == "**"

/-- A path has at most so many parts. -/
def depthLimit : Nat := Tree.pathLimit

def isDirectoryAt (tree : Tree) (path : Path) : Bool :=
  match tree.status [] path with
  | .ok .directory => true
  | _ => false

def isFileAt (tree : Tree) (path : Path) : Bool :=
  match tree.status [] path with
  | .ok (.file _) => true
  | _ => false

/-- The names in a directory. Anything else holds none. -/
def namesIn (tree : Tree) (path : Path) : List String :=
  match tree.locate [] true path with
  | .ok location =>
      match tree.get? location with
      | some .directory => tree.children location
      | _ => []
  | .error _ => []

def child (path : Path) (name : String) : Path := ⟨path.anchor, path.parts ++ [name]⟩

/-- The entries of a directory, or those of them that are directories. -/
def entries (tree : Tree) (onlyDirectories : Bool) (path : Path) : List String :=
  (namesIn tree path).filter fun name =>
    !onlyDirectories || isDirectoryAt tree (child path name)

/-- Everything below a directory that is not hidden on the way. -/
def descend (tree : Tree) (onlyDirectories : Bool) (depth : Nat) (path : Path) : List Path :=
  match depth with
  | 0 => []
  | depth + 1 =>
      ((entries tree onlyDirectories path).filter fun name => !isHidden name).flatMap fun name =>
        child path name :: descend tree onlyDirectories depth (child path name)

/-- The paths that a segment leads to from a path. Two stars lead to a directory itself too, but
not to a file. Before the last segment only directories count. -/
def follow (tree : Tree) (isLast : Bool) (segment : String) (path : Path) : List Path :=
  if isRecursive segment then
    if isDirectoryAt tree path then path :: descend tree (!isLast) depthLimit path else []
  else if Wildcard.isMagic segment then
    let found := (entries tree (!isLast) path).filter fun name =>
      (isHidden segment || !isHidden name) && Wildcard.matchesName segment name
    found.map (child path)
  else [child path segment]

def followAll (tree : Tree) (paths : List Path) : List String → List Path
  | [] => paths
  | segment :: rest =>
      followAll tree (paths.flatMap (follow tree rest.isEmpty segment)) rest

/-- The segments before the first one with a wildcard name a directory. -/
def splitMagic (segments : List String) : List String × List String :=
  (segments.takeWhile fun segment => !Wildcard.isMagic segment,
    segments.dropWhile fun segment => !Wildcard.isMagic segment)

/-- Where the literal segments lead to. -/
def startOf (base : Path) (pattern : String) (literal : List String) : Path :=
  match Path.anchorOf pattern.toList with
  | .here => ⟨base.anchor, base.parts ++ literal⟩
  | anchor => ⟨anchor, literal⟩

/-- A base whose own name has wildcards is searched for name by name, and then a name that cannot
exist is just not found. -/
def isSearched (base : Path) (pattern : String) : Bool :=
  Path.anchorOf pattern.toList == .here && base.parts.any Wildcard.isMagic

/-- The files that a pattern finds from a base, each with the path by which it was found. A
pattern that ends with a slash finds no file. -/
def files (tree : Tree) (base : Path) (pattern : String) : Except FileFault (List Path) :=
  let (literal, magic) := splitMagic ((Text.splitOn '/' pattern).filter (· != ""))
  let start := startOf base pattern literal
  if Tree.holdsNull start then if isSearched base pattern then .ok [] else .error .nullCharacter
  else if pattern.endsWith "/" then .ok []
  else .ok ((followAll tree [start] magic).filter (isFileAt tree))

end AssetBundler.Glob

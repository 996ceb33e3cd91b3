import AssetBundler.Failure
import AssetBundler.FileSystem.Glob
import AssetBundler.SourceFile

/-!
Selection of source files by patterns. A pattern without wildcards names one file. So does a
pattern that is the path of an existing file, whatever its characters.
-/

namespace AssetBundler.Selection

/-- The absolute path that a pattern would name literally. -/
def literalPath (base : Path) (pattern : String) : Path :=
  (base.joinText pattern).normalize

/-- The files of one pattern in the order of their paths. -/
@[irreducible] def expandPattern (tree : Tree) (base : Path) (pattern : String) :
    Except Failure (List Path) :=
  let literal := literalPath base pattern
  match tree.isFile [] literal with
  | .error fault => .error (.file fault)
  | .ok true => .ok [literal]
  | .ok false =>
      if !Wildcard.isMagic pattern then .error (.selection (.notFound pattern))
      else
        match Glob.files tree base pattern with
        | .error fault => .error (.file fault)
        | .ok found => .ok (Path.sort (found.map Path.normalize))

/-- A path that was selected before is not selected again. -/
def addNew (selected found : List Path) : List Path :=
  found.foldl (fun selected path =>
    if selected.contains path then selected else selected ++ [path]) selected

/-- The files of all patterns. A file belongs to the first pattern that finds it. -/
def expandFrom (tree : Tree) (base : Path) (selected : List Path) :
    List String → Except Failure (List Path)
  | [] => .ok selected
  | pattern :: rest =>
      match expandPattern tree base pattern with
      | .error failure => .error failure
      | .ok found => expandFrom tree base (addNew selected found) rest

def expand (tree : Tree) (base : Path) (patterns : List String) : Except Failure (List Path) :=
  expandFrom tree base [] patterns

/-- Every line end of a source becomes a line feed. -/
def readText (bytes : Bytes) : Except Utf8.Fault String :=
  (Utf8.decode bytes).map fun text => String.ofList (Text.unifyNewlines text.toList)

def read (tree : Tree) (base path : Path) : Except Failure SourceFile :=
  match tree.read [] path with
  | .error fault => .error (.selection (.unreadable path (.file fault)))
  | .ok bytes =>
      match readText bytes with
      | .ok text => .ok (.ofPath path base text)
      | .error fault => .error (.selection (.unreadable path (.undecodable fault)))

/-- The sources in their order, and the failure that ended the reading. -/
def scan (tree : Tree) (base : Path) (patterns : List String) :
    List SourceFile × Option Failure :=
  match expand tree base patterns with
  | .error failure => ([], some failure)
  | .ok paths => readAll tree base paths
where
  /-- The files are read up to the first one that cannot be read. -/
  readAll (tree : Tree) (base : Path) : List Path → List SourceFile × Option Failure
    | [] => ([], none)
    | path :: rest =>
        match read tree base path with
        | .error failure => ([], some failure)
        | .ok source =>
            let (sources, failure) := readAll tree base rest
            (source :: sources, failure)

end AssetBundler.Selection

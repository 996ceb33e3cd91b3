import AssetBundler.FileSystem.Tree
import AssetBundler.Gzip.Basic

/-!
What differs between two trees. What a tree shows is told apart from what it holds: a compressed
copy shows its contents.
-/

namespace AssetBundler

/-- What a node shows. Links and directories show themselves. -/
inductive View where
  | node (node : Node)
  | packed (contents : Bytes)
  deriving DecidableEq, Repr

/-- A file whose name is that of a compressed copy shows the contents of the copy. -/
def Node.view (name : String) : Node → View
  | .file bytes =>
      if name.endsWith ".gz" then
        match Gzip.decompress bytes with
        | some contents => .packed contents
        | none => .node (.file bytes)
      else .node (.file bytes)
  | node => .node node

namespace Tree

def isDirectoryNode : Node → Bool
  | .directory => true
  | _ => false

/-- What the node at a location shows. -/
def view? (tree : Tree) (location : Location) : Option View :=
  (tree.get? location).map (Node.view (location.getLast?.getD ""))

/-- The files and links that are new or differ. -/
def written (before after : Tree) : List (Location × Node) :=
  after.nodes.filter fun entry =>
    !isDirectoryNode entry.2 && before.get? entry.1 != some entry.2

/-- Those of them that also show something else than before. -/
def altered (before after : Tree) : List (Location × View) :=
  (before.written after).filterMap fun entry =>
    let shown := entry.2.view (entry.1.getLast?.getD "")
    if before.view? entry.1 = some shown then none else some (entry.1, shown)

/-- The locations of files and links that are gone. -/
def removed (before after : Tree) : List Location :=
  (before.nodes.filter fun entry =>
      !isDirectoryNode entry.2 && !(after.get? entry.1).any fun node => !isDirectoryNode node)
    |>.map Prod.fst

/-- The locations of directories that are new. -/
def created (before after : Tree) : List Location :=
  (after.nodes.filter fun entry =>
      isDirectoryNode entry.2 && before.get? entry.1 != some .directory)
    |>.map Prod.fst

end Tree

end AssetBundler

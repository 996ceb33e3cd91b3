import AssetBundler.Text.Utf8

/-!
Trees of files. A tree is a table from locations to nodes, and the root is always a directory.
-/

namespace AssetBundler

/-- What stands at a location. -/
inductive Node where
  | directory
  | file (contents : Bytes)
  | link (target : String)
  deriving DecidableEq, Repr

/-- The names from the root down. -/
abbrev Location := List String

structure Tree where
  nodes : List (Location × Node) := []
  deriving DecidableEq, Repr

namespace Tree

def look (nodes : List (Location × Node)) (location : Location) : Option Node :=
  match nodes with
  | [] => none
  | (present, node) :: rest => if present = location then some node else look rest location

def get? (tree : Tree) (location : Location) : Option Node :=
  if location = [] then some .directory else look tree.nodes location

def replace (nodes : List (Location × Node)) (location : Location) (node : Node) :
    List (Location × Node) :=
  match nodes with
  | [] => [(location, node)]
  | (present, old) :: rest =>
      if present = location then (location, node) :: rest
      else (present, old) :: replace rest location node

/-- The node at a location is replaced, or entered when there is none. -/
def set (tree : Tree) (location : Location) (node : Node) : Tree :=
  ⟨replace tree.nodes location node⟩

/-- The node at a location goes. -/
def erase (tree : Tree) (location : Location) : Tree :=
  ⟨tree.nodes.filter fun entry => entry.1 != location⟩

/-- The node at a location goes with all nodes below it. -/
def eraseBelow (tree : Tree) (location : Location) : Tree :=
  ⟨tree.nodes.filter fun entry => !location.isPrefixOf entry.1⟩

/-- The names of the nodes right below a location. -/
def children (tree : Tree) (location : Location) : List String :=
  tree.nodes.filterMap fun entry =>
    if entry.1.dropLast = location then entry.1.getLast? else none

theorem look_replace (nodes : List (Location × Node)) (location other : Location)
    (node : Node) :
    look (replace nodes location node) other =
      if location = other then some node else look nodes other := by
  induction nodes with
  | nil => simp [replace, look]
  | cons entry rest inductionHypothesis =>
      by_cases same : entry.1 = location
      · subst same
        by_cases asked : entry.1 = other <;> simp [replace, look, asked]
      · rw [replace, if_neg same, look, look, inductionHypothesis]
        by_cases asked : entry.1 = other
        · have apart : location ≠ other := fun equal => same (asked.trans equal.symm)
          simp [asked, apart]
        · simp [asked]

theorem get?_set (tree : Tree) (location other : Location) (node : Node)
    (below : location ≠ []) :
    (tree.set location node).get? other =
      if location = other then some node else tree.get? other := by
  unfold get? set
  rw [look_replace]
  by_cases root : other = []
  · subst root
    simp [below]
  · simp [root]

end Tree

end AssetBundler

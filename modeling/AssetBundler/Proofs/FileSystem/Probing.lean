import AssetBundler.Proofs.FileSystem.Growth
import AssetBundler.Proofs.FileSystem.Removal

/-!
What a path shows. It stays the same in a tree that keeps the directories and the node at its place.
-/

namespace AssetBundler.Tree

variable {tree other left : Tree} {directory : Location} {path : Path} {locations : List Location}

/-- All directories stay, and so do all nodes but those at the locations. -/
structure Spares (tree left : Tree) (locations : List Location) : Prop where
  free : left.IsLinkFree
  directory : ∀ location, tree.get? location = some .directory →
    left.get? location = some .directory
  others : ∀ location ∉ locations, ∀ node, tree.get? location = some node →
    left.get? location = some node

theorem HasCleared.spares (cleared : tree.HasCleared left locations) (free : tree.IsLinkFree) :
    tree.Spares left locations := by
  refine ⟨cleared.isLinkFree free, fun location => (cleared.sameDirectories location).mp, ?_⟩
  intro location isOther node found
  rw [cleared, if_neg isOther, found]

theorem GrowsTo.spares {way : List Location} (growth : tree.GrowsTo left way locations) :
    tree.Spares left locations := by
  refine ⟨growth.grownFree, fun _ => growth.directory, ?_⟩
  intro location isOther node found
  rcases growth.get? location with same | ⟨-, missing, -⟩ | ⟨isPlace, -⟩
  · exact same.trans found
  · cases missing.symm.trans found
  · exact absurd isPlace isOther

theorem Spares.trans {last : Tree} (spares : tree.Spares left locations)
    (next : left.Spares last locations) : tree.Spares last locations :=
  ⟨next.free, fun location found => next.directory location (spares.directory location found),
    fun location isOther node found =>
      next.others location isOther node (spares.others location isOther node found)⟩

theorem Spares.mono {others : List Location} (spares : tree.Spares left locations)
    (among : ∀ location ∈ locations, location ∈ others) : tree.Spares left others :=
  ⟨spares.free, spares.directory, fun location isOther =>
    spares.others location fun isOne => isOther (among location isOne)⟩

theorem probe_eq_some {node : Node} : tree.probe directory path = .ok (some node) ↔
    holdsNull path = false ∧ tree.status directory path = .ok node := by
  unfold probe
  cases holdsNull path with
  | true => simp
  | false =>
      cases tree.status directory path with
      | error refusal => cases refusal <;> simp
      | ok found => simp

theorem status_eq_ok {node : Node} : tree.status directory path = .ok node ↔
    ∃ location, tree.locate directory true path = .ok location ∧
      tree.get? location = some node := by
  unfold status
  cases tree.locate directory true path with
  | error refusal => simp [bind, Except.bind]
  | ok location =>
      cases found : tree.get? location <;>
        simp [bind, Except.bind, pure, Except.pure, found]

/-- Where a node is seen, the same is read from it. -/
theorem read_of_probe {node : Node} (seen : tree.probe directory path = .ok (some node))
    (otherSeen : other.probe directory path = .ok (some node)) :
    tree.read directory path = other.read directory path :=
  read_congr ((probe_eq_some.mp seen).2.trans (probe_eq_some.mp otherSeen).2.symm)

/-- A node is seen as long as the directories before it stay. -/
theorem probe_of_keeps {node : Node} (free : tree.IsLinkFree) (otherFree : other.IsLinkFree)
    (kept : ∀ location, tree.get? location = some .directory →
      other.get? location = some .directory)
    (stays : tree.get? (path.place directory) = some node →
      other.get? (path.place directory) = some node)
    (seen : tree.probe directory path = .ok (some node)) :
    other.probe directory path = .ok (some node) := by
  obtain ⟨clean, status⟩ := probe_eq_some.mp seen
  obtain ⟨location, located, found⟩ := status_eq_ok.mp status
  obtain ⟨rfl, -⟩ := locate_place (free.isClear _) located
  refine probe_eq_some.mpr ⟨clean, status_eq_ok.mpr ⟨_, ?_, stays found⟩⟩
  exact locate_transfer (free.isClear _) located (fun passed _ => kept passed)
    (otherFree.isClear _)

theorem probe_eq_error {fault : FileFault} : tree.probe directory path = .error fault ↔
    tree.refusal? directory path = some fault := by
  rw [refusal?_eq_some, isFile]
  cases tree.probe directory path <;> simp [Except.map]

/-- With the same directories, and the same at its place, a path shows the same. -/
theorem probe_congr (free : tree.IsLinkFree) (otherFree : other.IsLinkFree)
    (same : tree.SameDirectories other)
    (here : tree.get? (path.place directory) = other.get? (path.place directory)) :
    tree.probe directory path = other.probe directory path := by
  have refused : tree.refusal? directory path = other.refusal? directory path :=
    refusal?_congr same free otherFree path
  cases seen : tree.probe directory path with
  | error fault =>
      rw [probe_eq_error, refused] at seen
      exact (probe_eq_error.mpr seen).symm
  | ok shown =>
      cases shown with
      | some node =>
          exact (probe_of_keeps free otherFree (fun _ => (same _).mp) here.symm.trans seen).symm
      | none =>
          cases otherSeen : other.probe directory path with
          | error fault =>
              rw [probe_eq_error, ← refused] at otherSeen
              cases seen.symm.trans (probe_eq_error.mpr otherSeen)
          | ok otherShown =>
              cases otherShown with
              | none => rfl
              | some node =>
                  have back :=
                    probe_of_keeps otherFree free (fun _ => (same _).mpr) here.trans otherSeen
                  cases seen.symm.trans back

end AssetBundler.Tree

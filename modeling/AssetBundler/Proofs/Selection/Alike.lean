import AssetBundler.Proofs.FileSystem.Alike
import AssetBundler.Proofs.Selection.Grown

/-!
Selection from trees that hold the same nodes. The order of their tables is lost when what was found
is sorted.
-/

namespace AssetBundler

namespace Glob

variable {tree other : Tree} (alike : tree.Alike other) {path : Path} {name : String}
include alike

theorem isDirectoryAt_of_alike : isDirectoryAt tree path = isDirectoryAt other path := by
  rw [isDirectoryAt, alike.status, isDirectoryAt]

theorem mem_namesIn_of_alike : name ∈ namesIn tree path ↔ name ∈ namesIn other path := by
  unfold namesIn
  rw [alike.locate]
  split
  · rename_i location _
    rw [alike location]
    split
    · rw [Tree.mem_children, Tree.mem_children, alike]
    · exact Iff.rfl
  · exact Iff.rfl

theorem mem_followAll_of_alike {paths : List Path} {segments : List String}
    (member : path ∈ followAll tree paths segments) : path ∈ followAll other paths segments := by
  let counts (_ : Path) : Prop := True
  have above : ∀ path name, counts (child path name) → counts path := fun _ _ _ => trivial
  refine mem_followAll_of_counts above ?_ ?_ (fun _ isStart _ => isStart) trivial member
  · exact fun _ _ isDirectory => isDirectoryAt_of_alike alike ▸ isDirectory
  · exact fun _ _ _ named => (mem_namesIn_of_alike alike).mp named

theorem mem_searched_of_alike {base : Path} {pattern : String} :
    path ∈ searched tree base pattern ↔ path ∈ searched other base pattern := by
  have isFile : isFileAt tree path = isFileAt other path := by
    rw [isFileAt, alike.status, isFileAt]
  simp only [searched, List.mem_filter, isFile]
  exact and_congr_left' ⟨mem_followAll_of_alike alike, mem_followAll_of_alike alike.symm⟩

end Glob

namespace Selection

variable {tree other : Tree} (alike : tree.Alike other) (base : Path)
include alike

theorem findAlike_of_alike (pattern : String) :
    FindAlike (expandPattern tree base pattern) (expandPattern other base pattern) :=
  findAlike_of_searched (alike.isFile [] (literalPath base pattern))
    fun _ => Glob.mem_searched_of_alike alike

theorem expand_of_alike (patterns : List String) :
    expand tree base patterns = expand other base patterns :=
  expand_congr fun pattern _ => findAlike_of_alike alike base pattern

end Selection

end AssetBundler

import AssetBundler.Proofs.Builder.Rebuild
import AssetBundler.Proofs.Selection.Alike

/-!
Assembly in trees that hold the same nodes.
-/

namespace AssetBundler.Builder

variable {tree other : Tree} (alike : tree.Alike other)
include alike

theorem parts_of_alike (builder : Builder) (base : Path) :
    builder.parts tree base = builder.parts other base :=
  parts_congr fun _ _ => Compiler.parts_congr (Selection.expand_of_alike alike base _)
    fun _ _ path _ => alike.read [] path

theorem compiled_of_alike (builder : Builder) (directory : Location) :
    builder.compiled tree directory = builder.compiled other directory := by
  rw [compiled, compiled, parts_of_alike alike]

theorem delivered_of_alike (builder : Builder) (folder name : String) (sources : List SourceFile)
    (text : String) (directory : Location) :
    Tree.SameOutcome (builder.delivered folder name sources text tree directory)
      (builder.delivered folder name sources text other directory) := by
  have same := alike.deliver directory (builder.base.joinText folder)
    (builder.files directory folder name sources text)
  refine ⟨?_, same.2⟩
  simp only [delivered, same.1]

/-- An assembly cannot tell such trees apart. -/
theorem assembled_of_alike (builder : Builder) (folder name : String) (directory : Location) :
    Tree.SameOutcome (builder.assembled folder name tree directory)
      (builder.assembled folder name other directory) := by
  unfold assembled
  rw [compiled_of_alike alike]
  split
  · exact ⟨rfl, alike⟩
  · exact ⟨rfl, alike⟩
  · unfold bundled
    split
    · exact ⟨rfl, alike⟩
    · exact delivered_of_alike alike builder folder name _ _ directory

end AssetBundler.Builder

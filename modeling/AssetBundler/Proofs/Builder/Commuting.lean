import AssetBundler.Proofs.Builder.Independence

/-!
Assemblies that commute. Two tasks that select and write apart from each other give the same in
either order, and they leave the same.
-/

namespace AssetBundler

namespace Tree

variable {tree first second firstLast secondLast : Tree}
  {firstMade firstStored secondMade secondStored : List Location}

/-- What has changed is a directory that was made or a file that was stored. -/
theorem GrowsTo.changed (growth : tree.GrowsTo first firstMade firstStored) {location : Location}
    (changed : first.get? location ≠ tree.get? location) :
    (location ∈ firstMade ∧ first.get? location = some .directory) ∨
      location ∈ firstStored ∧ ∃ contents, first.get? location = some (.file contents) := by
  rcases growth.get? location with same | ⟨isMade, -, isDirectory⟩ | ⟨isStored, -, isFile⟩
  · exact absurd same changed
  · exact Or.inl ⟨isMade, isDirectory⟩
  · exact Or.inr ⟨isStored, isFile⟩

/-- What has grown lies over what it has grown from. -/
theorem GrowsTo.or_of_changed (growth : tree.GrowsTo first firstMade firstStored)
    {location : Location} (changed : first.get? location ≠ tree.get? location)
    (below : Option Node) : (first.get? location).or below = first.get? location := by
  rcases growth.changed changed with ⟨-, isDirectory⟩ | ⟨-, contents, isFile⟩
  · rw [isDirectory, Option.some_or]
  · rw [isFile, Option.some_or]

/-- Two trees that have grown from one tree, each laid over the other one, are alike if neither
stored a file where the other one put anything. -/
theorem alike_of_over (one : tree.GrowsTo first firstMade firstStored)
    (two : tree.GrowsTo second secondMade secondStored)
    (laid : (Overlay.ofGrowth one).IsOver second secondLast)
    (otherLaid : (Overlay.ofGrowth two).IsOver first firstLast)
    (stored : ∀ location ∈ firstStored, location ∉ secondStored)
    (made : ∀ location ∈ firstMade, location ∉ secondStored)
    (otherMade : ∀ location ∈ secondMade, location ∉ firstStored) :
    secondLast.Alike firstLast := by
  intro location
  rw [laid.get?, otherLaid.get?]
  simp only [Overlay.ofGrowth]
  by_cases same : first.get? location = tree.get? location <;>
    by_cases otherSame : second.get? location = tree.get? location
  · rw [if_pos same, if_pos otherSame, Option.none_or, Option.none_or, same, otherSame]
  · rw [if_pos same, if_neg otherSame, Option.none_or, two.or_of_changed otherSame]
  · rw [if_neg same, if_pos otherSame, Option.none_or, one.or_of_changed same]
  · rw [if_neg same, if_neg otherSame, one.or_of_changed same, two.or_of_changed otherSame]
    rcases one.changed same with ⟨isMade, isDirectory⟩ | ⟨isStored, -⟩ <;>
      rcases two.changed otherSame with ⟨otherIsMade, otherDirectory⟩ | ⟨otherStored, -⟩
    · exact isDirectory.trans otherDirectory.symm
    · exact absurd otherStored (made location isMade)
    · exact absurd isStored (otherMade location otherIsMade)
    · exact absurd otherStored (stored location isStored)

end Tree

namespace Builder

/-- A builder that is to be run, and the directory and the name of its output. -/
structure Task where
  builder : Builder
  output : String
  folder : String
  name : String
  named : Output.split output = .ok (folder, name)

namespace Task

def target (task : Task) : Path := task.builder.base.joinText task.folder

/-- The files that a task can write. -/
def artifacts (task : Task) : List Path :=
  Output.artifactPaths task.builder.base task.folder task.name

/-- What a task gives and leaves. -/
def assembled (task : Task) (tree : Tree) (here : Location) : Except Failure BuildResult × Tree :=
  task.builder.assembled task.folder task.name tree here

/-- A task selects no file of another one, and its files lie neither at these nor below them. -/
structure IsApartFrom (task other : Task) (here : Location) : Prop where
  levelOutput : ".." ∉ Output.segments task.output
  level : ∀ compiler ∈ task.builder.compilers, Selection.LevelAll compiler.patterns
  unmatched : ∀ compiler ∈ task.builder.compilers, ∀ pattern ∈ compiler.patterns,
    ∀ path ∈ other.artifacts, ¬ Selection.Matches (task.builder.sourceBase here) pattern path.parts
  apart : ∀ path ∈ task.artifacts, ∀ otherPath ∈ other.artifacts, ¬ otherPath.parts <+: path.parts

/-- A task asks for no name that is too long for a directory that the other one makes. -/
structure FitsBeside (task other : Task) (tree : Tree) (here : Location) : Prop where
  sources : ∀ compiler ∈ task.builder.compilers, Selection.FitAll tree (other.target.entered here)
    (task.builder.sourceBase here) compiler.patterns
  artifacts : ∀ path ∈ task.artifacts, tree.Fits (other.target.entered here) path.parts

variable {task other : Task} {tree : Tree} {here : Location}

/-- A task is told by its builder and its output. -/
theorem eq_of_output (sameBuilder : task.builder = other.builder)
    (sameOutput : task.output = other.output) : task = other := by
  obtain ⟨builder, output, folder, name, named⟩ := task
  obtain ⟨otherBuilder, otherOutput, otherFolder, otherName, otherNamed⟩ := other
  cases sameBuilder
  cases sameOutput
  cases named.symm.trans otherNamed
  rfl

/-- The directory of a task lies at its first file or above it. -/
theorem exists_artifact_below (task : Task) :
    ∃ path ∈ task.artifacts, task.target.parts <+: path.parts :=
  ⟨_, List.mem_cons_self,
    (parts_of_artifact (Output.slash_not_mem_of_split task.named) List.mem_cons_self).2⟩

/-- No file of a task lies at a directory that a task apart from it makes. -/
theorem IsApartFrom.artifact_not_entered (converse : other.IsApartFrom task here)
    (straight : other.builder.base.IsStraight) {path : Path} (member : path ∈ task.artifacts) :
    path.parts ∉ other.target.entered here := by
  intro onWay
  have straightTarget := straight.joinFolder other.named converse.levelOutput
  obtain ⟨otherPath, isArtifact, below⟩ := other.exists_artifact_below
  exact converse.apart otherPath isArtifact path member
    ((Tree.prefix_of_mem_entered straightTarget onWay).trans below)

theorem IsApartFrom.keepsClear (apart : task.IsApartFrom other here)
    (converse : other.IsApartFrom task here) (fits : task.FitsBeside other tree here)
    (straight : other.builder.base.IsStraight) :
    task.builder.KeepsClear tree here task.folder task.name (other.target.entered here)
      (other.artifacts.map Path.parts) where
  level := apart.level
  fits := fits.sources
  unmatched := by
    intro compiler member pattern isPattern location isStored
    obtain ⟨path, isArtifact, rfl⟩ := List.mem_map.mp isStored
    exact apart.unmatched compiler member pattern isPattern path isArtifact
  unmade := fun path member => converse.artifact_not_entered straight member
  apart := by
    intro path member location isStored
    obtain ⟨otherPath, isArtifact, rfl⟩ := List.mem_map.mp isStored
    exact apart.apart path member otherPath isArtifact
  artifacts := fits.artifacts

section Order

variable (sound : tree.IsSound) (free : tree.IsLinkFree)
include sound free

theorem growsTo (straight : task.builder.base.IsStraight)
    (level : ".." ∉ Output.segments task.output) :
    tree.GrowsTo (task.assembled tree here).2 (task.target.entered here)
      (task.artifacts.map Path.parts) :=
  growsTo_of_straight straight task.named level sound free

variable (home : tree.get? here = some .directory) (straight : task.builder.base.IsStraight)
  (otherStraight : other.builder.base.IsStraight)
  (clean : Tree.holdsNull task.builder.base = false)
  (otherClean : Tree.holdsNull other.builder.base = false)
  (apart : task.IsApartFrom other here) (converse : other.IsApartFrom task here)
  (fits : task.FitsBeside other tree here) (otherFits : other.FitsBeside task tree here)
include home straight otherStraight clean otherClean apart converse fits otherFits

/-- Each of two tasks that are apart gives the same before and after the other one, and in either
order they leave the same. -/
theorem assembled_commute :
    (task.assembled (other.assembled tree here).2 here).1 = (task.assembled tree here).1 ∧
      (other.assembled (task.assembled tree here).2 here).1 = (other.assembled tree here).1 ∧
        (other.assembled (task.assembled tree here).2 here).2.Alike
          (task.assembled (other.assembled tree here).2 here).2 := by
  have growth := @growsTo task tree here sound free straight apart.levelOutput
  have otherGrowth := @growsTo other tree here sound free otherStraight converse.levelOutput
  obtain ⟨gives, laid⟩ := assembled_of_clear otherGrowth home clean
    (apart.keepsClear converse fits otherStraight) straight task.named apart.levelOutput
  obtain ⟨otherGives, otherLaid⟩ := assembled_of_clear growth home otherClean
    (converse.keepsClear apart otherFits straight) otherStraight other.named converse.levelOutput
  refine ⟨gives, otherGives, Tree.alike_of_over growth otherGrowth otherLaid laid ?_ ?_ ?_⟩
  · rw [List.forall_mem_map]
    intro path member stored
    obtain ⟨otherPath, isArtifact, same⟩ := List.mem_map.mp stored
    exact apart.apart path member otherPath isArtifact (same ▸ List.prefix_refl _)
  · intro location isMade stored
    obtain ⟨otherPath, isArtifact, rfl⟩ := List.mem_map.mp stored
    exact apart.artifact_not_entered straight isArtifact isMade
  · intro location isMade stored
    obtain ⟨path, isArtifact, rfl⟩ := List.mem_map.mp stored
    exact converse.artifact_not_entered otherStraight isArtifact isMade

end Order

end Task

end Builder

end AssetBundler

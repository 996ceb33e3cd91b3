import AssetBundler.Proofs.FileSystem.ReadBack

/-!
Trees that hold the same nodes. The order of their tables may differ, and nothing that reads or
changes a tree by its paths can tell them apart.
-/

namespace AssetBundler.Tree

/-- The same nodes stand at the same locations. -/
def Alike (tree other : Tree) : Prop := ∀ location, tree.get? location = other.get? location

/-- The same is given, and what is left is alike. -/
def SameOutcome {Value : Type} (outcome other : Value × Tree) : Prop :=
  outcome.1 = other.1 ∧ outcome.2.Alike other.2

/-- A change is refused with the same fault in both trees, or it leaves them alike. -/
inductive ChangeAlike : Except FileFault Tree → Except FileFault Tree → Prop where
  | refused (fault : FileFault) : ChangeAlike (.error fault) (.error fault)
  | changed {changed other : Tree} (alike : changed.Alike other) :
      ChangeAlike (.ok changed) (.ok other)

namespace Alike

section Looking

variable {tree other : Tree}

theorem refl (tree : Tree) : tree.Alike tree := fun _ => rfl

theorem symm (alike : tree.Alike other) : other.Alike tree := fun location => (alike location).symm

theorem trans {third : Tree} (alike : tree.Alike other) (next : other.Alike third) :
    tree.Alike third := fun location => (alike location).trans (next location)

variable (alike : tree.Alike other)
include alike

theorem walkSteps {follows : Bool}
    {enter otherEnter : Location → List String → Except Refusal Location}
    (same : ∀ start steps, enter start steps = otherEnter start steps) (start : Location)
    (steps : List String) :
    Tree.walkSteps tree follows enter start steps =
      Tree.walkSteps other follows otherEnter start steps := by
  induction steps generalizing start with
  | nil => rfl
  | cons step rest inductionHypothesis =>
      simp only [Tree.walkSteps, alike (start ++ [step]), inductionHypothesis, same]

theorem walk (follows : Bool) (links : Nat) (start : Location) (steps : List String) :
    Tree.walk tree follows links start steps = Tree.walk other follows links start steps := by
  induction links generalizing start steps with
  | zero => exact alike.walkSteps (fun _ _ => rfl) start steps
  | succ links inductionHypothesis => exact alike.walkSteps inductionHypothesis start steps

variable (directory : Location) (path : Path)

theorem locate (follows : Bool) :
    tree.locate directory follows path = other.locate directory follows path := by
  simp only [Tree.locate, alike.walk]

theorem status : tree.status directory path = other.status directory path := by
  simp only [Tree.status, alike.locate, alike _]

theorem probe : tree.probe directory path = other.probe directory path := by
  simp only [Tree.probe, alike.status]

theorem isFile : tree.isFile directory path = other.isFile directory path := by
  rw [Tree.isFile, alike.probe, Tree.isFile]

theorem isDirectory : tree.isDirectory directory path = other.isDirectory directory path := by
  rw [Tree.isDirectory, alike.probe, Tree.isDirectory]

theorem read : tree.read directory path = other.read directory path := by
  simp only [Tree.read, alike.status]

theorem set {location : Location} (below : location ≠ []) (node : Node) :
    (tree.set location node).Alike (other.set location node) := by
  intro asked
  rw [get?_set tree location asked node below, get?_set other location asked node below,
    alike asked]

theorem makeDirectory :
    ChangeAlike (tree.makeDirectory directory path) (other.makeDirectory directory path) := by
  unfold Tree.makeDirectory
  rw [alike.locate]
  split
  · exact .refused _
  · split
    · exact .refused _
    · rename_i location _
      rw [alike location]
      split
      · exact .refused _
      · rename_i free
        have isOpen : other.get? location ≠ some .directory := by simp [free]
        exact .changed (alike.set (ne_nil_of_open isOpen) _)

theorem write (contents : Bytes) :
    ChangeAlike (tree.write directory path contents) (other.write directory path contents) := by
  unfold Tree.write
  rw [alike.locate]
  split
  · exact .refused _
  · split
    · exact .refused _
    · rename_i location _
      rw [alike location]
      split
      · exact .refused _
      · rename_i isOpen
        exact .changed (alike.set (ne_nil_of_open isOpen) _)

theorem forgive (fault : FileFault) :
    SameOutcome (tree.forgive directory path fault) (other.forgive directory path fault) := by
  unfold Tree.forgive
  rw [alike.isDirectory]
  split
  · exact ⟨rfl, alike⟩
  · exact ⟨rfl, alike⟩

end Looking

theorem makeDirectories {tree other : Tree} (alike : tree.Alike other) (directory : Location)
    (path : Path) :
    SameOutcome (tree.makeDirectories directory path) (other.makeDirectories directory path) := by
  have step := alike.makeDirectory directory path
  rw [Tree.makeDirectories.eq_def tree, Tree.makeDirectories.eq_def other]
  generalize tree.makeDirectory directory path = change at step ⊢
  generalize other.makeDirectory directory path = otherChange at step ⊢
  cases step with
  | changed madeAlike => exact ⟨rfl, madeAlike⟩
  | refused fault =>
      split
      · rename_i impossible
        cases impossible
      · rename_i refused same
        cases same
        by_cases short : path.parts = []
        · simp only [short, if_true]
          exact ⟨rfl, alike⟩
        · have above := makeDirectories alike directory path.parent
          generalize tree.makeDirectories directory path.parent = outcome at above ⊢
          generalize other.makeDirectories directory path.parent = otherOutcome at above ⊢
          obtain ⟨result, made⟩ := outcome
          obtain ⟨otherResult, otherMade⟩ := otherOutcome
          obtain ⟨rfl, madeAlike⟩ := above
          simp only [short, if_false]
          cases result with
          | error fault => exact ⟨rfl, madeAlike⟩
          | ok =>
              have again := madeAlike.makeDirectory directory path
              simp only at madeAlike again ⊢
              generalize made.makeDirectory directory path = change at again ⊢
              generalize otherMade.makeDirectory directory path = otherChange at again ⊢
              cases again with
              | changed leftAlike => exact ⟨rfl, leftAlike⟩
              | refused fault =>
                  split
                  · rename_i impossible
                    cases impossible
                  · rename_i same
                    cases same
                    exact ⟨rfl, madeAlike⟩
                  · rename_i same
                    cases same
                    exact madeAlike.forgive directory path _
      · rename_i same
        cases same
        exact alike.forgive directory path _
  termination_by path.parts.length
  decreasing_by
    have := List.length_pos_iff.mpr short
    simp only [Path.parent, List.length_dropLast]
    omega

theorem writeFiles {tree other : Tree} (alike : tree.Alike other) (directory : Location)
    (files : List (Path × Bytes)) :
    SameOutcome (tree.writeFiles directory files) (other.writeFiles directory files) := by
  induction files generalizing tree other with
  | nil => exact ⟨rfl, alike⟩
  | cons file rest inductionHypothesis =>
      have step := alike.write directory file.1 file.2
      rw [Tree.writeFiles, Tree.writeFiles]
      generalize tree.write directory file.1 file.2 = change at step ⊢
      generalize other.write directory file.1 file.2 = otherChange at step ⊢
      cases step with
      | refused fault => exact ⟨rfl, alike⟩
      | changed writtenAlike => exact inductionHypothesis writtenAlike

theorem deliver {tree other : Tree} (alike : tree.Alike other) (directory : Location)
    (target : Path) (files : List (Path × Bytes)) :
    SameOutcome (tree.deliver directory target files) (other.deliver directory target files) := by
  have first := alike.makeDirectories directory target
  unfold Tree.deliver
  generalize tree.makeDirectories directory target = outcome at first ⊢
  generalize other.makeDirectories directory target = otherOutcome at first ⊢
  obtain ⟨result, made⟩ := outcome
  obtain ⟨otherResult, otherMade⟩ := otherOutcome
  obtain ⟨rfl, madeAlike⟩ := first
  cases result with
  | error fault => exact ⟨rfl, madeAlike⟩
  | ok => exact madeAlike.writeFiles directory files

end Alike

end AssetBundler.Tree

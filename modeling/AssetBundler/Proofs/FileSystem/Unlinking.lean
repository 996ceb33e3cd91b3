import AssetBundler.Proofs.FileSystem.Probing

/-!
Removal of the files that paths of any shape show. A file goes from its place without a change to
what the paths to other places show, and a path is refused for its length alone.
-/

namespace AssetBundler

namespace Path

/-- A path that is too long as a whole or by one of its parts. -/
def IsLong (path : Path) : Prop :=
  Tree.pathLimit < Utf8.size path.toString ∨ ∃ part ∈ path.parts, Tree.nameLimit < Utf8.size part

instance (path : Path) : Decidable path.IsLong := inferInstanceAs (Decidable (_ ∨ _))

end Path

namespace Tree

variable {tree left : Tree} {directory location : Location} {path : Path} {paths : List Path}

/-- Whether a path shows a file. -/
def showsFile (tree : Tree) (directory : Location) (path : Path) : Bool :=
  (tree.isFile directory path).toOption == some true

theorem showsFile_eq_true :
    tree.showsFile directory path = true ↔ tree.isFile directory path = .ok true := by
  rw [showsFile, beq_iff_eq]
  cases tree.isFile directory path <;> simp [Except.toOption]

/-- Only what is too long is refused. -/
theorem isLong_of_refusal (sound : tree.IsSound) (free : tree.IsLinkFree)
    (home : tree.get? directory = some .directory) {fault : FileFault}
    (refused : tree.refusal? directory path = some fault) :
    fault = .refused .nameTooLong path ∧ path.IsLong := by
  obtain ⟨-, long, isFault⟩ := isFile_eq_error.mp (refusal?_eq_some.mp refused)
  refine ⟨isFault, (locate_eq_tooLong.mp long).imp_right fun met => ?_⟩
  obtain ⟨before, name, rest, whole, -, -, tooLong, -⟩ :=
    exists_of_walkSteps_tooLong (free.isClear _) sound (path.start_directory home) met
  exact ⟨name, whole ▸ List.mem_append_right before List.mem_cons_self, tooLong⟩

/-- A straight path shows the file at its place unless it is too long. -/
theorem isFile_of_get? (sound : tree.IsSound) (free : tree.IsLinkFree)
    (home : tree.get? directory = some .directory) (straight : path.IsStraight)
    (short : ¬ path.IsLong) {contents : Bytes}
    (found : tree.get? path.parts = some (.file contents)) :
    tree.isFile directory path = .ok true := by
  cases asked : tree.isFile directory path with
  | error fault =>
      exact absurd (isLong_of_refusal sound free home (refusal?_eq_some.mpr asked)).2 short
  | ok answer =>
      cases answer with
      | true => rfl
      | false =>
          have kept := withoutFile_of_isFile sound free straight asked
          rw [found] at kept
          cases kept

/-- A file that goes from elsewhere is not missed. -/
theorem HasCleared.showsFile (cleared : tree.HasCleared left [location]) (free : tree.IsLinkFree)
    (apart : path.place directory ≠ location) :
    left.showsFile directory path = tree.showsFile directory path := by
  have here : left.get? (path.place directory) = tree.get? (path.place directory) := by
    rw [cleared, if_neg fun member => apart (List.mem_singleton.mp member)]
  have seen := probe_congr (cleared.isLinkFree free) free cleared.sameDirectories.symm here
  simp only [Tree.showsFile, isFile, seen]

/-- The paths that show a file, up to the first one that is refused. -/
def removable (tree : Tree) (directory : Location) (paths : List Path) : List Path :=
  (tree.accepted directory paths).filter (tree.showsFile directory)

section Accepting

variable (rest : List Path)

theorem removable_of_refused {fault : FileFault}
    (refused : tree.refusal? directory path = some fault) :
    tree.removable directory (path :: rest) = [] := by
  simp [removable, accepted, refused]

variable (taken : tree.refusal? directory path = none)
include taken

theorem removable_cons : tree.removable directory (path :: rest) =
    if tree.showsFile directory path then path :: tree.removable directory rest
    else tree.removable directory rest := by
  simp [removable, accepted, taken, List.filter_cons]

theorem refusalAmong?_cons :
    tree.refusalAmong? directory (path :: rest) = tree.refusalAmong? directory rest := by
  simp [refusalAmong?, taken]

end Accepting

/-- The other paths are as removable as they were before a file went from elsewhere. -/
theorem HasCleared.removable (cleared : tree.HasCleared left [location]) (free : tree.IsLinkFree)
    (apart : ∀ path ∈ paths, path.place directory ≠ location) :
    left.removable directory paths = tree.removable directory paths := by
  rw [Tree.removable, ← accepted_congr cleared.sameDirectories free (cleared.isLinkFree free)]
  apply List.filter_congr
  intro path member
  exact cleared.showsFile free (apart path (List.takeWhile_subset _ member))

/-- Among paths to places of their own those that are removable lose their files and are told,
unless a path is refused. -/
theorem unlinkAll_files (free : tree.IsLinkFree)
    (apart : (paths.map fun path => path.place directory).Nodup) :
    tree.HasCleared (tree.unlinkAll directory paths).2
        ((tree.removable directory paths).map fun path => path.place directory) ∧
      (tree.unlinkAll directory paths).1 =
        match tree.refusalAmong? directory paths with
        | some fault => .error fault
        | none => .ok (tree.removable directory paths) := by
  induction paths generalizing tree with
  | nil => exact ⟨fun location => by simp [removable, accepted, unlinkAll], rfl⟩
  | cons path rest inductionHypothesis =>
      obtain ⟨notLater, apartLater⟩ := List.nodup_cons.mp apart
      cases asked : tree.isFile directory path with
      | error fault =>
          have refused := refusal?_eq_some.mpr asked
          have stops : tree.unlinkAll directory (path :: rest) = (.error fault, tree) := by
            simp only [unlinkAll, unlink, asked]
          rw [stops, removable_of_refused rest refused]
          exact ⟨fun location => by simp, by simp [refusalAmong?, refused]⟩
      | ok answer =>
          have taken := refusal?_eq_none.mpr ⟨answer, asked⟩
          rw [removable_cons rest taken, refusalAmong?_cons rest taken]
          cases answer with
          | false =>
              have hidden : ¬ tree.showsFile directory path = true := by
                rw [showsFile_eq_true, asked]
                simp
              have passes : tree.unlinkAll directory (path :: rest) =
                  tree.unlinkAll directory rest := by
                simp only [unlinkAll, unlink, asked]
                rcases tree.unlinkAll directory rest with ⟨failure | others, last⟩ <;> rfl
              rw [passes, if_neg hidden]
              exact inductionHypothesis free apartLater
          | true =>
              obtain ⟨left, gone, cleared⟩ := unlink_of_isFile free asked
              have leftFree := cleared.isLinkFree free
              have elsewhere : ∀ other ∈ rest, other.place directory ≠ path.place directory :=
                fun other member same => notLater (List.mem_map.mpr ⟨other, member, same⟩)
              obtain ⟨clearedLater, outcome⟩ := inductionHypothesis leftFree apartLater
              rw [cleared.removable free elsewhere] at clearedLater outcome
              rw [← refusalAmong?_congr cleared.sameDirectories free leftFree] at outcome
              have goesOn : tree.unlinkAll directory (path :: rest) =
                  ((left.unlinkAll directory rest).1.map (path :: ·),
                    (left.unlinkAll directory rest).2) := by
                simp only [unlinkAll, gone]
                rcases left.unlinkAll directory rest with ⟨failure | others, last⟩ <;> rfl
              rw [goesOn, outcome, if_pos (showsFile_eq_true.mpr asked)]
              refine ⟨cleared.append clearedLater, ?_⟩
              cases tree.refusalAmong? directory rest <;> rfl

end Tree

end AssetBundler

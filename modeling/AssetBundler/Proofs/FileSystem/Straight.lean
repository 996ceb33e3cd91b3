import AssetBundler.Proofs.FileSystem.Normal

/-!
Straight paths. They are absolute and take no steps but names, so they name their location.
-/

namespace AssetBundler

namespace Path

variable {path : Path} {directory : Location}

/-- An absolute path whose parts are all names. -/
structure IsStraight (path : Path) : Prop where
  absolute : path.isAbsolute = true
  plain : path.IsPlain

theorem IsStraight.start_eq (straight : path.IsStraight) : path.start directory = [] := by
  rw [start, if_pos straight.absolute]

theorem IsStraight.starts {tree : Tree} (straight : path.IsStraight) :
    tree.get? (path.start directory) = some .directory := by
  rw [straight.start_eq]
  rfl

theorem IsStraight.place_eq (straight : path.IsStraight) : path.place directory = path.parts := by
  rw [place, straight.start_eq, Tree.placeFrom_names straight.plain, List.nil_append]

theorem isAbsolute_join (base path : Path) (absolute : base.isAbsolute = true) :
    (base.join path).isAbsolute = true := by
  unfold join
  split
  · exact absolute
  · rename_i notHere
    simpa [isAbsolute] using notHere

/-- A path without a null character is straight as seen from a directory of a sound tree. -/
theorem isStraight_absolute {tree : Tree} (sound : tree.IsSound)
    (home : tree.get? directory = some .directory) (clean : Tree.holdsNull path = false) :
    (path.absolute ⟨.root, directory⟩).IsStraight := by
  have absolute := isAbsolute_join ⟨.root, directory⟩ path rfl
  have cleanJoined : ∀ part ∈ (join ⟨.root, directory⟩ path).parts, '\x00' ∉ part.toList := by
    intro part member
    unfold join at member
    split at member
    · rcases List.mem_append.mp member with inHome | inPath
      · exact (sound.named _ _ home part inHome).2.2
      · exact null_not_mem clean inPath
    · exact null_not_mem clean member
  have same := normalize_of_clean absolute fun part member =>
    cleanJoined part (mem_place member).1
  rw [Path.absolute, same]
  exact ⟨absolute, fun part member => (mem_place member).2⟩

/-- A straight path is the same as seen from anywhere. -/
theorem absolute_of_straight (straight : path.IsStraight) (clean : Tree.holdsNull path = false)
    (base : Path) : path.absolute base = path := by
  have unjoined : base.join path = path := by
    unfold join
    split
    · rename_i isHere
      have absolute := straight.absolute
      rw [isAbsolute, isHere] at absolute
      cases absolute
    · rfl
  have cleanPlace : ∀ part ∈ path.place [], '\x00' ∉ part.toList := by
    rw [straight.place_eq]
    exact fun part => null_not_mem clean
  rw [Path.absolute, unjoined, normalize_of_clean straight.absolute cleanPlace, straight.place_eq]

end Path

namespace Tree

variable {tree : Tree} {directory : Location} {path : Path} {follows : Bool}

/-- A way by names into a directory ends there unless a name is too long. -/
theorem walkSteps_of_directory
    {enter : Location → List String → Except Refusal Location} {start : Location}
    {steps : List String} (sound : tree.IsSound) (free : tree.IsLinkFree)
    (inside : tree.get? (start ++ steps.dropLast) = some .directory)
    (names : ∀ step ∈ steps, step ≠ "." ∧ step ≠ "..") :
    walkSteps tree follows enter start steps = .ok (start ++ steps) ∨
      walkSteps tree follows enter start steps = .error .nameTooLong := by
  induction steps generalizing start with
  | nil =>
      rw [List.append_nil]
      exact Or.inl rfl
  | cons step rest inductionHypothesis =>
      obtain ⟨notHere, notUp⟩ := names step List.mem_cons_self
      by_cases long : nameLimit < Utf8.size step
      · rw [walkSteps_of_long _ notHere notUp long]
        exact Or.inr rfl
      · by_cases last : rest = []
        · rw [last, walkSteps_last notHere notUp long (free.isClear _)]
          exact Or.inl rfl
        · rw [List.dropLast_cons_of_ne_nil last, List.append_cons start step rest.dropLast]
            at inside
          have entered : tree.get? (start ++ [step]) = some .directory := by
            by_cases next : rest.dropLast = []
            · rwa [next, List.append_nil] at inside
            · exact sound.above inside (List.prefix_append _ _) (by simpa using next)
          rw [walkSteps_directory notHere notUp long entered, List.append_cons start step rest]
          exact inductionHypothesis inside fun later member =>
            names later (List.mem_cons_of_mem step member)

/-- A straight path into a directory leads there unless it is too long. -/
theorem locate_of_directory (sound : tree.IsSound) (free : tree.IsLinkFree)
    (straight : path.IsStraight) (inside : tree.get? path.parts.dropLast = some .directory) :
    tree.locate directory follows path = .ok path.parts ∨
      tree.locate directory follows path = .error .nameTooLong := by
  by_cases long : pathLimit < Utf8.size path.toString
  · exact Or.inr (locate_eq_tooLong.mpr (Or.inl long))
  · have fromRoot : tree.get? ([] ++ path.parts.dropLast) = some .directory := inside
    have start : path.start directory = [] := straight.start_eq
    rcases walkSteps_of_directory sound free fromRoot straight.plain with walked | met
    · exact Or.inl (locate_eq_ok.mpr ⟨long, by rw [start]; exact walked⟩)
    · exact Or.inr (locate_eq_tooLong.mpr (Or.inr (by rw [start]; exact met)))

theorem locate_of_get? (sound : tree.IsSound) (free : tree.IsLinkFree)
    (straight : path.IsStraight) {node : Node} (found : tree.get? path.parts = some node) :
    tree.locate directory follows path = .ok path.parts ∨
      tree.locate directory follows path = .error .nameTooLong :=
  locate_of_directory sound free straight (sound.parent _ _ found)

/-- Where a straight path starts makes no difference. -/
theorem locate_straight (straight : path.IsStraight) (other : Location) :
    tree.locate directory follows path = tree.locate other follows path := by
  simp only [locate, straight.absolute, if_true]

theorem isFile_straight (straight : path.IsStraight) (other : Location) :
    tree.isFile directory path = tree.isFile other path := by
  simp only [isFile, probe, status, locate_straight straight other]

end Tree

end AssetBundler

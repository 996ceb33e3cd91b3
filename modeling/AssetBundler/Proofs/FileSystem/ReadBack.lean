import AssetBundler.FileSystem.Operations

/-!
Reading after writing. A path that was written leads to what was written, also behind links.
-/

namespace AssetBundler.Tree

theorem ne_nil_of_open {tree : Tree} {location : Location}
    (isOpen : tree.get? location ≠ some .directory) : location ≠ [] := by
  intro root
  subst root
  exact isOpen rfl

section Walking

variable {tree : Tree} {location : Location} (isOpen : tree.get? location ≠ some .directory)
include isOpen

/-- A way from outside ends below a location only through a directory there, so it does not end at
a link that it would have followed. -/
theorem not_link_of_walkSteps {enter : Location → List String → Except Refusal Location}
    (behind : ∀ start steps, enter start steps = .ok location → ¬ location <+: start →
      ∀ target, tree.get? location ≠ some (.link target))
    {start : Location} {steps : List String}
    (walked : walkSteps tree true enter start steps = .ok location)
    (outside : ¬ location <+: start) (target : String) :
    tree.get? location ≠ some (.link target) := by
  fun_induction walkSteps tree true enter start steps with
  | case1 =>
      cases walked
      exact absurd (List.prefix_refl _) outside
  | case2 start rest inductionHypothesis => exact inductionHypothesis walked outside
  | case3 start rest _ inductionHypothesis =>
      exact inductionHypothesis walked fun below =>
        outside (below.trans (List.dropLast_prefix start))
  | case4 => cases walked
  | case5 start step _ _ _ here free =>
      rw [← Except.ok.inj walked, free]
      simp
  | case6 => cases walked
  | case7 start step rest _ _ _ here entered inductionHypothesis =>
      apply inductionHypothesis walked
      intro below
      rcases List.prefix_concat_iff.mp below with same | before
      · exact isOpen (same ▸ entered)
      · exact outside before
  | case8 start step _ _ _ here contents isFile =>
      rw [← Except.ok.inj walked, isFile]
      simp
  | case9 => cases walked
  | case10 start step rest _ _ _ here next isLink last => simp at last
  | case11 start step rest _ _ _ here next isLink _ =>
      refine behind _ _ walked ?_ target
      intro below
      split at below
      · exact ne_nil_of_open isOpen (List.prefix_nil.mp below)
      · exact outside below

theorem not_link_of_walk (links : Nat) :
    ∀ start steps, walk tree true links start steps = .ok location → ¬ location <+: start →
      ∀ target, tree.get? location ≠ some (.link target) := by
  induction links with
  | zero =>
      intro start steps walked outside
      rw [walk] at walked
      refine not_link_of_walkSteps isOpen ?_ walked outside
      intro _ _ refused
      cases refused
  | succ links inductionHypothesis =>
      intro start steps walked outside
      rw [walk] at walked
      exact not_link_of_walkSteps isOpen inductionHypothesis walked outside

/-- A way to a location that is no directory leads there also when a file is put there. What
follows a link is assumed to keep its own ways, and not to come back to the link. -/
theorem walkSteps_set {contents : Bytes}
    {enter other : Location → List String → Except Refusal Location}
    (kept : ∀ start steps, enter start steps = .ok location → other start steps = .ok location)
    (behind : ∀ start steps, enter start steps = .ok location → ¬ location <+: start →
      ∀ target, tree.get? location ≠ some (.link target))
    {start : Location} {steps : List String}
    (walked : walkSteps tree true enter start steps = .ok location) :
    walkSteps (tree.set location (.file contents)) true other start steps = .ok location := by
  have placed (other : Location) := get?_set tree location other (.file contents)
    (ne_nil_of_open isOpen)
  fun_induction walkSteps tree true enter start steps with
  | case1 => exact walked
  | case2 start rest inductionHypothesis =>
      rw [walkSteps]
      exact inductionHypothesis walked
  | case3 start rest notHere inductionHypothesis =>
      rw [walkSteps_up]
      exact inductionHypothesis walked
  | case4 => cases walked
  | case5 start step notHere notUp fits here free =>
      have same : location = start ++ [step] := (Except.ok.inj walked).symm
      rw [walkSteps, if_neg notHere, if_neg notUp, if_neg fits]
      simp only [placed, if_pos same, if_true]
      exact walked
  | case6 => cases walked
  | case7 start step rest notHere notUp fits here entered inductionHypothesis =>
      have apart : location ≠ start ++ [step] := fun same => isOpen (same ▸ entered)
      rw [walkSteps, if_neg notHere, if_neg notUp, if_neg fits]
      simp only [placed, if_neg apart]
      rw [entered]
      exact inductionHypothesis walked
  | case8 start step notHere notUp fits here contents isFile =>
      have same : location = start ++ [step] := (Except.ok.inj walked).symm
      rw [walkSteps, if_neg notHere, if_neg notUp, if_neg fits]
      simp only [placed, if_pos same, if_true]
      exact walked
  | case9 => cases walked
  | case10 start step rest _ _ _ here target isLink last => simp at last
  | case11 start step rest notHere notUp fits here target isLink _ =>
      have apart : location ≠ start ++ [step] := by
        intro same
        -- The way goes on outside the link, so it cannot come back to end there.
        refine behind _ _ walked ?_ target (same ▸ isLink)
        intro below
        split at below
        · exact ne_nil_of_open isOpen (List.prefix_nil.mp below)
        · rw [same] at below
          have shorter := below.length_le
          rw [List.length_append, List.length_singleton] at shorter
          omega
      rw [walkSteps, if_neg notHere, if_neg notUp, if_neg fits]
      simp only [placed, if_neg apart]
      rw [isLink]
      simp only [Bool.not_true, Bool.false_eq_true, and_false, if_false]
      exact kept _ _ walked

theorem walk_set (contents : Bytes) (links : Nat) :
    ∀ start steps, walk tree true links start steps = .ok location →
      walk (tree.set location (.file contents)) true links start steps = .ok location := by
  induction links with
  | zero =>
      intro start steps walked
      rw [walk] at walked ⊢
      refine walkSteps_set isOpen ?_ ?_ walked
      · intro _ _ refused
        exact refused
      · intro _ _ refused
        cases refused
  | succ links inductionHypothesis =>
      intro start steps walked
      rw [walk] at walked ⊢
      exact walkSteps_set isOpen inductionHypothesis (not_link_of_walk isOpen links) walked

end Walking

/-- A write takes place where the path leads to, unless a directory stands there. -/
theorem write_eq_ok {tree written : Tree} {directory : Location} {path : Path} {contents : Bytes} :
    tree.write directory path contents = .ok written ↔
      holdsNull path = false ∧ ∃ location, tree.locate directory true path = .ok location ∧
        tree.get? location ≠ some .directory ∧ written = tree.set location (.file contents) := by
  unfold write
  cases holdsNull path with
  | true => simp
  | false =>
      cases tree.locate directory true path with
      | error refusal => simp
      | ok location =>
          by_cases isDirectory : tree.get? location = some .directory
          · simp [isDirectory]
          · simpa [isDirectory] using eq_comm

theorem locate_set {tree : Tree} {directory location : Location} {path : Path}
    (located : tree.locate directory true path = .ok location)
    (isOpen : tree.get? location ≠ some .directory) (contents : Bytes) :
    (tree.set location (.file contents)).locate directory true path = .ok location := by
  unfold locate at located ⊢
  split at located
  · cases located
  · rename_i fits
    rw [if_neg fits]
    exact walk_set isOpen contents linkLimit _ _ located

/-- What is written to a path is read from it. -/
theorem read_write {tree written : Tree} {directory : Location} {path : Path} {contents : Bytes}
    (stored : tree.write directory path contents = .ok written) :
    written.read directory path = .ok contents := by
  obtain ⟨clean, location, located, isOpen, rfl⟩ := write_eq_ok.mp stored
  have placed := get?_set tree location location (.file contents) (ne_nil_of_open isOpen)
  rw [if_pos rfl] at placed
  simp [read, clean, status, locate_set located isOpen contents, placed, bind, Except.bind, pure,
    Except.pure]

/-- Files are written one after another, up to the first fault. -/
def writeFiles (directory : Location) (tree : Tree) :
    List (Path × Bytes) → Except FileFault Unit × Tree
  | [] => (.ok (), tree)
  | (path, contents) :: rest =>
      match tree.write directory path contents with
      | .ok written => writeFiles directory written rest
      | .error fault => (.error fault, tree)

theorem writeFiles_append {directory : Location} {tree stored : Tree}
    {files others : List (Path × Bytes)}
    (written : tree.writeFiles directory (files ++ others) = (.ok (), stored)) :
    ∃ reached, tree.writeFiles directory files = (.ok (), reached) ∧
      reached.writeFiles directory others = (.ok (), stored) := by
  induction files generalizing tree with
  | nil => exact ⟨tree, rfl, written⟩
  | cons file rest inductionHypothesis =>
      rw [List.cons_append, writeFiles] at written
      rw [writeFiles]
      cases first : tree.write directory file.1 file.2 with
      | error fault => simp [first] at written
      | ok next =>
          rw [first] at written
          exact inductionHypothesis written

/-- The last file is read as it was written. -/
theorem read_writeFiles {directory : Location} {tree stored : Tree} {files : List (Path × Bytes)}
    {path : Path} {contents : Bytes}
    (written : tree.writeFiles directory (files ++ [(path, contents)]) = (.ok (), stored)) :
    stored.read directory path = .ok contents := by
  obtain ⟨reached, -, last⟩ := writeFiles_append written
  rw [writeFiles] at last
  cases final : reached.write directory path contents with
  | error fault => simp [final] at last
  | ok next =>
      simp only [final, writeFiles, Prod.mk.injEq, true_and] at last
      exact last ▸ read_write final

/-- The directories of a target are made, and then files are written. -/
def deliver (tree : Tree) (directory : Location) (target : Path) (files : List (Path × Bytes)) :
    Except FileFault Unit × Tree :=
  match tree.makeDirectories directory target with
  | (.ok (), made) => made.writeFiles directory files
  | (.error fault, made) => (.error fault, made)

end AssetBundler.Tree

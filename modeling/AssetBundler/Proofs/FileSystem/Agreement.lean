import AssetBundler.Proofs.FileSystem.Directories
import Mathlib.Data.List.Induction

/-!
Trees that agree where a path passes. A way without links looks at nothing else, so it goes the same
in both trees.
-/

namespace AssetBundler.Tree

/-- Two nodes are of one kind when they are equal or when both are files. -/
def SameKind (node other : Option Node) : Prop :=
  node = other ∨
    ∃ contents others, node = some (.file contents) ∧ other = some (.file others)

namespace SameKind

variable {node other : Option Node}

theorem symm (same : SameKind node other) : SameKind other node := by
  rcases same with rfl | ⟨contents, others, isFile, isOther⟩
  · exact Or.inl rfl
  · exact Or.inr ⟨others, contents, isOther, isFile⟩

theorem none (same : SameKind node other) (missing : node = Option.none) :
    other = Option.none := by
  rcases same with rfl | ⟨contents, others, isFile, -⟩
  · exact missing
  · cases missing.symm.trans isFile

theorem directory (same : SameKind node other) (isDirectory : node = some .directory) :
    other = some .directory := by
  rcases same with rfl | ⟨contents, others, isFile, -⟩
  · exact isDirectory
  · cases isDirectory.symm.trans isFile

theorem file (same : SameKind node other) {contents : Bytes}
    (isFile : node = some (.file contents)) : ∃ others, other = some (.file others) := by
  rcases same with rfl | ⟨-, others, -, isOther⟩
  · exact ⟨contents, isFile⟩
  · exact ⟨others, isOther⟩

end SameKind

/-- Nodes of one kind stand at the locations. -/
def AgreesOn (tree other : Tree) (locations : List Location) : Prop :=
  ∀ location ∈ locations, SameKind (tree.get? location) (other.get? location)

variable {tree other : Tree} {directory location : Location} {path : Path}

theorem walkSteps_congr {follows otherFollows : Bool}
    {enter otherEnter : Location → List String → Except Refusal Location} {start : Location}
    {steps : List String} (clear : tree.IsClear (enteredFrom start steps))
    (agree : tree.AgreesOn other (enteredFrom start steps)) :
    walkSteps tree follows enter start steps = walkSteps other otherFollows otherEnter start
      steps := by
  fun_induction walkSteps tree follows enter start steps with
  | case1 start => rfl
  | case2 start rest inductionHypothesis =>
      rw [walkSteps_here]
      exact inductionHypothesis clear agree
  | case3 start rest notHere inductionHypothesis =>
      rw [walkSteps_up]
      exact inductionHypothesis clear agree
  | case4 start step rest notHere notUp long =>
      rw [walkSteps_of_long _ notHere notUp long]
  | case5 start step notHere notUp fits here free =>
      simp only [enteredFrom, notHere, notUp, or_self, if_false] at agree
      have otherFree := (agree here List.mem_cons_self).none free
      rw [walkSteps, if_neg notHere, if_neg notUp, if_neg fits]
      simp [here, otherFree]
  | case6 start step rest notHere notUp fits here free more =>
      simp only [enteredFrom, notHere, notUp, or_self, if_false] at agree
      have otherFree := (agree here List.mem_cons_self).none free
      rw [walkSteps, if_neg notHere, if_neg notUp, if_neg fits]
      simp [here, otherFree, more]
  | case7 start step rest notHere notUp fits here entered inductionHypothesis =>
      simp only [enteredFrom, notHere, notUp, or_self, if_false] at clear agree
      rw [walkSteps_directory notHere notUp fits
        ((agree here List.mem_cons_self).directory entered)]
      exact inductionHypothesis
        (fun passed member => clear passed (List.mem_cons_of_mem _ member))
        (fun passed member => agree passed (List.mem_cons_of_mem _ member))
  | case8 start step notHere notUp fits here contents isFile =>
      simp only [enteredFrom, notHere, notUp, or_self, if_false] at agree
      obtain ⟨others, isOther⟩ := (agree here List.mem_cons_self).file isFile
      rw [walkSteps, if_neg notHere, if_neg notUp, if_neg fits]
      simp [here, isOther]
  | case9 start step rest notHere notUp fits here contents isFile more =>
      simp only [enteredFrom, notHere, notUp, or_self, if_false] at agree
      obtain ⟨others, isOther⟩ := (agree here List.mem_cons_self).file isFile
      rw [walkSteps, if_neg notHere, if_neg notUp, if_neg fits]
      simp [here, isOther, more]
  | case10 start step rest notHere notUp _ here target isLink last
  | case11 start step rest notHere notUp _ here target isLink last =>
      simp only [enteredFrom, notHere, notUp, or_self, if_false] at clear
      exact absurd isLink (clear here List.mem_cons_self target)

/-- A path leads to the same location in trees that agree where it passes. -/
theorem locate_congr {follows otherFollows : Bool}
    (clear : tree.IsClear (path.entered directory))
    (agree : tree.AgreesOn other (path.entered directory)) :
    tree.locate directory follows path = other.locate directory otherFollows path := by
  unfold locate
  split
  · rfl
  · exact walkSteps_congr clear agree

theorem status_congr (clear : tree.IsClear (path.entered directory))
    (agree : tree.AgreesOn other (path.entered directory))
    (same : tree.get? (path.place directory) = other.get? (path.place directory)) :
    tree.status directory path = other.status directory path := by
  unfold status
  rw [← locate_congr clear agree]
  cases located : tree.locate directory true path with
  | error refusal => rfl
  | ok location =>
      obtain ⟨rfl, -⟩ := locate_place clear located
      simp only [bind, Except.bind, same]

/-- A path leads to a file. -/
theorem isFile_eq_true : tree.isFile directory path = .ok true ↔
    holdsNull path = false ∧ ∃ location contents, tree.locate directory true path = .ok location ∧
      tree.get? location = some (.file contents) := by
  unfold isFile probe status
  cases holdsNull path with
  | true => simp [Except.map]
  | false =>
      cases tree.locate directory true path with
      | error refusal => cases refusal <;> simp [Except.map, bind, Except.bind]
      | ok location =>
          cases found : tree.get? location with
          | none => simp [Except.map, bind, Except.bind, found]
          | some node =>
              cases node <;>
                simp [Except.map, bind, Except.bind, pure, Except.pure, found, isFileNode]

/-- Only a name that is too long keeps a path from being looked at. -/
theorem isFile_eq_error {fault : FileFault} : tree.isFile directory path = .error fault ↔
    holdsNull path = false ∧ tree.locate directory true path = .error .nameTooLong ∧
      fault = .refused .nameTooLong path := by
  unfold isFile probe status
  cases holdsNull path with
  | true => simp [Except.map]
  | false =>
      cases tree.locate directory true path with
      | error refusal => cases refusal <;> simp [Except.map, bind, Except.bind, eq_comm]
      | ok location =>
          cases found : tree.get? location <;>
            simp [Except.map, bind, Except.bind, pure, Except.pure, found]

/-- A file is read alike in trees that hold it alike. -/
theorem read_congr (same : tree.status directory path = other.status directory path) :
    tree.read directory path = other.read directory path := by
  rw [read, read, same]

/-- Everything above a node of a sound tree is a directory. -/
theorem IsSound.above (sound : tree.IsSound) {node : Node}
    (found : tree.get? location = some node) {passed : Location} (before : passed <+: location)
    (apart : passed ≠ location) : tree.get? passed = some .directory := by
  obtain ⟨rest, rfl⟩ := before
  induction rest using List.reverseRecOn generalizing node with
  | nil => exact absurd (List.append_nil passed).symm apart
  | append_singleton rest name inductionHypothesis =>
      have parent := sound.parent _ _ found
      rw [← List.append_assoc, List.dropLast_concat] at parent
      by_cases last : rest = []
      · rw [last, List.append_nil] at parent
        exact parent
      · exact inductionHypothesis parent (by simpa using last)

/-- Steps that do not lead up stay below their start. -/
theorem prefix_placeFrom {steps : List String} (level : ".." ∉ steps) (start : Location) :
    start <+: placeFrom start steps := by
  induction steps generalizing start with
  | nil => exact List.prefix_refl start
  | cons step rest inductionHypothesis =>
      obtain ⟨notUp, levelRest⟩ := not_or.mp fun among => level (List.mem_cons.mpr among)
      refine List.IsPrefix.trans ?_ (inductionHypothesis levelRest (advance start step))
      rw [advance, if_neg (Ne.symm notUp)]
      split
      · exact List.prefix_refl start
      · exact List.prefix_append start [step]

/-- What is entered on such a way lies above its end. -/
theorem prefix_of_mem_enteredFrom {steps : List String} (level : ".." ∉ steps)
    {start passed : Location} (member : passed ∈ enteredFrom start steps) :
    passed <+: placeFrom start steps := by
  induction steps generalizing start with
  | nil => cases member
  | cons step rest inductionHypothesis =>
      obtain ⟨notUp, levelRest⟩ := not_or.mp fun among => level (List.mem_cons.mpr among)
      rw [enteredFrom] at member
      split at member
      · exact inductionHypothesis levelRest member
      · rename_i isName
        have next : placeFrom start (step :: rest) = placeFrom (start ++ [step]) rest := by
          rw [placeFrom, List.foldl_cons, advance, if_neg (not_or.mp isName).1,
            if_neg (not_or.mp isName).2]
          rfl
        rw [next]
        rcases List.mem_cons.mp member with rfl | later
        · exact prefix_placeFrom levelRest _
        · exact inductionHypothesis levelRest later

/-- Sound trees that hold one kind of node at a location agree above it. -/
theorem agreesOn_above (sound : tree.IsSound) (otherSound : other.IsSound) {node : Node}
    (found : tree.get? location = some node)
    (same : SameKind (tree.get? location) (other.get? location)) {locations : List Location}
    (above : ∀ passed ∈ locations, passed <+: location) : tree.AgreesOn other locations := by
  have standsThere : ∃ otherNode, other.get? location = some otherNode := by
    cases otherFound : other.get? location with
    | none => cases found.symm.trans (same.symm.none otherFound)
    | some otherNode => exact ⟨otherNode, rfl⟩
  obtain ⟨otherNode, otherFound⟩ := standsThere
  intro passed member
  by_cases atEnd : passed = location
  · exact atEnd ▸ same
  · left
    rw [sound.above found (above passed member) atEnd,
      otherSound.above otherFound (above passed member) atEnd]

end AssetBundler.Tree

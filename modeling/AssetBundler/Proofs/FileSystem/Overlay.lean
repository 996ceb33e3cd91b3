import AssetBundler.Proofs.FileSystem.Growth
import AssetBundler.Proofs.FileSystem.Straight

/-!
Trees under an overlay, that is under directories and files that were put over them. A way that
keeps clear of the overlay goes as it does without it, or it ends where something is missing without
it.
-/

namespace AssetBundler

/-- Nodes that are put over a tree. Directories are put at places that had to be made and files at
places that were stored. -/
structure Overlay where
  node : Location → Option Node
  made : List Location
  stored : List Location
  shape : ∀ location found, node location = some found →
    found = .directory ∧ location ∈ made ∨ (∃ contents, found = .file contents) ∧ location ∈ stored

namespace Overlay

/-- Nothing is stored on the way by some names, and none of them is too long for a directory that is
made. -/
structure IsClearOf (overlay : Overlay) (tree : Tree) (names : List String) : Prop where
  apart : ∀ location, location <+: names → location ∉ overlay.stored
  fits : tree.Fits overlay.made names

theorem IsClearOf.above {overlay : Overlay} {tree : Tree} {names others : List String}
    (clear : overlay.IsClearOf tree names) (start : others <+: names) :
    overlay.IsClearOf tree others :=
  ⟨fun location onWay => clear.apart location (onWay.trans start),
    fun before isMade missing name onWay =>
      clear.fits before isMade missing name (onWay.trans start)⟩

/-- What was clear stays so where nothing goes. -/
theorem IsClearOf.later {overlay : Overlay} {tree left : Tree} {names : List String}
    (clear : overlay.IsClearOf tree names)
    (kept : ∀ location, left.get? location = none → tree.get? location = none) :
    overlay.IsClearOf left names :=
  ⟨clear.apart, fun before isMade missing => clear.fits before isMade (kept before missing)⟩

/-- The second tree is the first one under the overlay. -/
structure IsOver (overlay : Overlay) (tree laid : Tree) : Prop where
  sound : tree.IsSound
  free : tree.IsLinkFree
  laidSound : laid.IsSound
  laidFree : laid.IsLinkFree
  get? : ∀ location, laid.get? location = (overlay.node location).or (tree.get? location)
  vacant : ∀ location, overlay.node location = some .directory →
    tree.get? location = none ∨ tree.get? location = some .directory
  isOpen : ∀ location contents, overlay.node location = some (.file contents) →
    tree.get? location ≠ some .directory

variable {overlay : Overlay} {tree laid : Tree}

theorem not_file_of_apart {names : List String} (clear : overlay.IsClearOf tree names)
    {location : Location} (onWay : location <+: names) {found : Node}
    (covered : overlay.node location = some found) :
    found = .directory ∧ location ∈ overlay.made :=
  (overlay.shape location found covered).resolve_right fun ⟨_, isStored⟩ =>
    clear.apart location onWay isStored

/-- What has grown is the tree under what is new. -/
def ofGrowth {grown : Tree} {made stored : List Location}
    (growth : tree.GrowsTo grown made stored) : Overlay where
  node location :=
    if grown.get? location = tree.get? location then none else grown.get? location
  made := made
  stored := stored
  shape := by
    intro location found covered
    split at covered
    · cases covered
    · rename_i changed
      rcases growth.get? location with same | ⟨isMade, -, isDirectory⟩ | ⟨isStored, -, isFile⟩
      · exact absurd same changed
      · exact Or.inl ⟨Option.some.inj (covered.symm.trans isDirectory), isMade⟩
      · obtain ⟨contents, isFile⟩ := isFile
        exact Or.inr ⟨⟨contents, Option.some.inj (covered.symm.trans isFile)⟩, isStored⟩

theorem isOver_ofGrowth {grown : Tree} {made stored : List Location}
    (growth : tree.GrowsTo grown made stored) : (ofGrowth growth).IsOver tree grown := by
  refine ⟨growth.sound, growth.free, growth.grownSound, growth.grownFree, ?_, ?_, ?_⟩
  · intro location
    simp only [ofGrowth]
    split
    · rename_i same
      rw [Option.none_or, same]
    · rcases growth.get? location with same | ⟨-, -, isDirectory⟩ | ⟨-, -, contents, isFile⟩
      · contradiction
      · rw [isDirectory, Option.some_or]
      · rw [isFile, Option.some_or]
  · intro location covered
    simp only [ofGrowth] at covered
    split at covered
    · cases covered
    · rename_i changed
      rcases growth.get? location with same | ⟨-, missing, -⟩ | ⟨-, -, contents, isFile⟩
      · exact absurd same changed
      · exact Or.inl missing
      · cases covered.symm.trans isFile
  · intro location contents covered
    simp only [ofGrowth] at covered
    split at covered
    · cases covered
    · rename_i changed
      rcases growth.get? location with same | ⟨-, -, isDirectory⟩ | ⟨-, isOpen, -⟩
      · exact absurd same changed
      · cases covered.symm.trans isDirectory
      · exact isOpen

namespace IsOver

variable (lies : overlay.IsOver tree laid)
include lies

theorem directory {location : Location} (found : tree.get? location = some .directory) :
    laid.get? location = some .directory := by
  rw [lies.get?, found]
  cases covered : overlay.node location with
  | none => rfl
  | some node =>
      rcases overlay.shape location node covered with ⟨rfl, -⟩ | ⟨⟨contents, rfl⟩, -⟩
      · rfl
      · exact absurd found (lies.isOpen location contents covered)

section Walking

variable {follows : Bool} {enter laidEnter : Location → List String → Except Refusal Location}
  {start : Location} {steps : List String} (names : ∀ step ∈ steps, step ≠ "." ∧ step ≠ "..")
include names

/-- Below a directory of the overlay a way ends at its place, or something is missing. -/
theorem walkSteps_below (clear : overlay.IsClearOf tree (start ++ steps))
    (covered : overlay.node start = some .directory) (missing : tree.get? start = none) :
    Tree.walkSteps laid follows laidEnter start steps = .ok (start ++ steps) ∨
      Tree.walkSteps laid follows laidEnter start steps = .error .missing := by
  induction steps generalizing start with
  | nil =>
      rw [List.append_nil]
      exact Or.inl rfl
  | cons step rest inductionHypothesis =>
      obtain ⟨notHere, notUp⟩ := names step List.mem_cons_self
      have onWay : start <+: start ++ step :: rest := List.prefix_append _ _
      have isMade := (not_file_of_apart clear onWay covered).2
      have whole : start ++ step :: rest = (start ++ [step]) ++ rest :=
        List.append_cons start step rest
      have next : start ++ [step] <+: start ++ step :: rest := whole ▸ List.prefix_append _ _
      have fits := clear.fits start isMade missing step next
      have nothing : tree.get? (start ++ [step]) = none := by
        cases found : tree.get? (start ++ [step]) with
        | none => rfl
        | some node =>
            have inside := lies.sound.parent _ _ found
            rw [List.dropLast_concat] at inside
            cases missing.symm.trans inside
      have shown := lies.get? (start ++ [step])
      rw [nothing, Option.or_none] at shown
      cases coveredNext : overlay.node (start ++ [step]) with
      | none =>
          rw [coveredNext] at shown
          rw [Tree.walkSteps, if_neg notHere, if_neg notUp, if_neg fits]
          by_cases last : rest = []
          · exact Or.inl (by simp [shown, last])
          · exact Or.inr (by simp [shown, last])
      | some node =>
          obtain ⟨rfl, -⟩ := not_file_of_apart clear next coveredNext
          rw [coveredNext] at shown
          rw [Tree.walkSteps_directory notHere notUp fits shown, whole]
          exact inductionHypothesis
            (fun later member => names later (List.mem_cons_of_mem _ member)) (whole ▸ clear)
            coveredNext nothing

/-- A way goes as it does without the overlay, or something is missing without it and the way ends
at its place under it. -/
theorem walkSteps (clear : overlay.IsClearOf tree (start ++ steps)) :
    Tree.walkSteps laid follows laidEnter start steps =
        Tree.walkSteps tree follows enter start steps ∨
      Tree.walkSteps tree follows enter start steps = .error .missing ∧
        Tree.walkSteps laid follows laidEnter start steps = .ok (start ++ steps) := by
  induction steps generalizing start with
  | nil => exact Or.inl rfl
  | cons step rest inductionHypothesis =>
      obtain ⟨notHere, notUp⟩ := names step List.mem_cons_self
      have whole : start ++ step :: rest = (start ++ [step]) ++ rest :=
        List.append_cons start step rest
      have next : start ++ [step] <+: start ++ step :: rest := whole ▸ List.prefix_append _ _
      have later : ∀ other ∈ rest, other ≠ "." ∧ other ≠ ".." := fun other member =>
        names other (List.mem_cons_of_mem _ member)
      by_cases long : Tree.nameLimit < Utf8.size step
      · left
        rw [Tree.walkSteps_of_long rest notHere notUp long,
          Tree.walkSteps_of_long rest notHere notUp long]
      · have shown := lies.get? (start ++ [step])
        cases covered : overlay.node (start ++ [step]) with
        | none =>
            rw [covered, Option.none_or] at shown
            cases found : tree.get? (start ++ [step]) with
            | none =>
                left
                rw [Tree.walkSteps, Tree.walkSteps, if_neg notHere, if_neg notUp, if_neg long,
                  if_neg notHere, if_neg notUp, if_neg long]
                simp only [shown, found]
            | some node =>
                cases node with
                | directory =>
                    rw [Tree.walkSteps_directory notHere notUp long (shown.trans found),
                      Tree.walkSteps_directory notHere notUp long found, whole]
                    exact inductionHypothesis later (whole ▸ clear)
                | file contents =>
                    left
                    rw [Tree.walkSteps, Tree.walkSteps, if_neg notHere, if_neg notUp, if_neg long,
                      if_neg notHere, if_neg notUp, if_neg long]
                    simp only [shown, found]
                | link target => exact absurd found (lies.free _ target)
        | some node =>
            obtain ⟨rfl, -⟩ := not_file_of_apart clear next covered
            rw [covered, Option.some_or] at shown
            rcases lies.vacant _ covered with missing | isDirectory
            · by_cases last : rest = []
              · left
                rw [last, Tree.walkSteps_last notHere notUp long (lies.laidFree.isClear _),
                  Tree.walkSteps_last notHere notUp long (lies.free.isClear _)]
              · have stops : Tree.walkSteps tree follows enter start (step :: rest) =
                    .error .missing := by
                  rw [Tree.walkSteps, if_neg notHere, if_neg notUp, if_neg long]
                  simp [missing, last]
                rw [stops, Tree.walkSteps_directory notHere notUp long shown, whole]
                rcases lies.walkSteps_below later (whole ▸ clear) covered missing with
                  ends | misses
                · exact Or.inr ⟨rfl, ends⟩
                · exact Or.inl misses
            · rw [Tree.walkSteps_directory notHere notUp long shown,
                Tree.walkSteps_directory notHere notUp long isDirectory, whole]
              exact inductionHypothesis later (whole ▸ clear)

end Walking

/-- A straight path leads where it leads without the overlay, unless something is missing there. -/
theorem locate {path : Path} {directory : Location} {follows : Bool} (straight : path.IsStraight)
    (clear : overlay.IsClearOf tree path.parts) :
    laid.locate directory follows path = tree.locate directory follows path ∨
      tree.locate directory follows path = .error .missing ∧
        laid.locate directory follows path = .ok path.parts := by
  unfold Tree.locate
  split
  · exact Or.inl rfl
  · simp only [straight.absolute, if_true]
    exact lies.walkSteps straight.plain clear

end IsOver

end Overlay

end AssetBundler

import AssetBundler.Proofs.FileSystem.Moved

/-!
The part of a tree around a location. A path that keeps near the location shows the same in this
part as in the whole tree, so links elsewhere make no difference to it.
-/

namespace AssetBundler

namespace Tree

/-- The part of a tree on the way to a location and below it. -/
def within (tree : Tree) (base : Location) : Tree :=
  ⟨tree.nodes.filter fun entry => entry.1.isPrefixOf base || base.isPrefixOf entry.1⟩

/-- A location on the way to another one or below it. -/
def IsNear (base location : Location) : Prop := location <+: base ∨ base <+: location

variable {tree : Tree} {base location rest : Location} {path : Path}

theorem isNear_of_prefix (above : location <+: base ++ rest) : IsNear base location :=
  List.prefix_or_prefix_of_prefix above (List.prefix_append base rest)

theorem look_of_filter (keeps : Location → Bool) (nodes : List (Location × Node))
    (kept : keeps location = true) :
    look (nodes.filter fun entry => keeps entry.1) location = look nodes location := by
  induction nodes with
  | nil => rfl
  | cons entry rest inductionHypothesis =>
      by_cases keepsEntry : keeps entry.1 = true
      · rw [List.filter_cons, if_pos keepsEntry, look, look, inductionHypothesis]
      · have apart : entry.1 ≠ location := fun same => keepsEntry (same ▸ kept)
        rw [List.filter_cons, if_neg keepsEntry, inductionHypothesis, look, if_neg apart]

theorem get?_within (near : IsNear base location) :
    (tree.within base).get? location = tree.get? location := by
  have kept : (location.isPrefixOf base || base.isPrefixOf location) = true := by
    rwa [Bool.or_eq_true, List.isPrefixOf_iff_prefix, List.isPrefixOf_iff_prefix]
  rw [get?, get?, within,
    look_of_filter (fun location => location.isPrefixOf base || base.isPrefixOf location) _ kept]

theorem sameBelow_within {other : Tree} {otherBase : Location}
    (same : tree.SameBelow other base otherBase) :
    (tree.within base).SameBelow (other.within otherBase) base otherBase := by
  intro location
  rw [get?_within (Or.inr (List.prefix_append base location)), same,
    get?_within (Or.inr (List.prefix_append otherBase location))]

end Tree

namespace Path

/-- The way of a path and its end keep near a location. -/
structure KeepsNear (base : Location) (path : Path) : Prop where
  place : Tree.IsNear base (path.place [])
  entered : ∀ passed ∈ path.entered [], Tree.IsNear base passed

section Below

variable {base : Path} {steps : List String} (plain : base.IsPlain) (level : ".." ∉ steps)
include plain level

theorem prefix_of_mem_entered_below {passed : Location}
    (member : passed ∈ (base.below steps).entered []) : passed <+: base.parts ++ names steps := by
  have levelAll : ".." ∉ base.parts ++ steps := fun up =>
    (List.mem_append.mp up).elim (fun inBase => (plain _ inBase).2 rfl) level
  rw [entered_root] at member
  have above := Tree.prefix_of_mem_enteredFrom levelAll member
  rwa [← place_below plain level, place_root]

theorem keepsNear_below : (base.below steps).KeepsNear base.parts where
  place := by
    rw [place_below plain level]
    exact Or.inr (List.prefix_append _ _)
  entered := fun _ member =>
    Tree.isNear_of_prefix (prefix_of_mem_entered_below plain level member)

/-- One step up at the end leads no further away than to the directory above. -/
theorem keepsNear_below_up : (base.below (steps ++ [".."])).KeepsNear base.parts where
  place := by
    have place : (base.below (steps ++ [".."])).place [] =
        ((base.below steps).place []).dropLast := by
      rw [place_root, place_root, below, below, ← List.append_assoc, Tree.placeFrom_concat]
      rfl
    rw [place, place_below plain level]
    exact Tree.isNear_of_prefix (List.dropLast_prefix _)
  entered := by
    intro passed member
    have entered : (base.below (steps ++ [".."])).entered [] = (base.below steps).entered [] := by
      rw [entered_root, entered_root, below, below, ← List.append_assoc, Tree.enteredFrom_concat]
      simp
    rw [entered] at member
    exact Tree.isNear_of_prefix (prefix_of_mem_entered_below plain level member)

end Below

end Path

namespace Tree

variable {tree : Tree} {base : Location} {path : Path} (free : (tree.within base).IsLinkFree)
  (near : path.KeepsNear base)
include free near

theorem locate_within : (tree.within base).locate [] true path = tree.locate [] true path :=
  locate_congr (free.isClear _) fun _ member => Or.inl (get?_within (near.entered _ member))

theorem status_within : (tree.within base).status [] path = tree.status [] path :=
  status_congr (free.isClear _) (fun _ member => Or.inl (get?_within (near.entered _ member)))
    (get?_within near.place)

theorem isFile_within : (tree.within base).isFile [] path = tree.isFile [] path := by
  rw [isFile, isFile, probe, probe, status_within free near]

end Tree

end AssetBundler

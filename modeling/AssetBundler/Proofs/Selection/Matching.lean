import AssetBundler.Proofs.Selection.Grown

/-!
What patterns match. A selection whose patterns match none of the files that were stored stays
whatever it was, be it files or a failure.
-/

namespace AssetBundler.Selection

variable {tree grown : Tree} {made stored : List Location} {base path : Path} {pattern : String}
  {patterns : List String} {selected : List Path} {location : Location}

/-- A pattern matches a location when there is a tree without links in which it finds a file
there. -/
def Matches (base : Path) (pattern : String) (location : Location) : Prop :=
  ∃ tree : Tree, tree.IsSound ∧ tree.IsLinkFree ∧ ∃ found,
    expandPattern tree base pattern = .ok found ∧ ∃ path ∈ found, path.place [] = location

/-- Without wildcards a pattern matches nothing but the file that it names. -/
theorem eq_of_matches (literal : Wildcard.isMagic pattern = false)
    (isMatch : Matches base pattern location) :
    (literalPath base pattern).place [] = location := by
  obtain ⟨tree, -, -, found, finds, path, member, rfl⟩ := isMatch
  cases asked : tree.isFile [] (literalPath base pattern) with
  | error fault => cases (expandPattern_refused asked).symm.trans finds
  | ok answer =>
      cases answer with
      | true =>
          cases (expandPattern_literal asked).symm.trans finds
          rw [List.mem_singleton.mp member]
      | false =>
          rw [expandPattern_search asked, literal] at finds
          cases finds

/-- What is selected is matched. -/
theorem matches_of_selected (sound : tree.IsSound) (free : tree.IsLinkFree)
    (selects : expand tree base patterns = .ok selected) (member : path ∈ selected) :
    ∃ pattern ∈ patterns, Matches base pattern (path.place []) := by
  rcases ((expandFrom_eq_ok selects).2 path).mp member with
    old | ⟨pattern, isOne, found, finds, at_⟩
  · cases old
  · exact ⟨pattern, isOne, tree, sound, free, found, finds, path, at_, rfl⟩

/-- Files that no pattern matches do not show in a selection. -/
theorem expand_of_unmatched (growth : tree.GrowsTo grown made stored)
    (downward : Glob.IsDownward base) (level : LevelAll patterns)
    (fits : FitAll tree made base patterns)
    (unmatched : ∀ pattern ∈ patterns, ∀ location ∈ stored, ¬ Matches base pattern location) :
    expand grown base patterns = expand tree base patterns := by
  refine (expand_congr fun pattern member => ?_).symm
  apply findAlike_of_growth growth downward (level pattern member) (fits pattern member)
  intro found finds path inFound isStored
  exact unmatched pattern member _ isStored
    ⟨grown, growth.grownSound, growth.grownFree, found, finds, path, inFound, rfl⟩

end AssetBundler.Selection

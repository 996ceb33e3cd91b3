import AssetBundler.Proofs.FileSystem.Growth
import AssetBundler.Proofs.FileSystem.Removal

/-!
Names that are too long. Such a name is refused right inside a directory that exists, and nowhere
else, so what is refused changes when directories are made.
-/

namespace AssetBundler

namespace Tree

variable {tree : Tree} {directory before : Location} {path : Path} {name : String}

/-- The only ways for a straight path to be too long. -/
theorem locate_straight_tooLong {follows : Bool} (sound : tree.IsSound) (free : tree.IsLinkFree)
    (straight : path.IsStraight) :
    tree.locate directory follows path = .error .nameTooLong ↔
      pathLimit < Utf8.size path.toString ∨ ∃ before name, before ++ [name] <+: path.parts ∧
        tree.get? before = some .directory ∧ nameLimit < Utf8.size name := by
  constructor
  · intro refused
    refine (locate_eq_tooLong.mp refused).imp_right fun met => ?_
    rw [straight.start_eq] at met
    obtain ⟨before, name, rest, whole, -, -, long, ends⟩ :=
      exists_of_walkSteps_tooLong (free.isClear _) sound rfl met
    have start : before ++ [name] <+: path.parts := ⟨rest, by rw [whole]; simp⟩
    have names : ∀ step ∈ before, step ≠ "." ∧ step ≠ ".." := fun step member =>
      straight.plain step (start.subset (List.mem_append_left _ member))
    rw [placeFrom_names names, List.nil_append] at ends
    exact ⟨before, name, start, ends, long⟩
  · rintro (long | ⟨before, name, start, isDirectory, long⟩)
    · exact locate_eq_tooLong.mpr (Or.inl long)
    · rw [locate_straight straight []]
      exact locate_of_long_name (fun here => (straight.plain _ here).1 rfl)
        (fun up => (straight.plain _ (List.dropLast_subset _ up)).2 rfl) start sound isDirectory
        long follows

/-- A path with such a name is refused. -/
theorem refusal?_of_long_name (sound : tree.IsSound) (free : tree.IsLinkFree)
    (straight : path.IsStraight) (clean : holdsNull path = false)
    (start : before ++ [name] <+: path.parts) (isDirectory : tree.get? before = some .directory)
    (long : nameLimit < Utf8.size name) :
    tree.refusal? directory path = some (.refused .nameTooLong path) :=
  refusal?_eq_some.mpr (isFile_eq_error.mpr ⟨clean,
    (locate_straight_tooLong sound free straight).mpr
      (Or.inr ⟨before, name, start, isDirectory, long⟩), rfl⟩)

/-- A name of one octet more than there may be. -/
def longName : String := String.ofList (List.replicate 256 'n')

theorem toList_longName : longName.toList = 'n' :: List.replicate 255 'n' := String.toList_ofList

theorem not_mem_longName {c : Char} (other : c ≠ 'n') : c ∉ longName.toList := by
  intro member
  rw [toList_longName, ← List.replicate_succ] at member
  exact other (List.eq_of_mem_replicate member)

end Tree

end AssetBundler

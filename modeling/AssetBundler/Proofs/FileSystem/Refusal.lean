import AssetBundler.Proofs.FileSystem.Growth
import AssetBundler.Proofs.FileSystem.Stored
import AssetBundler.Proofs.FileSystem.Straight

/-!
Changes that are refused. Directories are made for all of a path or for nothing of it, unless a name
on it is too long, and files are written up to the first one that is refused.
-/

namespace AssetBundler.Tree

variable {tree made left : Tree} {directory location : Location} {path : Path}

/-- Directories that were made are all that has grown. -/
theorem HasMade.growsTo (done : tree.HasMade made directory path) (sound : tree.IsSound)
    (free : tree.IsLinkFree) : tree.GrowsTo made (path.entered directory) [] := by
  refine ⟨sound, free, done.sound, ?_, ?_⟩
  · exact fun location target => done.isClear (free.isClear [location]) location
      List.mem_cons_self target
  · intro location
    rw [done.get?]
    split
    · rename_i onWay
      rcases done.missing location onWay with missing | isDirectory
      · exact Or.inr (Or.inl ⟨onWay, missing, rfl⟩)
      · exact Or.inl isDirectory.symm
    · exact Or.inl rfl

/-- Files were put at some of the locations, in place of files or of nothing. -/
structure Overwrites (tree left : Tree) (locations : List Location) : Prop where
  sound : left.IsSound
  free : left.IsLinkFree
  get? : ∀ location, left.get? location = tree.get? location ∨
    location ∈ locations ∧ tree.get? location ≠ some .directory ∧
      ∃ contents, left.get? location = some (.file contents)

/-- Files that are written one by one are put at their places, up to the first one that is
refused. -/
theorem overwrites_of_writeFiles {files : List (Path × Bytes)} (sound : tree.IsSound)
    (free : tree.IsLinkFree)
    (starts : ∀ file ∈ files, tree.get? (file.1.start directory) = some .directory) :
    tree.Overwrites (tree.writeFiles directory files).2 (places directory files) := by
  induction files generalizing tree with
  | nil => exact ⟨sound, free, fun _ => Or.inl rfl⟩
  | cons file rest inductionHypothesis =>
      rw [writeFiles]
      cases written : tree.write directory file.1 file.2 with
      | error fault => exact ⟨sound, free, fun _ => Or.inl rfl⟩
      | ok stored =>
          obtain ⟨clean, located, isOpen, rfl⟩ := write_place (free.isClear _) written
          have storedSound := sound_of_located sound (starts file List.mem_cons_self)
            (free.isClear _) clean located isOpen (.file file.2)
          have storedFree : (tree.set (file.1.place directory) (.file file.2)).IsLinkFree :=
            fun location target => (free.isClear [location]).set_file (ne_nil_of_open isOpen)
              location List.mem_cons_self target
          have later := inductionHypothesis storedSound storedFree fun other member =>
            get?_set_file isOpen (starts other (List.mem_cons_of_mem file member))
          refine ⟨later.sound, later.free, fun location => ?_⟩
          have placed := get?_set tree (file.1.place directory) location (.file file.2)
            (ne_nil_of_open isOpen)
          by_cases here : file.1.place directory = location
          · rw [if_pos here] at placed
            refine Or.inr ⟨here ▸ List.mem_cons_self, here ▸ isOpen, ?_⟩
            rcases later.get? location with same | ⟨-, -, isFile⟩
            · exact ⟨file.2, same.trans placed⟩
            · exact isFile
          · rw [if_neg here] at placed
            rw [← placed]
            exact (later.get? location).imp_right (And.imp_left (List.mem_cons_of_mem _))

section Refused

theorem forgive_snd (tree : Tree) (directory : Location) (path : Path) (fault : FileFault) :
    (tree.forgive directory path fault).2 = tree := by
  unfold forgive
  split <;> rfl

theorem makeDirectory_missing {refused : Path}
    (missing : tree.makeDirectory directory path = .error (.refused .missing refused)) :
    holdsNull path = false ∧ tree.locate directory false path = .error .missing := by
  unfold makeDirectory at missing
  split at missing
  · cases missing
  · rename_i clean
    refine ⟨by simpa using clean, ?_⟩
    split at missing
    · rename_i refusal located
      cases missing
      exact located
    · split at missing <;> cases missing

theorem isStraight_parent (straight : path.IsStraight) : path.parent.IsStraight :=
  ⟨straight.absolute, fun part member => straight.plain part (List.dropLast_subset _ member)⟩

theorem fits_parent (fits : tree.Fits (path.entered directory) path.parts) :
    tree.Fits (path.parent.entered directory) path.parent.parts := by
  intro before isMade missing name start
  exact fits before (path.entered_parent_subset directory isMade) missing name
    (start.trans (List.dropLast_prefix path.parts))

/-- What the way of a straight path enters lies above its end. -/
theorem prefix_of_mem_entered (straight : path.IsStraight) {passed : Location}
    (member : passed ∈ path.entered directory) : passed <+: path.parts := by
  have below := prefix_of_mem_enteredFrom (fun up => (straight.plain _ up).2 rfl) member
  rwa [← Path.place, straight.place_eq] at below

/-- A directory can be made where its parent has just been made. -/
theorem exists_of_made_parent (sound : tree.IsSound) (free : tree.IsLinkFree)
    (straight : path.IsStraight) (fits : tree.Fits (path.entered directory) path.parts)
    (clean : holdsNull path = false)
    (missing : tree.locate directory false path = .error .missing)
    (done : tree.HasMade made directory path.parent) :
    ∃ next, made.makeDirectory directory path = .ok next := by
  have growth := done.growsTo sound free
  have inside : made.get? path.parts.dropLast = some .directory := by
    have reached := done.reached
    rwa [(isStraight_parent straight).place_eq] at reached
  have reaches : made.locate directory false path = .ok path.parts ∨
      made.locate directory false path = .error .nameTooLong :=
    locate_of_directory growth.grownSound growth.grownFree straight inside
  rcases reaches with located | long
  · have vacantBefore : tree.get? path.parts = none := by
      cases found : tree.get? path.parts with
      | none => rfl
      | some node =>
          have reaches : tree.locate directory false path = .ok path.parts ∨
              tree.locate directory false path = .error .nameTooLong :=
            locate_of_get? sound free straight found
          rcases reaches with located | long
          · cases missing.symm.trans located
          · cases missing.symm.trans long
    have notAbove : path.parts ∉ path.parent.entered directory := by
      intro member
      have shorter := (prefix_of_mem_entered (isStraight_parent straight) member).length_le
      rw [Path.parent, List.length_dropLast] at shorter
      have root : path.parts = [] := List.eq_nil_of_length_eq_zero (by omega)
      rw [root] at vacantBefore
      cases vacantBefore
    refine ⟨_, makeDirectory_eq_ok.mpr ⟨clean, _, located, ?_, rfl⟩⟩
    rw [done.get?, if_neg notAbove, vacantBefore]
  · rw [locate_straight straight []] at long missing
    have fitsAbove : tree.Fits (path.parent.entered directory) path.parts :=
      fun before isMade => fits before (path.entered_parent_subset directory isMade)
    have longBefore : tree.locate [] false path = .error .nameTooLong :=
      growth.tooLong_back (fun here => (straight.plain _ here).1 rfl)
      (fun up => (straight.plain _ (List.dropLast_subset _ up)).2 rfl) fitsAbove long
    cases missing.symm.trans longBefore

/-- Directories that cannot all be made are not made at all, unless a name is too long right inside
one of them. -/
theorem makeDirectories_refused (sound : tree.IsSound) (free : tree.IsLinkFree)
    (straight : path.IsStraight) (fits : tree.Fits (path.entered directory) path.parts)
    {fault : FileFault} (refused : (tree.makeDirectories directory path).1 = .error fault) :
    (tree.makeDirectories directory path).2 = tree := by
  fun_induction makeDirectories tree directory path with
  | case1 | case4 => cases refused
  | case2 => rfl
  | case3 path cause missing deep upper left above inductionHypothesis =>
      rw [above] at inductionHypothesis
      exact inductionHypothesis (isStraight_parent straight) (fits_parent fits) refused
  | case5 path cause missing deep left above other again
  | case6 path cause missing deep left above other _ again =>
      obtain ⟨clean, unreached⟩ := makeDirectory_missing missing
      obtain ⟨next, made⟩ := exists_of_made_parent sound free straight fits clean unreached
        (hasMade_of_makeDirectories sound (isStraight_parent straight).starts (free.isClear _)
          above)
      cases made.symm.trans again
  | case7 path => exact forgive_snd _ _ _ _

end Refused

end AssetBundler.Tree

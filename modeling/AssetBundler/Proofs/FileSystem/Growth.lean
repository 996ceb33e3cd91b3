import AssetBundler.Proofs.FileSystem.Normal

/-!
Trees that have grown. A path that leads to a file keeps leading there, and a file that a path leads
to anew is one that was stored.
-/

namespace AssetBundler.Tree

/-- A tree has grown. Directories were made where nothing stood, and files were stored where no
directory stood. Both trees are sound and hold no link. -/
structure GrowsTo (tree grown : Tree) (made stored : List Location) : Prop where
  sound : tree.IsSound
  free : tree.IsLinkFree
  grownSound : grown.IsSound
  grownFree : grown.IsLinkFree
  get? : ∀ location, grown.get? location = tree.get? location ∨
    (location ∈ made ∧ tree.get? location = none ∧ grown.get? location = some .directory) ∨
    (location ∈ stored ∧ tree.get? location ≠ some .directory ∧
      ∃ contents, grown.get? location = some (.file contents))

/-- On a list of names there is none that is too long right behind a directory that was missing. -/
def Fits (tree : Tree) (made : List Location) (names : List String) : Prop :=
  ∀ before ∈ made, tree.get? before = none → ∀ name, before ++ [name] <+: names →
    ¬ nameLimit < Utf8.size name

/-- Short names fit anywhere. -/
theorem fits_of_short {tree : Tree} {made : List Location} {names : List String}
    (short : ∀ name ∈ names, ¬ nameLimit < Utf8.size name) : tree.Fits made names :=
  fun _ _ _ _ start => short _ (start.subset (List.mem_append_right _ List.mem_cons_self))

section Names

variable {tree : Tree} {path : Path} {before : Location} {name : String}
  (notHere : "." ∉ path.parts) (level : ".." ∉ path.parts.dropLast)
  (start : before ++ [name] <+: path.parts)
include notHere level start

/-- What stands before a part of such a path are names. -/
theorem names_before : ∀ step ∈ before, step ≠ "." ∧ step ≠ ".." := by
  obtain ⟨rest, whole⟩ := start
  intro step member
  have inParts : step ∈ path.parts.dropLast := by
    rw [← whole, List.append_assoc, List.singleton_append, List.dropLast_append_cons]
    exact List.mem_append_left _ member
  constructor
  · rintro rfl
    exact notHere (List.dropLast_subset _ inParts)
  · rintro rfl
    exact level inParts

/-- A name that is too long is refused right inside a directory. -/
theorem locate_of_long_name (sound : tree.IsSound)
    (isDirectory : tree.get? before = some .directory) (long : nameLimit < Utf8.size name)
    (follows : Bool) :
    tree.locate [] follows path = .error .nameTooLong := by
  have names := names_before notHere level start
  have nameIsName : name ≠ "." ∧ name ≠ ".." := by
    constructor <;> rintro rfl <;> exact absurd long (by decide +kernel)
  obtain ⟨rest, whole⟩ := start
  rw [List.append_assoc, List.singleton_append] at whole
  refine locate_eq_tooLong.mpr (Or.inr ?_)
  rw [← whole, show path.start [] = [] from ite_self []]
  apply walkSteps_of_tooLong _ nameIsName.1 nameIsName.2 long
  intro passed member
  have above := prefix_of_mem_enteredFrom (fun up => (names _ up).2 rfl) member
  rw [placeFrom_names names, List.nil_append] at above
  by_cases atEnd : passed = before
  · exact atEnd ▸ isDirectory
  · exact sound.above isDirectory above atEnd

end Names

namespace GrowsTo

variable {tree grown : Tree} {made stored : List Location} (growth : tree.GrowsTo grown made stored)
  {location : Location} {path : Path}
include growth

theorem directory (found : tree.get? location = some .directory) :
    grown.get? location = some .directory := by
  rcases growth.get? location with same | ⟨-, missing, -⟩ | ⟨-, isOpen, -⟩
  · exact same.trans found
  · cases missing.symm.trans found
  · exact absurd found isOpen

theorem sameKind_of_file {contents : Bytes} (found : tree.get? location = some (.file contents)) :
    SameKind (tree.get? location) (grown.get? location) := by
  rcases growth.get? location with same | ⟨-, missing, -⟩ | ⟨-, -, others, isFile⟩
  · exact Or.inl same.symm
  · cases missing.symm.trans found
  · exact Or.inr ⟨contents, others, found, isFile⟩

/-- A file that was not stored stood there before. -/
theorem file_of_not_stored {contents : Bytes} (found : grown.get? location = some (.file contents))
    (notStored : location ∉ stored) : tree.get? location = some (.file contents) := by
  rcases growth.get? location with same | ⟨-, -, isDirectory⟩ | ⟨isStored, -, -⟩
  · exact same.symm.trans found
  · cases isDirectory.symm.trans found
  · exact absurd isStored notStored

theorem made_of_new (found : grown.get? location = some .directory)
    (isNew : tree.get? location ≠ some .directory) :
    location ∈ made ∧ tree.get? location = none := by
  rcases growth.get? location with same | ⟨isMade, missing, -⟩ | ⟨-, -, contents, isFile⟩
  · exact absurd (same.symm.trans found) isNew
  · exact ⟨isMade, missing⟩
  · cases isFile.symm.trans found

/-- A path that leads to a file still does so. -/
theorem isFile (isFile : tree.isFile [] path = .ok true) : grown.isFile [] path = .ok true := by
  obtain ⟨clean, location, contents, located, found⟩ := isFile_eq_true.mp isFile
  obtain ⟨others, isOther⟩ := (growth.sameKind_of_file found).file found
  refine isFile_eq_true.mpr ⟨clean, location, others, ?_, isOther⟩
  exact locate_transfer (growth.free.isClear _) located
    (fun passed _ => growth.directory) (growth.grownFree.isClear _)

theorem isFile_error {fault : FileFault} (refused : tree.isFile [] path = .error fault) :
    grown.isFile [] path = .error fault := by
  obtain ⟨clean, long, same⟩ := isFile_eq_error.mp refused
  exact isFile_eq_error.mpr ⟨clean, locate_tooLong (growth.free.isClear _) long
    (fun passed _ => growth.directory), same⟩

omit growth in
/-- A path to a file does not end with a step up. -/
theorem level_of_isFile {tree : Tree} (sound : tree.IsSound) (free : tree.IsLinkFree)
    (isFile : tree.isFile [] path = .ok true) (level : ".." ∉ path.parts.dropLast) :
    ".." ∉ path.parts := by
  obtain ⟨-, location, contents, located, found⟩ := isFile_eq_true.mp isFile
  intro up
  have filled : path.parts ≠ [] := List.ne_nil_of_mem up
  have last : path.parts.getLast filled = ".." := by
    rw [← List.dropLast_append_getLast filled] at up
    exact (List.mem_singleton.mp ((List.mem_append.mp up).resolve_left level)).symm
  have isUp : path.parts = path.parts.dropLast ++ [".."] := by
    rw [← last]
    exact (List.dropLast_append_getLast filled).symm
  have starts : tree.get? (path.start []) = some .directory := path.start_directory rfl
  have isDirectory := directory_of_walkSteps_up (free.isClear _) sound starts isUp
    (locate_eq_ok.mp located).2
  cases isDirectory.symm.trans found

/-- A path that leads to a file that was not stored did so before. -/
theorem isFile_back (level : ".." ∉ path.parts.dropLast)
    (isFile : grown.isFile [] path = .ok true) (notStored : path.place [] ∉ stored) :
    tree.isFile [] path = .ok true := by
  have levelWhole := level_of_isFile growth.grownSound growth.grownFree isFile level
  obtain ⟨clean, location, contents, located, found⟩ := isFile_eq_true.mp isFile
  obtain ⟨rfl, -⟩ := locate_place (growth.grownFree.isClear _) located
  have foundBefore := growth.file_of_not_stored found notStored
  have agree : grown.AgreesOn tree (path.entered []) := by
    apply agreesOn_above growth.grownSound growth.sound found
      (Or.inl (found.trans foundBefore.symm))
    intro passed member
    rw [Path.entered_root] at member
    rw [Path.place_root]
    exact prefix_of_mem_enteredFrom levelWhole member
  refine isFile_eq_true.mpr ⟨clean, _, contents, ?_, foundBefore⟩
  exact (locate_congr (growth.grownFree.isClear _) agree).symm.trans located

/-- A name that is too long was so before, unless a directory was made in front of it. -/
theorem tooLong_back {follows otherFollows : Bool} (notHere : "." ∉ path.parts)
    (level : ".." ∉ path.parts.dropLast) (fits : tree.Fits made path.parts)
    (refused : grown.locate [] follows path = .error .nameTooLong) :
    tree.locate [] otherFollows path = .error .nameTooLong := by
  rcases locate_eq_tooLong.mp refused with tooLong | met
  · exact locate_eq_tooLong.mpr (Or.inl tooLong)
  · have root : path.start [] = [] := ite_self []
    rw [root] at met
    have clear : grown.IsClear (enteredFrom [] path.parts) := growth.grownFree.isClear _
    obtain ⟨before, name, rest, whole, -, -, tooLong, ends⟩ :=
      exists_of_walkSteps_tooLong clear growth.grownSound rfl met
    have start : before ++ [name] <+: path.parts := ⟨rest, by rw [whole]; simp⟩
    rw [placeFrom_names (names_before notHere level start), List.nil_append] at ends
    by_cases isOld : tree.get? before = some .directory
    · exact locate_of_long_name notHere level start growth.sound isOld tooLong otherFollows
    · obtain ⟨isMade, missing⟩ := growth.made_of_new ends isOld
      exact absurd tooLong (fits before isMade missing name start)

theorem isFile_error_back {fault : FileFault} (notHere : "." ∉ path.parts)
    (level : ".." ∉ path.parts.dropLast) (fits : tree.Fits made path.parts)
    (refused : grown.isFile [] path = .error fault) : tree.isFile [] path = .error fault := by
  obtain ⟨clean, long, same⟩ := isFile_eq_error.mp refused
  exact isFile_eq_error.mpr ⟨clean, growth.tooLong_back notHere level fits long, same⟩

end GrowsTo

end AssetBundler.Tree

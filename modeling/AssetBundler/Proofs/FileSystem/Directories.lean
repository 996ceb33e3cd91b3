import AssetBundler.Proofs.FileSystem.Places
import AssetBundler.Proofs.FileSystem.ReadBack

/-!
The places that paths lead to where no link stands on the way, and what making directories leaves of
a tree. The missing directories on the way are made, and nothing else changes.
-/

namespace AssetBundler

namespace Path

/-- Where the way of a path starts. -/
def start (path : Path) (directory : Location) : Location :=
  if path.isAbsolute then [] else directory

/-- The location of a path when no link stands on its way. -/
def place (path : Path) (directory : Location) : Location :=
  Tree.placeFrom (path.start directory) path.parts

/-- The locations that the way of a path enters by name. -/
def entered (path : Path) (directory : Location) : List Location :=
  Tree.enteredFrom (path.start directory) path.parts

theorem start_directory {tree : Tree} {directory : Location} (path : Path)
    (home : tree.get? directory = some .directory) :
    tree.get? (path.start directory) = some .directory := by
  rw [start]
  split
  · rfl
  · exact home

theorem entered_parent_subset (path : Path) (directory : Location) :
    path.parent.entered directory ⊆ path.entered directory := by
  intro location member
  have same : path.parent.start directory = path.start directory := rfl
  rw [entered, same, parent] at member
  rw [entered]
  by_cases short : path.parts = []
  · rw [short] at member ⊢
    exact member
  · rw [← List.dropLast_append_getLast short, Tree.enteredFrom_concat]
    exact List.mem_append_left _ member

theorem mem_intercalate {texts : List String} {text : String} {c : Char} (member : text ∈ texts)
    (inside : c ∈ text.toList) : c ∈ ("/".intercalate texts).toList := by
  induction texts with
  | nil => cases member
  | cons first rest inductionHypothesis =>
      cases rest with
      | nil =>
          rw [List.mem_singleton.mp member] at inside
          simpa using inside
      | cons next others =>
          rw [String.intercalate_cons_cons, String.toList_append, String.toList_append]
          rcases List.mem_cons.mp member with same | later
          · exact List.mem_append_left _ (List.mem_append_left _ (same ▸ inside))
          · exact List.mem_append_right _ (inductionHypothesis later)

theorem null_not_mem {path : Path} (clean : Tree.holdsNull path = false) {part : String}
    (member : part ∈ path.parts) : '\x00' ∉ part.toList := by
  intro inside
  have shown : '\x00' ∈ (path.anchor.text ++ "/".intercalate path.parts).toList := by
    rw [String.toList_append]
    exact List.mem_append_right _ (mem_intercalate member inside)
  have filled : path.anchor.text ++ "/".intercalate path.parts ≠ "" := by
    intro empty
    rw [empty] at shown
    cases shown
  simp only [Tree.holdsNull, toString, if_neg filled] at clean
  simp only [List.contains_eq_mem, decide_eq_false_iff_not] at clean
  exact clean shown

end Path

namespace Tree

variable {tree other : Tree} {directory location : Location} {path : Path}

section Locating

variable {follows otherFollows : Bool}

theorem locate_eq_ok : tree.locate directory follows path = .ok location ↔
    ¬ pathLimit < Utf8.size path.toString ∧
      walkSteps tree follows (walk tree follows 39) (path.start directory) path.parts =
        .ok location := by
  unfold locate
  split
  · rename_i long
    simp [long]
  · rename_i fits
    simp only [fits, not_false_eq_true, true_and]
    rfl

/-- A path is too long as a whole or by a name on the way. -/
theorem locate_eq_tooLong : tree.locate directory follows path = .error .nameTooLong ↔
    pathLimit < Utf8.size path.toString ∨
      walkSteps tree follows (walk tree follows 39) (path.start directory) path.parts =
        .error .nameTooLong := by
  unfold locate
  split
  · rename_i long
    simp [long]
  · rename_i fits
    simp only [fits, false_or]
    rfl

variable (clear : tree.IsClear (path.entered directory))
include clear

theorem locate_place (located : tree.locate directory follows path = .ok location) :
    location = path.place directory ∧
      ∀ passed ∈ path.entered directory,
        passed = location ∨ tree.get? passed = some .directory :=
  walkSteps_place clear (locate_eq_ok.mp located).2

theorem locate_transfer (located : tree.locate directory follows path = .ok location)
    (kept : tree.KeepsDirectories other (path.entered directory))
    (ending : other.IsClear [location]) :
    other.locate directory otherFollows path = .ok location := by
  obtain ⟨fits, walked⟩ := locate_eq_ok.mp located
  exact locate_eq_ok.mpr ⟨fits, walkSteps_transfer clear walked kept ending⟩

theorem locate_tooLong (refused : tree.locate directory follows path = .error .nameTooLong)
    (kept : tree.KeepsDirectories other (path.entered directory)) :
    other.locate directory otherFollows path = .error .nameTooLong :=
  locate_eq_tooLong.mpr ((locate_eq_tooLong.mp refused).imp_right fun met =>
    walkSteps_tooLong clear met kept)

end Locating

section Setting

/-- A node that is put into a directory of a sound tree, with a fit name and not in place of a
directory, leaves the tree sound. -/
theorem IsSound.set (sound : tree.IsSound) {before : Location} {name : String}
    (inside : tree.get? before = some .directory)
    (isName : name ≠ "." ∧ name ≠ ".." ∧ '\x00' ∉ name.toList)
    (isOpen : tree.get? (before ++ [name]) ≠ some .directory) (node : Node) :
    (tree.set (before ++ [name]) node).IsSound := by
  have placed (location : Location) := get?_set tree (before ++ [name]) location node (by simp)
  have directories {location : Location} (found : tree.get? location = some .directory) :
      (tree.set (before ++ [name]) node).get? location = some .directory := by
    have apart : before ++ [name] ≠ location := fun same => isOpen (same ▸ found)
    rw [placed, if_neg apart, found]
  constructor
  · intro location found isFound
    rw [placed] at isFound
    split at isFound
    · rename_i same
      rw [← same, List.dropLast_concat]
      exact directories inside
    · exact directories (sound.parent location found isFound)
  · intro location found isFound
    rw [placed] at isFound
    split at isFound
    · rename_i same
      intro other member
      rw [← same] at member
      rcases List.mem_append.mp member with above | last
      · exact sound.named before _ inside other above
      · rw [List.mem_singleton.mp last]
        exact isName
    · exact sound.named location found isFound

variable (sound : tree.IsSound) (starts : tree.get? (path.start directory) = some .directory)
  (clear : tree.IsClear (path.entered directory)) (clean : holdsNull path = false)
include sound starts clear clean

/-- What is put at the end of a way, and not in place of a directory, leaves the tree sound. -/
theorem sound_of_located {follows : Bool}
    (located : tree.locate directory follows path = .ok location)
    (isOpen : tree.get? location ≠ some .directory) (node : Node) :
    (tree.set location node).IsSound := by
  rcases ending_of_walkSteps clear sound starts (locate_eq_ok.mp located).2 with
    isDirectory | ⟨before, name, same, inside, -, step, notHere, notUp⟩
  · exact absurd isDirectory isOpen
  · rw [same] at isOpen ⊢
    exact sound.set inside ⟨notHere, notUp, Path.null_not_mem clean step⟩ isOpen node

end Setting

/-- All directories on the way to a path are there after a change that made the missing ones and
nothing else. -/
structure HasMade (tree made : Tree) (directory : Location) (path : Path) : Prop where
  sound : made.IsSound
  clean : holdsNull path = false
  located : made.locate directory true path = .ok (path.place directory)
  reached : made.get? (path.place directory) = some .directory
  missing : ∀ passed ∈ path.entered directory,
    tree.get? passed = none ∨ tree.get? passed = some .directory
  get? : ∀ location, made.get? location =
    if location ∈ path.entered directory then some .directory else tree.get? location

section Making

variable {made : Tree}

theorem makeDirectory_eq_ok : tree.makeDirectory directory path = .ok made ↔
    holdsNull path = false ∧ ∃ location, tree.locate directory false path = .ok location ∧
      tree.get? location = none ∧ made = tree.set location .directory := by
  unfold makeDirectory
  cases holdsNull path with
  | true => simp
  | false =>
      cases tree.locate directory false path with
      | error refusal => simp
      | ok location => cases found : tree.get? location <;> simp [found, eq_comm]

/-- A path leads to a directory. -/
theorem isDirectory_eq_true : tree.isDirectory directory path = .ok true ↔
    holdsNull path = false ∧ ∃ location, tree.locate directory true path = .ok location ∧
      tree.get? location = some .directory := by
  unfold isDirectory probe status
  cases holdsNull path with
  | true => simp [Except.map]
  | false =>
      cases tree.locate directory true path with
      | error refusal => cases refusal <;> simp [Except.map, bind, Except.bind]
      | ok location =>
          cases found : tree.get? location <;>
            simp [Except.map, bind, Except.bind, pure, Except.pure, found]

section Steps

variable (sound : tree.IsSound) (starts : tree.get? (path.start directory) = some .directory)
  (clear : tree.IsClear (path.entered directory))
include sound clear

theorem hasMade_of_isDirectory (isDirectory : tree.isDirectory directory path = .ok true) :
    tree.HasMade tree directory path := by
  obtain ⟨clean, location, located, found⟩ := isDirectory_eq_true.mp isDirectory
  obtain ⟨same, passes⟩ := locate_place clear located
  subst same
  have directories (passed : Location) (member : passed ∈ path.entered directory) :
      tree.get? passed = some .directory := by
    rcases passes passed member with last | before
    · exact last ▸ found
    · exact before
  refine ⟨sound, clean, located, found, fun passed member => Or.inr (directories passed member), ?_⟩
  intro location
  split
  · exact directories location ‹_›
  · rfl

include starts

theorem hasMade_of_makeDirectory (done : tree.makeDirectory directory path = .ok made) :
    tree.HasMade made directory path := by
  obtain ⟨clean, location, located, free, rfl⟩ := makeDirectory_eq_ok.mp done
  have isOpen : tree.get? location ≠ some .directory := by simp [free]
  obtain ⟨same, passes⟩ := locate_place clear located
  have last : location ∈ path.entered directory := by
    rcases ending_of_walkSteps clear sound starts (locate_eq_ok.mp located).2 with
      isDirectory | ⟨-, -, -, -, passed, -⟩
    · exact absurd isDirectory isOpen
    · exact passed
  have placed (other : Location) := get?_set tree location other .directory
    (ne_nil_of_open isOpen)
  have kept : tree.KeepsDirectories (tree.set location .directory) (path.entered directory) := by
    intro passed _ found
    rw [placed, found, ite_self]
  have ending : (tree.set location .directory).IsClear [location] := by
    intro other member target
    rw [List.mem_singleton.mp member, placed, if_pos rfl]
    simp
  constructor
  · exact sound_of_located sound starts clear clean located isOpen .directory
  · exact clean
  · exact same ▸ locate_transfer clear located kept ending
  · rw [← same, placed, if_pos rfl]
  · intro passed member
    rcases passes passed member with atEnd | before
    · exact Or.inl (atEnd ▸ free)
    · exact Or.inr before
  · intro other
    rw [placed]
    by_cases isLast : location = other
    · rw [if_pos isLast, if_pos (isLast ▸ last)]
    · rw [if_neg isLast]
      split
      · rename_i member
        rcases passes other member with atEnd | before
        · exact absurd atEnd.symm isLast
        · exact before
      · rfl

end Steps

theorem HasMade.isClear {locations : List Location} (done : tree.HasMade made directory path)
    (clear : tree.IsClear locations) : made.IsClear locations := by
  intro passed member target
  rw [done.get?]
  split
  · simp
  · exact clear passed member target

theorem HasMade.get?_directory (done : tree.HasMade made directory path)
    (found : tree.get? location = some .directory) : made.get? location = some .directory := by
  rw [done.get?, found, ite_self]

/-- What is made above a path and then for the path is made for the path. -/
theorem HasMade.trans {next : Tree} (first : tree.HasMade made directory path.parent)
    (second : made.HasMade next directory path) : tree.HasMade next directory path := by
  have above := path.entered_parent_subset directory
  refine ⟨second.sound, second.clean, second.located, second.reached, ?_, ?_⟩
  · intro passed member
    by_cases inParent : passed ∈ path.parent.entered directory
    · exact first.missing passed inParent
    · have same := first.get? passed
      rw [if_neg inParent] at same
      exact same ▸ second.missing passed member
  · intro location
    rw [second.get?, first.get?]
    by_cases member : location ∈ path.entered directory
    · rw [if_pos member, if_pos member]
    · rw [if_neg member, if_neg member, if_neg fun inParent => member (above inParent)]

/-- A fault is only forgiven where nothing is left to make. -/
theorem hasMade_of_forgive (sound : tree.IsSound) (clear : tree.IsClear (path.entered directory))
    {fault : FileFault} (done : tree.forgive directory path fault = (.ok (), made)) :
    tree.HasMade made directory path := by
  unfold forgive at done
  split at done
  · rename_i isDirectory
    cases done
    exact hasMade_of_isDirectory sound clear isDirectory
  · cases done

/-- Making directories makes the missing ones on the way and nothing else. -/
theorem hasMade_of_makeDirectories (sound : tree.IsSound)
    (starts : tree.get? (path.start directory) = some .directory)
    (clear : tree.IsClear (path.entered directory))
    (done : tree.makeDirectories directory path = (.ok (), made)) :
    tree.HasMade made directory path := by
  fun_induction makeDirectories tree directory path generalizing made with
  | case1 path next stored =>
      cases done
      exact hasMade_of_makeDirectory sound starts clear stored
  | case2 | case3 | case5 => cases done
  | case4 path refused missing deep above created next stored inductionHypothesis =>
      cases done
      have clearAbove : tree.IsClear (path.parent.entered directory) := fun passed member =>
        clear passed (path.entered_parent_subset directory member)
      have first := inductionHypothesis starts clearAbove created
      exact first.trans (hasMade_of_makeDirectory first.sound (first.get?_directory starts)
        (first.isClear clear) stored)
  | case6 path refused missing deep above created fault _ _ inductionHypothesis =>
      have clearAbove : tree.IsClear (path.parent.entered directory) := fun passed member =>
        clear passed (path.entered_parent_subset directory member)
      have first := inductionHypothesis starts clearAbove created
      exact first.trans (hasMade_of_forgive first.sound (first.isClear clear) done)
  | case7 path fault => exact hasMade_of_forgive sound clear done

/-- Where a path leads to a directory, nothing is left to make. -/
theorem makeDirectories_of_isDirectory (clear : tree.IsClear (path.entered directory))
    (isDirectory : tree.isDirectory directory path = .ok true) :
    tree.makeDirectories directory path = (.ok (), tree) := by
  obtain ⟨clean, location, located, found⟩ := isDirectory_eq_true.mp isDirectory
  have unfollowed : tree.locate directory false path = .ok location := by
    refine locate_transfer clear located (fun _ _ found => found) ?_
    intro passed member target
    rw [List.mem_singleton.mp member, found]
    simp
  have stands : tree.makeDirectory directory path = .error (.refused .exists path) := by
    simp only [makeDirectory, clean, unfollowed, found]
    rfl
  unfold makeDirectories
  simp only [stands, forgive, isDirectory]

end Making

end Tree

end AssetBundler

import AssetBundler.Proofs.FileSystem.LongNames
import AssetBundler.Proofs.FileSystem.Overlay
import AssetBundler.Proofs.FileSystem.Refusal
import AssetBundler.Proofs.Path.Text

/-!
Changes alongside an overlay. A change that keeps clear of it gives the same in both trees and
leaves them with the same difference.
-/

namespace AssetBundler

namespace Tree

variable {tree made : Tree} {directory : Location} {path : Path}

/-- The last directory of a path is made once its parent stands. -/
def finishDirectory (made : Tree) (directory : Location) (path : Path) :
    Except FileFault Unit × Tree :=
  match made.makeDirectory directory path with
  | .ok next => (.ok (), next)
  | .error (.refused .missing refused) => (.error (.refused .missing refused), made)
  | .error fault => made.forgive directory path fault

theorem makeDirectories_missing {refused : Path} (deep : path.parts ≠ [])
    (missing : tree.makeDirectory directory path = .error (.refused .missing refused)) :
    tree.makeDirectories directory path =
      match tree.makeDirectories directory path.parent with
      | (.error fault, made) => (.error fault, made)
      | (.ok (), made) => made.finishDirectory directory path := by
  rw [makeDirectories]
  simp only [missing, if_neg deep]
  rfl

theorem makeDirectories_present
    (present : ∀ refused, tree.makeDirectory directory path ≠ .error (.refused .missing refused)) :
    tree.makeDirectories directory path = tree.finishDirectory directory path := by
  rw [makeDirectories, finishDirectory]
  cases makes : tree.makeDirectory directory path with
  | ok next => rfl
  | error fault =>
      cases fault with
      | nullCharacter => rfl
      | refused refusal refusedPath =>
          cases refusal with
          | missing => exact absurd makes (present refusedPath)
          | _ => rfl

/-- A path that can be gone to its end has a parent that stands. -/
theorem isDirectory_parent (sound : tree.IsSound) (free : tree.IsLinkFree)
    (straight : path.IsStraight) (clean : holdsNull path = false)
    (located : tree.locate directory false path = .ok path.parts) :
    tree.isDirectory directory path.parent = .ok true := by
  have straightParent := isStraight_parent straight
  have inside : tree.get? path.parts.dropLast = some .directory := by
    have start : path.start directory = [] := straight.start_eq
    rcases ending_of_walkSteps (free.isClear _) sound (start ▸ rfl) (locate_eq_ok.mp located).2 with
      isDirectory | ⟨before, name, same, inside, -⟩
    · exact sound.parent _ _ isDirectory
    · rwa [same, List.dropLast_concat]
  have cleanParent : holdsNull path.parent = false :=
    Path.holdsNull_of_clean fun part member =>
      Path.null_not_mem clean (List.dropLast_subset _ member)
  have reaches : tree.locate directory true path.parent = .ok path.parent.parts ∨
      tree.locate directory true path.parent = .error .nameTooLong :=
    locate_of_get? sound free straightParent inside
  rcases reaches with reached | long
  · exact isDirectory_eq_true.mpr ⟨cleanParent, _, reached, inside⟩
  · have tooLong : tree.locate directory false path = .error .nameTooLong := by
      refine (locate_straight_tooLong sound free straight).mpr ?_
      refine ((locate_straight_tooLong sound free straightParent).mp long).imp ?_ ?_
      · exact fun long => Nat.lt_of_lt_of_le long (Path.size_parent straight.absolute)
      · exact fun ⟨before, name, start, isDirectory, long⟩ =>
          ⟨before, name, start.trans (List.dropLast_prefix _), isDirectory, long⟩
    cases located.symm.trans tooLong

/-- What is missing after directories were made was missing before. -/
theorem HasMade.missing_before {location : Location} (done : tree.HasMade made directory path)
    (missing : made.get? location = none) : tree.get? location = none := by
  rw [done.get?] at missing
  split at missing
  · cases missing
  · exact missing

/-- Nothing is missing in front of a path whose parent stands. -/
theorem present_of_parent (sound : tree.IsSound) (free : tree.IsLinkFree)
    (straight : path.IsStraight) (inside : tree.get? path.parts.dropLast = some .directory)
    (refused : Path) : tree.makeDirectory directory path ≠ .error (.refused .missing refused) := by
  intro missing
  have located := (makeDirectory_missing missing).2
  have reaches : tree.locate directory false path = .ok path.parts ∨
      tree.locate directory false path = .error .nameTooLong :=
    locate_of_directory sound free straight inside
  rcases reaches with reached | long
  · cases located.symm.trans reached
  · cases located.symm.trans long

end Tree

namespace Overlay.IsOver

variable {overlay : Overlay} {tree laid : Tree} (lies : overlay.IsOver tree laid)
include lies

/-- A node that is put where nothing covers it stays under the overlay. -/
theorem set {location : Location} {node : Node} (below : location ≠ [])
    (plain : overlay.node location = none) (isNode : ∀ target, node ≠ .link target)
    (sound : (tree.set location node).IsSound) (laidSound : (laid.set location node).IsSound) :
    overlay.IsOver (tree.set location node) (laid.set location node) := by
  have placed (other : Location) := Tree.get?_set tree location other node below
  have laidPlaced (other : Location) := Tree.get?_set laid location other node below
  have apart {other : Location} {found : Node} (covered : overlay.node other = some found) :
      location ≠ other := by
    rintro rfl
    cases plain.symm.trans covered
  refine ⟨sound, ?_, laidSound, ?_, ?_, ?_, ?_⟩
  · intro other target found
    rw [placed] at found
    split at found
    · exact isNode target (Option.some.inj found)
    · exact lies.free other target found
  · intro other target found
    rw [laidPlaced] at found
    split at found
    · exact isNode target (Option.some.inj found)
    · exact lies.laidFree other target found
  · intro other
    rw [placed, laidPlaced]
    split
    · rename_i same
      rw [← same, plain, Option.none_or]
    · exact lies.get? other
  · intro other covered
    rw [placed, if_neg (apart covered)]
    exact lies.vacant other covered
  · intro other contents covered
    rw [placed, if_neg (apart covered)]
    exact lies.isOpen other contents covered

/-- A directory that the overlay has is only new without it. -/
theorem set_directory {location : Location} (below : location ≠ [])
    (covered : overlay.node location = some .directory)
    (sound : (tree.set location .directory).IsSound) :
    overlay.IsOver (tree.set location .directory) laid := by
  have placed (other : Location) := Tree.get?_set tree location other .directory below
  refine ⟨sound, ?_, lies.laidSound, lies.laidFree, ?_, ?_, ?_⟩
  · intro other target found
    rw [placed] at found
    split at found
    · cases found
    · exact lies.free other target found
  · intro other
    rw [placed, lies.get?]
    split
    · rename_i same
      rw [← same, covered, Option.some_or, Option.some_or]
    · rfl
  · intro other coveredOther
    rw [placed]
    split
    · exact Or.inr rfl
    · exact lies.vacant other coveredOther
  · intro other contents coveredOther
    rw [placed]
    split
    · rename_i same
      rw [← same] at coveredOther
      cases covered.symm.trans coveredOther
    · exact lies.isOpen other contents coveredOther

section Changing

variable {path : Path} {directory : Location} (straight : path.IsStraight)
  (clear : overlay.IsClearOf tree path.parts)
include clear

/-- What stands at the end of the way differs by a directory of the overlay only. -/
theorem get?_end :
    overlay.node path.parts = none ∧ laid.get? path.parts = tree.get? path.parts ∨
      overlay.node path.parts = some .directory ∧ laid.get? path.parts = some .directory := by
  have shown := lies.get? path.parts
  cases covered : overlay.node path.parts with
  | none =>
      rw [covered, Option.none_or] at shown
      exact Or.inl ⟨rfl, shown⟩
  | some node =>
      obtain ⟨rfl, -⟩ := not_file_of_apart clear (List.prefix_refl _) covered
      rw [covered, Option.some_or] at shown
      exact Or.inr ⟨rfl, shown⟩

include straight

omit lies clear in
theorem end_of_located {follows : Bool} {location : Location} (free : tree.IsLinkFree)
    (located : tree.locate directory follows path = .ok location) : location = path.parts := by
  rw [(Tree.locate_place (free.isClear _) located).1, straight.place_eq]

/-- A directory that can be made without the overlay is made under it, or it stands there. -/
theorem makeDirectory_located
    (clean : Tree.holdsNull path = false)
    (located : tree.locate directory false path = .ok path.parts)
    (laidLocated : laid.locate directory false path = .ok path.parts) :
    (∃ fault, tree.makeDirectory directory path = .error fault ∧
        laid.makeDirectory directory path = .error fault) ∨
      (∃ made laidMade, tree.makeDirectory directory path = .ok made ∧
        laid.makeDirectory directory path = .ok laidMade ∧ overlay.IsOver made laidMade) ∨
      ∃ made, tree.makeDirectory directory path = .ok made ∧
        laid.makeDirectory directory path = .error (.refused .exists path) ∧
          laid.isDirectory directory path = .ok true ∧ overlay.IsOver made laid := by
  have makes (made : Tree) (found : made.get? path.parts = none)
      (reached : made.locate directory false path = .ok path.parts) :
      made.makeDirectory directory path = .ok (made.set path.parts .directory) :=
    Tree.makeDirectory_eq_ok.mpr ⟨clean, _, reached, found, rfl⟩
  have stands (made : Tree) (node : Node) (found : made.get? path.parts = some node)
      (reached : made.locate directory false path = .ok path.parts) :
      made.makeDirectory directory path = .error (.refused .exists path) := by
    simp only [Tree.makeDirectory, clean, Bool.false_eq_true, if_false, reached, found]
  have sound (vacant : tree.get? path.parts = none) :
      (tree.set path.parts .directory).IsSound :=
    Tree.sound_of_located lies.sound straight.starts (lies.free.isClear _) clean located
      (by simp [vacant]) .directory
  rcases lies.get?_end clear with ⟨plain, same⟩ | ⟨covered, isDirectory⟩
  · cases found : tree.get? path.parts with
    | some node =>
        exact Or.inl ⟨_, stands tree node found located, stands laid node (same.trans found)
          laidLocated⟩
    | none =>
        have vacant := same.trans found
        have isOpen : tree.get? path.parts ≠ some .directory := by simp [found]
        have below : path.parts ≠ [] := Tree.ne_nil_of_open isOpen
        have laidSound := Tree.sound_of_located lies.laidSound straight.starts
          (lies.laidFree.isClear _) clean laidLocated (by simp [vacant]) .directory
        exact Or.inr (Or.inl ⟨_, _, makes tree found located, makes laid vacant laidLocated,
          lies.set below plain (by simp) (sound found) laidSound⟩)
  · rcases lies.vacant _ covered with vacant | isOld
    · have isOpen : tree.get? path.parts ≠ some .directory := by simp [vacant]
      have below : path.parts ≠ [] := Tree.ne_nil_of_open isOpen
      have followed : laid.locate directory true path = .ok path.parts :=
        Tree.locate_transfer (lies.laidFree.isClear _) laidLocated (fun _ _ found => found)
          (lies.laidFree.isClear _)
      exact Or.inr (Or.inr ⟨_, makes tree vacant located, stands laid _ isDirectory laidLocated,
        Tree.isDirectory_eq_true.mpr ⟨clean, _, followed, isDirectory⟩,
        lies.set_directory below covered (sound vacant)⟩)
    · exact Or.inl ⟨_, stands tree _ isOld located, stands laid _ isDirectory laidLocated⟩

/-- The ways to make a directory in both trees. -/
theorem makeDirectory :
    (∃ fault, tree.makeDirectory directory path = .error fault ∧
        laid.makeDirectory directory path = .error fault) ∨
      (∃ made laidMade, tree.makeDirectory directory path = .ok made ∧
        laid.makeDirectory directory path = .ok laidMade ∧ overlay.IsOver made laidMade) ∨
      (∃ made, tree.makeDirectory directory path = .ok made ∧
        laid.makeDirectory directory path = .error (.refused .exists path) ∧
          laid.isDirectory directory path = .ok true ∧ overlay.IsOver made laid) ∨
      (tree.makeDirectory directory path = .error (.refused .missing path) ∧
        Tree.holdsNull path = false ∧ laid.locate directory false path = .ok path.parts) := by
  cases holds : Tree.holdsNull path with
  | true => exact Or.inl ⟨.nullCharacter, by simp [Tree.makeDirectory, holds]⟩
  | false =>
      have leads : laid.locate directory false path = tree.locate directory false path ∨
          tree.locate directory false path = .error .missing ∧
            laid.locate directory false path = .ok path.parts := lies.locate straight clear
      rcases leads with same | ⟨misses, ends⟩
      · cases located : tree.locate directory false path with
        | error refusal =>
            exact Or.inl ⟨.refused refusal path,
              by simp [Tree.makeDirectory, holds, located, same.trans located]⟩
        | ok location =>
            obtain rfl := end_of_located straight lies.free located
            exact (lies.makeDirectory_located straight clear holds located
              (same.trans located)).imp_right (Or.imp_right Or.inl)
      · exact Or.inr (Or.inr (Or.inr ⟨by simp [Tree.makeDirectory, holds, misses], rfl, ends⟩))

/-- A fault of both trees is forgiven in both or in none. -/
theorem forgive {fault : FileFault}
    (refused : tree.makeDirectory directory path = .error fault)
    (present : ∀ refused, fault ≠ .refused .missing refused) :
    (laid.forgive directory path fault).1 = (tree.forgive directory path fault).1 := by
  have same : laid.isDirectory directory path = .ok true ↔
      tree.isDirectory directory path = .ok true := by
    constructor
    · intro isDirectory
      obtain ⟨clean, location, located, found⟩ := Tree.isDirectory_eq_true.mp isDirectory
      obtain rfl := end_of_located straight lies.laidFree located
      have unfollowed : laid.locate directory false path = .ok path.parts :=
        Tree.locate_transfer (lies.laidFree.isClear _) located (fun _ _ found => found)
          (lies.laidFree.isClear _)
      have leads : laid.locate directory false path = tree.locate directory false path ∨
          tree.locate directory false path = .error .missing ∧
            laid.locate directory false path = .ok path.parts := lies.locate straight clear
      rcases leads with same | ⟨misses, -⟩
      · have reached := same.symm.trans unfollowed
        have followed : tree.locate directory true path = .ok path.parts :=
          Tree.locate_transfer (lies.free.isClear _) reached (fun _ _ found => found)
            (lies.free.isClear _)
        refine Tree.isDirectory_eq_true.mpr ⟨clean, _, followed, ?_⟩
        rcases lies.get?_end clear with ⟨-, same⟩ | ⟨covered, -⟩
        · exact same.symm.trans found
        · rcases lies.vacant _ covered with vacant | isOld
          · have makes := Tree.makeDirectory_eq_ok.mpr ⟨clean, _, reached, vacant, rfl⟩
            cases refused.symm.trans makes
          · exact isOld
      · simp only [Tree.makeDirectory, clean, Bool.false_eq_true, if_false, misses] at refused
        exact absurd (Except.error.inj refused).symm (present path)
    · intro isDirectory
      obtain ⟨clean, location, located, found⟩ := Tree.isDirectory_eq_true.mp isDirectory
      exact Tree.isDirectory_eq_true.mpr ⟨clean, location,
        Tree.locate_transfer (lies.free.isClear _) located (fun _ _ => lies.directory)
          (lies.laidFree.isClear _), lies.directory found⟩
  cases fault with
  | nullCharacter => rfl
  | refused refusal refusedPath =>
      unfold Tree.forgive
      by_cases isDirectory : tree.isDirectory directory path = .ok true
      · simp only [isDirectory, same.mpr isDirectory]
      · have isLaid := mt same.mp isDirectory
        split <;> split <;> simp_all

/-- What is left to do for a path whose parent stands goes alike in both trees. -/
theorem finishDirectory
    (present : ∀ refused, tree.makeDirectory directory path ≠ .error (.refused .missing refused)) :
    (laid.finishDirectory directory path).1 = (tree.finishDirectory directory path).1 ∧
      overlay.IsOver (tree.finishDirectory directory path).2
        (laid.finishDirectory directory path).2 := by
  unfold Tree.finishDirectory
  rcases lies.makeDirectory straight clear with
    ⟨fault, refused, laidRefused⟩ | ⟨made, laidMade, makes, laidMakes, still⟩ |
      ⟨made, makes, stands, isDirectory, still⟩ | ⟨missing, -⟩
  · have forgives (found : ∀ refusedPath, fault ≠ .refused .missing refusedPath) :
        (laid.forgive directory path fault).1 = (tree.forgive directory path fault).1 ∧
          overlay.IsOver (tree.forgive directory path fault).2
            (laid.forgive directory path fault).2 := by
      rw [Tree.forgive_snd, Tree.forgive_snd]
      exact ⟨lies.forgive straight clear refused found, lies⟩
    rw [refused, laidRefused]
    cases fault with
    | nullCharacter => exact forgives (by simp)
    | refused refusal refusedPath =>
        cases refusal with
        | missing => exact absurd refused (present refusedPath)
        | _ => exact forgives (by simp)
  · rw [makes, laidMakes]
    exact ⟨rfl, still⟩
  · simp only [makes, stands, Tree.forgive, isDirectory]
    exact ⟨trivial, still⟩
  · exact absurd missing (present path)

/-- Where nothing is missing without the overlay nothing is missing under it. -/
theorem present
    (present : ∀ refused, tree.makeDirectory directory path ≠ .error (.refused .missing refused))
    (refused : Path) : laid.makeDirectory directory path ≠ .error (.refused .missing refused) := by
  intro missing
  rcases lies.makeDirectory straight clear with
    ⟨fault, isRefused, laidRefused⟩ | ⟨_, _, -, laidMakes, -⟩ | ⟨_, -, stands, -⟩ | ⟨isMissing, -⟩
  · cases missing.symm.trans laidRefused
    exact present refused isRefused
  · cases missing.symm.trans laidMakes
  · cases missing.symm.trans stands
  · exact present path isMissing

/-- Where something is missing without the overlay the parent comes first under it too, even when
it stands there. -/
theorem makeDirectories_missing {refused : Path} (deep : path.parts ≠ [])
    (missing : tree.makeDirectory directory path = .error (.refused .missing refused)) :
    laid.makeDirectories directory path =
      match laid.makeDirectories directory path.parent with
      | (.error fault, made) => (.error fault, made)
      | (.ok (), made) => made.finishDirectory directory path := by
  rcases lies.makeDirectory straight clear with
    ⟨fault, isRefused, laidRefused⟩ | ⟨_, _, makes, -⟩ | ⟨_, makes, -⟩ | ⟨-, clean, located⟩
  · cases missing.symm.trans isRefused
    exact Tree.makeDirectories_missing deep laidRefused
  · cases missing.symm.trans makes
  · cases missing.symm.trans makes
  · have isDirectory := Tree.isDirectory_parent lies.laidSound lies.laidFree straight clean located
    have inside : laid.get? path.parts.dropLast = some .directory := by
      obtain ⟨-, location, reached, found⟩ := Tree.isDirectory_eq_true.mp isDirectory
      rwa [end_of_located (Tree.isStraight_parent straight) lies.laidFree reached] at found
    rw [Tree.makeDirectories_of_isDirectory (lies.laidFree.isClear _) isDirectory]
    exact Tree.makeDirectories_present
      (Tree.present_of_parent lies.laidSound lies.laidFree straight inside)

/-- Once the parent has been made in both trees, the rest goes alike. -/
theorem finishDirectory_of_parent {made laidMade : Tree} (still : overlay.IsOver made laidMade)
    (above : tree.makeDirectories directory path.parent = (.ok (), made)) :
    (laidMade.finishDirectory directory path).1 = (made.finishDirectory directory path).1 ∧
      overlay.IsOver (made.finishDirectory directory path).2
        (laidMade.finishDirectory directory path).2 := by
  have straightParent := Tree.isStraight_parent straight
  have done := Tree.hasMade_of_makeDirectories lies.sound straightParent.starts
    (lies.free.isClear _) above
  have inside : made.get? path.parts.dropLast = some .directory := by
    have reached := done.reached
    rwa [straightParent.place_eq] at reached
  exact still.finishDirectory straight (clear.later fun _ => done.missing_before)
    (Tree.present_of_parent still.sound still.free straight inside)

end Changing

/-- Directories are made alike in both trees. -/
theorem makeDirectories {path : Path} {directory : Location} (straight : path.IsStraight)
    (clear : overlay.IsClearOf tree path.parts) :
    (laid.makeDirectories directory path).1 = (tree.makeDirectories directory path).1 ∧
      overlay.IsOver (tree.makeDirectories directory path).2
        (laid.makeDirectories directory path).2 := by
  induction depth : path.parts.length generalizing path with
  | zero =>
      have root : path.parts = [] := List.eq_nil_of_length_eq_zero depth
      have present (refused : Path) :
          tree.makeDirectory directory path ≠ .error (.refused .missing refused) :=
        Tree.present_of_parent lies.sound lies.free straight (by rw [root]; rfl) refused
      have laidPresent (refused : Path) :
          laid.makeDirectory directory path ≠ .error (.refused .missing refused) :=
        Tree.present_of_parent lies.laidSound lies.laidFree straight (by rw [root]; rfl) refused
      rw [Tree.makeDirectories_present present, Tree.makeDirectories_present laidPresent]
      exact lies.finishDirectory straight clear present
  | succ count inductionHypothesis =>
      have deep : path.parts ≠ [] := by
        intro root
        rw [root] at depth
        cases depth
      have shorter : path.parent.parts.length = count := by
        rw [Path.parent, List.length_dropLast, depth]
        rfl
      obtain ⟨sameAbove, overAbove⟩ := inductionHypothesis (Tree.isStraight_parent straight)
        (clear.above (List.dropLast_prefix _)) shorter
      by_cases missing : ∃ refused,
          tree.makeDirectory directory path = .error (.refused .missing refused)
      · obtain ⟨refused, missing⟩ := missing
        rw [Tree.makeDirectories_missing deep missing]
        rcases above : tree.makeDirectories directory path.parent with ⟨result, made⟩
        rcases laidAbove : laid.makeDirectories directory path.parent with ⟨laidResult, laidMade⟩
        rw [above, laidAbove] at sameAbove overAbove
        cases sameAbove
        rw [lies.makeDirectories_missing straight clear deep missing, laidAbove]
        cases result with
        | error fault => exact ⟨rfl, overAbove⟩
        | ok => exact lies.finishDirectory_of_parent straight clear overAbove above
      · have present (refused : Path) :
            tree.makeDirectory directory path ≠ .error (.refused .missing refused) :=
          fun isMissing => missing ⟨refused, isMissing⟩
        have laidPresent := lies.present straight clear present
        rw [Tree.makeDirectories_present present, Tree.makeDirectories_present laidPresent]
        exact lies.finishDirectory straight clear present

/-- A file that is written where the overlay has nothing is written in both trees or in none. -/
theorem write {path : Path} {directory : Location} (straight : path.IsStraight)
    (clear : overlay.IsClearOf tree path.parts) (unmade : path.parts ∉ overlay.made)
    (inside : tree.get? path.parts.dropLast = some .directory) (contents : Bytes) :
    (∃ fault, tree.write directory path contents = .error fault ∧
        laid.write directory path contents = .error fault) ∨
      (∃ left laidLeft, tree.write directory path contents = .ok left ∧
        laid.write directory path contents = .ok laidLeft ∧ overlay.IsOver left laidLeft) := by
  cases holds : Tree.holdsNull path with
  | true => exact Or.inl ⟨.nullCharacter, by simp [Tree.write, holds]⟩
  | false =>
      have sameWay : laid.locate directory true path = tree.locate directory true path := by
        have leads : laid.locate directory true path = tree.locate directory true path ∨
            tree.locate directory true path = .error .missing ∧
              laid.locate directory true path = .ok path.parts := lies.locate straight clear
        have reaches : tree.locate directory true path = .ok path.parts ∨
            tree.locate directory true path = .error .nameTooLong :=
          Tree.locate_of_directory lies.sound lies.free straight inside
        refine leads.resolve_right fun ⟨misses, _⟩ => ?_
        rcases reaches with reached | long
        · cases misses.symm.trans reached
        · cases misses.symm.trans long
      obtain ⟨plain, sameEnd⟩ : overlay.node path.parts = none ∧
          laid.get? path.parts = tree.get? path.parts := by
        rcases lies.get?_end clear with plain | ⟨covered, -⟩
        · exact plain
        · exact absurd (not_file_of_apart clear (List.prefix_refl _) covered).2 unmade
      cases located : tree.locate directory true path with
      | error refusal =>
          exact Or.inl ⟨.refused refusal path,
            by simp [Tree.write, holds, located, sameWay.trans located]⟩
      | ok location =>
          obtain rfl := end_of_located straight lies.free located
          have laidLocated := sameWay.trans located
          by_cases isOpen : tree.get? path.parts = some .directory
          · exact Or.inl ⟨.refused .isDirectory path,
              by simp [Tree.write, holds, located, laidLocated, isOpen, sameEnd.trans isOpen]⟩
          · have laidOpen : laid.get? path.parts ≠ some .directory := sameEnd ▸ isOpen
            refine Or.inr ⟨_, _, Tree.write_eq_ok.mpr ⟨holds, _, located, isOpen, rfl⟩,
              Tree.write_eq_ok.mpr ⟨holds, _, laidLocated, laidOpen, rfl⟩,
              lies.set (Tree.ne_nil_of_open isOpen) plain (by simp) ?_ ?_⟩
            · exact Tree.sound_of_located lies.sound straight.starts (lies.free.isClear _) holds
                located isOpen _
            · exact Tree.sound_of_located lies.laidSound straight.starts (lies.laidFree.isClear _)
                holds laidLocated laidOpen _

/-- Files that are written into directories, each where the overlay has nothing, are written alike
in both trees. -/
theorem writeFiles {directory : Location} {files : List (Path × Bytes)}
    (inside : ∀ file ∈ files, tree.get? file.1.parts.dropLast = some .directory)
    (straight : ∀ file ∈ files, file.1.IsStraight)
    (clear : ∀ file ∈ files, file.1.parts ∉ overlay.made ∧ overlay.IsClearOf tree file.1.parts) :
    (laid.writeFiles directory files).1 = (tree.writeFiles directory files).1 ∧
      overlay.IsOver (tree.writeFiles directory files).2 (laid.writeFiles directory files).2 := by
  induction files generalizing tree laid with
  | nil => exact ⟨rfl, lies⟩
  | cons file rest inductionHypothesis =>
      obtain ⟨unmade, isClear⟩ := clear file List.mem_cons_self
      rcases lies.write (straight file List.mem_cons_self) isClear unmade
        (inside file List.mem_cons_self) file.2 with
        ⟨fault, refused, laidRefused⟩ | ⟨left, laidLeft, written, laidWritten, still⟩
      · rw [Tree.writeFiles, Tree.writeFiles, refused, laidRefused]
        exact ⟨rfl, lies⟩
      · obtain ⟨-, -, isOpen, rfl⟩ := Tree.write_place (lies.free.isClear _) written
        rw [Tree.writeFiles, Tree.writeFiles, written, laidWritten]
        refine inductionHypothesis still ?_ ?_ ?_
        · exact fun other member =>
            Tree.get?_set_file isOpen (inside other (List.mem_cons_of_mem file member))
        · exact fun other member => straight other (List.mem_cons_of_mem file member)
        · intro other member
          obtain ⟨otherUnmade, otherClear⟩ := clear other (List.mem_cons_of_mem file member)
          refine ⟨otherUnmade, otherClear.later fun location missing => ?_⟩
          rw [Tree.get?_set tree _ _ _ (Tree.ne_nil_of_open isOpen)] at missing
          split at missing
          · cases missing
          · exact missing

/-- Files are delivered alike in both trees. -/
theorem deliver {directory : Location} {target : Path} {files : List (Path × Bytes)}
    (straight : target.IsStraight) (clear : overlay.IsClearOf tree target.parts)
    (inside : ∀ file ∈ files, file.1.parts.dropLast <+: target.parts)
    (fileStraight : ∀ file ∈ files, file.1.IsStraight)
    (fileClear : ∀ file ∈ files, file.1.parts ∉ overlay.made ∧
      overlay.IsClearOf tree file.1.parts) :
    (laid.deliver directory target files).1 = (tree.deliver directory target files).1 ∧
      overlay.IsOver (tree.deliver directory target files).2
        (laid.deliver directory target files).2 := by
  obtain ⟨same, still⟩ := @makeDirectories _ _ _ lies target directory straight clear
  unfold Tree.deliver
  rcases makes : tree.makeDirectories directory target with ⟨result, made⟩
  rcases laidMakes : laid.makeDirectories directory target with ⟨laidResult, laidMade⟩
  rw [makes, laidMakes] at same still
  cases same
  cases result with
  | error fault => exact ⟨rfl, still⟩
  | ok =>
      have done := Tree.hasMade_of_makeDirectories lies.sound straight.starts
        (lies.free.isClear _) makes
      have reached := done.reached
      rw [straight.place_eq] at reached
      refine still.writeFiles (fun file member => ?_) fileStraight fun file member => ?_
      · by_cases atEnd : file.1.parts.dropLast = target.parts
        · exact atEnd ▸ reached
        · exact still.sound.above reached (inside file member) atEnd
      · obtain ⟨unmade, isClear⟩ := fileClear file member
        exact ⟨unmade, isClear.later fun _ => done.missing_before⟩

end Overlay.IsOver

end AssetBundler

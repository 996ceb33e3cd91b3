import AssetBundler.Proofs.FileSystem.Growth
import AssetBundler.Proofs.Selection.Downward
import AssetBundler.Proofs.Selection.Order

/-!
Selection from a tree that has grown. New directories, and new files that no pattern finds, leave
what is selected as it was.
-/

namespace AssetBundler.Selection

variable {tree grown : Tree} {made stored : List Location} {base path : Path} {pattern : String}
  {patterns : List String} {found selected : List Path}

section Cases

variable {fault : FileFault}

theorem expandPattern_refused
    (refused : tree.isFile [] (literalPath base pattern) = .error fault) :
    expandPattern tree base pattern = .error (.file fault) := by
  unfold expandPattern
  simp only [refused]

theorem expandPattern_literal (literal : tree.isFile [] (literalPath base pattern) = .ok true) :
    expandPattern tree base pattern = .ok [literalPath base pattern] := by
  unfold expandPattern
  simp only [literal]

/-- A pattern that names no file is searched for by its wildcards. -/
theorem expandPattern_search (noFile : tree.isFile [] (literalPath base pattern) = .ok false) :
    expandPattern tree base pattern =
      if !Wildcard.isMagic pattern then .error (.selection (.notFound pattern))
      else
        match Glob.files tree base pattern with
        | .error fault => .error (.file fault)
        | .ok found => .ok (Path.sort (found.map Path.normalize)) := by
  cases searched : Glob.files tree base pattern <;>
    simp only [expandPattern, noFile, searched]

end Cases

theorem isAbsolute_joinText (absolute : base.isAbsolute = true) (text : String) :
    (base.joinText text).isAbsolute = true := by
  unfold Path.joinText Path.join
  split
  · exact absolute
  · rename_i notHere
    simpa [Path.isAbsolute] using notHere

theorem isSorted_singleton (path : Path) : Path.IsSorted [path] := List.pairwise_singleton _ path

/-- A pattern finds the same in two trees that agree on its name and on what a search comes upon. -/
theorem findAlike_of_searched {other : Tree}
    (same : tree.isFile [] (literalPath base pattern) = other.isFile [] (literalPath base pattern))
    (searchedSame : ∀ path,
      path ∈ Glob.searched tree base pattern ↔ path ∈ Glob.searched other base pattern) :
    FindAlike (expandPattern tree base pattern) (expandPattern other base pattern) := by
  cases asked : tree.isFile [] (literalPath base pattern) with
  | error fault =>
      rw [expandPattern_refused asked, expandPattern_refused (same.symm.trans asked)]
      exact .failed _
  | ok answer =>
      cases answer with
      | true =>
          rw [expandPattern_literal asked, expandPattern_literal (same.symm.trans asked)]
          exact .found (isSorted_singleton _) (isSorted_singleton _) fun _ => Iff.rfl
      | false =>
          rw [expandPattern_search asked, expandPattern_search (same.symm.trans asked)]
          split
          · exact .failed _
          · rcases Glob.files_cases tree other base pattern with
              ⟨fault, -, failed, otherFailed⟩ | ⟨nothing, otherNothing⟩ | ⟨found, otherFound⟩
            · simp only [failed, otherFailed]
              exact .failed _
            · simp only [nothing, otherNothing]
              exact .found (Path.isSorted_sort _) (Path.isSorted_sort _) fun _ => Iff.rfl
            · simp only [found, otherFound]
              refine .found (Path.isSorted_sort _) (Path.isSorted_sort _) ?_
              intro path
              simp only [Path.mem_sort, List.mem_map, searchedSame]

section Growing

variable (growth : tree.GrowsTo grown made stored) (downward : Glob.IsDownward base)
include growth downward

/-- A search comes upon the same files unless it comes upon a stored one. -/
theorem mem_searched_of_growth (level : ".." ∉ Text.splitOn '/' pattern)
    (steady : ∀ path ∈ Glob.searched grown base pattern, path.normalize.place [] ∉ stored)
    (path : Path) :
    path ∈ Glob.searched tree base pattern ↔ path ∈ Glob.searched grown base pattern := by
  constructor
  · intro member
    obtain ⟨-, contents, isFile⟩ :=
      Glob.file_of_mem_searched growth.sound growth.free downward level member
    exact Glob.mem_searched_of_sameKind growth.sound growth.free downward level member
      growth.grownSound growth.grownFree (growth.sameKind_of_file isFile)
  · intro member
    obtain ⟨isDownward, contents, isFile⟩ :=
      Glob.file_of_mem_searched growth.grownSound growth.grownFree downward level member
    have notStored := steady path member
    rw [(Glob.normalize_of_file growth.grownSound isDownward isFile).1] at notStored
    have isFileBefore := growth.file_of_not_stored isFile notStored
    exact Glob.mem_searched_of_sameKind growth.grownSound growth.grownFree downward level member
      growth.sound growth.free (Or.inl (isFile.trans isFileBefore.symm))

section Pattern

variable (level : ".." ∉ Text.splitOn '/' pattern)
  (fits : tree.Fits made (literalPath base pattern).parts)
include fits

/-- Whether a pattern names a file is answered in the grown tree when it was answered before. -/
theorem exists_isFile_of_growth {answer : Bool}
    (answered : tree.isFile [] (literalPath base pattern) = .ok answer) :
    ∃ grownAnswer, grown.isFile [] (literalPath base pattern) = .ok grownAnswer := by
  obtain ⟨notHere, notUp⟩ := Path.parts_normalize (isAbsolute_joinText downward.1 pattern)
  cases asked : grown.isFile [] (literalPath base pattern) with
  | error fault => cases answered.symm.trans (growth.isFile_error_back notHere notUp fits asked)
  | ok grownAnswer => exact ⟨grownAnswer, rfl⟩

/-- A pattern that finds its files finds files in the grown tree. -/
theorem exists_found_of_growth (finds : expandPattern tree base pattern = .ok found) :
    ∃ others, expandPattern grown base pattern = .ok others := by
  cases asked : tree.isFile [] (literalPath base pattern) with
  | error fault => cases (expandPattern_refused asked).symm.trans finds
  | ok answer =>
      obtain ⟨grownAnswer, grownAsked⟩ := exists_isFile_of_growth growth downward fits asked
      cases grownAnswer with
      | true => exact ⟨_, expandPattern_literal grownAsked⟩
      | false =>
          cases answer with
          | true => cases grownAsked.symm.trans (growth.isFile asked)
          | false =>
              rw [expandPattern_search asked] at finds
              rw [expandPattern_search grownAsked]
              split at finds
              · cases finds
              · rename_i magic
                rw [if_neg magic]
                rcases Glob.files_cases tree grown base pattern with
                  ⟨fault, -, failed, -⟩ | ⟨-, nothing⟩ | ⟨-, searched⟩
                · simp only [failed] at finds
                  cases finds
                · simp only [nothing]
                  exact ⟨_, rfl⟩
                · simp only [searched]
                  exact ⟨_, rfl⟩

include level

/-- A pattern that finds no stored file finds the same files as before. -/
theorem findAlike_of_growth
    (steady : ∀ found, expandPattern grown base pattern = .ok found →
      ∀ path ∈ found, path.place [] ∉ stored) :
    FindAlike (expandPattern tree base pattern) (expandPattern grown base pattern) := by
  obtain ⟨notHere, notUp⟩ := Path.parts_normalize (isAbsolute_joinText downward.1 pattern)
  cases asked : tree.isFile [] (literalPath base pattern) with
  | error fault =>
      rw [expandPattern_refused asked, expandPattern_refused (growth.isFile_error asked)]
      exact .failed _
  | ok answer =>
      obtain ⟨grownAnswer, grownAsked⟩ := exists_isFile_of_growth growth downward fits asked
      cases answer with
      | true =>
          rw [expandPattern_literal asked, expandPattern_literal (growth.isFile asked)]
          exact .found (isSorted_singleton _) (isSorted_singleton _) fun _ => Iff.rfl
      | false =>
          cases grownAnswer with
          | true =>
              -- The file would be a stored one that the pattern finds.
              have notStored := steady _ (expandPattern_literal grownAsked) _ List.mem_cons_self
              cases asked.symm.trans (growth.isFile_back notUp grownAsked notStored)
          | false =>
              rw [expandPattern_search grownAsked] at steady
              rw [expandPattern_search asked, expandPattern_search grownAsked]
              split
              · exact .failed _
              · rename_i magic
                rw [if_neg magic] at steady
                rcases Glob.files_cases tree grown base pattern with
                  ⟨fault, -, failed, grownFailed⟩ | ⟨nothing, grownNothing⟩ |
                    ⟨searched, grownSearched⟩
                · simp only [failed, grownFailed]
                  exact .failed _
                · simp only [nothing, grownNothing]
                  exact .found (Path.isSorted_sort _) (Path.isSorted_sort _) fun _ => Iff.rfl
                · simp only [searched, grownSearched] at steady ⊢
                  refine .found (Path.isSorted_sort _) (Path.isSorted_sort _) ?_
                  have same := mem_searched_of_growth growth downward level fun path member =>
                    steady _ rfl _ (Path.mem_sort.mpr (List.mem_map_of_mem member))
                  intro path
                  simp only [Path.mem_sort, List.mem_map, same]

end Pattern

/-- Patterns whose literal paths stay clear of new directories by too long a name. -/
def FitAll (tree : Tree) (made : List Location) (base : Path) (patterns : List String) : Prop :=
  ∀ pattern ∈ patterns, tree.Fits made (literalPath base pattern).parts

/-- No pattern takes a step up. -/
def LevelAll (patterns : List String) : Prop :=
  ∀ pattern ∈ patterns, ".." ∉ Text.splitOn '/' pattern

variable (level : LevelAll patterns) (fits : FitAll tree made base patterns)
include level fits

/-- A selection without a stored file is the selection from before. -/
theorem expand_of_growth (selects : expand tree base patterns = .ok selected)
    (steady : ∀ others, expand grown base patterns = .ok others →
      ∀ path ∈ others, path.place [] ∉ stored) :
    expand grown base patterns = .ok selected := by
  have all : ∀ pattern ∈ patterns, ∃ found, expandPattern grown base pattern = .ok found := by
    intro pattern member
    obtain ⟨found, finds⟩ := (expandFrom_eq_ok selects).1 pattern member
    exact exists_found_of_growth growth downward (fits pattern member) finds
  obtain ⟨others, grownSelects⟩ := exists_expandFrom all []
  have members := (expandFrom_eq_ok grownSelects).2
  rw [← selects]
  refine (expand_congr fun pattern member => ?_).symm
  apply findAlike_of_growth growth downward (level pattern member) (fits pattern member)
  intro found finds path inFound
  exact steady others grownSelects path
    ((members path).mpr (Or.inr ⟨pattern, member, found, finds, inFound⟩))

end Growing

section Found

variable (sound : tree.IsSound) (free : tree.IsLinkFree) (downward : Glob.IsDownward base)
include sound free downward

/-- What a pattern finds are files, and their paths take no step up. -/
theorem file_of_found (level : ".." ∉ Text.splitOn '/' pattern)
    (finds : expandPattern tree base pattern = .ok found) (member : path ∈ found) :
    ".." ∉ path.parts ∧ ∃ contents, tree.get? (path.place []) = some (.file contents) := by
  cases asked : tree.isFile [] (literalPath base pattern) with
  | error fault => cases (expandPattern_refused asked).symm.trans finds
  | ok answer =>
      cases answer with
      | true =>
          cases (expandPattern_literal asked).symm.trans finds
          cases List.mem_singleton.mp member
          have notUp := (Path.parts_normalize (isAbsolute_joinText downward.1 pattern)).2
          obtain ⟨-, location, contents, located, isFile⟩ := Tree.isFile_eq_true.mp asked
          obtain ⟨rfl, -⟩ := Tree.locate_place (free.isClear _) located
          exact ⟨Tree.GrowsTo.level_of_isFile sound free asked notUp, contents, isFile⟩
      | false =>
          rw [expandPattern_search asked] at finds
          split at finds
          · cases finds
          · rcases Glob.files_cases tree tree base pattern with
              ⟨fault, -, failed, -⟩ | ⟨nothing, -⟩ | ⟨searched, -⟩
            · simp only [failed] at finds
              cases finds
            · simp only [nothing] at finds
              cases finds
              simp [Path.sort] at member
            · simp only [searched] at finds
              cases finds
              obtain ⟨reached, isReached, rfl⟩ := List.mem_map.mp (Path.mem_sort.mp member)
              obtain ⟨isDownward, contents, isFile⟩ :=
                Glob.file_of_mem_searched sound free downward level isReached
              obtain ⟨place, parts⟩ := Glob.normalize_of_file sound isDownward isFile
              rw [parts, place]
              exact ⟨fun up => (sound.named _ _ isFile _ up).2.1 rfl, contents, isFile⟩

theorem file_of_selected (level : LevelAll patterns)
    (selects : expand tree base patterns = .ok selected) (member : path ∈ selected) :
    ".." ∉ path.parts ∧ ∃ contents, tree.get? (path.place []) = some (.file contents) := by
  rcases ((expandFrom_eq_ok selects).2 path).mp member with
    old | ⟨pattern, isOne, found, finds, at_⟩
  · cases old
  · exact file_of_found sound free downward (level pattern isOne) finds at_

end Found

/-- A pattern with wildcards finds nothing below a directory that is missing. -/
theorem expandPattern_of_missing (sound : tree.IsSound) (free : tree.IsLinkFree)
    (downward : Glob.IsDownward base) (level : ".." ∉ Text.splitOn '/' pattern)
    (magic : Wildcard.isMagic pattern = true)
    (clean : Tree.holdsNull (Glob.searchStart base pattern) = false)
    (missing : tree.get? ((Glob.searchStart base pattern).place []) = none)
    (noFile : tree.isFile [] (literalPath base pattern) = .ok false) :
    expandPattern tree base pattern = .ok [] := by
  have sorted : Path.sort (([] : List Path).map Path.normalize) = [] := by simp [Path.sort]
  have nothing := Glob.searched_of_missing sound free downward level missing
  rw [expandPattern_search noFile]
  simp only [magic, Bool.not_true, Bool.false_eq_true, if_false]
  rcases Glob.files_cases tree tree base pattern with
    ⟨fault, holds, -⟩ | ⟨found, -⟩ | ⟨found, -⟩
  · cases clean.symm.trans holds
  · simp only [found, sorted]
  · simp only [found, nothing, sorted]

/-- A file that was not stored is read as before. -/
theorem read_of_growth (growth : tree.GrowsTo grown made stored) (level : ".." ∉ path.parts)
    {contents : Bytes} (isFile : tree.get? (path.place []) = some (.file contents))
    (notStored : path.place [] ∉ stored) : grown.read [] path = tree.read [] path := by
  have same : tree.get? (path.place []) = grown.get? (path.place []) := by
    rcases growth.get? (path.place []) with same | ⟨-, missing, -⟩ | ⟨isStored, -, -⟩
    · exact same.symm
    · cases missing.symm.trans isFile
    · exact absurd isStored notStored
  refine (Tree.read_congr (Tree.status_congr (growth.free.isClear _) ?_ same)).symm
  apply Tree.agreesOn_above growth.sound growth.grownSound isFile (Or.inl same)
  intro passed member
  rw [Path.entered_root] at member
  rw [Path.place_root]
  exact Tree.prefix_of_mem_enteredFrom level member

end AssetBundler.Selection

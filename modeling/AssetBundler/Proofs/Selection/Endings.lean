import AssetBundler.Proofs.Selection.Patterns

/-!
Names of selected files. Whatever a directory is called, the files that its pattern selects have
names that end with the extension.
-/

namespace AssetBundler

namespace Path

variable {path : Path}

/-- A name that is no step stays the last part. -/
theorem name_normalize (absolute : path.isAbsolute = true)
    (clean : ∀ part ∈ path.parts, '\x00' ∉ part.toList)
    (isName : path.name ≠ "" ∧ path.name ≠ "." ∧ path.name ≠ "..") :
    path.normalize.name = path.name := by
  obtain ⟨filled, notHere, notUp⟩ := isName
  rcases List.eq_nil_or_concat path.parts with empty | ⟨front, last, shape⟩
  · rw [name, empty] at filled
    exact absurd rfl filled
  · have named : path.name = last := by
      rw [name, shape, List.concat_eq_append, List.getLast?_concat, Option.getD_some]
    rw [named] at notHere notUp ⊢
    rw [normalize_of_clean absolute fun part member => clean part (mem_place member).1,
      place_root, shape, List.concat_eq_append, Tree.placeFrom_concat, Tree.advance,
      if_neg notHere, if_neg notUp, name, List.getLast?_concat, Option.getD_some]

end Path

namespace Glob

variable {tree : Tree} {base path found : Path} {pattern segment : String}

/-- What is found was found by the last segment. -/
theorem exists_of_mem_followAll_concat {paths : List Path} {segments : List String}
    (member : found ∈ followAll tree paths (segments ++ [segment])) :
    ∃ path, found ∈ follow tree true segment path := by
  induction segments generalizing paths with
  | nil =>
      obtain ⟨path, -, leads⟩ := List.mem_flatMap.mp member
      exact ⟨path, leads⟩
  | cons first rest inductionHypothesis => exact inductionHypothesis member

/-- No null character is come upon unless there is one in the base or in the pattern. -/
theorem clean_of_mem_searched (sound : tree.IsSound)
    (cleanBase : ∀ part ∈ base.parts, '\x00' ∉ part.toList) (cleanPattern : '\x00' ∉ pattern.toList)
    (member : found ∈ searched tree base pattern) : ∀ part ∈ found.parts, '\x00' ∉ part.toList :=
  forall_of_mem_searched (fun _ _ isName => (isName_of_mem_namesIn sound isName).2.2) cleanBase
    (fun _ isStep inside => cleanPattern (Text.mem_of_mem_splitOn isStep inside)) member

end Glob

namespace Selection

open SelectorTable (directoryPattern)

variable {tree : Tree} {base path : Path} {key ending : String}

/-- An extension that stands for itself in a pattern, and with which no name is a step. -/
structure IsEnding (ending : String) : Prop where
  noSlash : '/' ∉ ending.toList
  plain : Wildcard.isMagic ending = false
  clean : '\x00' ∉ ending.toList
  long : 2 < ending.toList.length

theorem IsEnding.isName (isEnding : IsEnding ending) {name : String}
    (ends : ending.toList <:+ name.toList) : name ≠ "" ∧ name ≠ "." ∧ name ≠ ".." := by
  have long := Nat.lt_of_lt_of_le isEnding.long ends.length_le
  refine ⟨?_, ?_, ?_⟩ <;>
    · rintro rfl
      exact absurd long (by decide)

theorem exists_keySteps_directoryPattern (key : String) (isEnding : IsEnding ending) :
    ∃ front, keySteps (directoryPattern key ending) = front ++ ["*" ++ ending] := by
  have noSlash : '/' ∉ ("*" ++ ending).toList := by
    rw [String.toList_append, List.mem_append]
    exact fun either => either.elim (by decide) isEnding.noSlash
  have shape : directoryPattern key ending =
      (key ++ "**") ++ String.singleton '/' ++ ("*" ++ ending) := by
    simp only [directoryPattern, String.append_assoc]
    rfl
  have filled : ("*" ++ ending != "") = true := by
    rw [bne_iff_ne]
    exact fun empty => absurd (String.append_eq_empty_iff.mp empty).1 (by decide)
  have last : ["*" ++ ending].filter (· != "") = ["*" ++ ending] :=
    List.filter_eq_self.mpr (List.forall_mem_singleton.mpr filled)
  rw [keySteps, shape, Text.splitOn_append, Text.splitOn_of_not_mem noSlash, List.filter_append,
    last]
  exact ⟨_, rfl⟩

theorem exists_searchSegments_directoryPattern (key : String) (isEnding : IsEnding ending) :
    ∃ front, Glob.searchSegments (directoryPattern key ending) = front ++ ["*" ++ ending] := by
  obtain ⟨front, steps⟩ := exists_keySteps_directoryPattern key isEnding
  have magic : (!Wildcard.isMagic ("*" ++ ending)) = false := by simp [Wildcard.isMagic]
  have found : Glob.searchSegments (directoryPattern key ending) =
      (keySteps (directoryPattern key ending)).dropWhile fun step => !Wildcard.isMagic step := rfl
  rw [found, steps, List.dropWhile_append]
  split
  · rw [List.dropWhile_cons_of_neg (by rw [magic]; exact Bool.false_ne_true)]
    exact ⟨[], rfl⟩
  · exact ⟨_, rfl⟩

theorem suffix_name_of_mem_searched (isEnding : IsEnding ending)
    (member : path ∈ Glob.searched tree base (directoryPattern key ending)) :
    ending.toList <:+ path.name.toList := by
  have text : ("*" ++ ending).toList = '*' :: ending.toList := String.toList_append
  have magic : Wildcard.isMagic ("*" ++ ending) = true := by simp [Wildcard.isMagic]
  have single : Glob.isRecursive ("*" ++ ending) = false := by
    rw [Glob.isRecursive, beq_eq_false_iff_ne]
    intro same
    have long := isEnding.long
    rw [List.tail_eq_of_cons_eq (text.symm.trans (congrArg String.toList same))] at long
    exact absurd long (by decide)
  obtain ⟨front, segments⟩ := exists_searchSegments_directoryPattern key isEnding
  have reached := List.mem_of_mem_filter member
  rw [segments] at reached
  obtain ⟨start, leads⟩ := Glob.exists_of_mem_followAll_concat reached
  rw [Glob.follow, single, magic] at leads
  obtain ⟨name, matched, rfl⟩ := List.mem_map.mp leads
  obtain ⟨-, fits⟩ := Bool.and_eq_true_iff.mp (List.mem_filter.mp matched).2
  have named : (Glob.child start name).name = name := by
    rw [Glob.child, Path.name, List.getLast?_concat, Option.getD_some]
  rw [named]
  exact (Wildcard.matchesName_star isEnding.plain).mp fits

theorem null_not_mem_directoryPattern (cleanKey : '\x00' ∉ key.toList)
    (isEnding : IsEnding ending) : '\x00' ∉ (directoryPattern key ending).toList := by
  rw [directoryPattern, String.toList_append, String.toList_append]
  intro member
  rcases List.mem_append.mp member with inFront | inEnding
  · exact (List.mem_append.mp inFront).elim cleanKey (by decide)
  · exact isEnding.clean inEnding

theorem Selects.isAbsolute {pattern : String} (absolute : base.isAbsolute = true)
    (selects : Selects tree base pattern path) : path.isAbsolute = true := by
  cases selects with
  | named => exact isAbsolute_joinText absolute pattern
  | @found hits hit noFile magic finds member =>
      have spelled : hit.isAbsolute = true := Glob.isAbsolute_of_files absolute finds member
      exact spelled

/-- No part of a selected path is a point. -/
theorem Selects.point_not_mem {pattern : String} (absolute : base.isAbsolute = true)
    (selects : Selects tree base pattern path) : "." ∉ path.parts := by
  cases selects with
  | named => exact (Path.parts_normalize (isAbsolute_joinText absolute pattern)).1
  | @found hits hit noFile magic finds member =>
      exact (Path.parts_normalize (Glob.isAbsolute_of_files absolute finds member)).1

section Names

variable (sound : tree.IsSound) (absolute : base.isAbsolute = true)
  (cleanBase : ∀ part ∈ base.parts, '\x00' ∉ part.toList) (cleanKey : '\x00' ∉ key.toList)
  (isEnding : IsEnding ending)
include absolute cleanBase cleanKey isEnding

/-- A file that is named like the pattern has a name that ends with the extension, too. -/
theorem suffix_name_literalPath :
    ending.toList <:+ (literalPath base (directoryPattern key ending)).name.toList := by
  have cleanPattern := null_not_mem_directoryPattern cleanKey isEnding
  obtain ⟨front, steps⟩ := exists_keySteps_directoryPattern key isEnding
  have named : (spelled base (directoryPattern key ending)).name = "*" ++ ending := by
    rw [spelled, Glob.startOf, steps]
    split <;> simp [Path.name, ← List.append_assoc]
  have ends : ending.toList <:+ (spelled base (directoryPattern key ending)).name.toList := by
    rw [named, String.toList_append]
    exact List.suffix_append _ _
  have clean : ∀ part ∈ (spelled base (directoryPattern key ending)).parts,
      '\x00' ∉ part.toList :=
    fun part => Path.null_not_mem (holdsNull_spelled cleanBase cleanPattern)
  rw [literalPath_eq absolute, Path.name_normalize (isAbsolute_spelled absolute _) clean
    (isEnding.isName ends)]
  exact ends

include sound in
/-- A directory selects files whose names end with the extension. -/
theorem suffix_name_of_selects
    (selects : Selects tree base (directoryPattern key ending) path) :
    ending.toList <:+ path.name.toList := by
  cases selects with
  | named isFile => exact suffix_name_literalPath absolute cleanBase cleanKey isEnding
  | @found hits hit noFile magic finds member =>
      obtain ⟨cleanStart, notClosed⟩ := Glob.clean_of_files finds member
      cases (Glob.files_of_clean cleanStart notClosed).symm.trans finds
      have ends := suffix_name_of_mem_searched isEnding member
      have cleanPattern := null_not_mem_directoryPattern cleanKey isEnding
      have clean := Glob.clean_of_mem_searched sound cleanBase cleanPattern member
      rw [Path.name_normalize (Glob.isAbsolute_of_mem_searched absolute member) clean
        (isEnding.isName ends)]
      exact ends

end Names

end Selection

end AssetBundler

import AssetBundler.Output
import AssetBundler.Proofs.Text.Blank
import AssetBundler.Proofs.Text.Lines
import Mathlib.Data.List.TakeWhile

/-!
The directory and the file name of an output.
-/

namespace AssetBundler.Output

/-- What stands behind the last slash of a text. -/
def lastOf (text : List Char) : List Char := (text.reverse.takeWhile (· != '/')).reverse

theorem lastOf_of_split {output directory name : String}
    (accepted : split output = .ok (directory, name)) :
    name.toList = lastOf (slashed output) := by
  simp only [split] at accepted
  split at accepted
  · cases accepted
  · split at accepted
    · rw [← (Prod.mk.inj (Except.ok.inj accepted)).2, String.toList_ofList, lastOf]
    · split at accepted
      · rw [← (Prod.mk.inj (Except.ok.inj accepted)).2, String.toList_ofList, lastOf]
      · rw [← (Prod.mk.inj (Except.ok.inj accepted)).2, String.toList_ofList, lastOf]

/-- The file name of an output lies in its directory and not below it. -/
theorem slash_not_mem_of_split {output directory name : String}
    (accepted : split output = .ok (directory, name)) : '/' ∉ name.toList := by
  intro member
  rw [lastOf_of_split accepted, lastOf, List.mem_reverse] at member
  have clean := List.mem_takeWhile_imp member
  simp at clean

/-- What stands between the slashes of an output. -/
def segments (output : String) : List String :=
  Text.splitOn '/' (String.ofList (slashed output))

theorem eq_lastOf (text : List Char) :
    '/' ∉ text ∧ lastOf text = text ∨ ∃ before, text = before ++ '/' :: lastOf text := by
  have divided : text.reverse.takeWhile (· != '/') ++ text.reverse.dropWhile (· != '/') =
      text.reverse := List.takeWhile_append_dropWhile
  unfold lastOf
  cases behind : text.reverse.dropWhile (· != '/') with
  | nil =>
      rw [behind, List.append_nil] at divided
      refine Or.inl ⟨?_, by rw [divided, List.reverse_reverse]⟩
      rw [← List.mem_reverse, ← divided]
      intro member
      simpa using List.mem_takeWhile_imp member
  | cons slash rest =>
      have stops := List.head?_dropWhile_not (· != '/') text.reverse
      rw [behind] at stops divided
      have isSlash : slash = '/' := by simpa using stops
      rw [isSlash] at divided
      have whole := congrArg List.reverse divided
      rw [List.reverse_append, List.reverse_cons, List.reverse_reverse] at whole
      exact Or.inr ⟨rest.reverse, by simpa using whole.symm⟩

/-- An output without a slash is a name. Otherwise the name stands behind the last slash. -/
theorem split_cases {output folder name : String} (accepted : split output = .ok (folder, name)) :
    name ≠ "" ∧
      (slashed output = name.toList ∧ folder = "." ∨
        ∃ before, slashed output = before ++ '/' :: name.toList ∧
          folder = if before = [] then "/" else String.ofList before) := by
  have divided := eq_lastOf (slashed output)
  simp only [split] at accepted
  rw [show ((slashed output).reverse.takeWhile (· != '/')).reverse =
    lastOf (slashed output) from rfl] at accepted
  generalize slashed output = text at *
  generalize lastOf text = last at *
  split at accepted
  · cases accepted
  · rename_i visible
    have filled : String.ofList last ≠ "" := by
      intro empty
      have none : last = [] := by simpa [← String.toList_inj] using empty
      rw [none] at visible
      exact visible rfl
    rcases divided with ⟨bare, rfl⟩ | ⟨before, rfl⟩
    · have notRoot : last.head? ≠ some '/' := fun root => bare (List.mem_of_head? root)
      simp only [Nat.sub_self, Nat.zero_sub, List.take_zero, ne_eq, not_true_eq_false, if_false,
        if_neg notRoot, Except.ok.injEq, Prod.mk.injEq] at accepted
      obtain ⟨rfl, rfl⟩ := accepted
      exact ⟨filled, Or.inl ⟨by simp, rfl⟩⟩
    · have cut : (before ++ '/' :: last).take ((before ++ '/' :: last).length - last.length - 1) =
          before := by
        rw [List.length_append, List.length_cons]
        exact List.take_left' (by omega)
      rw [cut] at accepted
      by_cases root : before = []
      · subst root
        simp only [ne_eq, not_true_eq_false, if_false, List.nil_append, List.head?_cons, if_true,
          Except.ok.injEq, Prod.mk.injEq] at accepted
        obtain ⟨rfl, rfl⟩ := accepted
        exact ⟨filled, Or.inr ⟨[], by simp, rfl⟩⟩
      · simp only [ne_eq, root, not_false_eq_true, if_true, Except.ok.injEq,
          Prod.mk.injEq] at accepted
        obtain ⟨rfl, rfl⟩ := accepted
        exact ⟨filled, Or.inr ⟨before, by simp, by rw [if_neg root]⟩⟩

/-- An output is refused when its name is blank, and for nothing else. -/
theorem split_eq_error {output : String} {failure : Failure} :
    split output = .error failure ↔
      (∀ c ∈ lastOf (slashed output), Text.isBlank c = true) ∧
        failure = .invalidOutput (String.ofList (slashed output)) := by
  rw [← Text.trim_eq_nil, ← List.isEmpty_iff, lastOf]
  simp only [split]
  split
  · rename_i blank
    simp [blank, eq_comm]
  · rename_i visible
    simp only [visible, Bool.false_eq_true, false_and, iff_false]
    split
    · simp
    · split <;> simp

/-- A text falls into a folder and the name behind its last slash. A name alone lies in the current
directory, and a name behind a first slash alone lies in the root. -/
structure FallsInto (text : List Char) (folder name : String) : Prop where
  last : name.toList = lastOf text
  visible : ∃ c ∈ name.toList, Text.isBlank c = false
  noSlash : '/' ∉ name.toList
  noBackslash : '\\' ∉ name.toList
  filled : folder ≠ ""
  whole : '/' ∉ text ∧ folder = "." ∧ text = name.toList ∨
    folder = "/" ∧ text = '/' :: name.toList ∨
      text = folder.toList ++ '/' :: name.toList

theorem backslash_not_mem_slashed (output : String) : '\\' ∉ slashed output := by
  intro member
  obtain ⟨c, -, turned⟩ := List.mem_map.mp member
  split at turned
  · cases turned
  · contradiction

theorem fallsInto_of_split {output folder name : String}
    (accepted : split output = .ok (folder, name)) :
    FallsInto (slashed output) folder name := by
  have last := lastOf_of_split accepted
  have noSlash := slash_not_mem_of_split accepted
  have visible : ∃ c ∈ name.toList, Text.isBlank c = false := by
    by_contra none
    have blank : ∀ c ∈ lastOf (slashed output), Text.isBlank c = true := by
      simpa [← last] using none
    cases accepted.symm.trans (split_eq_error.mpr ⟨blank, rfl⟩)
  rcases (split_cases accepted).2 with ⟨bare, rfl⟩ | ⟨before, behind, rfl⟩
  · refine ⟨last, visible, noSlash, ?_, by decide, Or.inl ⟨bare ▸ noSlash, rfl, bare⟩⟩
    exact bare ▸ backslash_not_mem_slashed output
  · have noBackslash : '\\' ∉ name.toList := by
      intro member
      apply backslash_not_mem_slashed output
      rw [behind]
      exact List.mem_append_right _ (List.mem_cons_of_mem _ member)
    by_cases root : before = []
    · rw [if_pos root]
      refine ⟨last, visible, noSlash, noBackslash, by decide, Or.inr (Or.inl ⟨rfl, ?_⟩)⟩
      rw [behind, root, List.nil_append]
    · rw [if_neg root]
      refine ⟨last, visible, noSlash, noBackslash, ?_, Or.inr (Or.inr ?_)⟩
      · simpa [← String.toList_inj] using root
      · rw [String.toList_ofList]
        exact behind

/-- There is one way only for a text to fall into a folder and a name. -/
theorem FallsInto.unique {text : List Char} {folder name other otherName : String}
    (falls : FallsInto text folder name) (otherFalls : FallsInto text other otherName) :
    folder = other ∧ name = otherName := by
  have same : name = otherName := by
    rw [← String.toList_inj, falls.last, otherFalls.last]
  subst same
  have lengths {folder : String} (root : text = '/' :: name.toList) (filled : folder ≠ "") :
      text ≠ folder.toList ++ '/' :: name.toList := by
    intro below
    have none : folder.toList = [] := by simpa [root] using below
    exact filled (String.toList_eq_nil_iff.mp none)
  refine ⟨?_, rfl⟩
  rcases falls.whole with ⟨bare, rfl, -⟩ | ⟨rfl, root⟩ | below <;>
    rcases otherFalls.whole with ⟨otherBare, rfl, -⟩ | ⟨rfl, otherRoot⟩ | otherBelow
  · rfl
  · exact absurd (otherRoot ▸ List.mem_cons_self) bare
  · exact absurd (otherBelow ▸ List.mem_append_right _ List.mem_cons_self) bare
  · exact absurd (root ▸ List.mem_cons_self) otherBare
  · rfl
  · exact absurd otherBelow (lengths root otherFalls.filled)
  · exact absurd (below ▸ List.mem_append_right _ List.mem_cons_self) otherBare
  · exact absurd below (lengths otherRoot falls.filled)
  · rw [← String.toList_inj]
    exact List.append_cancel_right (below.symm.trans otherBelow)

theorem split_eq_ok {output folder name : String} :
    split output = .ok (folder, name) ↔ FallsInto (slashed output) folder name := by
  refine ⟨fallsInto_of_split, fun falls => ?_⟩
  cases parted : split output with
  | error failure =>
      obtain ⟨c, member, visible⟩ := falls.visible
      rw [falls.last] at member
      cases visible.symm.trans ((split_eq_error.mp parted).1 c member)
  | ok place =>
      obtain ⟨sameFolder, sameName⟩ := falls.unique (fallsInto_of_split parted)
      rw [sameFolder, sameName]

/-- The parts of a folder and the name behind it are the parts of the output. -/
theorem parts_of_split {output folder name : String}
    (accepted : split output = .ok (folder, name)) :
    (Path.ofString folder).parts ++ [name].filter Path.isPart =
      (segments output).filter Path.isPart := by
  have nameParts := Text.splitOn_of_not_mem (slash_not_mem_of_split accepted)
  rcases (split_cases accepted).2 with ⟨bare, rfl⟩ | ⟨before, whole, rfl⟩
  · rw [segments, bare, String.ofList_toList, nameParts]
    rfl
  · have whole : String.ofList (slashed output) =
        String.ofList before ++ String.singleton '/' ++ name := by
      rw [whole, ← String.toList_inj]
      simp
    rw [segments, whole, Text.splitOn_append, nameParts, List.filter_append]
    apply congrArg (· ++ [name].filter Path.isPart)
    by_cases root : before = []
    · rw [root]
      rfl
    · rw [if_neg root]
      rfl

theorem gzipName_ne_mapName (name : String) : gzipName name ≠ mapName name := by
  intro same
  have extensions : ".gz" = ".map" := (String.append_right_inj name).mp same
  revert extensions
  decide +kernel

theorem name_ne_mapName (name : String) : name ≠ mapName name := by
  intro same
  have longer := congrArg (fun text => text.toList.length) same
  simp [mapName] at longer

theorem name_ne_gzipName (name : String) : name ≠ gzipName name := by
  intro same
  have longer := congrArg (fun text => text.toList.length) same
  simp [gzipName] at longer

/-- The paths of all files that a build can write into a folder. -/
def artifactPaths (base : Path) (folder name : String) : List Path :=
  (artifactNames name).map (base.joinText folder).joinText

end AssetBundler.Output

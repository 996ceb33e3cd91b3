import AssetBundler.FileSystem.Glob
import AssetBundler.Proofs.FileSystem.Normal

/-!
What a search looks at. It comes upon a path through the names on it, so two trees that show the
same along a path both lead to it or both do not.
-/

namespace AssetBundler

namespace Tree

variable {tree other : Tree} {location : Location}

theorem look_of_mem {nodes : List (Location × Node)} {node : Node}
    (member : (location, node) ∈ nodes) : ∃ found, look nodes location = some found := by
  induction nodes with
  | nil => cases member
  | cons entry rest inductionHypothesis =>
      rw [look]
      split
      · exact ⟨entry.2, rfl⟩
      · rename_i apart
        rcases List.mem_cons.mp member with same | later
        · exact absurd (congrArg Prod.fst same).symm apart
        · exact inductionHypothesis later

/-- The names in a directory are those under which something stands there. -/
theorem mem_children {name : String} :
    name ∈ tree.children location ↔ ∃ node, tree.get? (location ++ [name]) = some node := by
  have below : location ++ [name] ≠ [] := by simp
  rw [children, List.mem_filterMap]
  constructor
  · rintro ⟨entry, member, named⟩
    split at named
    · rename_i inside
      have whole : entry.1 = location ++ [name] := by
        rw [← inside]
        exact (List.dropLast_append_getLast? name named).symm
      rw [get?, if_neg below, ← whole]
      exact look_of_mem member
    · cases named
  · rintro ⟨node, found⟩
    rw [get?, if_neg below] at found
    exact ⟨_, mem_of_look found, by simp⟩

end Tree

namespace Glob

variable {tree other : Tree} {counts : Path → Prop} {onlyDirectories isLast : Bool}
  {segment name : String} {path found : Path}

section Following

variable (above : ∀ path name, counts (child path name) → counts path)
include above

theorem counts_of_mem_descend {depth : Nat} (counted : counts found)
    (member : found ∈ descend tree onlyDirectories depth path) : counts path := by
  induction depth generalizing path with
  | zero => cases member
  | succ depth inductionHypothesis =>
      obtain ⟨name, -, below⟩ := List.mem_flatMap.mp member
      rcases List.mem_cons.mp below with rfl | deeper
      · exact above path name counted
      · exact above path name (inductionHypothesis deeper)

theorem counts_of_mem_follow (counted : counts found)
    (member : found ∈ follow tree isLast segment path) : counts path := by
  rw [follow] at member
  split at member
  · split at member
    · rcases List.mem_cons.mp member with rfl | deeper
      · exact counted
      · exact counts_of_mem_descend above counted deeper
    · cases member
  · split at member
    · obtain ⟨name, -, rfl⟩ := List.mem_map.mp member
      exact above path name counted
    · rw [List.mem_singleton.mp member] at counted
      exact above path segment counted

variable (directories : ∀ path, counts path → isDirectoryAt tree path = true →
    isDirectoryAt other path = true)
  (names : ∀ path name, counts (child path name) → name ∈ namesIn tree path →
    name ∈ namesIn other path)
include directories names

omit above in
theorem mem_entries_of_counts (counted : counts (child path name))
    (member : name ∈ entries tree onlyDirectories path) :
    name ∈ entries other onlyDirectories path := by
  obtain ⟨named, admitted⟩ := List.mem_filter.mp member
  refine List.mem_filter.mpr ⟨names path name counted named, ?_⟩
  cases onlyDirectories with
  | false => rfl
  | true => exact directories _ counted admitted

theorem mem_descend_of_counts {depth : Nat} (counted : counts found)
    (member : found ∈ descend tree onlyDirectories depth path) :
    found ∈ descend other onlyDirectories depth path := by
  induction depth generalizing path with
  | zero => cases member
  | succ depth inductionHypothesis =>
      obtain ⟨name, listed, below⟩ := List.mem_flatMap.mp member
      obtain ⟨entry, shown⟩ := List.mem_filter.mp listed
      have countedChild : counts (child path name) := by
        rcases List.mem_cons.mp below with rfl | deeper
        · exact counted
        · exact counts_of_mem_descend above counted deeper
      have entryThere := mem_entries_of_counts directories names countedChild entry
      refine List.mem_flatMap.mpr ⟨name, List.mem_filter.mpr ⟨entryThere, shown⟩, ?_⟩
      rcases List.mem_cons.mp below with rfl | deeper
      · exact List.mem_cons_self
      · exact List.mem_cons_of_mem _ (inductionHypothesis deeper)

theorem mem_follow_of_counts (counted : counts found)
    (member : found ∈ follow tree isLast segment path) :
    found ∈ follow other isLast segment path := by
  have countedPath := counts_of_mem_follow above counted member
  rw [follow] at member ⊢
  split
  · rename_i recursive
    rw [if_pos recursive] at member
    split at member
    · rename_i isDirectory
      rw [if_pos (directories path countedPath isDirectory)]
      rcases List.mem_cons.mp member with rfl | deeper
      · exact List.mem_cons_self
      · exact List.mem_cons_of_mem _
          (mem_descend_of_counts above directories names counted deeper)
    · cases member
  · rename_i single
    rw [if_neg single] at member
    split
    · rename_i magic
      rw [if_pos magic] at member
      obtain ⟨name, matched, rfl⟩ := List.mem_map.mp member
      obtain ⟨entry, fits⟩ := List.mem_filter.mp matched
      refine List.mem_map_of_mem (List.mem_filter.mpr ⟨?_, fits⟩)
      exact mem_entries_of_counts directories names counted entry
    · rename_i literal
      rwa [if_neg literal] at member

/-- A search comes upon a path that counts wherever the tree shows the same for what counts. -/
theorem mem_followAll_of_counts {paths others : List Path} {segments : List String}
    (starts : ∀ path ∈ paths, counts path → path ∈ others) (counted : counts found)
    (member : found ∈ followAll tree paths segments) :
    found ∈ followAll other others segments := by
  induction segments generalizing paths others with
  | nil => exact starts found member counted
  | cons segment rest inductionHypothesis =>
      rw [followAll] at member ⊢
      refine inductionHypothesis ?_ member
      intro next reached countedNext
      obtain ⟨path, isStart, leads⟩ := List.mem_flatMap.mp reached
      have countedPath := counts_of_mem_follow above countedNext leads
      exact List.mem_flatMap.mpr ⟨path, starts path isStart countedPath,
        mem_follow_of_counts above directories names countedNext leads⟩

end Following

section Keeping

variable {keeps : Path → Prop}
  (named : ∀ path name, keeps path → name ∈ namesIn tree path → keeps (child path name))
include named

theorem keeps_of_mem_descend {depth : Nat} (kept : keeps path)
    (member : found ∈ descend tree onlyDirectories depth path) : keeps found := by
  induction depth generalizing path with
  | zero => cases member
  | succ depth inductionHypothesis =>
      obtain ⟨name, listed, below⟩ := List.mem_flatMap.mp member
      have isName := List.mem_of_mem_filter (List.mem_of_mem_filter listed)
      have next := named path name kept isName
      rcases List.mem_cons.mp below with rfl | deeper
      · exact next
      · exact inductionHypothesis next deeper

theorem keeps_of_mem_follow (kept : keeps path) (literal : keeps (child path segment))
    (member : found ∈ follow tree isLast segment path) : keeps found := by
  rw [follow] at member
  split at member
  · split at member
    · rcases List.mem_cons.mp member with rfl | deeper
      · exact kept
      · exact keeps_of_mem_descend named kept deeper
    · cases member
  · split at member
    · obtain ⟨name, matched, rfl⟩ := List.mem_map.mp member
      exact named path name kept (List.mem_of_mem_filter (List.mem_of_mem_filter matched))
    · rwa [List.mem_singleton.mp member]

/-- What holds of the starts of a search, and goes on to names and segments, holds of all that is
found. -/
theorem keeps_of_mem_followAll {paths : List Path} {segments : List String}
    (literal : ∀ path, keeps path → ∀ segment ∈ segments, keeps (child path segment))
    (kept : ∀ path ∈ paths, keeps path) (member : found ∈ followAll tree paths segments) :
    keeps found := by
  induction segments generalizing paths with
  | nil => exact kept found member
  | cons segment rest inductionHypothesis =>
      rw [followAll] at member
      refine inductionHypothesis ?_ ?_ member
      · exact fun path keptPath next isNext =>
          literal path keptPath next (List.mem_cons_of_mem segment isNext)
      · intro next reached
        obtain ⟨path, isStart, leads⟩ := List.mem_flatMap.mp reached
        exact keeps_of_mem_follow named (kept path isStart)
          (literal path (kept path isStart) segment List.mem_cons_self) leads

end Keeping

end Glob

end AssetBundler

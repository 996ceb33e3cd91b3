import AssetBundler.Selection
import Mathlib.Data.List.Sort

/-!
Selection as a function of what its patterns find. The order in which a search comes upon its files
and how often it does so play no part.
-/

namespace AssetBundler

namespace Path

/-- One path comes before another in a selection. -/
def Before (path other : Path) : Prop := path.components < other.components

theorem components_inj {path other : Path} (same : path.components = other.components) :
    path = other := by
  obtain ⟨sameText, sameParts⟩ := List.cons.inj same
  have sameAnchor : path.anchor = other.anchor := by
    revert sameText
    cases path.anchor <;> cases other.anchor <;> decide
  cases path
  cases other
  cases sameAnchor
  cases sameParts
  rfl

theorem eq_or_before {path other : Path} (notAfter : ¬ other.Before path) :
    path = other ∨ path.Before other := by
  by_cases before : path.Before other
  · exact Or.inr before
  · exact Or.inl (components_inj (List.le_antisymm (List.not_lt.mp notAfter)
      (List.not_lt.mp before)))

instance : Std.Irrefl Before := ⟨fun path => List.lt_irrefl path.components⟩

instance : Std.Antisymm Before :=
  ⟨fun _ _ before after => absurd after (List.lt_asymm before)⟩

/-- No path comes after a later one. -/
def IsSorted (paths : List Path) : Prop := paths.Pairwise fun path later => ¬ later.Before path

theorem not_lex_iff {path later : Path} :
    (!List.lex later.components path.components (· < ·)) = true ↔ ¬ later.Before path := by
  rw [Before, ← List.lex_eq_true_iff_lt, Bool.not_eq_true', Bool.not_eq_true]

theorem isSorted_sort (paths : List Path) : IsSorted (sort paths) := by
  refine (List.pairwise_mergeSort ?_ ?_ paths).imp not_lex_iff.mp
  · intro first second third before after
    rw [not_lex_iff] at before after ⊢
    exact List.not_lt.mpr (List.le_trans (List.not_lt.mp before) (List.not_lt.mp after))
  · intro first second
    rw [Bool.or_eq_true, not_lex_iff, not_lex_iff]
    exact (List.le_total first.components second.components).imp List.not_lt.mpr List.not_lt.mpr

theorem mem_sort {paths : List Path} {path : Path} : path ∈ sort paths ↔ path ∈ paths :=
  (List.mergeSort_perm paths _).mem_iff

end Path

namespace Selection

theorem mem_addNew {selected found : List Path} {path : Path} :
    path ∈ addNew selected found ↔ path ∈ selected ∨ path ∈ found := by
  unfold addNew
  induction found generalizing selected with
  | nil => simp
  | cons first rest inductionHypothesis =>
      rw [List.foldl_cons, inductionHypothesis]
      by_cases again : first ∈ selected
      · simp only [List.contains_eq_mem, again, decide_true, if_true, List.mem_cons]
        constructor
        · tauto
        · rintro (old | rfl | new)
          · exact Or.inl old
          · exact Or.inl again
          · exact Or.inr new
      · simp only [List.contains_eq_mem, again, decide_false, Bool.false_eq_true, if_false,
          List.mem_append, List.mem_cons]
        tauto

/-- What a sorted list adds is sorted, and it holds each new path once. -/
theorem addNew_eq {found : List Path} (sorted : Path.IsSorted found) (selected : List Path) :
    ∃ fresh, addNew selected found = selected ++ fresh ∧ fresh.Pairwise Path.Before ∧
      ∀ path, path ∈ fresh ↔ path ∈ found ∧ path ∉ selected := by
  induction found generalizing selected with
  | nil => exact ⟨[], by simp [addNew], List.Pairwise.nil, by simp⟩
  | cons first rest inductionHypothesis =>
      obtain ⟨lowest, sortedRest⟩ := List.pairwise_cons.mp sorted
      by_cases again : first ∈ selected
      · obtain ⟨fresh, added, ordered, members⟩ := inductionHypothesis sortedRest selected
        refine ⟨fresh, ?_, ordered, ?_⟩
        · rw [← added]
          simp [addNew, again]
        · intro path
          rw [members, List.mem_cons]
          constructor
          · exact fun ⟨later, isNew⟩ => ⟨Or.inr later, isNew⟩
          · rintro ⟨rfl | later, isNew⟩
            · exact absurd again isNew
            · exact ⟨later, isNew⟩
      · obtain ⟨fresh, added, ordered, members⟩ := inductionHypothesis sortedRest
          (selected ++ [first])
        refine ⟨first :: fresh, ?_, ?_, ?_⟩
        · rw [List.append_cons, ← added]
          simp [addNew, again]
        · refine List.pairwise_cons.mpr ⟨?_, ordered⟩
          intro path member
          obtain ⟨later, isNew⟩ := (members path).mp member
          rcases Path.eq_or_before (lowest path later) with same | before
          · exact absurd (List.mem_append_right _ (List.mem_singleton.mpr same.symm)) isNew
          · exact before
        · intro path
          rw [List.mem_cons, members, List.mem_append, List.mem_singleton, List.mem_cons]
          constructor
          · rintro (rfl | ⟨later, isNew⟩)
            · exact ⟨Or.inl rfl, again⟩
            · exact ⟨Or.inr later, fun old => isNew (Or.inl old)⟩
          · rintro ⟨rfl | later, isNew⟩
            · exact Or.inl rfl
            · by_cases same : path = first
              · exact Or.inl same
              · exact Or.inr ⟨later, not_or.mpr ⟨isNew, same⟩⟩

/-- Sorted lists of the same paths add the same. -/
theorem addNew_congr {found others : List Path} (sorted : Path.IsSorted found)
    (otherSorted : Path.IsSorted others) (same : ∀ path, path ∈ found ↔ path ∈ others)
    (selected : List Path) : addNew selected found = addNew selected others := by
  obtain ⟨fresh, added, ordered, members⟩ := addNew_eq sorted selected
  obtain ⟨otherFresh, otherAdded, otherOrdered, otherMembers⟩ :=
    addNew_eq otherSorted selected
  have equal : fresh = otherFresh := by
    apply ordered.eq_of_mem_iff otherOrdered
    intro path
    rw [members, otherMembers, same]
  rw [added, otherAdded, equal]

/-- Two searches find the same files, or fail in the same way. -/
inductive FindAlike : Except Failure (List Path) → Except Failure (List Path) → Prop where
  | failed (failure : Failure) : FindAlike (.error failure) (.error failure)
  | found {found others : List Path} (sorted : Path.IsSorted found)
      (otherSorted : Path.IsSorted others) (same : ∀ path, path ∈ found ↔ path ∈ others) :
      FindAlike (.ok found) (.ok others)

variable {tree other : Tree} {base : Path} {patterns : List String}

/-- Patterns that find the same files select the same. -/
theorem expandFrom_congr
    (alike : ∀ pattern ∈ patterns,
      FindAlike (expandPattern tree base pattern) (expandPattern other base pattern))
    (selected : List Path) :
    expandFrom tree base selected patterns = expandFrom other base selected patterns := by
  induction patterns generalizing selected with
  | nil => rfl
  | cons pattern rest inductionHypothesis =>
      have first := alike pattern List.mem_cons_self
      have later := inductionHypothesis fun next member =>
        alike next (List.mem_cons_of_mem _ member)
      rw [expandFrom, expandFrom]
      generalize expandPattern tree base pattern = result at first ⊢
      generalize expandPattern other base pattern = otherResult at first ⊢
      cases first with
      | failed failure => rfl
      | found sorted otherSorted same =>
          simp only [addNew_congr sorted otherSorted same selected]
          exact later _

theorem expand_congr
    (alike : ∀ pattern ∈ patterns,
      FindAlike (expandPattern tree base pattern) (expandPattern other base pattern)) :
    expand tree base patterns = expand other base patterns := expandFrom_congr alike []

/-- What is selected is what the patterns find, and each of them finds its files. -/
theorem expandFrom_eq_ok {old selected : List Path}
    (selects : expandFrom tree base old patterns = .ok selected) :
    (∀ pattern ∈ patterns, ∃ found, expandPattern tree base pattern = .ok found) ∧
      ∀ path, path ∈ selected ↔ path ∈ old ∨
        ∃ pattern ∈ patterns, ∃ found, expandPattern tree base pattern = .ok found ∧
          path ∈ found := by
  induction patterns generalizing old with
  | nil =>
      cases selects
      simp
  | cons pattern rest inductionHypothesis =>
      rw [expandFrom] at selects
      cases finds : expandPattern tree base pattern with
      | error failure => simp [finds] at selects
      | ok found =>
          simp only [finds] at selects
          obtain ⟨all, members⟩ := inductionHypothesis selects
          refine ⟨List.forall_mem_cons.mpr ⟨⟨found, finds⟩, all⟩, ?_⟩
          intro path
          rw [members, mem_addNew]
          simp only [List.mem_cons, exists_eq_or_imp, finds, Except.ok.injEq, exists_eq_left',
            or_assoc]

theorem exists_expandFrom (all : ∀ pattern ∈ patterns, ∃ found,
    expandPattern tree base pattern = .ok found) (old : List Path) :
    ∃ selected, expandFrom tree base old patterns = .ok selected := by
  induction patterns generalizing old with
  | nil => exact ⟨old, rfl⟩
  | cons pattern rest inductionHypothesis =>
      obtain ⟨⟨found, finds⟩, later⟩ := List.forall_mem_cons.mp all
      rw [expandFrom, finds]
      exact inductionHypothesis later _

end Selection

end AssetBundler

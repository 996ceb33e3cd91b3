import AssetBundler.Proofs.FileSystem.Reached
import AssetBundler.Proofs.Selection.Downward

/-!
Searches at any depth. Two stars and a last segment lead to the files that can be looked up below
the start, that have a name which the segment matches, and that have no hidden name on their way.
-/

namespace AssetBundler

namespace Wildcard

/-- Characters without a meaning stand for themselves. -/
theorem parse_plain {text : List Char} (plain : ∀ c ∈ text, c ≠ '*' ∧ c ≠ '?' ∧ c ≠ '[') :
    parse text = text.map .literal := by
  induction text with
  | nil => rw [parse, List.map_nil]
  | cons c rest inductionHypothesis =>
      obtain ⟨notStar, notMark, notBracket⟩ := plain c List.mem_cons_self
      rw [parse, if_neg notStar, if_neg notMark, if_neg notBracket, List.map_cons,
        inductionHypothesis fun other member => plain other (List.mem_cons_of_mem c member)]

theorem fits_literals (expected text : List Char) :
    fits (expected.map .literal) text = true ↔ text = expected := by
  induction expected generalizing text with
  | nil => rw [List.map_nil, fits_empty, List.isEmpty_iff]
  | cons c rest inductionHypothesis =>
      have single : Wildcard.literal c ≠ .star := by simp
      cases text with
      | nil => simp [fits_nil]
      | cons first more =>
          rw [List.map_cons, fits_cons single, Bool.and_eq_true, inductionHypothesis,
            List.cons.injEq, admits, beq_iff_eq]

/-- A star stands for any start. -/
theorem fits_star_iff (rest : List Wildcard) (text : List Char) :
    fits (.star :: rest) text = true ↔ ∃ behind, behind <:+ text ∧ fits rest behind = true := by
  induction text with
  | nil => simp [fits_nil]
  | cons c more inductionHypothesis =>
      rw [fits_star, Bool.or_eq_true, inductionHypothesis]
      constructor
      · rintro (whole | ⟨behind, isEnd, fit⟩)
        · exact ⟨c :: more, List.suffix_refl _, whole⟩
        · exact ⟨behind, isEnd.trans (List.suffix_cons c more), fit⟩
      · rintro ⟨behind, isEnd, fit⟩
        rcases List.suffix_cons_iff.mp isEnd with rfl | later
        · exact Or.inl fit
        · exact Or.inr ⟨behind, later, fit⟩

theorem isMagic_eq_false {text : String} :
    isMagic text = false ↔ ∀ c ∈ text.toList, c ≠ '*' ∧ c ≠ '?' ∧ c ≠ '[' := by
  simp [isMagic, and_assoc]

/-- A star before a plain text matches the names that end with the text. -/
theorem matchesName_star {ending name : String} (plain : isMagic ending = false) :
    matchesName ("*" ++ ending) name = true ↔ ending.toList <:+ name.toList := by
  have parsed : parse ("*" ++ ending).toList = .star :: ending.toList.map .literal := by
    rw [String.toList_append, show "*".toList = ['*'] from rfl, List.singleton_append, parse,
      if_pos rfl, parse_plain (isMagic_eq_false.mp plain)]
  rw [matchesName, parsed, fits_star_iff]
  constructor
  · rintro ⟨behind, isEnd, fit⟩
    rwa [(fits_literals _ _).mp fit] at isEnd
  · exact fun isEnd => ⟨_, isEnd, (fits_literals _ _).mpr rfl⟩

end Wildcard

namespace Glob

variable {tree : Tree} {path start found : Path} {name segment : String} {names : List String}

/-- A name that is not hidden is no step. -/
theorem step_of_shown (shown : isHidden name = false) : name ≠ "." ∧ name ≠ ".." := by
  constructor
  · rintro rfl
    cases shown.symm.trans (by decide +kernel : isHidden "." = true)
  · rintro rfl
    cases shown.symm.trans (by decide +kernel : isHidden ".." = true)

theorem child_eq_below (path : Path) (name : String) : child path name = path.below [name] := rfl

/-- The names on the way to a path below another one, none of them hidden. -/
def AreShown (names : List String) : Prop := ∀ name ∈ names, isHidden name = false

section Reaching

variable (sound : tree.IsSound) (free : tree.IsLinkFree) (absolute : path.isAbsolute = true)
include sound free absolute

/-- What can be looked up under a name stands in a directory that can be looked up. -/
theorem isDirectoryAt_of_child {node : Node} (shown : isHidden name = false)
    (located : tree.locate [] true (child path name) = .ok ((child path name).place []))
    (there : tree.get? ((child path name).place []) = some node) :
    isDirectoryAt tree path = true ∧ name ∈ namesIn tree path := by
  obtain ⟨notHere, notUp⟩ := step_of_shown shown
  rw [place_child, Tree.advance, if_neg notHere, if_neg notUp] at there
  have isDirectory : tree.get? (path.place []) = some .directory := by
    have parent := sound.parent _ _ there
    rwa [List.dropLast_concat] at parent
  obtain ⟨short, walked⟩ := Tree.locate_eq_ok.mp located
  have absoluteChild : (child path name).isAbsolute = true := absolute
  have shorter : ¬ Tree.pathLimit < Utf8.size path.toString := by
    have parent : (child path name).parent = path := by
      rw [Path.parent, child, List.dropLast_concat]
    have fewer := Path.size_parent absoluteChild
    rw [parent] at fewer
    omega
  have reached : tree.locate [] true path = .ok (path.place []) :=
    Tree.locate_eq_ok.mpr ⟨shorter, Tree.walkSteps_before (free.isClear _) walked⟩
  have directoryAt := (isDirectoryAt_eq_true free).mpr ⟨reached, isDirectory⟩
  exact ⟨directoryAt, (mem_namesIn free).mpr ⟨directoryAt, node, there⟩⟩

/-- A directory that can be looked up lies below nothing but such directories. -/
theorem isDirectoryAt_of_below (shown : AreShown names)
    (reached : isDirectoryAt tree (path.below names) = true) : isDirectoryAt tree path = true := by
  induction names using List.reverseRecOn with
  | nil =>
      rw [Path.below, List.append_nil] at reached
      exact reached
  | append_singleton before name inductionHypothesis =>
      have absoluteBelow : (path.below before).isAbsolute = true := absolute
      have shownName := shown name (List.mem_append_right _ List.mem_cons_self)
      rw [Path.below_append, ← child_eq_below] at reached
      obtain ⟨located, there⟩ := (isDirectoryAt_eq_true free).mp reached
      exact inductionHypothesis (fun other member => shown other (List.mem_append_left _ member))
        (isDirectoryAt_of_child sound free absoluteBelow shownName located there).1

/-- Two stars lead to the directories that can be looked up below a directory. -/
theorem mem_descend_iff {depth : Nat} : found ∈ descend tree true depth path ↔
    ∃ names, names ≠ [] ∧ names.length ≤ depth ∧ AreShown names ∧ found = path.below names ∧
      isDirectoryAt tree found = true := by
  induction depth generalizing path found with
  | zero =>
      rw [descend]
      constructor
      · exact fun member => absurd member List.not_mem_nil
      · rintro ⟨names, filled, few, -⟩
        exact absurd (List.eq_nil_of_length_eq_zero (Nat.le_zero.mp few)) filled
  | succ depth inductionHypothesis =>
      have absoluteChild (name : String) : (child path name).isAbsolute = true := absolute
      rw [descend, List.mem_flatMap]
      constructor
      · rintro ⟨name, listed, below⟩
        obtain ⟨entry, shown⟩ := List.mem_filter.mp listed
        have isDirectory : isDirectoryAt tree (child path name) = true := by
          simpa using (List.mem_filter.mp entry).2
        have shownName : isHidden name = false := by simpa using shown
        rcases List.mem_cons.mp below with rfl | deeper
        · refine ⟨[name], List.cons_ne_nil _ _, ?_, ?_, rfl, isDirectory⟩
          · rw [List.length_singleton]
            exact Nat.le_add_left 1 depth
          · exact List.forall_mem_singleton.mpr shownName
        · obtain ⟨names, -, few, shownNames, rfl, reached⟩ :=
            (inductionHypothesis (absoluteChild name)).mp deeper
          refine ⟨name :: names, List.cons_ne_nil _ _, Nat.succ_le_succ few, ?_, ?_, reached⟩
          · exact List.forall_mem_cons.mpr ⟨shownName, shownNames⟩
          · rw [child_eq_below, ← Path.below_append, List.singleton_append]
      · rintro ⟨names, filled, few, shown, rfl, reached⟩
        obtain ⟨name, rest, rfl⟩ := List.exists_cons_of_ne_nil filled
        obtain ⟨shownName, shownRest⟩ := List.forall_mem_cons.mp shown
        have whole : path.below (name :: rest) = (child path name).below rest := by
          rw [child_eq_below, ← Path.below_append, List.singleton_append]
        rw [whole] at reached ⊢
        have next := isDirectoryAt_of_below sound free (absoluteChild name) shownRest reached
        obtain ⟨located, there⟩ := (isDirectoryAt_eq_true free).mp next
        have isName := (isDirectoryAt_of_child sound free absolute shownName located there).2
        refine ⟨name, List.mem_filter.mpr ⟨List.mem_filter.mpr ⟨isName, ?_⟩, ?_⟩, ?_⟩
        · simpa using next
        · simpa using shownName
        · by_cases last : rest = []
          · rw [last, Path.below, List.append_nil]
            exact List.mem_cons_self
          · refine List.mem_cons_of_mem _ ((inductionHypothesis (absoluteChild name)).mpr ?_)
            exact ⟨rest, last, Nat.le_of_succ_le_succ few, shownRest, rfl, reached⟩

/-- The last of two stars and a segment with wildcards leads to the files below a directory whose
name the segment matches. -/
theorem mem_recursive_iff (magic : Wildcard.isMagic segment = true)
    (single : isRecursive segment = false) (notHidden : isHidden segment = false) :
    found ∈ (followAll tree [path] ["**", segment]).filter (isFileAt tree) ↔
      ∃ before name, AreShown (before ++ [name]) ∧ Wildcard.matchesName segment name = true ∧
        found = path.below (before ++ [name]) ∧ isFileAt tree found = true := by
  have recursive : isRecursive "**" = true := by decide +kernel
  have lastStep (at_ : Path) : found ∈ follow tree true segment at_ ↔
      ∃ name ∈ namesIn tree at_, isHidden name = false ∧
        Wildcard.matchesName segment name = true ∧ child at_ name = found := by
    simp [follow, single, magic, notHidden, entries, and_assoc]
  have firstStep (at_ : Path) : at_ ∈ follow tree false "**" path ↔
      isDirectoryAt tree path = true ∧
        (at_ = path ∨ at_ ∈ descend tree true depthLimit path) := by
    rw [follow, if_pos recursive]
    split
    · rename_i isDirectory
      simp [isDirectory]
    · rename_i other
      simp [other]
  simp only [followAll, List.isEmpty_cons, List.isEmpty_nil, List.flatMap_cons, List.flatMap_nil,
    List.append_nil, List.mem_filter, List.mem_flatMap, firstStep, lastStep]
  constructor
  · rintro ⟨⟨at_, ⟨isDirectory, way⟩, name, isName, shownName, matched, rfl⟩, isFile⟩
    obtain ⟨before, shown, rfl⟩ : ∃ before, AreShown before ∧ at_ = path.below before := by
      rcases way with rfl | deeper
      · refine ⟨[], ?_, ?_⟩
        · exact fun _ member => absurd member List.not_mem_nil
        · rw [Path.below, List.append_nil]
      · obtain ⟨before, -, -, shown, same, -⟩ := (mem_descend_iff sound free absolute).mp deeper
        exact ⟨before, shown, same⟩
    refine ⟨before, name, ?_, matched, ?_, isFile⟩
    · exact List.forall_mem_append.mpr ⟨shown, List.forall_mem_singleton.mpr shownName⟩
    · rw [child_eq_below, Path.below_append]
  · rintro ⟨before, name, shown, matched, rfl, isFile⟩
    obtain ⟨shownBefore, shownLast⟩ := List.forall_mem_append.mp shown
    have shownName := shownLast name List.mem_cons_self
    have absoluteBelow : (path.below before).isAbsolute = true := absolute
    obtain ⟨located, contents, there⟩ := (isFileAt_eq_true free).mp isFile
    rw [Path.below_append, ← child_eq_below] at located there
    obtain ⟨above, isName⟩ :=
      isDirectoryAt_of_child sound free absoluteBelow shownName located there
    refine ⟨⟨path.below before, ⟨isDirectoryAt_of_below sound free absolute shownBefore above, ?_⟩,
      name, isName, shownName, matched, ?_⟩, isFile⟩
    · by_cases direct : before = []
      · exact Or.inl (by rw [direct, Path.below, List.append_nil])
      · refine Or.inr ((mem_descend_iff sound free absolute).mpr
          ⟨before, direct, ?_, shownBefore, rfl, above⟩)
        obtain ⟨reached, -⟩ := (isDirectoryAt_eq_true free).mp above
        obtain ⟨short, -⟩ := Tree.locate_eq_ok.mp reached
        have parts := Path.length_parts_le absoluteBelow
        rw [Path.below, List.length_append] at parts
        rw [Path.below] at short
        rw [depthLimit]
        omega
    · rw [child_eq_below, Path.below_append]

end Reaching

end Glob

end AssetBundler

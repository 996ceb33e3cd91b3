import AssetBundler.Proofs.FileSystem.Walking
import AssetBundler.Proofs.Selection.Containment

/-!
Selection by a list of patterns. Each pattern adds the files that no earlier one has selected, in
the order of their paths, and the first pattern that fails ends the selection.
-/

namespace AssetBundler

namespace Glob

variable {tree : Tree} {base path found : Path} {pattern name : String}

theorem isFileAt_iff : isFileAt tree path = true ↔
    ∃ location contents, tree.locate [] true path = .ok location ∧
      tree.get? location = some (.file contents) := by
  unfold isFileAt Tree.status
  cases tree.locate [] true path with
  | error refusal => simp [bind, Except.bind]
  | ok location =>
      cases there : tree.get? location with
      | none => simp [bind, Except.bind, there]
      | some node => cases node <;> simp [bind, Except.bind, pure, Except.pure, there]

/-- The names in a directory are no steps, be it a directory behind links. -/
theorem isName_of_mem_namesIn (sound : tree.IsSound) (isName : name ∈ namesIn tree path) :
    name ≠ "." ∧ name ≠ ".." ∧ '\x00' ∉ name.toList := by
  rw [namesIn] at isName
  split at isName
  · split at isName
    · obtain ⟨node, there⟩ := Tree.mem_children.mp isName
      exact sound.named _ node there name (List.mem_append_right _ List.mem_cons_self)
    · cases isName
  · cases isName

theorem isAbsolute_of_mem_searched (absolute : base.isAbsolute = true)
    (member : found ∈ searched tree base pattern) : found.isAbsolute = true := by
  let keeps (path : Path) : Prop := path.isAbsolute = true
  have start : keeps (searchStart base pattern) := Selection.isAbsolute_startOf absolute pattern _
  have kept : keeps found := keeps_of_mem_followAll (fun _ _ kept _ => kept)
    (fun _ kept _ _ => kept) (List.forall_mem_singleton.mpr start) (List.mem_of_mem_filter member)
  exact kept

theorem isAbsolute_of_files {hits : List Path} (absolute : base.isAbsolute = true)
    (finds : files tree base pattern = .ok hits) (member : found ∈ hits) :
    found.isAbsolute = true := by
  obtain ⟨clean, notClosed⟩ := clean_of_files finds member
  cases (files_of_clean clean notClosed).symm.trans finds
  exact isAbsolute_of_mem_searched absolute member

/-- A search takes its steps from the base, from its pattern and from the names in directories. -/
theorem forall_of_mem_searched {good : String → Prop}
    (names : ∀ path name, name ∈ namesIn tree path → good name)
    (goodBase : ∀ part ∈ base.parts, good part)
    (goodPattern : ∀ step ∈ Text.splitOn '/' pattern, good step)
    (member : found ∈ searched tree base pattern) : ∀ part ∈ found.parts, good part := by
  let keeps (path : Path) : Prop := ∀ part ∈ path.parts, good part
  have further {path : Path} {step : String} (kept : keeps path) (isGood : good step) :
      keeps (child path step) :=
    List.forall_mem_append.mpr ⟨kept, List.forall_mem_singleton.mpr isGood⟩
  have start : keeps (searchStart base pattern) := by
    have literal : ∀ step ∈ (splitMagic ((Text.splitOn '/' pattern).filter (· != ""))).1,
        good step := fun step isStep =>
      goodPattern step (List.mem_of_mem_filter (List.takeWhile_subset _ isStep))
    unfold keeps searchStart startOf
    split
    · exact List.forall_mem_append.mpr ⟨goodBase, literal⟩
    · exact literal
  have kept : keeps found := by
    refine keeps_of_mem_followAll ?_ ?_ (List.forall_mem_singleton.mpr start)
      (List.mem_of_mem_filter member)
    · exact fun path name kept isName => further kept (names path name isName)
    · exact fun path kept step isStep => further kept
        (goodPattern step (List.mem_of_mem_filter ((List.dropWhile_sublist _).subset isStep)))
  exact kept

/-- A search steps up only where its pattern does. -/
theorem level_of_mem_searched (sound : tree.IsSound) (levelBase : ".." ∉ base.parts)
    (level : ".." ∉ Text.splitOn '/' pattern) (member : found ∈ searched tree base pattern) :
    ".." ∉ found.parts := by
  have each : ∀ part ∈ found.parts, part ≠ ".." :=
    forall_of_mem_searched (fun _ _ isName => (isName_of_mem_namesIn sound isName).2.1)
      (fun _ isPart up => levelBase (up ▸ isPart)) (fun _ isStep up => level (up ▸ isStep)) member
  exact fun up => each ".." up rfl

/-- What keeps a search from being made at all. -/
theorem files_eq_error {fault : FileFault} : files tree base pattern = .error fault ↔
    fault = .nullCharacter ∧ Tree.holdsNull (searchStart base pattern) = true ∧
      isSearched base pattern = false := by
  simp only [files, searchStart]
  split
  · rename_i holds
    cases isSearched base pattern <;> simp [holds, eq_comm]
  · rename_i clean
    split <;> simp [clean]

end Glob

namespace Selection

variable {tree : Tree} {base path : Path} {pattern : String} {failure : Failure}
  {patterns more : List String} {old kept found selected : List Path}

section Adding

theorem addNew_cons (selected : List Path) (first : Path) (rest : List Path) :
    addNew selected (first :: rest) =
      addNew (if first ∈ selected then selected else selected ++ [first]) rest := by
  simp [addNew]

/-- What is added to old paths is what would be added without them, except the old paths. -/
theorem addNew_filter (old kept found : List Path) :
    addNew (old ++ kept.filter (· ∉ old)) found =
      old ++ (addNew kept found).filter (· ∉ old) := by
  induction found generalizing kept with
  | nil => rfl
  | cons first rest inductionHypothesis =>
      have among : first ∈ old ++ kept.filter (· ∉ old) ↔ first ∈ old ∨ first ∈ kept := by
        simp only [List.mem_append, List.mem_filter, decide_eq_true_eq]
        tauto
      rw [addNew_cons, addNew_cons, ← inductionHypothesis]
      simp only [among]
      by_cases isKept : first ∈ kept
      · simp [isKept]
      · by_cases isOld : first ∈ old
        · simp [isKept, isOld, List.filter_append]
        · simp [isKept, isOld, List.filter_append]

example : addNew [⟨.root, ["b"]⟩] [⟨.root, ["a"]⟩, ⟨.root, ["b"]⟩] =
    [⟨.root, ["b"]⟩, ⟨.root, ["a"]⟩] := by decide +kernel

theorem expandFrom_filter (old kept : List Path) (patterns : List String) :
    expandFrom tree base (old ++ kept.filter (· ∉ old)) patterns =
      (expandFrom tree base kept patterns).map fun later => old ++ later.filter (· ∉ old) := by
  induction patterns generalizing kept with
  | nil => rfl
  | cons pattern rest inductionHypothesis =>
      rw [expandFrom, expandFrom]
      cases expandPattern tree base pattern with
      | error failure => rfl
      | ok found =>
          simp only [addNew_filter]
          exact inductionHypothesis (addNew kept found)

theorem expandFrom_append (old : List Path) (patterns more : List String) :
    expandFrom tree base old (patterns ++ more) =
      (expandFrom tree base old patterns).bind fun first => expandFrom tree base first more := by
  induction patterns generalizing old with
  | nil => rfl
  | cons pattern rest inductionHypothesis =>
      rw [List.cons_append, expandFrom, expandFrom]
      cases expandPattern tree base pattern with
      | error failure => rfl
      | ok found => exact inductionHypothesis (addNew old found)

/-- More patterns neither move nor drop a file. They add what they select themselves, in its order,
except what was selected before. -/
theorem expand_append (patterns more : List String) :
    expand tree base (patterns ++ more) =
      (expand tree base patterns).bind fun first =>
        (expand tree base more).map fun second => first ++ second.filter (· ∉ first) := by
  have later (first : List Path) : expandFrom tree base first more =
      (expand tree base more).map fun second => first ++ second.filter (· ∉ first) := by
    have fromNone := @expandFrom_filter tree base first [] more
    rwa [List.filter_nil, List.append_nil] at fromNone
  rw [expand, expandFrom_append]
  simp only [later]
  rfl

end Adding

/-- A pattern selects the file that it names, whatever its characters. Otherwise it selects the
files that a search by its wildcards comes upon. -/
inductive Selects (tree : Tree) (base : Path) (pattern : String) : Path → Prop where
  | named (isFile : tree.isFile [] (literalPath base pattern) = .ok true) :
      Selects tree base pattern (literalPath base pattern)
  | found {hits : List Path} {hit : Path}
      (noFile : tree.isFile [] (literalPath base pattern) = .ok false)
      (magic : Wildcard.isMagic pattern = true) (finds : Glob.files tree base pattern = .ok hits)
      (member : hit ∈ hits) : Selects tree base pattern hit.normalize

/-- Why a pattern ends a selection. It has no wildcards and names no file, or the system refuses to
look it up. -/
inductive Ends (tree : Tree) (base : Path) (pattern : String) : Failure → Prop where
  | notFound (plain : Wildcard.isMagic pattern = false)
      (noFile : tree.isFile [] (literalPath base pattern) = .ok false) :
      Ends tree base pattern (.selection (.notFound pattern))
  | tooLong (refused : tree.locate [] true (literalPath base pattern) = .error .nameTooLong) :
      Ends tree base pattern (.file (.refused .nameTooLong (literalPath base pattern)))
  | nullCharacter (magic : Wildcard.isMagic pattern = true)
      (noFile : tree.isFile [] (literalPath base pattern) = .ok false)
      (holds : Tree.holdsNull (Glob.searchStart base pattern) = true)
      (direct : Glob.isSearched base pattern = false) :
      Ends tree base pattern (.file .nullCharacter)

/-- A pattern without wildcards that names no file. -/
def isMissing (tree : Tree) (base : Path) (pattern : String) : Bool :=
  !Wildcard.isMagic pattern && tree.isFile [] (literalPath base pattern) != .ok true

section Pattern

theorem mem_expandPattern (finds : expandPattern tree base pattern = .ok found) :
    path ∈ found ↔ Selects tree base pattern path := by
  cases asked : tree.isFile [] (literalPath base pattern) with
  | error fault => cases (expandPattern_refused asked).symm.trans finds
  | ok answer =>
      cases answer with
      | true =>
          cases (expandPattern_literal asked).symm.trans finds
          rw [List.mem_singleton]
          constructor
          · rintro rfl
            exact .named asked
          · intro selects
            cases selects with
            | named => rfl
            | found noFile => cases asked.symm.trans noFile
      | false =>
          rw [expandPattern_search asked] at finds
          split at finds
          · cases finds
          · rename_i magic
            cases searched : Glob.files tree base pattern with
            | error fault => simp [searched] at finds
            | ok hits =>
                simp only [searched, Except.ok.injEq] at finds
                rw [← finds, Path.mem_sort, List.mem_map]
                constructor
                · rintro ⟨hit, isHit, rfl⟩
                  exact .found asked (by simpa using magic) searched isHit
                · intro selects
                  cases selects with
                  | named isFile => cases asked.symm.trans isFile
                  | found noFile _ finds isHit =>
                      cases searched.symm.trans finds
                      exact ⟨_, isHit, rfl⟩

theorem expandPattern_eq_error (absolute : base.isAbsolute = true) :
    expandPattern tree base pattern = .error failure ↔ Ends tree base pattern failure := by
  have clean := Path.holdsNull_normalize (isAbsolute_joinText absolute pattern)
  cases asked : tree.isFile [] (literalPath base pattern) with
  | error fault =>
      obtain ⟨-, refused, rfl⟩ := Tree.isFile_eq_error.mp asked
      rw [expandPattern_refused asked]
      constructor
      · intro same
        cases same
        exact .tooLong refused
      · intro ends
        cases ends with
        | tooLong => rfl
        | notFound _ noFile | nullCharacter _ noFile => cases asked.symm.trans noFile
  | ok answer =>
      have notRefused (refused : tree.locate [] true (literalPath base pattern) =
          .error .nameTooLong) : False := by
        cases asked.symm.trans (Tree.isFile_eq_error.mpr ⟨clean, refused, rfl⟩)
      cases answer with
      | true =>
          rw [expandPattern_literal asked]
          refine ⟨fun same => (by cases same), fun ends => ?_⟩
          cases ends with
          | tooLong refused => exact (notRefused refused).elim
          | notFound _ noFile | nullCharacter _ noFile => cases asked.symm.trans noFile
      | false =>
          rw [expandPattern_search asked]
          cases magic : Wildcard.isMagic pattern with
          | false =>
              constructor
              · intro same
                cases same
                exact .notFound magic asked
              · intro ends
                cases ends with
                | notFound => rfl
                | tooLong refused => exact (notRefused refused).elim
                | nullCharacter isMagic => cases magic.symm.trans isMagic
          | true =>
              constructor
              · intro same
                cases searched : Glob.files tree base pattern with
                | ok hits => simp [searched] at same
                | error fault =>
                    simp only [searched, Bool.not_true, Bool.false_eq_true, if_false,
                      Except.error.injEq] at same
                    obtain ⟨rfl, holds, direct⟩ := Glob.files_eq_error.mp searched
                    rw [← same]
                    exact .nullCharacter magic asked holds direct
              · intro ends
                cases ends with
                | notFound plain => cases magic.symm.trans plain
                | tooLong refused => exact (notRefused refused).elim
                | nullCharacter _ _ holds direct =>
                    simp [Glob.files_eq_error.mpr ⟨rfl, holds, direct⟩]

section Files

variable (sound : tree.IsSound) (straight : base.IsStraight)
include sound straight

/-- A pattern that names a file does so without steps. What a null character leaves of its last part
is no step up, as that would lead to a directory. -/
theorem isStraight_literalPath
    (isFile : tree.isFile [] (literalPath base pattern) = .ok true) :
    (literalPath base pattern).IsStraight := by
  have absolute : (literalPath base pattern).isAbsolute = true :=
    isAbsolute_joinText straight.absolute pattern
  obtain ⟨notHere, notUp⟩ := Path.parts_normalize (isAbsolute_joinText straight.absolute pattern)
  obtain ⟨-, location, contents, located, there⟩ := Tree.isFile_eq_true.mp isFile
  refine ⟨absolute, fun part member => ⟨fun here => notHere (here ▸ member), fun up => ?_⟩⟩
  rw [up] at member
  have filled := List.ne_nil_of_mem member
  have last : (literalPath base pattern).parts.getLast? = some ".." := by
    rw [← List.dropLast_append_getLast filled, List.mem_append, List.mem_singleton] at member
    rw [List.getLast?_eq_some_getLast filled, ← member.resolve_left notUp]
  have isDirectory := (Tree.walks_of_locate absolute located).directory_of_up sound rfl last
  cases isDirectory.symm.trans there

/-- A pattern selects the normalized form of a path to a file, which steps up only where the
pattern does. -/
theorem Selects.exists_spelled (selects : Selects tree base pattern path) :
    ∃ spelled location contents, path = Path.normalize spelled ∧ spelled.isAbsolute = true ∧
      tree.locate [] true spelled = .ok location ∧
      tree.get? location = some (.file contents) ∧
      (".." ∉ Text.splitOn '/' pattern → ".." ∉ spelled.parts) := by
  have levelBase : ".." ∉ base.parts := fun up => (straight.plain _ up).2 rfl
  cases selects with
  | named isFile =>
      obtain ⟨clean, location, contents, located, there⟩ := Tree.isFile_eq_true.mp isFile
      have literal := isStraight_literalPath sound straight isFile
      have cleanPlace : ∀ part ∈ (literalPath base pattern).place [], '\x00' ∉ part.toList := by
        rw [literal.place_eq]
        exact fun part => Path.null_not_mem clean
      have normal : (literalPath base pattern).normalize = literalPath base pattern := by
        rw [Path.normalize_of_clean literal.absolute cleanPlace, literal.place_eq]
      exact ⟨_, location, contents, normal.symm, literal.absolute, located, there,
        fun _ up => (literal.plain _ up).2 rfl⟩
  | found noFile magic finds member =>
      obtain ⟨clean, notClosed⟩ := Glob.clean_of_files finds member
      cases (Glob.files_of_clean clean notClosed).symm.trans finds
      obtain ⟨location, contents, located, there⟩ :=
        Glob.isFileAt_iff.mp (List.mem_filter.mp member).2
      exact ⟨_, location, contents, rfl, Glob.isAbsolute_of_mem_searched straight.absolute member,
        located, there, fun level => Glob.level_of_mem_searched sound levelBase level member⟩

theorem Selects.isStraight (selects : Selects tree base pattern path) : path.IsStraight := by
  obtain ⟨spelled, location, contents, rfl, absolute, located, there, -⟩ :=
    selects.exists_spelled sound straight
  exact Tree.isStraight_normalize sound absolute located there

/-- What is selected is a file, unless a step up in the pattern meets a link. -/
theorem Selects.isFile (selects : Selects tree base pattern path)
    (calm : tree.IsLinkFree ∨ ".." ∉ Text.splitOn '/' pattern) :
    tree.isFile [] path = .ok true := by
  obtain ⟨spelled, location, contents, rfl, absolute, located, there, level⟩ :=
    selects.exists_spelled sound straight
  refine Tree.isFile_eq_true.mpr
    ⟨Path.holdsNull_normalize absolute, location, contents, ?_, there⟩
  rcases calm with free | levelPattern
  · exact Tree.locate_normalize_of_free sound absolute located there free
  · exact Tree.locate_normalize_of_level sound absolute located there (level levelPattern)

end Files

end Pattern

section Lists

/-- What one pattern selects comes in the order of the paths, each path once. -/
theorem expand_singleton (selects : expand tree base [pattern] = .ok selected) :
    selected.Pairwise Path.Before ∧ ∀ path, path ∈ selected ↔ Selects tree base pattern path := by
  rw [expand, expandFrom] at selects
  cases finds : expandPattern tree base pattern with
  | error failure => simp [finds] at selects
  | ok found =>
      simp only [finds, expandFrom, Except.ok.injEq] at selects
      obtain ⟨fresh, added, ordered, members⟩ := addNew_eq (isSorted_of_expandPattern finds) []
      rw [List.nil_append, selects] at added
      subst added
      refine ⟨ordered, fun path => ?_⟩
      rw [members, mem_expandPattern finds]
      simp

theorem expand_singleton_eq_error (absolute : base.isAbsolute = true) :
    expand tree base [pattern] = .error failure ↔ Ends tree base pattern failure := by
  rw [← expandPattern_eq_error absolute, expand, expandFrom]
  cases expandPattern tree base pattern <;> simp [expandFrom]

/-- One path comes before another in what a list of patterns selects. The first pattern that selects
either selects this one, and if it selects both it puts this one first. -/
inductive ComesBefore (tree : Tree) (base path later : Path) : List String → Prop where
  | here {pattern : String} {rest : List String} (selects : Selects tree base pattern path)
      (both : Selects tree base pattern later → path.Before later) :
      ComesBefore tree base path later (pattern :: rest)
  | further {pattern : String} {rest : List String} (notThis : ¬ Selects tree base pattern path)
      (notLater : ¬ Selects tree base pattern later)
      (onward : ComesBefore tree base path later rest) :
      ComesBefore tree base path later (pattern :: rest)

/-- A selection that succeeds holds what its patterns select, in their order. -/
theorem expand_eq_ok (selects : expand tree base patterns = .ok selected) :
    selected.Nodup ∧
      (∀ path, path ∈ selected ↔ ∃ pattern ∈ patterns, Selects tree base pattern path) ∧
      selected.Pairwise fun path later => ComesBefore tree base path later patterns := by
  induction patterns generalizing selected with
  | nil =>
      cases selects
      simp
  | cons pattern rest inductionHypothesis =>
      rw [← List.singleton_append, expand_append] at selects
      cases finds : expand tree base [pattern] with
      | error failure => simp [finds, Except.bind] at selects
      | ok first =>
          cases onward : expand tree base rest with
          | error failure => simp [finds, onward, Except.bind, Except.map] at selects
          | ok second =>
              simp only [finds, onward, Except.bind, Except.map, Except.ok.injEq] at selects
              obtain ⟨ordered, members⟩ := expand_singleton finds
              obtain ⟨distinct, membersRest, orderedRest⟩ := inductionHypothesis onward
              have isNew {path : Path} (member : path ∈ second.filter (· ∉ first)) :
                  path ∈ second ∧ ¬ Selects tree base pattern path := by
                rwa [List.mem_filter, decide_eq_true_eq, members] at member
              subst selects
              refine ⟨?_, fun path => ?_, ?_⟩
              · refine List.nodup_append.mpr ⟨ordered.nodup, distinct.filter _, ?_⟩
                intro path inFirst other member same
                exact (isNew member).2 ((members other).mp (same ▸ inFirst))
              · simp only [List.mem_append, List.mem_filter, decide_eq_true_eq, members,
                  membersRest, List.mem_cons, exists_eq_or_imp]
                by_cases here : Selects tree base pattern path
                · exact iff_of_true (Or.inl here) (Or.inl here)
                · simp only [here, false_or, not_false_eq_true, and_true]
              · refine List.pairwise_append.mpr ⟨?_, ?_, ?_⟩
                · exact ordered.imp_of_mem fun isFirst _ before =>
                    .here ((members _).mp isFirst) fun _ => before
                · exact (orderedRest.filter _).imp_of_mem fun member other before =>
                    .further (isNew member).2 (isNew other).2 before
                · exact fun path isFirst other member =>
                    .here ((members path).mp isFirst) fun both => absurd both (isNew member).2

/-- A selection fails by the first pattern that ends it. -/
theorem expand_eq_error (absolute : base.isAbsolute = true) :
    expand tree base patterns = .error failure ↔
      ∃ before pattern after, patterns = before ++ pattern :: after ∧
        (∀ earlier ∈ before, ∀ other, ¬ Ends tree base earlier other) ∧
        Ends tree base pattern failure := by
  induction patterns with
  | nil =>
      refine ⟨fun fails => (by cases fails), ?_⟩
      rintro ⟨before, pattern, after, whole, -⟩
      simp at whole
  | cons pattern rest inductionHypothesis =>
      have single {other : Failure} := @expand_singleton_eq_error tree base pattern other absolute
      rw [← List.singleton_append, expand_append]
      cases finds : expand tree base [pattern] with
      | error other =>
          have ends := single.mp finds
          constructor
          · intro same
            cases same
            exact ⟨[], pattern, rest, rfl, by simp, ends⟩
          · rintro ⟨before, next, after, whole, goes, endsNext⟩
            cases before with
            | nil =>
                cases (List.cons.inj whole).1
                exact finds.symm.trans (single.mpr endsNext)
            | cons first others =>
                cases (List.cons.inj whole).1
                exact absurd ends (goes pattern List.mem_cons_self other)
      | ok first =>
          have goes (other : Failure) : ¬ Ends tree base pattern other := fun ends => by
            cases finds.symm.trans (single.mpr ends)
          have onward : ((Except.ok first : Except Failure (List Path)).bind fun first =>
              (expand tree base rest).map fun second => first ++ second.filter (· ∉ first)) =
                .error failure ↔ expand tree base rest = .error failure := by
            cases expand tree base rest <;> simp [Except.bind, Except.map]
          rw [onward, inductionHypothesis]
          constructor
          · rintro ⟨before, next, after, rfl, goesBefore, ends⟩
            exact ⟨pattern :: before, next, after, rfl,
              List.forall_mem_cons.mpr ⟨goes, goesBefore⟩, ends⟩
          · rintro ⟨before, next, after, whole, goesBefore, ends⟩
            cases before with
            | nil =>
                cases (List.cons.inj whole).1
                exact absurd ends (goes failure)
            | cons earlier others =>
                exact ⟨others, next, after, (List.cons.inj whole).2,
                  (List.forall_mem_cons.mp goesBefore).2, ends⟩

/-- When the system refuses nothing, only patterns without wildcards can fail, and the first of
them that names no file does. -/
theorem expand_eq_error_of_missing (absolute : base.isAbsolute = true)
    (allowed : ∀ pattern ∈ patterns, ∀ fault, ¬ Ends tree base pattern (.file fault)) :
    expand tree base patterns = .error failure ↔
      ∃ pattern, patterns.find? (isMissing tree base) = some pattern ∧
        failure = .selection (.notFound pattern) := by
  have ends_iff {pattern : String} (isOne : pattern ∈ patterns) (other : Failure) :
      Ends tree base pattern other ↔
        isMissing tree base pattern = true ∧ other = .selection (.notFound pattern) := by
    rw [isMissing, Bool.and_eq_true, Bool.not_eq_true', bne_iff_ne]
    constructor
    · intro ends
      cases ends with
      | notFound plain noFile => exact ⟨⟨plain, by rw [noFile]; decide⟩, rfl⟩
      | tooLong refused => exact absurd (.tooLong refused) (allowed pattern isOne _)
      | nullCharacter magic noFile holds direct =>
          exact absurd (.nullCharacter magic noFile holds direct) (allowed pattern isOne _)
    · rintro ⟨⟨plain, notThere⟩, rfl⟩
      cases asked : tree.isFile [] (literalPath base pattern) with
      | error fault =>
          have refused := (Tree.isFile_eq_error.mp asked).2.1
          exact absurd (.tooLong refused) (allowed pattern isOne _)
      | ok answer =>
          cases answer with
          | true => exact absurd asked notThere
          | false => exact .notFound plain asked
  rw [expand_eq_error absolute]
  constructor
  · rintro ⟨before, pattern, after, rfl, goes, ends⟩
    obtain ⟨missing, rfl⟩ := (ends_iff (by simp) _).mp ends
    refine ⟨pattern, List.find?_eq_some_iff_append.mpr ⟨missing, before, after, rfl, ?_⟩, rfl⟩
    intro earlier isEarlier
    rw [Bool.not_eq_true']
    exact Bool.eq_false_iff.mpr fun alsoMissing => goes earlier isEarlier _
      ((ends_iff (List.mem_append_left _ isEarlier) _).mpr ⟨alsoMissing, rfl⟩)
  · rintro ⟨pattern, isFirst, rfl⟩
    obtain ⟨missing, before, after, rfl, goes⟩ := List.find?_eq_some_iff_append.mp isFirst
    refine ⟨before, pattern, after, rfl, ?_, (ends_iff (by simp) _).mpr ⟨missing, rfl⟩⟩
    intro earlier isEarlier other ends
    have alsoMissing := ((ends_iff (List.mem_append_left _ isEarlier) _).mp ends).1
    simpa [alsoMissing] using goes earlier isEarlier

end Lists

/-- A selection fails by the first pattern that ends it, and when the system refuses nothing that
is the first one without wildcards that names no file. Otherwise each selected path is normalized
and stands once where its first pattern puts it, and it is a file unless a step up in the pattern
meets a link. More patterns only add what was not selected before. -/
theorem expand_patterns (sound : tree.IsSound) (straight : base.IsStraight)
    (patterns : List String) :
    (∀ failure, expand tree base patterns = .error failure ↔
      ∃ before pattern after, patterns = before ++ pattern :: after ∧
        (∀ earlier ∈ before, ∀ other, ¬ Ends tree base earlier other) ∧
        Ends tree base pattern failure) ∧
    ((∀ pattern ∈ patterns, ∀ fault, ¬ Ends tree base pattern (.file fault)) →
      ∀ failure, expand tree base patterns = .error failure ↔
        ∃ pattern, patterns.find? (isMissing tree base) = some pattern ∧
          failure = .selection (.notFound pattern)) ∧
    (∀ selected, expand tree base patterns = .ok selected →
      selected.Nodup ∧
      (∀ path, path ∈ selected ↔ ∃ pattern ∈ patterns, Selects tree base pattern path) ∧
      selected.Pairwise fun path later => ComesBefore tree base path later patterns) ∧
    (∀ pattern path, Selects tree base pattern path → path.IsStraight ∧
      (tree.IsLinkFree ∨ ".." ∉ Text.splitOn '/' pattern → tree.isFile [] path = .ok true)) ∧
    ∀ more, expand tree base (patterns ++ more) =
      (expand tree base patterns).bind fun first =>
        (expand tree base more).map fun second => first ++ second.filter (· ∉ first) := by
  refine ⟨fun failure => expand_eq_error straight.absolute, fun allowed failure => ?_,
    fun selected selects => expand_eq_ok selects, fun pattern path selects => ?_,
    fun more => expand_append patterns more⟩
  · exact expand_eq_error_of_missing straight.absolute allowed
  · exact ⟨selects.isStraight sound straight, selects.isFile sound straight⟩

/-- Two files in a directory. -/
def samplePair : Tree :=
  ⟨[(["p"], .directory), (["p", "a.js"], .file []), (["p", "b.js"], .file [])]⟩

theorem expand_patterns_sample :
    samplePair.IsSound ∧ Path.IsStraight ⟨.root, ["p"]⟩ ∧
      expand samplePair ⟨.root, ["p"]⟩ ["b.js", "c.js"] =
        .error (.selection (.notFound "c.js")) ∧
      ∀ selected, expand samplePair ⟨.root, ["p"]⟩ ["b.js", "*.js"] = .ok selected →
        selected.Nodup ∧ ⟨.root, ["p", "a.js"]⟩ ∈ selected ∧
          ∀ path ∈ selected, samplePair.isFile [] path = .ok true := by
  have sound : samplePair.IsSound := Tree.sound_of_nodes (by decide +kernel)
  have free : samplePair.IsLinkFree := Tree.isLinkFree_of_nodes (by decide +kernel)
  have straight : Path.IsStraight ⟨.root, ["p"]⟩ := ⟨rfl, by unfold Path.IsPlain; decide +kernel⟩
  have named : samplePair.isFile [] (literalPath ⟨.root, ["p"]⟩ "b.js") = .ok true := by
    decide +kernel
  have ends : Ends samplePair ⟨.root, ["p"]⟩ "c.js" (.selection (.notFound "c.js")) :=
    .notFound (by decide +kernel) (by decide +kernel)
  have first : ∀ earlier ∈ ["b.js"], ∀ other, ¬ Ends samplePair ⟨.root, ["p"]⟩ earlier other := by
    refine List.forall_mem_singleton.mpr fun other ends => ?_
    cases (expandPattern_literal named).symm.trans ((expandPattern_eq_error rfl).mpr ends)
  have finds : Glob.files samplePair ⟨.root, ["p"]⟩ "*.js" =
      .ok [⟨.root, ["p", "a.js"]⟩, ⟨.root, ["p", "b.js"]⟩] := by decide +kernel
  have reached : Selects samplePair ⟨.root, ["p"]⟩ "*.js"
      (⟨.root, ["p", "a.js"]⟩ : Path).normalize :=
    .found (by decide +kernel) (by decide +kernel) finds List.mem_cons_self
  have spelled : (⟨.root, ["p", "a.js"]⟩ : Path).normalize = ⟨.root, ["p", "a.js"]⟩ := by
    decide +kernel
  rw [spelled] at reached
  obtain ⟨fails, -, -, -, -⟩ := expand_patterns sound straight ["b.js", "c.js"]
  obtain ⟨-, -, succeeds, files, -⟩ := expand_patterns sound straight ["b.js", "*.js"]
  refine ⟨sound, straight, (fails _).mpr ⟨["b.js"], "c.js", [], rfl, first, ends⟩, ?_⟩
  intro selected selects
  obtain ⟨distinct, members, -⟩ := succeeds selected selects
  refine ⟨distinct, (members _).mpr ⟨"*.js", by simp, reached⟩, fun path member => ?_⟩
  obtain ⟨pattern, -, isOne⟩ := (members path).mp member
  exact (files pattern path isOne).2 (Or.inl free)

/-- A link that leads away, next to no file of the name that stands beside its target. -/
def sampleLeading : Tree :=
  ⟨[(["p"], .directory), (["p", "l"], .link "/q/d"), (["q"], .directory),
    (["q", "d"], .directory), (["q", "y.js"], .file [])]⟩

/-- A step up behind a link selects a path at which there is no file, and a name that is too long is
not reported as a missing source. -/
theorem expand_patterns_astray :
    (expand sampleLeading ⟨.root, ["p"]⟩ ["l/../*.js"] = .ok [⟨.root, ["p", "y.js"]⟩] ∧
      sampleLeading.isFile [] ⟨.root, ["p", "y.js"]⟩ = .ok false) ∧
    Wildcard.isMagic longKey = false ∧
      expand {} ⟨.root, []⟩ [longKey] =
        .error (.file (.refused .nameTooLong ⟨.root, [Tree.longName]⟩)) := by
  have selects := @expand_of_hit sampleLeading ⟨.root, ["p"]⟩ "l/../*.js"
    ⟨.root, ["p", "l", "..", "y.js"]⟩ (by decide +kernel) (by decide +kernel) (by decide +kernel)
  have same : (⟨.root, ["p", "l", "..", "y.js"]⟩ : Path).normalize = ⟨.root, ["p", "y.js"]⟩ := by
    decide +kernel
  rw [same] at selects
  have sound : Tree.IsSound {} := Tree.sound_of_nodes (by decide)
  have free : Tree.IsLinkFree {} := Tree.isLinkFree_of_nodes (by decide)
  have long : Tree.nameLimit < Utf8.size Tree.longName := by decide +kernel
  have straight : Path.IsStraight ⟨.root, [Tree.longName]⟩ :=
    ⟨rfl, by unfold Path.IsPlain; decide +kernel⟩
  have refused : Tree.locate {} [] true ⟨.root, [Tree.longName]⟩ = .error .nameTooLong :=
    (Tree.locate_straight_tooLong sound free straight).mpr
      (Or.inr ⟨[], Tree.longName, List.prefix_refl _, rfl, long⟩)
  rw [← literalPath_longKey] at refused
  refine ⟨⟨selects, by decide +kernel⟩, plain_longKey, ?_⟩
  rw [expand_singleton_eq_error rfl, ← literalPath_longKey]
  exact .tooLong refused

end Selection

end AssetBundler

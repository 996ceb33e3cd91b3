import AssetBundler.Proofs.Selection.Directory

/-!
Where the files of a directory lie. A key without wildcards only selects files below the directory
that it names. Any other key is followed segment by segment, with names that its segments match.
-/

namespace AssetBundler

namespace Glob

/-- The steps that a search makes of its segments. Two stars make any names of entries, another
segment with wildcards makes a name that it matches, and any other segment stays as it is. -/
inductive Leads : List String → List String → Prop where
  | done : Leads [] []
  | deep {segment : String} {segments names steps : List String}
      (recursive : isRecursive segment = true)
      (entries : ∀ name ∈ names, name ≠ "." ∧ name ≠ "..") (rest : Leads segments steps) :
      Leads (segment :: segments) (names ++ steps)
  | matched {segment name : String} {segments steps : List String}
      (magic : Wildcard.isMagic segment = true) (fits : Wildcard.matchesName segment name = true)
      (entry : name ≠ "." ∧ name ≠ "..") (rest : Leads segments steps) :
      Leads (segment :: segments) (name :: steps)
  | literal {segment : String} {segments steps : List String}
      (plain : Wildcard.isMagic segment = false) (rest : Leads segments steps) :
      Leads (segment :: segments) (segment :: steps)

/-- A search steps up only where its segments do. -/
theorem Leads.level {segments steps : List String} (leads : Leads segments steps)
    (level : ".." ∉ segments) : ".." ∉ steps := by
  induction leads with
  | done => exact level
  | deep recursive entries rest inductionHypothesis =>
      have later := inductionHypothesis fun up => level (List.mem_cons_of_mem _ up)
      exact fun up => (List.mem_append.mp up).elim (fun early => (entries _ early).2 rfl) later
  | matched magic fits entry rest inductionHypothesis =>
      have later := inductionHypothesis fun up => level (List.mem_cons_of_mem _ up)
      exact fun up => (List.mem_cons.mp up).elim (fun first => entry.2 first.symm) later
  | literal plain rest inductionHypothesis =>
      have later := inductionHypothesis fun up => level (List.mem_cons_of_mem _ up)
      exact fun up => (List.mem_cons.mp up).elim
        (fun first => level (List.mem_cons.mpr (Or.inl first))) later

/-- Segments without wildcards stay as they are. -/
theorem Leads.append_plain {plain segments steps : List String} (leads : Leads segments steps)
    (literal : ∀ segment ∈ plain, Wildcard.isMagic segment = false) :
    Leads (plain ++ segments) (plain ++ steps) := by
  induction plain with
  | nil => exact leads
  | cons segment rest inductionHypothesis =>
      obtain ⟨first, later⟩ := List.forall_mem_cons.mp literal
      exact .literal first (inductionHypothesis later)

theorem Leads.exists_of_plain {plain segments steps : List String}
    (leads : Leads (plain ++ segments) steps)
    (literal : ∀ segment ∈ plain, Wildcard.isMagic segment = false) :
    ∃ more, steps = plain ++ more ∧ Leads segments more := by
  induction plain generalizing steps with
  | nil => exact ⟨steps, rfl, leads⟩
  | cons segment rest inductionHypothesis =>
      obtain ⟨first, later⟩ := List.forall_mem_cons.mp literal
      rw [List.cons_append] at leads
      cases leads with
      | deep recursive entries leadsRest =>
          rw [beq_iff_eq.mp recursive] at first
          exact absurd first (by decide +kernel)
      | matched magic fits entry leadsRest => cases first.symm.trans magic
      | literal plainSegment leadsRest =>
          obtain ⟨more, rfl, leadsMore⟩ := inductionHypothesis leadsRest later
          exact ⟨more, rfl, leadsMore⟩

theorem startOf_append (base : Path) (pattern : String) (steps more : List String) :
    startOf base pattern (steps ++ more) = (startOf base pattern steps).below more := by
  unfold startOf
  cases Path.anchorOf pattern.toList with
  | here => exact congrArg (Path.mk base.anchor) (List.append_assoc _ _ _).symm
  | root => rfl
  | doubleRoot => rfl

section Searching

variable {tree : Tree} {path found : Path} {name : String} (sound : tree.IsSound)
  (free : tree.IsLinkFree)
include sound free

theorem entry_of_mem_namesIn (isName : name ∈ namesIn tree path) : name ≠ "." ∧ name ≠ ".." := by
  obtain ⟨-, node, there⟩ := (mem_namesIn free).mp isName
  have named := sound.named _ node there name (List.mem_append_right _ List.mem_cons_self)
  exact ⟨named.1, named.2.1⟩

theorem below_of_mem_descend {onlyDirectories : Bool} {depth : Nat}
    (member : found ∈ descend tree onlyDirectories depth path) :
    ∃ names, (∀ name ∈ names, name ≠ "." ∧ name ≠ "..") ∧ found = path.below names := by
  induction depth generalizing path with
  | zero => cases member
  | succ depth inductionHypothesis =>
      obtain ⟨name, listed, below⟩ := List.mem_flatMap.mp member
      have entry := entry_of_mem_namesIn sound free
        (List.mem_of_mem_filter (List.mem_of_mem_filter listed))
      rcases List.mem_cons.mp below with rfl | deeper
      · exact ⟨[name], List.forall_mem_singleton.mpr entry, rfl⟩
      · obtain ⟨names, entries, rfl⟩ := inductionHypothesis deeper
        refine ⟨name :: names, List.forall_mem_cons.mpr ⟨entry, entries⟩, ?_⟩
        rw [child_eq_below, ← Path.below_append, List.singleton_append]

/-- What a segment leads to lies below by the steps that are made of it. -/
theorem below_of_mem_follow {isLast : Bool} {segment : String} {segments steps : List String}
    (rest : Leads segments steps) (member : found ∈ follow tree isLast segment path) :
    ∃ all, Leads (segment :: segments) all ∧ found.below steps = path.below all := by
  rw [follow] at member
  split at member
  · rename_i recursive
    split at member
    · rcases List.mem_cons.mp member with rfl | deeper
      · exact ⟨[] ++ steps, .deep recursive (fun _ none => absurd none List.not_mem_nil) rest, rfl⟩
      · obtain ⟨names, entries, rfl⟩ := below_of_mem_descend sound free deeper
        exact ⟨names ++ steps, .deep recursive entries rest, (Path.below_append _ _ _).symm⟩
    · cases member
  · split at member
    · rename_i magic
      obtain ⟨name, isMatch, rfl⟩ := List.mem_map.mp member
      obtain ⟨listed, fits⟩ := List.mem_filter.mp isMatch
      have entry := entry_of_mem_namesIn sound free (List.mem_of_mem_filter listed)
      refine ⟨name :: steps, .matched magic (Bool.and_eq_true_iff.mp fits).2 entry rest, ?_⟩
      rw [child_eq_below, ← Path.below_append, List.singleton_append]
    · rename_i plain
      rw [List.mem_singleton.mp member]
      refine ⟨segment :: steps, .literal (Bool.eq_false_iff.mpr plain) rest, ?_⟩
      rw [child_eq_below, ← Path.below_append, List.singleton_append]

/-- Whatever a search comes upon lies below a start by the steps that are made of its segments. -/
theorem below_of_mem_followAll {paths : List Path} {segments : List String}
    (member : found ∈ followAll tree paths segments) :
    ∃ start ∈ paths, ∃ steps, Leads segments steps ∧ found = start.below steps := by
  induction segments generalizing paths with
  | nil => exact ⟨found, member, [], .done, by rw [Path.below, List.append_nil]⟩
  | cons segment rest inductionHypothesis =>
      obtain ⟨next, reached, steps, leads, rfl⟩ := inductionHypothesis member
      obtain ⟨start, isStart, follows⟩ := List.mem_flatMap.mp reached
      obtain ⟨all, leadsAll, same⟩ := below_of_mem_follow sound free leads follows
      exact ⟨start, isStart, all, leadsAll, same⟩

end Searching

end Glob

namespace Path

variable {path : Path} {steps : List String}

/-- What is cut off behind some parts leaves what they leave. -/
theorem exists_cutAtNull_append (before after : List String) :
    ∃ rest, cutAtNull (before ++ after) = cutAtNull before ++ rest := by
  induction before with
  | nil => exact ⟨cutAtNull after, rfl⟩
  | cons part later inductionHypothesis =>
      obtain ⟨rest, same⟩ := inductionHypothesis
      rw [List.cons_append, cutAtNull, cutAtNull]
      split
      · exact ⟨[], (List.append_nil _).symm⟩
      · exact ⟨rest, by rw [same, List.cons_append]⟩

/-- Steps that take none up stay below a path when both are normalized. -/
theorem exists_normalize_below (absolute : path.isAbsolute = true) (level : ".." ∉ steps) :
    ∃ rest, (path.below steps).normalize = path.normalize.below rest := by
  have absoluteBelow : (path.below steps).isAbsolute = true := absolute
  have place : (path.below steps).place [] = path.place [] ++ names steps := by
    rw [place_root, place_root, below, Tree.placeFrom, List.foldl_append]
    exact placeFrom_level level _
  obtain ⟨rest, cut⟩ := exists_cutAtNull_append (path.place []) (names steps)
  refine ⟨rest, ?_⟩
  rw [normalize_eq absoluteBelow, normalize_eq absolute, place, cut]
  rfl

end Path

namespace Selection

open SelectorTable (directoryPattern)

variable {tree : Tree} {base path : Path} {key ending pattern : String} {found paths : List Path}
  {table : SelectorTable}

/-- The steps that a selection makes of a pattern. It takes the pattern literally or searches. -/
def Makes (pattern : String) (steps : List String) : Prop :=
  steps = keySteps pattern ∨ Glob.Leads (keySteps pattern) steps

/-- A key without wildcards stays as it is, and the steps behind it lead down. -/
theorem exists_more_of_makes {steps : List String} (closed : key.toList.getLast? = some '/')
    (plainKey : Wildcard.isMagic key = false) (plain : '/' ∉ ending.toList)
    (makes : Makes (directoryPattern key ending) steps) :
    ∃ more, steps = keySteps key ++ more ∧ ".." ∉ more := by
  have segments : keySteps (directoryPattern key ending) = keySteps key ++ ["**", "*" ++ ending] :=
    segments_directoryPattern closed plain
  have level : ".." ∉ ["**", "*" ++ ending] := by
    intro up
    rcases List.mem_cons.mp up with stars | last
    · exact absurd stars (by decide)
    · have first := congrArg String.toList (List.mem_singleton.mp last)
      rw [String.toList_append] at first
      exact absurd (List.cons.inj first).1 (by decide)
  rw [Makes, segments] at makes
  rcases makes with rfl | leads
  · exact ⟨_, rfl, level⟩
  · obtain ⟨more, rfl, leadsMore⟩ := leads.exists_of_plain (plain_keySteps plainKey)
    exact ⟨more, rfl, leadsMore.level level⟩

section Contained

variable (sound : tree.IsSound) (free : tree.IsLinkFree) (absolute : base.isAbsolute = true)
include sound free absolute

/-- What a pattern finds lies where the steps lead that are made of its segments. -/
theorem exists_steps_of_expandPattern (finds : expandPattern tree base pattern = .ok found)
    (member : path ∈ found) :
    ∃ steps, Makes pattern steps ∧ path = (Glob.startOf base pattern steps).normalize := by
  rcases expandPattern_eq_ok finds with ⟨-, rfl⟩ | ⟨-, hits, searched, rfl⟩
  · rw [List.mem_singleton.mp member]
    exact ⟨_, Or.inl rfl, literalPath_eq absolute pattern⟩
  · obtain ⟨hit, isHit, rfl⟩ := List.mem_map.mp (Path.mem_sort.mp member)
    obtain ⟨clean, notClosed⟩ := Glob.clean_of_files searched isHit
    cases (Glob.files_of_clean clean notClosed).symm.trans searched
    obtain ⟨start, isStart, steps, leads, rfl⟩ :=
      Glob.below_of_mem_followAll sound free (List.mem_of_mem_filter isHit)
    rw [List.mem_singleton.mp isStart, Glob.searchStart, ← Glob.startOf_append]
    refine ⟨_, Or.inr ?_, rfl⟩
    have whole : keySteps pattern = (Glob.splitMagic (keySteps pattern)).1 ++
        Glob.searchSegments pattern := List.takeWhile_append_dropWhile.symm
    rw [whole]
    refine leads.append_plain fun segment isPlain => ?_
    simpa using List.mem_takeWhile_imp isPlain

/-- A directory selects files where the segments of its pattern lead. Without wildcards in its key
these files lie below the directory that the key names. -/
theorem expand_directory_contained (added : SelectorTable.addDirectory {} key ending = .ok table)
    (selects : expand tree base table.patterns = .ok paths) (member : path ∈ paths) :
    (∃ steps, Makes (directoryPattern key ending) steps ∧
        path = (Glob.startOf base (directoryPattern key ending) steps).normalize) ∧
      (key.toList.getLast? = some '/' → Wildcard.isMagic key = false → '/' ∉ ending.toList →
        ∃ names, path = (literalPath base key).below names) := by
  rw [SelectorTable.addDirectory] at added
  split at added
  · cases added
    obtain ⟨-, members⟩ := expandFrom_eq_ok selects
    obtain ⟨pattern, isPattern, found, finds, inFound⟩ :=
      ((members path).mp member).resolve_left List.not_mem_nil
    rw [List.mem_singleton.mp isPattern] at finds
    obtain ⟨steps, makes, rfl⟩ := exists_steps_of_expandPattern sound free absolute finds inFound
    refine ⟨⟨steps, makes, rfl⟩, fun closed plainKey plain => ?_⟩
    obtain ⟨more, rfl, levelMore⟩ := exists_more_of_makes closed plainKey plain makes
    obtain ⟨rest, same⟩ := Path.exists_normalize_below (isAbsolute_spelled absolute key) levelMore
    refine ⟨rest, ?_⟩
    rw [literalPath_eq absolute, ← same, Glob.startOf_append, spelled, Glob.startOf, Glob.startOf,
      anchorOf_directoryPattern closed]
  · cases added

end Contained

/-- A file in a directory next to the one with brackets in its name, which does not exist. -/
def sampleSiblings : Tree :=
  ⟨[(["p"], .directory), (["p", "a"], .directory), (["p", "a", "y.js"], .file [])]⟩

/-- What a lone search hit is selected as. -/
theorem expand_of_hit {hit : Path} (noFile : tree.isFile [] (literalPath base pattern) = .ok false)
    (magic : Wildcard.isMagic pattern = true) (finds : Glob.files tree base pattern = .ok [hit]) :
    expand tree base [pattern] = .ok [hit.normalize] := by
  rw [expand, expandFrom, expandPattern_search noFile, magic, finds]
  simp [expandFrom, addNew, Path.sort]

theorem expand_directory_contained_sample :
    SelectorTable.addDirectory {} "a/" ".js" = .ok ⟨[("a/", .directory)], ["a/**/*.js"]⟩ ∧
      expand sampleSiblings ⟨.root, ["p"]⟩ ["a/**/*.js"] = .ok [⟨.root, ["p", "a", "y.js"]⟩] ∧
      ∃ names, (⟨.root, ["p", "a", "y.js"]⟩ : Path) =
        (literalPath ⟨.root, ["p"]⟩ "a/").below names := by
  have sound : sampleSiblings.IsSound := Tree.sound_of_nodes (by decide +kernel)
  have free : sampleSiblings.IsLinkFree := Tree.isLinkFree_of_nodes (by decide +kernel)
  have added : SelectorTable.addDirectory {} "a/" ".js" =
      .ok ⟨[("a/", .directory)], ["a/**/*.js"]⟩ := by decide +kernel
  have selects := @expand_of_hit sampleSiblings ⟨.root, ["p"]⟩ "a/**/*.js"
    ⟨.root, ["p", "a", "y.js"]⟩ (by decide +kernel) (by decide +kernel) (by decide +kernel)
  have same : (⟨.root, ["p", "a", "y.js"]⟩ : Path).normalize = ⟨.root, ["p", "a", "y.js"]⟩ := by
    decide +kernel
  rw [same] at selects
  exact ⟨added, selects, (expand_directory_contained sound free rfl added selects
    List.mem_cons_self).2 (by decide +kernel) (by decide +kernel) (by decide +kernel)⟩

/-- A key with brackets selects a file from a directory that it does not name. -/
theorem expand_directory_escapes :
    SelectorTable.addDirectory {} "[ab]/" ".js" =
        .ok ⟨[("[ab]/", .directory)], ["[ab]/**/*.js"]⟩ ∧
      expand sampleSiblings ⟨.root, ["p"]⟩ ["[ab]/**/*.js"] =
        .ok [⟨.root, ["p", "a", "y.js"]⟩] ∧
      ¬ ∃ names, (⟨.root, ["p", "a", "y.js"]⟩ : Path) =
        (literalPath ⟨.root, ["p"]⟩ "[ab]/").below names := by
  have selects := @expand_of_hit sampleSiblings ⟨.root, ["p"]⟩ "[ab]/**/*.js"
    ⟨.root, ["p", "a", "y.js"]⟩ (by decide +kernel) (by decide +kernel) (by decide +kernel)
  have same : (⟨.root, ["p", "a", "y.js"]⟩ : Path).normalize = ⟨.root, ["p", "a", "y.js"]⟩ := by
    decide +kernel
  have named : literalPath ⟨.root, ["p"]⟩ "[ab]/" = ⟨.root, ["p", "[ab]"]⟩ := by decide +kernel
  rw [same] at selects
  refine ⟨by decide +kernel, selects, ?_⟩
  rintro ⟨names, below⟩
  rw [named] at below
  have second := congrArg (fun path => path.parts[1]?) below
  simp [Path.below] at second

end Selection

end AssetBundler

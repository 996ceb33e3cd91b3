import AssetBundler.Proofs.FileSystem.Moved
import AssetBundler.Proofs.Selection.Grown

/-!
Selection below a base that has moved. Patterns that take no step up select the same files below
both bases, in the same order.
-/

namespace AssetBundler

namespace Glob

/-- A relation between the paths of two searches, with the segments that are still to be followed.
Whatever a search does next keeps it. -/
structure IsKept (tree other : Tree) (related : List String → Path → Path → Prop) : Prop where
  isDirectory : ∀ {segments path moved}, related segments path moved →
    isDirectoryAt tree path = true → isDirectoryAt other moved = true
  isName : ∀ {segments path moved name}, related segments path moved → name ∈ namesIn tree path →
    name ∈ namesIn other moved ∧ related segments (child path name) (child moved name)
  leave : ∀ {segment segments path moved}, related (segment :: segments) path moved →
    related segments path moved
  literal : ∀ {segment segments path moved}, related (segment :: segments) path moved →
    related segments (child path segment) (child moved segment)

namespace IsKept

variable {tree other : Tree} {related : List String → Path → Path → Prop}
  {onlyDirectories : Bool} {segment : String} {segments : List String} {path moved found : Path}
  (kept : IsKept tree other related)
include kept

theorem entries {name : String} (pair : related segments path moved)
    (member : name ∈ Glob.entries tree onlyDirectories path) :
    name ∈ Glob.entries other onlyDirectories moved ∧
      related segments (child path name) (child moved name) := by
  obtain ⟨isName, admitted⟩ := List.mem_filter.mp member
  obtain ⟨otherName, next⟩ := kept.isName pair isName
  refine ⟨List.mem_filter.mpr ⟨otherName, ?_⟩, next⟩
  cases onlyDirectories with
  | false => rfl
  | true => exact kept.isDirectory next admitted

theorem descend {depth : Nat} (pair : related segments path moved)
    (member : found ∈ Glob.descend tree onlyDirectories depth path) :
    ∃ twin ∈ Glob.descend other onlyDirectories depth moved, related segments found twin := by
  induction depth generalizing path moved with
  | zero => cases member
  | succ depth inductionHypothesis =>
      obtain ⟨name, listed, below⟩ := List.mem_flatMap.mp member
      obtain ⟨entry, shown⟩ := List.mem_filter.mp listed
      obtain ⟨otherEntry, next⟩ := kept.entries pair entry
      have otherListed : name ∈ (Glob.entries other onlyDirectories moved).filter
          fun name => !isHidden name := List.mem_filter.mpr ⟨otherEntry, shown⟩
      rcases List.mem_cons.mp below with rfl | deeper
      · exact ⟨child moved name, List.mem_flatMap.mpr ⟨name, otherListed, List.mem_cons_self⟩, next⟩
      · obtain ⟨twin, there, ends⟩ := inductionHypothesis next deeper
        exact ⟨twin, List.mem_flatMap.mpr ⟨name, otherListed, List.mem_cons_of_mem _ there⟩, ends⟩

theorem follow {isLast : Bool} (pair : related (segment :: segments) path moved)
    (member : found ∈ Glob.follow tree isLast segment path) :
    ∃ twin ∈ Glob.follow other isLast segment moved, related segments found twin := by
  rw [Glob.follow] at member ⊢
  split
  · rename_i recursive
    rw [if_pos recursive] at member
    split at member
    · rename_i isDirectory
      rw [if_pos (kept.isDirectory pair isDirectory)]
      rcases List.mem_cons.mp member with rfl | deeper
      · exact ⟨moved, List.mem_cons_self, kept.leave pair⟩
      · obtain ⟨twin, there, ends⟩ := kept.descend pair deeper
        exact ⟨twin, List.mem_cons_of_mem _ there, kept.leave ends⟩
    · cases member
  · rename_i single
    rw [if_neg single] at member
    split
    · rename_i magic
      rw [if_pos magic] at member
      obtain ⟨name, matched, rfl⟩ := List.mem_map.mp member
      obtain ⟨entry, fits⟩ := List.mem_filter.mp matched
      obtain ⟨otherEntry, next⟩ := kept.entries pair entry
      exact ⟨child moved name, List.mem_map_of_mem (List.mem_filter.mpr ⟨otherEntry, fits⟩),
        kept.leave next⟩
    · rename_i plain
      rw [if_neg plain] at member
      rw [List.mem_singleton.mp member]
      exact ⟨child moved segment, List.mem_cons_self, kept.literal pair⟩

/-- Searches from starts that are related come upon files that are related. -/
theorem followAll {paths others : List Path}
    (starts : ∀ path ∈ paths, ∃ moved ∈ others, related segments path moved)
    (member : found ∈ Glob.followAll tree paths segments) :
    ∃ twin ∈ Glob.followAll other others segments, related [] found twin := by
  induction segments generalizing paths others with
  | nil => exact starts found member
  | cons segment rest inductionHypothesis =>
      rw [Glob.followAll] at member ⊢
      refine inductionHypothesis ?_ member
      intro next reached
      obtain ⟨path, isStart, leads⟩ := List.mem_flatMap.mp reached
      obtain ⟨moved, isOther, pair⟩ := starts path isStart
      obtain ⟨twin, there, ends⟩ := kept.follow pair leads
      exact ⟨twin, List.mem_flatMap.mpr ⟨moved, isOther, there⟩, ends⟩

end IsKept

theorem child_below (base : Path) (steps : List String) (name : String) :
    child (base.below steps) name = base.below (steps ++ [name]) := by
  rw [child, Path.below, Path.below, List.append_assoc]

/-- A search for a relative pattern starts below the base, by the segments before the first one with
wildcards. -/
theorem searchStart_below {pattern : String} (relative : Path.anchorOf pattern.toList = .here)
    (base : Path) : searchStart base pattern =
      base.below (splitMagic ((Text.splitOn '/' pattern).filter (· != ""))).1 := by
  rw [searchStart, startOf, relative, Path.below]

/-- Whether the start of a search holds a null character is told by the pattern alone. -/
theorem holdsNull_searchStart_moved {pattern : String} {base otherBase : Path}
    (relative : Path.anchorOf pattern.toList = .here)
    (clean : ∀ part ∈ base.parts, '\x00' ∉ part.toList)
    (otherClean : ∀ part ∈ otherBase.parts, '\x00' ∉ part.toList) :
    Tree.holdsNull (searchStart base pattern) =
      Tree.holdsNull (searchStart otherBase pattern) := by
  rw [Bool.eq_iff_iff, ← not_iff_not, Bool.not_eq_true, Bool.not_eq_true,
    searchStart_below relative, searchStart_below relative, Path.holdsNull_below clean,
    Path.holdsNull_below otherClean]

/-- Two paths by the same steps below two bases. The octets to spare are enough for the points among
the steps and among the segments that are left. -/
def AreTwins (base otherBase : Path) (spare : Nat) (segments : List String) (path moved : Path) :
    Prop :=
  ∃ steps, path = base.below steps ∧ moved = otherBase.below steps ∧ ".." ∉ steps ∧
    ".." ∉ segments ∧ 2 * (steps.count "." + segments.count ".") ≤ spare

section Sites

variable {tree other : Tree} {base otherBase : Path} {spare : Nat}
  (site : tree.IsSite base spare) (otherSite : other.IsSite otherBase spare)
  (same : tree.SameBelow other base.parts otherBase.parts)
include site otherSite same

theorem isKept_areTwins : IsKept tree other (AreTwins base otherBase spare) where
  isDirectory := by
    rintro segments path moved ⟨steps, rfl, rfl, level, -, few⟩ isDirectory
    have fewSteps : 2 * steps.count "." ≤ spare := by omega
    exact (isDirectoryAt_eq_true otherSite.free).mpr (site.found_below otherSite same level fewSteps
      ((isDirectoryAt_eq_true site.free).mp isDirectory))
  isName := by
    rintro segments path moved name ⟨steps, rfl, rfl, level, levelLater, few⟩ isName
    obtain ⟨isDirectory, node, found⟩ := (mem_namesIn site.free).mp isName
    obtain ⟨notHere, notUp, -⟩ := site.sound.named _ node found name
      (List.mem_append_right _ List.mem_cons_self)
    have fewSteps : 2 * steps.count "." ≤ spare := by omega
    have otherDirectory := (isDirectoryAt_eq_true otherSite.free).mpr
      (site.found_below otherSite same level fewSteps
        ((isDirectoryAt_eq_true site.free).mp isDirectory))
    constructor
    · refine (mem_namesIn otherSite.free).mpr ⟨otherDirectory, node, ?_⟩
      rw [Path.place_below site.straight.plain level, List.append_assoc, same] at found
      rwa [Path.place_below otherSite.straight.plain level, List.append_assoc]
    · refine ⟨steps ++ [name], child_below _ _ _, child_below _ _ _, ?_, levelLater, ?_⟩
      · simpa [level] using Ne.symm notUp
      · simpa [List.count_append, notHere] using few
  leave := by
    rintro segment segments path moved ⟨steps, rfl, rfl, level, levelLater, few⟩
    have fewer := (List.sublist_cons_self segment segments).count_le "."
    exact ⟨steps, rfl, rfl, level, fun up => levelLater (List.mem_cons_of_mem _ up), by omega⟩
  literal := by
    rintro segment segments path moved ⟨steps, rfl, rfl, level, levelLater, few⟩
    obtain ⟨notUp, levelRest⟩ := not_or.mp fun either => levelLater (List.mem_cons.mpr either)
    refine ⟨steps ++ [segment], child_below _ _ _, child_below _ _ _, ?_, levelRest, ?_⟩
    · simpa [level] using notUp
    · rw [List.count_cons] at few
      rw [List.count_append, List.count_singleton]
      omega

variable {pattern : String} (relative : Path.anchorOf pattern.toList = .here)
  (level : ".." ∉ Text.splitOn '/' pattern)
  (few : 2 * (Text.splitOn '/' pattern).count "." ≤ spare)
include relative level few

/-- A file that a search comes upon below one base has a twin below the other base. -/
theorem twin_of_mem_searched {path : Path} (member : path ∈ searched tree base pattern) :
    ∃ steps, path = base.below steps ∧ ".." ∉ steps ∧
      (∃ contents, tree.get? (base.parts ++ Path.names steps) = some (.file contents)) ∧
      otherBase.below steps ∈ searched other otherBase pattern := by
  obtain ⟨reached, isFile⟩ := List.mem_filter.mp member
  have starts : ∀ path ∈ [searchStart base pattern], ∃ moved ∈ [searchStart otherBase pattern],
      AreTwins base otherBase spare (searchSegments pattern) path moved := by
    refine List.forall_mem_singleton.mpr ⟨_, List.mem_singleton_self _,
      (splitMagic ((Text.splitOn '/' pattern).filter (· != ""))).1, searchStart_below relative _,
      searchStart_below relative _, level_searchLiteral level, level_searchSegments level, ?_⟩
    rw [searchSegments, splitMagic, ← List.count_append, List.takeWhile_append_dropWhile,
      List.count_filter (by decide)]
    exact few
  obtain ⟨twin, there, steps, rfl, rfl, levelSteps, -, fewSteps⟩ :=
    (isKept_areTwins site otherSite same).followAll starts reached
  obtain ⟨located, contents, found⟩ := (isFileAt_eq_true site.free).mp isFile
  have enough : 2 * steps.count "." ≤ spare := by
    rw [List.count_nil, Nat.add_zero] at fewSteps
    exact fewSteps
  obtain ⟨otherLocated, otherFound⟩ :=
    site.found_below otherSite same levelSteps enough ⟨located, found⟩
  rw [Path.place_below site.straight.plain levelSteps] at found
  exact ⟨steps, rfl, levelSteps, ⟨contents, found⟩, List.mem_filter.mpr ⟨there,
    (isFileAt_eq_true otherSite.free).mpr ⟨otherLocated, contents, otherFound⟩⟩⟩

end Sites

section Files

variable {tree : Tree} {base : Path} {pattern : String}

theorem files_of_clean (clean : Tree.holdsNull (searchStart base pattern) = false)
    (notClosed : pattern.endsWith "/" = false) :
    files tree base pattern = .ok (searched tree base pattern) := by
  rw [searchStart] at clean
  simp only [files, clean, notClosed, Bool.false_eq_true, if_false]
  rfl

/-- A search that finds anything was for a clean pattern that does not end with a slash. -/
theorem clean_of_files {found : List Path} (finds : files tree base pattern = .ok found)
    {path : Path} (member : path ∈ found) :
    Tree.holdsNull (searchStart base pattern) = false ∧ pattern.endsWith "/" = false := by
  simp only [files] at finds
  split at finds
  · split at finds
    · cases finds
      cases member
    · cases finds
  · rename_i clean
    split at finds
    · cases finds
      cases member
    · rename_i notClosed
      exact ⟨Bool.eq_false_iff.mpr clean, Bool.eq_false_iff.mpr notClosed⟩

end Files

end Glob

namespace Path

/-- Paths below one base come in the order of the steps to them. -/
theorem before_below {base : Path} {location other : Location} :
    (base.below location).Before (base.below other) ↔ location < other := by
  have same (before : List String) : before ++ location < before ++ other ↔ location < other := by
    induction before with
    | nil => exact Iff.rfl
    | cons part rest inductionHypothesis =>
        rw [List.cons_append, List.cons_append, List.cons_lt_cons_self, inductionHypothesis]
  rw [Before, components, components, below, below]
  exact List.cons_lt_cons_self.trans (same base.parts)

end Path

namespace Selection

/-- The steps that a pattern names literally from a base. -/
def literalSteps (pattern : String) : List String :=
  Path.cutAtNull ((Text.splitOn '/' pattern).filter Path.isPart)

section Literal

variable {base : Path} {pattern : String} (relative : Path.anchorOf pattern.toList = .here)
  (level : ".." ∉ Text.splitOn '/' pattern)
include relative level

theorem literalPath_below (straight : base.IsStraight)
    (clean : ∀ part ∈ base.parts, '\x00' ∉ part.toList) :
    literalPath base pattern = base.below (literalSteps pattern) := by
  have parts : base.joinText pattern =
      base.below ((Text.splitOn '/' pattern).filter Path.isPart) := by
    rw [Path.joinText, Path.ofString, relative]
    rfl
  have levelParts : ".." ∉ (Text.splitOn '/' pattern).filter Path.isPart := fun up =>
    level (List.mem_of_mem_filter up)
  have whole : Path.names ((Text.splitOn '/' pattern).filter Path.isPart) =
      (Text.splitOn '/' pattern).filter Path.isPart := by
    refine List.filter_eq_self.mpr fun part member => ?_
    have isPart := (List.mem_filter.mp member).2
    rw [Path.isPart, Bool.and_eq_true] at isPart
    exact isPart.2
  have absolute : (base.below ((Text.splitOn '/' pattern).filter Path.isPart)).isAbsolute = true :=
    straight.absolute
  rw [literalPath, parts, Path.normalize_eq absolute, Path.place_below straight.plain levelParts,
    whole, Path.cutAtNull_append clean]
  rfl

omit relative in
/-- A step up can only be what a null character has left of the last literal step. -/
theorem literalSteps_cases : ".." ∉ literalSteps pattern ∨
    ∃ before, literalSteps pattern = before ++ [".."] := by
  by_cases up : ".." ∈ literalSteps pattern
  · right
    have filled : literalSteps pattern ≠ [] := List.ne_nil_of_mem up
    have levelBefore : ".." ∉ (literalSteps pattern).dropLast := fun member =>
      level (List.mem_of_mem_filter (Path.mem_dropLast_cutAtNull member))
    refine ⟨(literalSteps pattern).dropLast, ?_⟩
    rw [← List.dropLast_append_getLast filled, List.mem_append, List.mem_singleton] at up
    rw [up.resolve_left levelBefore]
    exact (List.dropLast_append_getLast filled).symm
  · exact Or.inl up

end Literal

theorem point_not_mem_literalSteps (pattern : String) : "." ∉ literalSteps pattern := by
  intro member
  rcases Path.mem_cutAtNull member with inParts | isPart
  · exact absurd (List.mem_filter.mp inParts).2 (by decide +kernel)
  · exact absurd isPart (by decide +kernel)

/-- A pattern finds the file that it names, or what a search comes upon. -/
theorem expandPattern_eq_ok {tree : Tree} {base : Path} {pattern : String} {found : List Path}
    (finds : expandPattern tree base pattern = .ok found) :
    (tree.isFile [] (literalPath base pattern) = .ok true ∧
        found = [literalPath base pattern]) ∨
      (tree.isFile [] (literalPath base pattern) = .ok false ∧
        ∃ hits, Glob.files tree base pattern = .ok hits ∧
          found = Path.sort (hits.map Path.normalize)) := by
  cases asked : tree.isFile [] (literalPath base pattern) with
  | error fault => cases (expandPattern_refused asked).symm.trans finds
  | ok answer =>
      cases answer with
      | true =>
          cases (expandPattern_literal asked).symm.trans finds
          exact Or.inl ⟨rfl, rfl⟩
      | false =>
          rw [expandPattern_search asked] at finds
          split at finds
          · cases finds
          · cases searched : Glob.files tree base pattern with
            | error fault => simp [searched] at finds
            | ok hits =>
                simp only [searched, Except.ok.injEq] at finds
                exact Or.inr ⟨rfl, hits, rfl, finds.symm⟩

theorem isSorted_of_expandPattern {tree : Tree} {base : Path} {pattern : String}
    {found : List Path} (finds : expandPattern tree base pattern = .ok found) :
    Path.IsSorted found := by
  rcases expandPattern_eq_ok finds with ⟨-, rfl⟩ | ⟨-, hits, -, rfl⟩
  · exact isSorted_singleton _
  · exact Path.isSorted_sort _

section Sites

variable {tree other : Tree} {base otherBase : Path} {spare : Nat}
  (site : tree.IsSite base spare) (otherSite : other.IsSite otherBase spare)
  (same : tree.SameBelow other base.parts otherBase.parts)
include site otherSite same

section Pattern

variable {pattern : String} (relative : Path.anchorOf pattern.toList = .here)
  (level : ".." ∉ Text.splitOn '/' pattern)
include relative level

/-- A file that is named literally below one base is named below the other one. -/
theorem isFile_literalPath_moved (asked : tree.isFile [] (literalPath base pattern) = .ok true) :
    (∃ contents, tree.get? (base.parts ++ literalSteps pattern) = some (.file contents)) ∧
      other.isFile [] (literalPath otherBase pattern) = .ok true := by
  have spelled := literalPath_below relative level site.straight site.clean
  have otherSpelled := literalPath_below relative level otherSite.straight otherSite.clean
  obtain ⟨holdsNone, location, contents, located, found⟩ := Tree.isFile_eq_true.mp asked
  rw [spelled] at located
  obtain ⟨ends, -⟩ := Tree.locate_place (site.free.isClear _) located
  rcases literalSteps_cases level with levelSteps | ⟨before, up⟩
  · have noPoint : (literalSteps pattern).count "." = 0 :=
      List.count_eq_zero.mpr (point_not_mem_literalSteps pattern)
    have whole : Path.names (literalSteps pattern) = literalSteps pattern :=
      List.filter_eq_self.mpr fun step member => by
        simpa using fun point : step = "." => point_not_mem_literalSteps pattern (point ▸ member)
    rw [ends] at located found
    obtain ⟨otherLocated, otherFound⟩ := site.found_below otherSite same levelSteps
      (by rw [noPoint]; exact Nat.zero_le spare) ⟨located, found⟩
    rw [Path.place_below site.straight.plain levelSteps, whole] at found
    refine ⟨⟨contents, found⟩, Tree.isFile_eq_true.mpr ⟨?_, _, contents, ?_, otherFound⟩⟩
    · exact Path.holdsNull_normalize (isAbsolute_joinText otherSite.straight.absolute pattern)
    · rw [otherSpelled]
      exact otherLocated
  · have ending : (base.below (literalSteps pattern)).parts = (base.parts ++ before) ++ [".."] := by
      rw [Path.below, up, List.append_assoc]
    have isDirectory := Tree.directory_of_walkSteps_up (site.free.isClear _) site.sound
      (by rw [Path.start, ite_self]; rfl) ending (Tree.locate_eq_ok.mp located).2
    cases isDirectory.symm.trans found

variable (few : 2 * (Text.splitOn '/' pattern).count "." ≤ spare) {found others : List Path}
include few

theorem twin_of_files (finds : Glob.files tree base pattern = .ok found)
    (otherFinds : Glob.files other otherBase pattern = .ok others) {path : Path}
    (member : path ∈ found) :
    ∃ location, path.normalize = base.below location ∧
      (∃ contents, tree.get? (base.parts ++ location) = some (.file contents)) ∧
      ∃ twin ∈ others, twin.normalize = otherBase.below location := by
  obtain ⟨clean, notClosed⟩ := Glob.clean_of_files finds member
  have otherClean : Tree.holdsNull (Glob.searchStart otherBase pattern) = false :=
    (Glob.holdsNull_searchStart_moved relative otherSite.clean site.clean).trans clean
  cases (Glob.files_of_clean clean notClosed).symm.trans finds
  cases (Glob.files_of_clean otherClean notClosed).symm.trans otherFinds
  obtain ⟨steps, rfl, levelSteps, ⟨contents, isFile⟩, there⟩ :=
    Glob.twin_of_mem_searched site otherSite same relative level few member
  refine ⟨Path.names steps, ?_, ⟨contents, isFile⟩, _, there, ?_⟩
  · exact Path.normalize_below site.sound site.straight levelSteps isFile
  · exact Path.normalize_below otherSite.sound otherSite.straight levelSteps
      ((same _).symm.trans isFile)

/-- A file that a pattern finds below one base has a twin below the other base. -/
theorem twin_of_expandPattern (finds : expandPattern tree base pattern = .ok found)
    (otherFinds : expandPattern other otherBase pattern = .ok others) {path : Path}
    (member : path ∈ found) :
    ∃ location, path = base.below location ∧
      (∃ contents, tree.get? (base.parts ++ location) = some (.file contents)) ∧
      otherBase.below location ∈ others := by
  rcases expandPattern_eq_ok finds with ⟨asked, rfl⟩ | ⟨asked, hits, searched, rfl⟩
  · obtain ⟨isFile, otherAsked⟩ :=
      isFile_literalPath_moved site otherSite same relative level asked
    cases (expandPattern_literal otherAsked).symm.trans otherFinds
    refine ⟨literalSteps pattern, ?_, isFile, ?_⟩
    · rw [List.mem_singleton.mp member]
      exact literalPath_below relative level site.straight site.clean
    · rw [literalPath_below relative level otherSite.straight otherSite.clean]
      exact List.mem_singleton_self _
  · rcases expandPattern_eq_ok otherFinds with
      ⟨otherAsked, rfl⟩ | ⟨-, otherHits, otherSearched, rfl⟩
    · have back := isFile_literalPath_moved otherSite site same.symm relative level otherAsked
      cases asked.symm.trans back.2
    · rw [Path.mem_sort] at member
      obtain ⟨hit, isHit, rfl⟩ := List.mem_map.mp member
      obtain ⟨location, spelled, isFile, twin, isTwin, spelledTwin⟩ :=
        twin_of_files site otherSite same relative level few searched otherSearched isHit
      refine ⟨location, spelled, isFile, ?_⟩
      rw [Path.mem_sort, ← spelledTwin]
      exact List.mem_map_of_mem isTwin

end Pattern

end Sites

section Adding

variable {base : Path} {found : List Path}

theorem exists_locations {paths : List Path}
    (each : ∀ path ∈ paths, ∃ location, path = base.below location) :
    ∃ locations : List Location, paths = locations.map base.below := by
  induction paths with
  | nil => exact ⟨[], rfl⟩
  | cons path rest inductionHypothesis =>
      obtain ⟨⟨location, rfl⟩, later⟩ := List.forall_mem_cons.mp each
      obtain ⟨locations, rfl⟩ := inductionHypothesis later
      exact ⟨location :: locations, rfl⟩

/-- What a pattern adds to a selection below a base is told by the steps alone. -/
theorem addNew_below (locations : List Location) (sorted : Path.IsSorted found)
    (each : ∀ path ∈ found, ∃ location, path = base.below location) :
    ∃ fresh : List Location, addNew (locations.map base.below) found =
        (locations ++ fresh).map base.below ∧ fresh.Pairwise (· < ·) ∧
      ∀ location, location ∈ fresh ↔ base.below location ∈ found ∧ location ∉ locations := by
  obtain ⟨added, whole, ordered, members⟩ := addNew_eq sorted (locations.map base.below)
  obtain ⟨fresh, rfl⟩ := exists_locations fun path member => each path ((members path).mp member).1
  refine ⟨fresh, ?_, ?_, ?_⟩
  · rw [whole, List.map_append]
  · exact (List.pairwise_map.mp ordered).imp Path.before_below.mp
  · intro location
    rw [← List.mem_map_of_injective base.below_injective, members,
      List.mem_map_of_injective base.below_injective]

end Adding

/-- A pattern that takes no step up from the base, with so many octets for its points. -/
structure StaysBelow (spare : Nat) (pattern : String) : Prop where
  relative : Path.anchorOf pattern.toList = .here
  level : ".." ∉ Text.splitOn '/' pattern
  few : 2 * (Text.splitOn '/' pattern).count "." ≤ spare

section Moving

variable {tree other : Tree} {base otherBase : Path} {spare : Nat} {pattern : String}
  {patterns : List String} {found otherFound paths others : List Path} {locations : List Location}
  (site : tree.IsSite base spare) (otherSite : other.IsSite otherBase spare)
  (same : tree.SameBelow other base.parts otherBase.parts)
include site otherSite same

/-- What a pattern adds below the two bases are the same files by the same steps. -/
theorem addNew_moved (stays : StaysBelow spare pattern)
    (finds : expandPattern tree base pattern = .ok found)
    (otherFinds : expandPattern other otherBase pattern = .ok otherFound)
    (locations : List Location) :
    ∃ fresh : List Location,
      addNew (locations.map base.below) found = (locations ++ fresh).map base.below ∧
      addNew (locations.map otherBase.below) otherFound =
        (locations ++ fresh).map otherBase.below ∧
      ∀ location ∈ fresh, ∃ contents,
        tree.get? (base.parts ++ location) = some (.file contents) := by
  obtain ⟨relative, level, few⟩ := stays
  have twins {path : Path} (member : path ∈ found) :=
    twin_of_expandPattern site otherSite same relative level few finds otherFinds member
  have otherTwins {path : Path} (member : path ∈ otherFound) :=
    twin_of_expandPattern otherSite site same.symm relative level few otherFinds finds member
  have moves (location : Location) :
      base.below location ∈ found ↔ otherBase.below location ∈ otherFound := by
    constructor
    · intro member
      obtain ⟨twin, spelled, -, there⟩ := twins member
      rwa [base.below_injective spelled]
    · intro member
      obtain ⟨twin, spelled, -, there⟩ := otherTwins member
      rwa [otherBase.below_injective spelled]
  obtain ⟨fresh, added, ordered, members⟩ :=
    addNew_below locations (isSorted_of_expandPattern finds)
      fun path member => (twins member).imp fun _ twin => twin.1
  obtain ⟨otherFresh, otherAdded, otherOrdered, otherMembers⟩ :=
    addNew_below locations (isSorted_of_expandPattern otherFinds)
      fun path member => (otherTwins member).imp fun _ twin => twin.1
  have equal : fresh = otherFresh := by
    apply ordered.eq_of_mem_iff otherOrdered
    intro location
    rw [members, otherMembers, moves]
  refine ⟨fresh, added, equal ▸ otherAdded, ?_⟩
  intro location member
  obtain ⟨twin, spelled, isFile, -⟩ := twins ((members location).mp member).1
  rwa [base.below_injective spelled]

variable (stay : ∀ pattern ∈ patterns, StaysBelow spare pattern)
include stay

theorem expandFrom_moved
    (selects : expandFrom tree base (locations.map base.below) patterns = .ok paths)
    (otherSelects :
      expandFrom other otherBase (locations.map otherBase.below) patterns = .ok others) :
    ∃ more : List Location, paths = (locations ++ more).map base.below ∧
      others = (locations ++ more).map otherBase.below ∧
      ∀ location ∈ more, ∃ contents,
        tree.get? (base.parts ++ location) = some (.file contents) := by
  induction patterns generalizing locations with
  | nil =>
      cases selects
      cases otherSelects
      exact ⟨[], by rw [List.append_nil], by rw [List.append_nil], by simp⟩
  | cons pattern rest inductionHypothesis =>
      obtain ⟨stays, stayRest⟩ := List.forall_mem_cons.mp stay
      rw [expandFrom] at selects otherSelects
      cases finds : expandPattern tree base pattern with
      | error failure => simp [finds] at selects
      | ok found =>
          cases otherFinds : expandPattern other otherBase pattern with
          | error failure => simp [otherFinds] at otherSelects
          | ok otherFound =>
              simp only [finds] at selects
              simp only [otherFinds] at otherSelects
              obtain ⟨fresh, added, otherAdded, areFiles⟩ :=
                addNew_moved site otherSite same stays finds otherFinds locations
              rw [added] at selects
              rw [otherAdded] at otherSelects
              obtain ⟨more, whole, otherWhole, moreFiles⟩ :=
                inductionHypothesis stayRest selects otherSelects
              refine ⟨fresh ++ more, ?_, ?_, ?_⟩
              · rw [whole, List.append_assoc]
              · rw [otherWhole, List.append_assoc]
              · exact fun location member =>
                  (List.mem_append.mp member).elim (areFiles location) (moreFiles location)

/-- Selections below the two bases that both succeed name the same files by the same steps. -/
theorem expand_moved (selects : expand tree base patterns = .ok paths)
    (otherSelects : expand other otherBase patterns = .ok others) :
    ∃ locations : List Location, paths = locations.map base.below ∧
      others = locations.map otherBase.below ∧
      ∀ location ∈ locations, ∃ contents,
        tree.get? (base.parts ++ location) = some (.file contents) := by
  have fromNone : expandFrom tree base (List.map base.below []) patterns = .ok paths := selects
  exact expandFrom_moved site otherSite same stay fromNone otherSelects

end Moving

end Selection

end AssetBundler

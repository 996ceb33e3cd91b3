import AssetBundler.Proofs.FileSystem.Within
import AssetBundler.Proofs.Selection.Moved
import AssetBundler.Proofs.Selection.Patterns

/-!
Selection from a base that has moved. Two bases that hold the same give the same files by the same
steps, or the same failure, whatever stands elsewhere.
-/

namespace AssetBundler

namespace Glob

section Below

variable {tree other : Tree} {base path found : Path} {pattern : String}

/-- Two trees show the same directories and the same names below a base, none of them a step up. -/
structure ShowAlike (tree other : Tree) (base : Path) : Prop where
  directory : ∀ steps, ".." ∉ steps →
    isDirectoryAt tree (base.below steps) = isDirectoryAt other (base.below steps)
  name : ∀ steps, ".." ∉ steps → ∀ name,
    name ∈ namesIn tree (base.below steps) ↔ name ∈ namesIn other (base.below steps)
  named : ∀ steps, ".." ∉ steps → ∀ name ∈ namesIn tree (base.below steps), name ≠ ".."

theorem ShowAlike.symm (alike : ShowAlike tree other base) : ShowAlike other tree base where
  directory steps level := (alike.directory steps level).symm
  name steps level name := (alike.name steps level name).symm
  named steps level name isName :=
    alike.named steps level name ((alike.name steps level name).mpr isName)

/-- A path by steps below a base, with no step up among what is still to be followed. -/
def IsLevelBelow (base : Path) (segments : List String) (path moved : Path) : Prop :=
  path = moved ∧ ".." ∉ segments ∧ ∃ steps, path = base.below steps ∧ ".." ∉ steps

theorem ShowAlike.isKept (alike : ShowAlike tree other base) :
    IsKept tree other (IsLevelBelow base) where
  isDirectory := by
    rintro segments _ path ⟨rfl, -, steps, rfl, level⟩ isDirectory
    exact alike.directory steps level ▸ isDirectory
  isName := by
    rintro segments _ path name ⟨rfl, levelLater, steps, rfl, level⟩ isName
    have notUp := alike.named steps level name isName
    refine ⟨(alike.name steps level name).mp isName, rfl, levelLater, steps ++ [name],
      child_below _ _ _, ?_⟩
    simpa [level] using Ne.symm notUp
  leave := by
    rintro segment segments _ path ⟨rfl, levelLater, steps, rfl, level⟩
    exact ⟨rfl, fun up => levelLater (List.mem_cons_of_mem _ up), steps, rfl, level⟩
  literal := by
    rintro segment segments _ path ⟨rfl, levelLater, steps, rfl, level⟩
    obtain ⟨notUp, levelRest⟩ := not_or.mp fun either => levelLater (List.mem_cons.mpr either)
    refine ⟨rfl, levelRest, steps ++ [segment], child_below _ _ _, ?_⟩
    simpa [level] using notUp

variable (relative : Path.anchorOf pattern.toList = .here)
  (level : ".." ∉ Text.splitOn '/' pattern)
include relative level

/-- A search below a base comes upon the same in trees that show the same there. -/
theorem ShowAlike.reaches (alike : ShowAlike tree other base)
    (member : path ∈ followAll tree [searchStart base pattern] (searchSegments pattern)) :
    path ∈ followAll other [searchStart base pattern] (searchSegments pattern) ∧
      ∃ steps, path = base.below steps ∧ ".." ∉ steps := by
  have starts : ∀ path ∈ [searchStart base pattern], ∃ moved ∈ [searchStart base pattern],
      IsLevelBelow base (searchSegments pattern) path moved :=
    List.forall_mem_singleton.mpr ⟨_, List.mem_singleton_self _, rfl, level_searchSegments level,
      _, searchStart_below relative base, level_searchLiteral level⟩
  obtain ⟨_, there, rfl, -, steps, spelled, levelSteps⟩ := alike.isKept.followAll starts member
  exact ⟨there, steps, spelled, levelSteps⟩

section Within

variable (sound : (tree.within base.parts).IsSound) (free : (tree.within base.parts).IsLinkFree)
  (plain : base.IsPlain)
include sound free plain

omit relative level in
theorem showAlike_within : ShowAlike (tree.within base.parts) tree base where
  directory steps level := by
    rw [isDirectoryAt, Tree.status_within free (Path.keepsNear_below plain level), isDirectoryAt]
  name steps level name := by
    have located := Tree.locate_within free (Path.keepsNear_below plain level)
    have near (rest : Location) :
        (tree.within base.parts).get? (base.parts ++ Path.names steps ++ rest) =
          tree.get? (base.parts ++ Path.names steps ++ rest) := by
      rw [List.append_assoc]
      exact Tree.get?_within (Or.inr (List.prefix_append _ _))
    have here := near []
    rw [List.append_nil] at here
    unfold namesIn
    cases reached : (tree.within base.parts).locate [] true (base.below steps) with
    | error refusal => rw [← located, reached]
    | ok location =>
        obtain ⟨rfl, -⟩ := Tree.locate_place (free.isClear _) reached
        rw [← located, reached, Path.place_below plain level]
        simp only [here]
        split
        · rw [Tree.mem_children, Tree.mem_children, near]
        · exact Iff.rfl
  named steps level name isName := (isName_of_mem_namesIn sound isName).2.1

theorem mem_searched_within : path ∈ searched (tree.within base.parts) base pattern ↔
    path ∈ searched tree base pattern := by
  have alike := showAlike_within sound free plain
  have shown {steps : List String} (levelSteps : ".." ∉ steps) :
      isFileAt (tree.within base.parts) (base.below steps) = isFileAt tree (base.below steps) := by
    rw [isFileAt, Tree.status_within free (Path.keepsNear_below plain levelSteps), isFileAt]
  rw [searched, searched, List.mem_filter, List.mem_filter]
  constructor
  · rintro ⟨reached, isFile⟩
    obtain ⟨there, steps, rfl, levelSteps⟩ := alike.reaches relative level reached
    exact ⟨there, shown levelSteps ▸ isFile⟩
  · rintro ⟨reached, isFile⟩
    obtain ⟨there, steps, rfl, levelSteps⟩ := alike.symm.reaches relative level reached
    exact ⟨there, (shown levelSteps).symm ▸ isFile⟩

end Within

end Below

end Glob

namespace Tree

variable {tree other : Tree} {base otherBase : Location} {before steps : List String}
  {follows : Bool} {enter otherEnter : Location → List String → Except Refusal Location}

/-- A step up at the end of a way is as good as a point, and then the last part is dropped. -/
theorem walkSteps_concat_up (free : tree.IsLinkFree) (start : Location) :
    walkSteps tree follows enter start (before ++ [".."]) =
      (walkSteps tree follows enter start (before ++ ["."])).map List.dropLast := by
  induction before generalizing start with
  | nil => rfl
  | cons step rest inductionHypothesis =>
      have more (last : String) : rest ++ [last] ≠ [] := by simp
      rw [List.cons_append, List.cons_append, walkSteps, walkSteps]
      split
      · exact inductionHypothesis start
      · split
        · exact inductionHypothesis start.dropLast
        · split
          · rfl
          · simp only [more, if_false, false_and]
            cases found : tree.get? (start ++ [step]) with
            | none => rfl
            | some node =>
                cases node with
                | directory => exact inductionHypothesis (start ++ [step])
                | file contents => rfl
                | link target => exact absurd found (free _ target)

/-- A way below one base that is refused is refused below the other one. A step up may only be its
last step. -/
theorem walkSteps_refused_below (same : tree.SameBelow other base otherBase)
    (free : tree.IsLinkFree) (otherFree : other.IsLinkFree) {refusal : Refusal}
    (shape : ".." ∉ steps ∨ ∃ before, steps = before ++ [".."] ∧ ".." ∉ before)
    (walked : walkSteps tree follows enter base steps = .error refusal) :
    walkSteps other follows otherEnter otherBase steps = .error refusal := by
  have alike {steps : List String} (level : ".." ∉ steps)
      (walked : walkSteps tree follows enter base steps = .error refusal) :
      walkSteps other follows otherEnter otherBase steps = .error refusal := by
    obtain ⟨result, here, there⟩ :=
      walkSteps_sameBelow same free level follows enter otherEnter []
    rw [List.append_nil] at here there
    rw [here] at walked
    rw [there]
    cases result with
    | ok reached => cases walked
    | error met => exact congrArg Except.error (Except.error.inj walked)
  rcases shape with level | ⟨before, rfl, level⟩
  · exact alike level walked
  · have levelPoint : ".." ∉ before ++ ["."] := by simpa using level
    rw [walkSteps_concat_up free] at walked
    rw [walkSteps_concat_up otherFree]
    cases stepped : walkSteps tree follows enter base (before ++ ["."]) with
    | ok reached => simp [stepped, Except.map] at walked
    | error met =>
        simp only [stepped, Except.map, Except.error.injEq] at walked
        rw [alike levelPoint (stepped.trans (congrArg Except.error walked)), Except.map]

end Tree

namespace Selection

open AssetBundler.Tree (pathLimit)

/-- A step up can only be the last literal step. -/
theorem literalSteps_shape {pattern : String} (level : ".." ∉ Text.splitOn '/' pattern) :
    ".." ∉ literalSteps pattern ∨
      ∃ before, literalSteps pattern = before ++ [".."] ∧ ".." ∉ before := by
  refine (literalSteps_cases level).imp_right fun ⟨before, up⟩ => ⟨before, up, fun member => ?_⟩
  have early : ".." ∈ (literalSteps pattern).dropLast := by
    rwa [up, List.dropLast_concat]
  exact level (List.mem_of_mem_filter (Path.mem_dropLast_cutAtNull early))

section Local

variable {tree : Tree} {base : Path} {spare : Nat} {pattern : String} {patterns : List String}
  (site : (tree.within base.parts).IsSite base spare)
include site

theorem keepsNear_literalPath (relative : Path.anchorOf pattern.toList = .here)
    (level : ".." ∉ Text.splitOn '/' pattern) :
    (literalPath base pattern).KeepsNear base.parts := by
  rw [literalPath_below relative level site.straight site.clean]
  rcases literalSteps_shape level with levelSteps | ⟨before, up, levelBefore⟩
  · exact Path.keepsNear_below site.straight.plain levelSteps
  · rw [up]
    exact Path.keepsNear_below_up site.straight.plain levelBefore

/-- Patterns that take no step up from a base select the same whatever stands elsewhere. -/
theorem expand_within (stay : ∀ pattern ∈ patterns, StaysBelow spare pattern) :
    expand (tree.within base.parts) base patterns = expand tree base patterns := by
  refine expand_congr fun pattern member => ?_
  obtain ⟨relative, level, -⟩ := stay pattern member
  refine findAlike_of_searched ?_ fun path => ?_
  · exact Tree.isFile_within site.free (keepsNear_literalPath site relative level)
  · exact Glob.mem_searched_within relative level site.sound site.free site.straight.plain

end Local

/-- A pattern that is as short as a path can be below both bases, or below neither. -/
def FitsAlike (base otherBase : Path) (pattern : String) : Prop :=
  pathLimit < Utf8.size (literalPath base pattern).toString ↔
    pathLimit < Utf8.size (literalPath otherBase pattern).toString

/-- Two selections of patterns end alike. They name the same files by the same steps from their
bases, or they fail over the same pattern in the same way. -/
inductive EndAlike (base otherBase : Path) (patterns : List String) :
    Except Failure (List Path) → Except Failure (List Path) → Prop where
  | selected (locations : List Location) : EndAlike base otherBase patterns
      (.ok (locations.map base.below)) (.ok (locations.map otherBase.below))
  | notFound {pattern : String} (isOne : pattern ∈ patterns) : EndAlike base otherBase patterns
      (.error (.selection (.notFound pattern))) (.error (.selection (.notFound pattern)))
  | tooLong {pattern : String} (isOne : pattern ∈ patterns) : EndAlike base otherBase patterns
      (.error (.file (.refused .nameTooLong (literalPath base pattern))))
      (.error (.file (.refused .nameTooLong (literalPath otherBase pattern))))
  | nullCharacter {pattern : String} (isOne : pattern ∈ patterns)
      (holds : '\x00' ∈ pattern.toList) : EndAlike base otherBase patterns
      (.error (.file .nullCharacter)) (.error (.file .nullCharacter))

section Sites

variable {tree other : Tree} {base otherBase : Path} {spare : Nat} {pattern : String}
  {patterns whole : List String} {fault : FileFault}
  (site : tree.IsSite base spare) (otherSite : other.IsSite otherBase spare)
  (same : tree.SameBelow other base.parts otherBase.parts)
include site otherSite same

/-- A pattern whose literal path is refused below one base is refused below the other one. -/
theorem isFile_refused_moved (stays : StaysBelow spare pattern)
    (fits : FitsAlike base otherBase pattern)
    (asked : tree.isFile [] (literalPath base pattern) = .error fault) :
    other.isFile [] (literalPath otherBase pattern) =
      .error (.refused .nameTooLong (literalPath otherBase pattern)) := by
  have clean := Path.holdsNull_normalize (isAbsolute_joinText otherSite.straight.absolute pattern)
  obtain ⟨-, refused, -⟩ := Tree.isFile_eq_error.mp asked
  refine Tree.isFile_eq_error.mpr ⟨clean, ?_, rfl⟩
  by_cases long : pathLimit < Utf8.size (literalPath base pattern).toString
  · exact Tree.locate_eq_tooLong.mpr (Or.inl (fits.mp long))
  · have short := mt fits.mpr long
    rw [literalPath_below stays.relative stays.level site.straight site.clean] at refused long
    rw [literalPath_below stays.relative stays.level otherSite.straight otherSite.clean] at short ⊢
    rw [site.locate_below long] at refused
    rw [otherSite.locate_below short]
    exact Tree.walkSteps_refused_below same site.free otherSite.free
      (literalSteps_shape stays.level) refused

omit same in
/-- A search that a null character keeps from being made is not made below the other base either,
when both bases have wildcards in their names or neither has. -/
theorem files_refused_moved (stays : StaysBelow spare pattern)
    (named : '\x00' ∈ pattern.toList →
      base.parts.any Wildcard.isMagic = otherBase.parts.any Wildcard.isMagic)
    (failed : Glob.files tree base pattern = .error fault) :
    fault = .nullCharacter ∧ '\x00' ∈ pattern.toList ∧
      Glob.files other otherBase pattern = .error .nullCharacter := by
  obtain ⟨rfl, holds, direct⟩ := Glob.files_eq_error.mp failed
  have otherHolds : Tree.holdsNull (Glob.searchStart otherBase pattern) = true :=
    (Glob.holdsNull_searchStart_moved stays.relative otherSite.clean site.clean).trans holds
  have inPattern : '\x00' ∈ pattern.toList := by
    by_contra clean
    refine absurd holds (Bool.eq_false_iff.mp ?_)
    rw [Glob.searchStart_below stays.relative]
    refine (Path.holdsNull_below site.clean).mpr fun step member inside => clean ?_
    exact Text.mem_of_mem_splitOn
      (List.mem_of_mem_filter (List.takeWhile_subset _ member)) inside
  refine ⟨rfl, inPattern, Glob.files_eq_error.mpr ⟨rfl, otherHolds, ?_⟩⟩
  rw [Glob.isSearched, ← named inPattern, ← Glob.isSearched]
  exact direct

/-- A pattern finds files below both bases, or it ends both selections alike. -/
theorem expandPattern_moved (stays : StaysBelow spare pattern)
    (fits : FitsAlike base otherBase pattern)
    (named : '\x00' ∈ pattern.toList →
      base.parts.any Wildcard.isMagic = otherBase.parts.any Wildcard.isMagic)
    (isOne : pattern ∈ whole) :
    (∃ found others, expandPattern tree base pattern = .ok found ∧
        expandPattern other otherBase pattern = .ok others) ∨
      ∃ failure otherFailure, expandPattern tree base pattern = .error failure ∧
        expandPattern other otherBase pattern = .error otherFailure ∧
        EndAlike base otherBase whole (.error failure) (.error otherFailure) := by
  have back {answer : Bool} (asked : tree.isFile [] (literalPath base pattern) = .ok answer) :
      ∃ otherAnswer, other.isFile [] (literalPath otherBase pattern) = .ok otherAnswer := by
    cases otherAsked : other.isFile [] (literalPath otherBase pattern) with
    | ok otherAnswer => exact ⟨otherAnswer, rfl⟩
    | error fault =>
        have refused := isFile_refused_moved otherSite site same.symm stays fits.symm otherAsked
        cases asked.symm.trans refused
  cases asked : tree.isFile [] (literalPath base pattern) with
  | error fault =>
      have otherAsked := isFile_refused_moved site otherSite same stays fits asked
      obtain ⟨-, -, rfl⟩ := Tree.isFile_eq_error.mp asked
      exact Or.inr ⟨_, _, expandPattern_refused asked, expandPattern_refused otherAsked,
        .tooLong isOne⟩
  | ok answer =>
      obtain ⟨otherAnswer, otherAsked⟩ := back asked
      cases answer with
      | true =>
          have moved :=
            (isFile_literalPath_moved site otherSite same stays.relative stays.level asked).2
          exact Or.inl ⟨_, _, expandPattern_literal asked, expandPattern_literal moved⟩
      | false =>
          cases otherAnswer with
          | true =>
              have moved := (isFile_literalPath_moved otherSite site same.symm stays.relative
                stays.level otherAsked).2
              cases asked.symm.trans moved
          | false =>
              rw [expandPattern_search asked, expandPattern_search otherAsked]
              cases magic : Wildcard.isMagic pattern with
              | false => exact Or.inr ⟨_, _, rfl, rfl, .notFound isOne⟩
              | true =>
                  cases searched : Glob.files tree base pattern with
                  | error fault =>
                      obtain ⟨rfl, holds, failed⟩ :=
                        files_refused_moved site otherSite stays named searched
                      rw [failed]
                      exact Or.inr ⟨_, _, rfl, rfl, .nullCharacter isOne holds⟩
                  | ok hits =>
                      cases otherSearched : Glob.files other otherBase pattern with
                      | ok others => exact Or.inl ⟨_, _, rfl, rfl⟩
                      | error fault =>
                          have failed := (files_refused_moved otherSite site stays
                            (fun holds => (named holds).symm) otherSearched).2.2
                          cases searched.symm.trans failed

variable (stay : ∀ pattern ∈ patterns, StaysBelow spare pattern)
  (fits : ∀ pattern ∈ patterns, FitsAlike base otherBase pattern)
  (named : ∀ pattern ∈ patterns, '\x00' ∈ pattern.toList →
    base.parts.any Wildcard.isMagic = otherBase.parts.any Wildcard.isMagic)
include stay fits named

/-- Whatever was selected alike below the two bases, the patterns that are left go on alike. -/
theorem expandFrom_endAlike (among : ∀ pattern ∈ patterns, pattern ∈ whole)
    (locations : List Location) :
    EndAlike base otherBase whole
      (expandFrom tree base (locations.map base.below) patterns)
      (expandFrom other otherBase (locations.map otherBase.below) patterns) := by
  induction patterns generalizing locations with
  | nil => exact .selected locations
  | cons pattern rest inductionHypothesis =>
      obtain ⟨stays, stayRest⟩ := List.forall_mem_cons.mp stay
      obtain ⟨fitsThis, fitsRest⟩ := List.forall_mem_cons.mp fits
      obtain ⟨namedThis, namedRest⟩ := List.forall_mem_cons.mp named
      obtain ⟨isOne, amongRest⟩ := List.forall_mem_cons.mp among
      rw [expandFrom, expandFrom]
      rcases expandPattern_moved site otherSite same stays fitsThis namedThis isOne with
        ⟨found, others, finds, otherFinds⟩ | ⟨failure, otherFailure, fails, otherFails, alike⟩
      · obtain ⟨fresh, added, otherAdded, -⟩ :=
          addNew_moved site otherSite same stays finds otherFinds locations
        simp only [finds, otherFinds, added, otherAdded]
        exact inductionHypothesis stayRest fitsRest namedRest amongRest (locations ++ fresh)
      · simp only [fails, otherFails]
        exact alike

end Sites

/-- Below two bases that hold the same, free of links, patterns that take no step up select the same
files by the same steps in the same order, or fail alike. What stands elsewhere does not matter, nor
do the names of the bases, unless a pattern holds a null character. -/
theorem expand_relocated {tree other : Tree} {base otherBase : Path} {spare : Nat}
    {patterns : List String} (site : (tree.within base.parts).IsSite base spare)
    (otherSite : (other.within otherBase.parts).IsSite otherBase spare)
    (same : tree.SameBelow other base.parts otherBase.parts)
    (stay : ∀ pattern ∈ patterns, StaysBelow spare pattern)
    (fits : ∀ pattern ∈ patterns, FitsAlike base otherBase pattern)
    (named : ∀ pattern ∈ patterns, '\x00' ∈ pattern.toList →
      base.parts.any Wildcard.isMagic = otherBase.parts.any Wildcard.isMagic) :
    EndAlike base otherBase patterns (expand tree base patterns)
      (expand other otherBase patterns) := by
  rw [← expand_within site stay, ← expand_within otherSite stay]
  exact expandFrom_endAlike site otherSite (Tree.sameBelow_within same) stay fits named
    (fun _ member => member) []

theorem EndAlike.exists_locations {base otherBase : Path} {patterns : List String}
    {paths : List Path} {result : Except Failure (List Path)}
    (alike : EndAlike base otherBase patterns (.ok paths) result) :
    ∃ locations : List Location, paths = locations.map base.below ∧
      result = .ok (locations.map otherBase.below) := by
  generalize selected : (Except.ok paths : Except Failure (List Path)) = first at alike
  cases alike with
  | selected locations => exact ⟨locations, Except.ok.inj selected, rfl⟩
  | notFound | tooLong | nullCharacter => cases selected

/-- The same file in two directories, one of them hidden and with wildcards in its name, and a link
next to them. -/
def sampleBases : Tree :=
  ⟨[(["p"], .directory), (["p", "a.js"], .file []), ([".[q]*"], .directory),
    ([".[q]*", "a.js"], .file []), (["l"], .link "/p")]⟩

theorem expand_relocated_sample :
    expand sampleBases ⟨.root, ["p"]⟩ ["*.js"] = .ok [⟨.root, ["p", "a.js"]⟩] ∧
      expand sampleBases ⟨.root, [".[q]*"]⟩ ["*.js"] = .ok [⟨.root, [".[q]*", "a.js"]⟩] := by
  have site : (sampleBases.within ["p"]).IsSite ⟨.root, ["p"]⟩ 0 :=
    Tree.isSite_of_nodes (Tree.sound_of_nodes (by decide +kernel))
      (Tree.isLinkFree_of_nodes (by decide +kernel))
      ⟨rfl, by unfold Path.IsPlain; decide +kernel⟩ rfl (by decide) (by decide +kernel)
  have otherSite : (sampleBases.within [".[q]*"]).IsSite ⟨.root, [".[q]*"]⟩ 0 :=
    Tree.isSite_of_nodes (Tree.sound_of_nodes (by decide +kernel))
      (Tree.isLinkFree_of_nodes (by decide +kernel))
      ⟨rfl, by unfold Path.IsPlain; decide +kernel⟩ rfl (by decide) (by decide +kernel)
  have same : sampleBases.SameBelow sampleBases ["p"] [".[q]*"] := by
    intro location
    simp [sampleBases, Tree.get?, Tree.look]
  have stays : StaysBelow 0 "*.js" := ⟨by decide +kernel, by decide +kernel, by decide +kernel⟩
  have fits : FitsAlike ⟨.root, ["p"]⟩ ⟨.root, [".[q]*"]⟩ "*.js" := by
    unfold FitsAlike
    decide +kernel
  have alike := expand_relocated site otherSite same (List.forall_mem_singleton.mpr stays)
    (List.forall_mem_singleton.mpr fits) (List.forall_mem_singleton.mpr (by decide +kernel))
  have selects := @expand_of_hit sampleBases ⟨.root, ["p"]⟩ "*.js" ⟨.root, ["p", "a.js"]⟩
    (by decide +kernel) (by decide +kernel) (by decide +kernel)
  have normal : (⟨.root, ["p", "a.js"]⟩ : Path).normalize =
      (⟨.root, ["p"]⟩ : Path).below ["a.js"] := by decide +kernel
  rw [normal] at selects
  rw [selects] at alike
  obtain ⟨locations, whole, otherSelects⟩ := alike.exists_locations
  have one : [["a.js"]] = locations :=
    List.map_injective_iff.mpr (Path.below_injective ⟨.root, ["p"]⟩) whole
  rw [← one] at otherSelects
  exact ⟨selects, otherSelects⟩

section Apart

open AssetBundler.Tree (longName not_mem_longName)

/-- Two empty directories, one with brackets in its name. -/
def emptyBases : Tree := ⟨[(["p"], .directory), (["[p]"], .directory)]⟩

/-- A directory so deep that hardly a name fits below it. -/
def deepBase : Path := ⟨.root, List.replicate 2046 "n"⟩

theorem size_replicate (count : Nat) :
    Utf8.size ("/".intercalate (List.replicate (count + 1) "n")) = 2 * count + 1 := by
  have name : Utf8.size "n" = 1 := rfl
  have slash : Utf8.size "/" = 1 := rfl
  induction count with
  | zero => rw [List.replicate_one, String.intercalate_singleton, name]
  | succ count inductionHypothesis =>
      rw [List.replicate_succ] at inductionHypothesis ⊢
      rw [List.replicate_succ, String.intercalate_cons_cons]
      simp only [Utf8.size, String.utf8ByteSize_append] at name slash inductionHypothesis ⊢
      omega

/-- Below a directory a name that is too long is refused. -/
theorem ends_longName {tree : Tree} {base : Path} (sound : tree.IsSound) (free : tree.IsLinkFree)
    (straight : base.IsStraight) (isDirectory : tree.get? base.parts = some .directory) :
    Ends tree base longName (.file (.refused .nameTooLong (base.below [longName]))) := by
  have anchor : Path.anchorOf longName.toList = .here := by
    rw [Tree.toList_longName]
    rfl
  have single : Text.splitOn '/' longName = [longName] :=
    Text.splitOn_of_not_mem (not_mem_longName (by decide))
  have isPart : Path.isPart longName = true := by decide +kernel
  have clean : ∀ part ∈ base.parts, '\x00' ∉ part.toList := fun part member =>
    (sound.named _ _ isDirectory part member).2.2
  have steps : literalSteps longName = [longName] := by
    rw [literalSteps, single, List.filter_cons, if_pos isPart]
    exact Path.cutAtNull_eq (List.forall_mem_singleton.mpr (not_mem_longName (by decide)))
  have notUp : longName ≠ ".." := by decide +kernel
  have level : ".." ∉ Text.splitOn '/' longName := by
    rw [single, List.mem_singleton]
    exact Ne.symm notUp
  have named : literalPath base longName = base.below [longName] := by
    rw [literalPath_below anchor level straight clean, steps]
  have notHere : longName ≠ "." := by decide +kernel
  have straightBelow : (base.below [longName]).IsStraight :=
    ⟨straight.absolute, List.forall_mem_append.mpr
      ⟨straight.plain, List.forall_mem_singleton.mpr ⟨notHere, notUp⟩⟩⟩
  have long : Tree.nameLimit < Utf8.size longName := by decide +kernel
  rw [← named]
  refine .tooLong ?_
  rw [named]
  exact (Tree.locate_straight_tooLong sound free straightBelow).mpr
    (Or.inr ⟨base.parts, longName, List.prefix_refl _, isDirectory, long⟩)

/-- Below a directory that is too deep any name is refused. -/
theorem ends_deepBase (tree : Tree) :
    Ends tree deepBase "a.js" (.file (.refused .nameTooLong (deepBase.below ["a.js"]))) := by
  have isPart {part : String} (member : part ∈ deepBase.parts) : part = "n" :=
    List.eq_of_mem_replicate member
  have straight : deepBase.IsStraight :=
    ⟨rfl, fun part member => by rw [isPart member]; decide⟩
  have clean : ∀ part ∈ deepBase.parts, '\x00' ∉ part.toList := fun part member => by
    rw [isPart member]
    decide +kernel
  have named : literalPath deepBase "a.js" = deepBase.below ["a.js"] :=
    literalPath_below (by decide +kernel) (by decide +kernel) straight clean
  have long : pathLimit < Utf8.size (deepBase.below ["a.js"]).toString := by
    have base : Utf8.size ("/".intercalate (List.replicate 2046 "n")) = 4091 := size_replicate 2045
    have filled : List.replicate 2046 "n" ≠ [] := by
      rw [List.replicate_succ]
      exact List.cons_ne_nil _ _
    have shape : (deepBase.below ["a.js"]).toString =
        "/" ++ ("/".intercalate (List.replicate 2046 "n") ++ "/" ++ "a.js") := by
      rw [@Path.toString_eq (deepBase.below ["a.js"]) rfl, Path.below, deepBase,
        Path.intercalate_append filled (List.cons_ne_nil _ _)]
      rfl
    have name : Utf8.size "a.js" = 4 := rfl
    have slash : Utf8.size "/" = 1 := rfl
    have limit : pathLimit = 4095 := rfl
    rw [shape]
    simp only [Utf8.size, String.utf8ByteSize_append] at base name slash ⊢
    omega
  rw [← named]
  exact .tooLong (Tree.locate_eq_tooLong.mpr (Or.inl (named ▸ long)))

/-- The names of empty bases show when a pattern holds a null character, in what the system says of
a name that is too long, and when only one of them is too deep for a pattern. -/
theorem expand_relocated_apart :
    (expand emptyBases ⟨.root, ["p"]⟩ ["\x00/*.js"] = .error (.file .nullCharacter) ∧
      expand emptyBases ⟨.root, ["[p]"]⟩ ["\x00/*.js"] = .ok []) ∧
    (expand emptyBases ⟨.root, ["p"]⟩ [longName] =
        .error (.file (.refused .nameTooLong ⟨.root, ["p", longName]⟩)) ∧
      expand emptyBases ⟨.root, ["[p]"]⟩ [longName] =
        .error (.file (.refused .nameTooLong ⟨.root, ["[p]", longName]⟩))) ∧
    expand emptyBases ⟨.root, ["p"]⟩ ["a.js"] = .error (.selection (.notFound "a.js")) ∧
      ∀ tree, expand tree deepBase ["a.js"] =
        .error (.file (.refused .nameTooLong (deepBase.below ["a.js"]))) := by
  have sound : emptyBases.IsSound := Tree.sound_of_nodes (by decide +kernel)
  have free : emptyBases.IsLinkFree := Tree.isLinkFree_of_nodes (by decide +kernel)
  have straight : Path.IsStraight ⟨.root, ["p"]⟩ := ⟨rfl, by unfold Path.IsPlain; decide +kernel⟩
  have otherStraight : Path.IsStraight ⟨.root, ["[p]"]⟩ :=
    ⟨rfl, by unfold Path.IsPlain; decide +kernel⟩
  have noFile : emptyBases.isFile [] (literalPath ⟨.root, ["[p]"]⟩ "\x00/*.js") = .ok false := by
    decide +kernel
  have magic : Wildcard.isMagic "\x00/*.js" = true := by decide +kernel
  have nothing : Glob.files emptyBases ⟨.root, ["[p]"]⟩ "\x00/*.js" = .ok [] := by decide +kernel
  refine ⟨⟨(expand_singleton_eq_error rfl).mpr ?_, ?_⟩, ⟨(expand_singleton_eq_error rfl).mpr ?_,
    (expand_singleton_eq_error rfl).mpr ?_⟩, (expand_singleton_eq_error rfl).mpr ?_,
    fun tree => (expand_singleton_eq_error rfl).mpr (ends_deepBase tree)⟩
  · exact .nullCharacter magic (by decide +kernel) (by decide +kernel) (by decide +kernel)
  · rw [expand, expandFrom, expandPattern_search noFile, magic, nothing]
    simp [expandFrom, addNew, Path.sort]
  · exact ends_longName sound free straight (by decide +kernel)
  · exact ends_longName sound free otherStraight (by decide +kernel)
  · exact .notFound (by decide +kernel) (by decide +kernel)

end Apart

end Selection

end AssetBundler

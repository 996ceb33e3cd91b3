import AssetBundler.Proofs.FileSystem.Straight
import AssetBundler.Proofs.Path.Text

/-!
Trees that hold the same below two bases. A way that takes no step up leads to the same place below
both.
-/

namespace AssetBundler

namespace Tree

variable {tree other : Tree} {follows : Bool}
  {enter : Location → List String → Except Refusal Location} {base otherBase : Location}
  {steps : List String}

/-- The same nodes stand below two locations. -/
def SameBelow (tree other : Tree) (base otherBase : Location) : Prop :=
  ∀ location, tree.get? (base ++ location) = other.get? (otherBase ++ location)

theorem SameBelow.symm (same : tree.SameBelow other base otherBase) :
    other.SameBelow tree otherBase base := fun location => (same location).symm

/-- A way below the bases ends in the same way. -/
theorem walkSteps_sameBelow (same : tree.SameBelow other base otherBase)
    (free : tree.IsLinkFree) (level : ".." ∉ steps) (follows : Bool)
    (enter otherEnter : Location → List String → Except Refusal Location) (location : Location) :
    ∃ result : Except Refusal Location,
      walkSteps tree follows enter (base ++ location) steps =
          result.map (fun reached => base ++ reached) ∧
        walkSteps other follows otherEnter (otherBase ++ location) steps =
          result.map (fun reached => otherBase ++ reached) := by
  induction steps generalizing location with
  | nil => exact ⟨.ok location, rfl, rfl⟩
  | cons step rest inductionHypothesis =>
      obtain ⟨notUp, levelRest⟩ := not_or.mp fun either => level (List.mem_cons.mpr either)
      simp only [walkSteps, Ne.symm notUp, if_false, List.append_assoc, ← same (location ++ [step])]
      by_cases here : step = "."
      · simp only [here, if_true]
        exact inductionHypothesis levelRest location
      · simp only [here, if_false]
        by_cases long : nameLimit < Utf8.size step
        · simp only [long, if_true]
          exact ⟨.error .nameTooLong, rfl, rfl⟩
        · simp only [long, if_false]
          cases found : tree.get? (base ++ (location ++ [step])) with
          | none =>
              by_cases last : rest = []
              · simp only [last, if_true]
                exact ⟨.ok (location ++ [step]), rfl, rfl⟩
              · simp only [last, if_false]
                exact ⟨.error .missing, rfl, rfl⟩
          | some node =>
              cases node with
              | directory => exact inductionHypothesis levelRest (location ++ [step])
              | file contents =>
                  by_cases last : rest = []
                  · simp only [last, if_true]
                    exact ⟨.ok (location ++ [step]), rfl, rfl⟩
                  · simp only [last, if_false]
                    exact ⟨.error .notDirectory, rfl, rfl⟩
              | link target => exact absurd found (free _ target)

/-- A way through a directory goes on from there. -/
theorem walkSteps_through (sound : tree.IsSound) {start : Location}
    (isDirectory : tree.get? (start ++ base) = some .directory)
    (fits : ∀ name ∈ base, ¬ nameLimit < Utf8.size name) :
    walkSteps tree follows enter start (base ++ steps) =
      walkSteps tree follows enter (start ++ base) steps := by
  induction base generalizing start with
  | nil => rw [List.nil_append, List.append_nil]
  | cons name rest inductionHypothesis =>
      obtain ⟨notHere, notUp, -⟩ := sound.named _ _ isDirectory name
        (List.mem_append_right start List.mem_cons_self)
      rw [List.append_cons] at isDirectory
      have entered : tree.get? (start ++ [name]) = some .directory := by
        by_cases last : rest = []
        · rwa [last, List.append_nil] at isDirectory
        · exact sound.above isDirectory (List.prefix_append _ _) (by simpa using last)
      have fitsRest : ∀ next ∈ rest, ¬ nameLimit < Utf8.size next := fun next member =>
        fits next (List.mem_cons_of_mem name member)
      rw [List.cons_append,
        walkSteps_directory notHere notUp (fits name List.mem_cons_self) entered,
        inductionHypothesis isDirectory fitsRest, List.append_cons start name rest]

/-- A directory below which no path is too long, with some octets to spare. -/
structure IsSite (tree : Tree) (base : Path) (spare : Nat) : Prop where
  sound : tree.IsSound
  free : tree.IsLinkFree
  straight : base.IsStraight
  directory : tree.get? base.parts = some .directory
  shortNames : ∀ location node, tree.get? (base.parts ++ location) = some node →
    ∀ name ∈ base.parts ++ location, Utf8.size name ≤ nameLimit
  shortPaths : ∀ location node, tree.get? (base.parts ++ location) = some node →
    Utf8.size (base.below location).toString + spare ≤ pathLimit

/-- A directory is a site when each entry of its tree is short enough. -/
theorem isSite_of_nodes {tree : Tree} {base : Path} {spare : Nat} (sound : tree.IsSound)
    (free : tree.IsLinkFree) (straight : base.IsStraight)
    (directory : tree.get? base.parts = some .directory) (room : 2 + spare ≤ pathLimit)
    (each : ∀ entry ∈ tree.nodes, (∀ name ∈ entry.1, Utf8.size name ≤ nameLimit) ∧
      Utf8.size (Path.toString ⟨base.anchor, entry.1⟩) + spare ≤ pathLimit) :
    tree.IsSite base spare := by
  have entry {location : Location} {node : Node} (found : tree.get? location = some node)
      (below : location ≠ []) : (location, node) ∈ tree.nodes := by
    rw [get?, if_neg below] at found
    exact mem_of_look found
  refine ⟨sound, free, straight, directory, ?_, ?_⟩
  · intro location node found name member
    exact (each _ (entry found (List.ne_nil_of_mem member))).1 name member
  · intro location node found
    by_cases root : base.parts ++ location = []
    · rw [Path.below, root]
      refine Nat.le_trans (Nat.add_le_add_right ?_ spare) room
      cases base.anchor <;> decide +kernel
    · exact (each _ (entry found root)).2

end Tree

namespace Path

/-- Where steps that take none up lead to. -/
def names (steps : List String) : Location := steps.filter (· != ".")

theorem placeFrom_level {steps : List String} (level : ".." ∉ steps) (start : Location) :
    Tree.placeFrom start steps = start ++ names steps := by
  induction steps generalizing start with
  | nil => exact (List.append_nil start).symm
  | cons step rest inductionHypothesis =>
      obtain ⟨notUp, levelRest⟩ := not_or.mp fun either => level (List.mem_cons.mpr either)
      have later := inductionHypothesis levelRest (Tree.advance start step)
      rw [Tree.placeFrom, List.foldl_cons, ← Tree.placeFrom, later, Tree.advance]
      by_cases here : step = "."
      · simp [here, names]
      · simp [here, Ne.symm notUp, names]

theorem place_below {base : Path} (plain : base.IsPlain) {steps : List String}
    (level : ".." ∉ steps) : (base.below steps).place [] = base.parts ++ names steps := by
  have levelBase : ".." ∉ base.parts := fun up => (plain _ up).2 rfl
  have whole : names base.parts = base.parts := by
    refine List.filter_eq_self.mpr fun part member => ?_
    simpa using (plain part member).1
  rw [place_root, below, placeFrom_level (fun up => (List.mem_append.mp up).elim levelBase level),
    List.nil_append, names, List.filter_append]
  exact congrArg (· ++ names steps) whole

/-- Nothing is cut before the first null character. -/
theorem cutAtNull_append {before : List String} (clean : ∀ part ∈ before, '\x00' ∉ part.toList)
    (after : List String) : cutAtNull (before ++ after) = before ++ cutAtNull after := by
  induction before with
  | nil => rfl
  | cons part rest inductionHypothesis =>
      have first : part.toList.contains '\x00' = false := by
        simpa using clean part List.mem_cons_self
      rw [List.cons_append, cutAtNull, first, inductionHypothesis fun other member =>
        clean other (List.mem_cons_of_mem part member)]
      rfl

variable {base : Path} {steps : List String}

theorem holdsNull_below (clean : ∀ part ∈ base.parts, '\x00' ∉ part.toList) :
    Tree.holdsNull (base.below steps) = false ↔ ∀ step ∈ steps, '\x00' ∉ step.toList := by
  constructor
  · exact fun holdsNone step member => null_not_mem holdsNone (List.mem_append_right _ member)
  · exact fun cleanSteps => holdsNull_of_clean fun part member =>
      (List.mem_append.mp member).elim (clean part) (cleanSteps part)

/-- What stands below a base has a normalized path without points. -/
theorem normalize_below {tree : Tree} {node : Node} (sound : tree.IsSound)
    (straight : base.IsStraight) (level : ".." ∉ steps)
    (found : tree.get? (base.parts ++ names steps) = some node) :
    (base.below steps).normalize = base.below (names steps) := by
  have place := place_below straight.plain level
  have absolute : (base.below steps).isAbsolute = true := straight.absolute
  rw [normalize_of_clean absolute, place, below, below]
  rw [place]
  exact fun name member => (sound.named _ node found name member).2.2

theorem below_injective (base : Path) : Function.Injective base.below := by
  intro location other equal
  exact List.append_cancel_left (congrArg Path.parts equal)

end Path

namespace Tree.IsSite

variable {tree other : Tree} {base otherBase : Path} {spare : Nat} {steps : List String}
  (site : tree.IsSite base spare) (otherSite : other.IsSite otherBase spare)
  (same : tree.SameBelow other base.parts otherBase.parts) (level : ".." ∉ steps)
include site

theorem clean : ∀ part ∈ base.parts, '\x00' ∉ part.toList := fun part member =>
  (site.sound.named _ _ site.directory part member).2.2

/-- A path to something below a site is not too long. -/
theorem fits (few : 2 * steps.count "." ≤ spare) {node : Node}
    (found : tree.get? (base.parts ++ Path.names steps) = some node) :
    ¬ pathLimit < Utf8.size (base.below steps).toString := by
  have longer := Path.size_below_le site.straight.absolute steps
  have short := site.shortPaths _ node found
  rw [Path.names] at short
  omega

/-- A path below a site is gone from there. -/
theorem locate_below (short : ¬ pathLimit < Utf8.size (base.below steps).toString) :
    tree.locate [] true (base.below steps) =
      walkSteps tree true (walk tree true (linkLimit - 1)) base.parts steps := by
  have fromRoot : tree.get? ([] ++ base.parts) = some .directory := site.directory
  have shortBase : ∀ name ∈ base.parts, ¬ nameLimit < Utf8.size name := fun name member =>
    Nat.not_lt.mpr (site.shortNames [] _ (by rw [List.append_nil]; exact site.directory) name
      (List.mem_append_left _ member))
  rw [locate, if_neg short, ite_self]
  exact walkSteps_through site.sound fromRoot shortBase

include otherSite same level

/-- Whatever is found below one base is found below the other one. -/
theorem found_below {node : Node} (few : 2 * steps.count "." ≤ spare)
    (found : tree.locate [] true (base.below steps) = .ok ((base.below steps).place []) ∧
      tree.get? ((base.below steps).place []) = some node) :
    other.locate [] true (otherBase.below steps) = .ok ((otherBase.below steps).place []) ∧
      other.get? ((otherBase.below steps).place []) = some node := by
  rw [Path.place_below site.straight.plain level] at found
  rw [Path.place_below otherSite.straight.plain level]
  obtain ⟨located, there⟩ := found
  have otherThere := (same _).symm.trans there
  refine ⟨?_, otherThere⟩
  obtain ⟨result, walked, otherWalked⟩ := walkSteps_sameBelow same site.free level true
    (walk tree true (linkLimit - 1)) (walk other true (linkLimit - 1)) []
  rw [List.append_nil] at walked otherWalked
  rw [otherSite.locate_below (otherSite.fits few otherThere), otherWalked]
  rw [site.locate_below (site.fits few there), walked] at located
  cases result with
  | error refusal => cases located
  | ok reached => rw [List.append_cancel_left (Except.ok.inj located), Except.map]

end Tree.IsSite

end AssetBundler

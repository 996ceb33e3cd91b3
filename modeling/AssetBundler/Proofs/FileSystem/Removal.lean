import AssetBundler.Proofs.FileSystem.Alike
import AssetBundler.Proofs.FileSystem.Straight

/-!
Removal of the files at given paths. Which paths are refused depends on the directories alone, so
it is the same in trees that differ in files only.
-/

namespace AssetBundler

namespace Tree

variable {tree other left : Tree} {directory location : Location} {path : Path}

/-- The same locations hold directories. -/
def SameDirectories (tree other : Tree) : Prop :=
  ∀ location, tree.get? location = some .directory ↔ other.get? location = some .directory

theorem SameDirectories.symm (same : tree.SameDirectories other) : other.SameDirectories tree :=
  fun location => (same location).symm

theorem SameDirectories.keeps (same : tree.SameDirectories other) (locations : List Location) :
    tree.KeepsDirectories other locations := fun location _ => (same location).mp

/-- What is left of a node when files go. -/
def withoutFile : Option Node → Option Node
  | some (.file _) => none
  | node => node

theorem withoutFile_eq_some {found : Option Node} {node : Node}
    (kept : withoutFile found = some node) : found = some node := by
  unfold withoutFile at kept
  split at kept
  · cases kept
  · exact kept

theorem withoutFile_withoutFile (found : Option Node) :
    withoutFile (withoutFile found) = withoutFile found := by
  cases found with
  | none => rfl
  | some node => cases node <;> rfl

/-- The files at the locations are gone. -/
def HasCleared (tree left : Tree) (locations : List Location) : Prop :=
  ∀ location, left.get? location =
    if location ∈ locations then withoutFile (tree.get? location) else tree.get? location

namespace HasCleared

variable {locations : List Location} (cleared : tree.HasCleared left locations)
include cleared

theorem get?_before {node : Node} (found : left.get? location = some node) :
    tree.get? location = some node := by
  rw [cleared] at found
  split at found
  · exact withoutFile_eq_some found
  · exact found

theorem sameDirectories : tree.SameDirectories left := by
  intro location
  refine ⟨fun found => ?_, cleared.get?_before⟩
  rw [cleared, found]
  exact ite_self _

theorem isSound (sound : tree.IsSound) : left.IsSound := by
  constructor
  · intro location node found
    exact (cleared.sameDirectories _).mp (sound.parent location node (cleared.get?_before found))
  · exact fun location node found => sound.named location node (cleared.get?_before found)

theorem isLinkFree (free : tree.IsLinkFree) : left.IsLinkFree :=
  fun location target found => free location target (cleared.get?_before found)

theorem append {last : Tree} {others : List Location} (next : left.HasCleared last others) :
    tree.HasCleared last (locations ++ others) := by
  intro location
  rw [next, cleared]
  by_cases early : location ∈ locations <;> by_cases late : location ∈ others <;>
    simp [early, late, withoutFile_withoutFile]

/-- Where the files are gone already nothing more goes. -/
theorem again {last : Tree} (next : left.HasCleared last locations) : last.Alike left := by
  intro location
  rw [next, cleared]
  split
  · exact withoutFile_withoutFile _
  · rfl

end HasCleared

theorem look_filter (nodes : List (Location × Node)) (location asked : Location) :
    look (nodes.filter fun entry => entry.1 != location) asked =
      if asked = location then none else look nodes asked := by
  induction nodes with
  | nil => simp [look]
  | cons entry rest inductionHypothesis =>
      by_cases gone : entry.1 = location
      · rw [List.filter_cons_of_neg (by simpa using gone), inductionHypothesis, look]
        by_cases same : asked = location
        · simp [same]
        · simp [same, gone, Ne.symm same]
      · rw [List.filter_cons_of_pos (by simpa using gone), look, look, inductionHypothesis]
        by_cases here : entry.1 = asked
        · simp [here, here ▸ gone]
        · simp [here]

theorem get?_erase (tree : Tree) (location asked : Location) (below : location ≠ []) :
    (tree.erase location).get? asked = if asked = location then none else tree.get? asked := by
  unfold get? erase
  rw [look_filter]
  by_cases root : asked = []
  · simp [root, below.symm]
  · simp [root]

/-- The file at a path goes if there is one. -/
def unlink (tree : Tree) (directory : Location) (path : Path) : Except FileFault Bool × Tree :=
  match tree.isFile directory path with
  | .error fault => (.error fault, tree)
  | .ok false => (.ok false, tree)
  | .ok true =>
      match tree.remove directory path with
      | .ok left => (.ok true, left)
      | .error fault => (.error fault, tree)

/-- Why a path cannot even be looked at. -/
def refusal? (tree : Tree) (directory : Location) (path : Path) : Option FileFault :=
  match tree.isFile directory path with
  | .error fault => some fault
  | .ok _ => none

theorem refusal?_eq_some {fault : FileFault} : tree.refusal? directory path = some fault ↔
    tree.isFile directory path = .error fault := by
  unfold refusal?
  cases tree.isFile directory path <;> simp

theorem refusal?_eq_none : tree.refusal? directory path = none ↔
    ∃ answer, tree.isFile directory path = .ok answer := by
  unfold refusal?
  cases tree.isFile directory path <;> simp

/-- Behind a path that shows a file there is one at its place. -/
theorem file_of_isFile (free : tree.IsLinkFree) (shows : tree.isFile directory path = .ok true) :
    ∃ contents, tree.get? (path.place directory) = some (.file contents) := by
  obtain ⟨-, location, contents, located, found⟩ := isFile_eq_true.mp shows
  obtain ⟨rfl, -⟩ := locate_place (free.isClear _) located
  exact ⟨contents, found⟩

/-- A file that a path shows goes from its place. -/
theorem unlink_of_isFile (free : tree.IsLinkFree) (shows : tree.isFile directory path = .ok true) :
    ∃ left, tree.unlink directory path = (.ok true, left) ∧
      tree.HasCleared left [path.place directory] := by
  obtain ⟨-, location, contents, located, found⟩ := isFile_eq_true.mp shows
  obtain ⟨rfl, -⟩ := locate_place (free.isClear _) located
  have unfollowed : tree.locate directory false path = .ok (path.place directory) :=
    locate_transfer (free.isClear _) located (fun _ _ found => found) (free.isClear _)
  have removed : tree.remove directory path = .ok (tree.erase (path.place directory)) := by
    rw [remove, unfollowed]
  refine ⟨_, by simp only [unlink, shows, removed]; rfl, fun asked => ?_⟩
  have isOpen : tree.get? (path.place directory) ≠ some .directory := by simp [found]
  rw [get?_erase tree _ _ (ne_nil_of_open isOpen)]
  by_cases here : asked = path.place directory
  · rw [if_pos here, if_pos (List.mem_singleton.mpr here), here, found]
    rfl
  · rw [if_neg here, if_neg fun member => here (List.mem_singleton.mp member)]

section Unlinking

variable (sound : tree.IsSound) (free : tree.IsLinkFree) (straight : path.IsStraight)
include sound free straight

/-- Where no file is found none stands, unless the path is refused. -/
theorem withoutFile_of_isFile (noFile : tree.isFile directory path = .ok false) :
    withoutFile (tree.get? path.parts) = tree.get? path.parts := by
  cases found : tree.get? path.parts with
  | none => rfl
  | some node =>
      cases node with
      | directory => rfl
      | link target => rfl
      | file contents =>
          have clean : holdsNull path = false :=
            Path.holdsNull_of_clean fun part member => (sound.named _ _ found part member).2.2
          have reaches : tree.locate directory true path = .ok path.parts ∨
              tree.locate directory true path = .error .nameTooLong :=
            locate_of_get? sound free straight found
          rcases reaches with located | long
          · cases noFile.symm.trans (isFile_eq_true.mpr ⟨clean, _, contents, located, found⟩)
          · cases noFile.symm.trans (isFile_eq_error.mpr ⟨clean, long, rfl⟩)

theorem unlink_accepted (accepted : tree.refusal? directory path = none) :
    ∃ answer left, tree.unlink directory path = (.ok answer, left) ∧
      tree.HasCleared left [path.parts] := by
  obtain ⟨answer, asked⟩ := refusal?_eq_none.mp accepted
  cases answer with
  | false =>
      refine ⟨false, tree, by simp only [unlink, asked], fun location => ?_⟩
      split
      · rename_i here
        rw [List.mem_singleton.mp here, withoutFile_of_isFile sound free straight asked]
      · rfl
  | true =>
      obtain ⟨left, gone, cleared⟩ := unlink_of_isFile free asked
      rw [straight.place_eq] at cleared
      exact ⟨true, left, gone, cleared⟩

end Unlinking

/-- Trees with the same directories refuse the same paths. -/
theorem refusal?_congr (same : tree.SameDirectories other) (free : tree.IsLinkFree)
    (otherFree : other.IsLinkFree) (path : Path) :
    tree.refusal? directory path = other.refusal? directory path := by
  have iff (fault : FileFault) : tree.refusal? directory path = some fault ↔
      other.refusal? directory path = some fault := by
    rw [refusal?_eq_some, refusal?_eq_some, isFile_eq_error, isFile_eq_error]
    constructor
    · rintro ⟨clean, long, isFault⟩
      exact ⟨clean, locate_tooLong (free.isClear _) long (same.keeps _), isFault⟩
    · rintro ⟨clean, long, isFault⟩
      exact ⟨clean, locate_tooLong (otherFree.isClear _) long (same.symm.keeps _), isFault⟩
  exact Option.ext iff

/-- The files at paths go one by one, up to the first path that is refused. The paths of those that
are gone are told. -/
def unlinkAll (directory : Location) (tree : Tree) :
    List Path → Except FileFault (List Path) × Tree
  | [] => (.ok [], tree)
  | path :: rest =>
      match tree.unlink directory path with
      | (.error fault, left) => (.error fault, left)
      | (.ok removed, left) =>
          match unlinkAll directory left rest with
          | (.error fault, last) => (.error fault, last)
          | (.ok others, last) => (.ok (if removed then path :: others else others), last)

/-- The first refusal among paths. -/
def refusalAmong? (tree : Tree) (directory : Location) (paths : List Path) : Option FileFault :=
  paths.findSome? (tree.refusal? directory)

/-- The paths before the first one that is refused. -/
def accepted (tree : Tree) (directory : Location) (paths : List Path) : List Path :=
  paths.takeWhile fun path => tree.refusal? directory path = none

section Removing

theorem refusalAmong?_congr (same : tree.SameDirectories other) (free : tree.IsLinkFree)
    (otherFree : other.IsLinkFree) (paths : List Path) :
    tree.refusalAmong? directory paths = other.refusalAmong? directory paths := by
  rw [refusalAmong?, funext (refusal?_congr same free otherFree), refusalAmong?]

theorem accepted_congr (same : tree.SameDirectories other) (free : tree.IsLinkFree)
    (otherFree : other.IsLinkFree) (paths : List Path) :
    tree.accepted directory paths = other.accepted directory paths := by
  rw [accepted, funext (refusal?_congr same free otherFree), accepted]

theorem accepted_eq_self {paths : List Path} (all : tree.refusalAmong? directory paths = none) :
    tree.accepted directory paths = paths := by
  rw [refusalAmong?, List.findSome?_eq_none_iff] at all
  rw [accepted, List.takeWhile_eq_self_iff]
  exact fun path member => decide_eq_true (all path member)

/-- The files at the accepted paths are gone, and a refused path is the failure. -/
theorem unlinkAll_spec {paths : List Path} (sound : tree.IsSound) (free : tree.IsLinkFree)
    (straight : ∀ path ∈ paths, path.IsStraight) :
    tree.HasCleared (tree.unlinkAll directory paths).2
        ((tree.accepted directory paths).map Path.parts) ∧
      match tree.refusalAmong? directory paths with
      | some fault => (tree.unlinkAll directory paths).1 = .error fault
      | none => ∃ removed, (tree.unlinkAll directory paths).1 = .ok removed := by
  induction paths generalizing tree with
  | nil => exact ⟨fun location => by simp [accepted, unlinkAll], [], rfl⟩
  | cons path rest inductionHypothesis =>
      cases refused : tree.refusal? directory path with
      | some fault =>
          have isRefused := refusal?_eq_some.mp refused
          have stops : tree.unlinkAll directory (path :: rest) = (.error fault, tree) := by
            simp only [unlinkAll, unlink, isRefused]
          rw [stops]
          simp only [refusalAmong?, List.findSome?_cons, refused, accepted]
          exact ⟨fun location => by simp [refused], trivial⟩
      | none =>
          obtain ⟨answer, left, first, cleared⟩ := unlink_accepted sound free
            (straight path List.mem_cons_self) refused
          have leftFree := cleared.isLinkFree free
          obtain ⟨clearedRest, outcome⟩ := inductionHypothesis (cleared.isSound sound) leftFree
            fun next member => straight next (List.mem_cons_of_mem path member)
          rw [← refusalAmong?_congr cleared.sameDirectories free leftFree] at outcome
          rw [← accepted_congr cleared.sameDirectories free leftFree] at clearedRest
          have before : tree.accepted directory (path :: rest) =
              path :: tree.accepted directory rest := by
            simp [accepted, refused]
          have among : tree.refusalAmong? directory (path :: rest) =
              tree.refusalAmong? directory rest := by
            simp [refusalAmong?, refused]
          rw [before, among, List.map_cons]
          rcases ends : left.unlinkAll directory rest with ⟨result, last⟩
          rw [ends] at clearedRest outcome
          have whole := cleared.append clearedRest
          rw [List.singleton_append] at whole
          cases result with
          | error fault =>
              simp only [unlinkAll, first, ends]
              refine ⟨whole, ?_⟩
              split
              · rename_i refusedWith
                rw [refusedWith] at outcome
                exact outcome
              · rename_i allAccepted
                rw [allAccepted] at outcome
                obtain ⟨removed, impossible⟩ := outcome
                cases impossible
          | ok removed =>
              simp only [unlinkAll, first, ends]
              refine ⟨whole, ?_⟩
              split
              · rename_i refusedWith
                rw [refusedWith] at outcome
                cases outcome
              · exact ⟨_, rfl⟩

end Removing

/-- The trees differ in nothing but files at the locations: which of them exist and what they
hold. -/
def DifferInFiles (tree other : Tree) (locations : List Location) : Prop :=
  ∀ location, tree.get? location = other.get? location ∨
    location ∈ locations ∧ withoutFile (tree.get? location) = none ∧
      withoutFile (other.get? location) = none

/-- A file more is a difference at its location. -/
theorem differInFiles_set {locations : List Location} {contents : Bytes}
    (vacant : tree.get? location = none) (isOne : location ∈ locations) (below : location ≠ []) :
    tree.DifferInFiles (tree.set location (.file contents)) locations := by
  intro asked
  rw [get?_set tree location asked _ below]
  by_cases here : location = asked
  · rw [if_pos here, ← here, vacant]
    exact Or.inr ⟨isOne, rfl, rfl⟩
  · rw [if_neg here]
    exact Or.inl rfl

namespace DifferInFiles

variable {locations : List Location} (differ : tree.DifferInFiles other locations)
include differ

theorem sameDirectories : tree.SameDirectories other := by
  intro location
  rcases differ location with same | ⟨-, noDirectory, otherNoDirectory⟩
  · rw [same]
  · constructor
    · intro found
      rw [found] at noDirectory
      cases noDirectory
    · intro found
      rw [found] at otherNoDirectory
      cases otherNoDirectory

/-- What is left without the files is alike. -/
theorem alike {otherLeft : Tree} (cleared : tree.HasCleared left locations)
    (otherCleared : other.HasCleared otherLeft locations) : left.Alike otherLeft := by
  intro location
  rw [cleared, otherCleared]
  rcases differ location with same | ⟨isOne, nothing, otherNothing⟩
  · rw [same]
  · rw [if_pos isOne, if_pos isOne, nothing, otherNothing]

end DifferInFiles

end Tree

end AssetBundler

import AssetBundler.Proofs.Selection.Search

/-!
Searches that take no step up. They come upon a file by the directories above it, so they find it in
each tree that holds a file there.
-/

namespace AssetBundler

namespace Glob

variable {tree other : Tree} {location : Location} {path found : Path} {name : String}

/-- A path that leads down to a location or to a directory above it. -/
def LeadsTo (location : Location) (path : Path) : Prop :=
  ".." ∉ path.parts ∧ path.place [] <+: location

theorem place_child (path : Path) (name : String) :
    (child path name).place [] = Tree.advance (path.place []) name := by
  rw [Path.place_root, Path.place_root]
  exact Tree.placeFrom_concat [] path.parts name

theorem leadsTo_of_child (leads : LeadsTo location (child path name)) : LeadsTo location path := by
  obtain ⟨level, above⟩ := leads
  have notUp : name ≠ ".." := fun same =>
    level (List.mem_append_right _ (List.mem_singleton.mpr same.symm))
  refine ⟨fun up => level (List.mem_append_left _ up), List.IsPrefix.trans ?_ above⟩
  rw [place_child, Tree.advance, if_neg notUp]
  split
  · exact List.prefix_refl _
  · exact List.prefix_append _ _

theorem isDirectoryAt_eq_true (free : tree.IsLinkFree) : isDirectoryAt tree path = true ↔
    tree.locate [] true path = .ok (path.place []) ∧
      tree.get? (path.place []) = some .directory := by
  unfold isDirectoryAt Tree.status
  cases located : tree.locate [] true path with
  | error refusal => simp [bind, Except.bind]
  | ok location =>
      obtain ⟨rfl, -⟩ := Tree.locate_place (free.isClear _) located
      cases found : tree.get? (path.place []) with
      | none => simp [bind, Except.bind, found]
      | some node => cases node <;> simp [bind, Except.bind, pure, Except.pure, found]

theorem isFileAt_eq_true (free : tree.IsLinkFree) : isFileAt tree path = true ↔
    tree.locate [] true path = .ok (path.place []) ∧
      ∃ contents, tree.get? (path.place []) = some (.file contents) := by
  unfold isFileAt Tree.status
  cases located : tree.locate [] true path with
  | error refusal => simp [bind, Except.bind]
  | ok location =>
      obtain ⟨rfl, -⟩ := Tree.locate_place (free.isClear _) located
      cases found : tree.get? (path.place []) with
      | none => simp [bind, Except.bind, found]
      | some node => cases node <;> simp [bind, Except.bind, pure, Except.pure, found]

theorem mem_namesIn (free : tree.IsLinkFree) : name ∈ namesIn tree path ↔
    isDirectoryAt tree path = true ∧ ∃ node, tree.get? (path.place [] ++ [name]) = some node := by
  rw [isDirectoryAt_eq_true free, namesIn]
  cases located : tree.locate [] true path with
  | error refusal => simp
  | ok location =>
      obtain ⟨rfl, -⟩ := Tree.locate_place (free.isClear _) located
      cases found : tree.get? (path.place []) with
      | none => simp [found]
      | some node => cases node <;> simp [found, Tree.mem_children]

section Leading

variable (sound : tree.IsSound) (otherSound : other.IsSound) {contents : Bytes}
  (isFile : tree.get? location = some (.file contents))
  (same : Tree.SameKind (tree.get? location) (other.get? location))
include sound otherSound isFile same

theorem agreesOn_of_leadsTo (leads : LeadsTo location path) :
    tree.AgreesOn other (path.entered []) := by
  apply Tree.agreesOn_above sound otherSound isFile same
  intro passed member
  rw [Path.entered_root] at member
  refine List.IsPrefix.trans ?_ leads.2
  rw [Path.place_root]
  exact Tree.prefix_of_mem_enteredFrom leads.1 member

variable (free : tree.IsLinkFree)
include free

theorem locate_of_leadsTo (leads : LeadsTo location path) :
    tree.locate [] true path = other.locate [] true path :=
  Tree.locate_congr (free.isClear _)
    (agreesOn_of_leadsTo sound otherSound isFile same leads)

variable (otherFree : other.IsLinkFree)
include otherFree

theorem isDirectoryAt_of_leadsTo (leads : LeadsTo location path)
    (isDirectory : isDirectoryAt tree path = true) : isDirectoryAt other path = true := by
  obtain ⟨located, found⟩ := (isDirectoryAt_eq_true free).mp isDirectory
  rw [locate_of_leadsTo sound otherSound isFile same free leads] at located
  have agree := Tree.agreesOn_above sound otherSound isFile same
    (List.forall_mem_singleton.mpr leads.2)
  exact (isDirectoryAt_eq_true otherFree).mpr
    ⟨located, (agree _ List.mem_cons_self).directory found⟩

theorem mem_namesIn_of_leadsTo (leads : LeadsTo location (child path name))
    (named : name ∈ namesIn tree path) : name ∈ namesIn other path := by
  obtain ⟨isDirectory, node, found⟩ := (mem_namesIn free).mp named
  obtain ⟨notHere, notUp, -⟩ := sound.named _ node found name
    (List.mem_append_right _ List.mem_cons_self)
  have above := leads.2
  rw [place_child, Tree.advance, if_neg notHere, if_neg notUp] at above
  have agree := Tree.agreesOn_above sound otherSound isFile same
    (List.forall_mem_singleton.mpr above)
  refine (mem_namesIn otherFree).mpr ⟨isDirectoryAt_of_leadsTo sound otherSound isFile same free
    otherFree (leadsTo_of_child leads) isDirectory, ?_⟩
  cases there : other.get? (path.place [] ++ [name]) with
  | none => cases found.symm.trans ((agree _ List.mem_cons_self).symm.none there)
  | some otherNode => exact ⟨otherNode, rfl⟩

/-- A search comes upon a path to a file wherever a file stands there. -/
theorem mem_followAll_of_leadsTo {start : Path} {segments : List String}
    (leads : LeadsTo location found) (member : found ∈ followAll tree [start] segments) :
    found ∈ followAll other [start] segments :=
  mem_followAll_of_counts (fun _ _ => leadsTo_of_child)
    (fun _ => isDirectoryAt_of_leadsTo sound otherSound isFile same free otherFree)
    (fun _ _ => mem_namesIn_of_leadsTo sound otherSound isFile same free otherFree)
    (fun _ isStart _ => isStart) leads member

end Leading

/-- An absolute path without steps up. -/
def IsDownward (path : Path) : Prop := path.isAbsolute = true ∧ ".." ∉ path.parts

theorem isDownward_child (downward : IsDownward path) (notUp : name ≠ "..") :
    IsDownward (child path name) := by
  refine ⟨downward.1, fun up => ?_⟩
  rcases List.mem_append.mp up with before | last
  · exact downward.2 before
  · exact notUp (List.mem_singleton.mp last).symm

/-- A search that takes no step up goes downward only. -/
theorem isDownward_of_mem_followAll {start : Path} {segments : List String} (sound : tree.IsSound)
    (free : tree.IsLinkFree) (downward : IsDownward start) (level : ".." ∉ segments)
    (member : found ∈ followAll tree [start] segments) : IsDownward found := by
  have named (path : Path) (name : String) (kept : IsDownward path)
      (named : name ∈ namesIn tree path) : IsDownward (child path name) := by
    obtain ⟨-, node, there⟩ := (mem_namesIn free).mp named
    exact isDownward_child kept
      (sound.named _ node there name (List.mem_append_right _ List.mem_cons_self)).2.1
  refine keeps_of_mem_followAll named ?_ (List.forall_mem_singleton.mpr downward) member
  intro path kept segment isSegment
  exact isDownward_child kept fun same => level (same ▸ isSegment)

/-- A file that was found is normalized to its location. -/
theorem normalize_of_file (sound : tree.IsSound) (downward : IsDownward path) {node : Node}
    (there : tree.get? (path.place []) = some node) :
    path.normalize.place [] = path.place [] ∧ path.normalize.parts = path.place [] := by
  have named := sound.named _ node there
  have same := Path.normalize_of_clean downward.1 fun name member => (named name member).2.2
  have plain : path.normalize.IsPlain := by
    rw [same]
    exact fun name member => ⟨(named name member).1, (named name member).2.1⟩
  rw [plain.place_eq, same]
  exact ⟨rfl, rfl⟩

/-- Where the segments with wildcards are followed from. -/
def searchStart (base : Path) (pattern : String) : Path :=
  startOf base pattern (splitMagic ((Text.splitOn '/' pattern).filter (· != ""))).1

def searchSegments (pattern : String) : List String :=
  (splitMagic ((Text.splitOn '/' pattern).filter (· != ""))).2

/-- The files that a search comes upon. -/
def searched (tree : Tree) (base : Path) (pattern : String) : List Path :=
  (followAll tree [searchStart base pattern] (searchSegments pattern)).filter (isFileAt tree)

/-- A search fails or finds nothing whatever the tree, or it finds the files that it comes upon. -/
theorem files_cases (tree other : Tree) (base : Path) (pattern : String) :
    (∃ fault, Tree.holdsNull (searchStart base pattern) = true ∧
        files tree base pattern = .error fault ∧ files other base pattern = .error fault) ∨
      (files tree base pattern = .ok [] ∧ files other base pattern = .ok []) ∨
      (files tree base pattern = .ok (searched tree base pattern) ∧
        files other base pattern = .ok (searched other base pattern)) := by
  simp only [files, searched, searchStart, searchSegments]
  split
  · rename_i holds
    split
    · exact Or.inr (Or.inl ⟨rfl, rfl⟩)
    · exact Or.inl ⟨.nullCharacter, holds, rfl, rfl⟩
  · split
    · exact Or.inr (Or.inl ⟨rfl, rfl⟩)
    · exact Or.inr (Or.inr ⟨rfl, rfl⟩)

theorem level_searchLiteral {pattern : String} (level : ".." ∉ Text.splitOn '/' pattern) :
    ".." ∉ (splitMagic ((Text.splitOn '/' pattern).filter (· != ""))).1 := fun up =>
  level (List.mem_of_mem_filter (List.takeWhile_subset _ up))

theorem isDownward_searchStart {base : Path} {pattern : String} (downward : IsDownward base)
    (level : ".." ∉ Text.splitOn '/' pattern) : IsDownward (searchStart base pattern) := by
  have levelLiteral := level_searchLiteral level
  unfold searchStart startOf
  split
  · refine ⟨downward.1, fun up => ?_⟩
    rcases List.mem_append.mp up with inBase | inLiteral
    · exact downward.2 inBase
    · exact levelLiteral inLiteral
  · rename_i notHere
    exact ⟨by simpa [Path.isAbsolute] using notHere, levelLiteral⟩

theorem level_searchSegments {pattern : String} (level : ".." ∉ Text.splitOn '/' pattern) :
    ".." ∉ searchSegments pattern := fun up =>
  level (List.mem_of_mem_filter ((List.dropWhile_sublist _).subset up))

section Searching

variable {base : Path} {pattern : String} (sound : tree.IsSound) (free : tree.IsLinkFree)
  (downward : IsDownward base) (level : ".." ∉ Text.splitOn '/' pattern)
  (member : found ∈ searched tree base pattern)
include sound free downward level member

theorem file_of_mem_searched : IsDownward found ∧
    ∃ contents, tree.get? (found.place []) = some (.file contents) := by
  obtain ⟨reached, isFile⟩ := List.mem_filter.mp member
  exact ⟨isDownward_of_mem_followAll sound free (isDownward_searchStart downward level)
    (level_searchSegments level) reached, ((isFileAt_eq_true free).mp isFile).2⟩

/-- A file is found in each tree that holds a file there. -/
theorem mem_searched_of_sameKind (otherSound : other.IsSound) (otherFree : other.IsLinkFree)
    (same : Tree.SameKind (tree.get? (found.place [])) (other.get? (found.place []))) :
    found ∈ searched other base pattern := by
  obtain ⟨isDownward, contents, there⟩ := file_of_mem_searched sound free downward level member
  obtain ⟨reached, isFile⟩ := List.mem_filter.mp member
  have leads : LeadsTo (found.place []) found := ⟨isDownward.2, List.prefix_refl _⟩
  refine List.mem_filter.mpr ⟨mem_followAll_of_leadsTo sound otherSound there same free otherFree
    leads reached, (isFileAt_eq_true otherFree).mpr ⟨?_, same.file there⟩⟩
  rw [← locate_of_leadsTo sound otherSound there same free leads]
  exact ((isFileAt_eq_true free).mp isFile).1

end Searching

/-- Nothing is found below a directory that is missing. -/
theorem searched_of_missing {base : Path} {pattern : String} (sound : tree.IsSound)
    (free : tree.IsLinkFree) (downward : IsDownward base)
    (level : ".." ∉ Text.splitOn '/' pattern)
    (missing : tree.get? ((searchStart base pattern).place []) = none) :
    searched tree base pattern = [] := by
  refine List.eq_nil_iff_forall_not_mem.mpr fun found member => ?_
  obtain ⟨-, contents, isFile⟩ := file_of_mem_searched sound free downward level member
  let keeps (path : Path) : Prop := (searchStart base pattern).place [] <+: path.place []
  have further (path : Path) (name : String) (notUp : name ≠ "..") (kept : keeps path) :
      keeps (child path name) := by
    change _ <+: (child path name).place []
    rw [place_child, Tree.advance, if_neg notUp]
    split
    · exact kept
    · exact kept.trans (List.prefix_append _ _)
  have below : keeps found := by
    refine keeps_of_mem_followAll ?_ ?_ (List.forall_mem_singleton.mpr (List.prefix_refl _))
      (List.mem_of_mem_filter member)
    · intro path name kept named
      obtain ⟨-, node, there⟩ := (mem_namesIn free).mp named
      exact further path name
        (sound.named _ node there name (List.mem_append_right _ List.mem_cons_self)).2.1 kept
    · intro path kept segment isSegment
      exact further path segment (fun same => level_searchSegments level (same ▸ isSegment)) kept
  by_cases atEnd : (searchStart base pattern).place [] = found.place []
  · cases (atEnd ▸ missing).symm.trans isFile
  · cases missing.symm.trans (sound.above isFile below atEnd)

end Glob

end AssetBundler

import AssetBundler.Proofs.Builder.Alike
import AssetBundler.Proofs.FileSystem.Refusal
import AssetBundler.Proofs.FileSystem.Removal

/-!
Builds from a tree whose files of the bundle were removed. Such a build can be repeated: it leaves
its files over directories from which it would give and leave the same.
-/

namespace AssetBundler

namespace Tree

variable {tree made left : Tree} {way locations : List Location}

theorem GrowsTo.refl (sound : tree.IsSound) (free : tree.IsLinkFree) (way : List Location) :
    tree.GrowsTo tree way [] := ⟨sound, free, sound, free, fun _ => Or.inl rfl⟩

theorem Overwrites.refl (sound : tree.IsSound) (free : tree.IsLinkFree)
    (locations : List Location) : tree.Overwrites tree locations :=
  ⟨sound, free, fun _ => Or.inl rfl⟩

theorem Overwrites.mono {others : List Location} (overwrites : tree.Overwrites left locations)
    (among : ∀ location ∈ locations, location ∈ others) : tree.Overwrites left others :=
  ⟨overwrites.sound, overwrites.free, fun location =>
    (overwrites.get? location).imp_right fun ⟨isPlace, isFile⟩ =>
      ⟨among location isPlace, isFile⟩⟩

theorem GrowsTo.overwritten (growth : tree.GrowsTo made way [])
    (overwrites : made.Overwrites left locations) : tree.GrowsTo left way locations := by
  refine ⟨growth.sound, growth.free, overwrites.sound, overwrites.free, fun location => ?_⟩
  rcases overwrites.get? location with same | ⟨isPlace, isOpen, isFile⟩
  · rw [same]
    rcases growth.get? location with kept | isMade | ⟨impossible, -⟩
    · exact Or.inl kept
    · exact Or.inr (Or.inl isMade)
    · cases impossible
  · exact Or.inr (Or.inr ⟨isPlace, fun found => isOpen (growth.directory found), isFile⟩)

/-- Without the files that were put there, and which it had not before, the tree is what it was. -/
theorem Overwrites.alike_of_cleared {last : Tree} (overwrites : made.Overwrites left locations)
    (free : made.IsLinkFree) (cleared : left.HasCleared last locations)
    (noFiles : ∀ location ∈ locations, withoutFile (made.get? location) = made.get? location) :
    last.Alike made := by
  intro location
  rw [cleared]
  split
  · rename_i isPlace
    rcases overwrites.get? location with same | ⟨-, isOpen, contents, isFile⟩
    · rw [same, noFiles location isPlace]
    · rw [isFile, ← noFiles location isPlace]
      cases found : made.get? location with
      | none => rfl
      | some node =>
          cases node with
          | directory => exact absurd found isOpen
          | file others => rfl
          | link target => exact absurd found (free location target)
  · rename_i notPlace
    rcases overwrites.get? location with same | ⟨isPlace, -⟩
    · exact same
    · exact absurd isPlace notPlace

/-- Nothing is made where the destination stands already. -/
theorem HasMade.alike {here : Location} {target : Path} (done : tree.HasMade made here target)
    (sound : tree.IsSound) (straight : target.IsStraight)
    (stands : tree.get? (target.place here) = some .directory) : made.Alike tree := by
  intro location
  rw [done.get?]
  split
  · rename_i onWay
    have above := prefix_of_mem_entered straight onWay
    rw [straight.place_eq] at stands
    by_cases atEnd : location = target.parts
    · rw [atEnd, stands]
    · rw [sound.above stands above atEnd]
  · rfl

end Tree

namespace Path

variable {base : Path}

theorem IsStraight.joinText {name : String} (straight : base.IsStraight)
    (noSlash : '/' ∉ name.toList) (notUp : name ≠ "..") : (base.joinText name).IsStraight := by
  rw [Builder.joinText_eq noSlash]
  refine ⟨straight.absolute, fun part member => ?_⟩
  rcases List.mem_append.mp member with inBase | isName
  · exact straight.plain part inBase
  · obtain ⟨same, isPart⟩ := List.mem_filter.mp isName
    rw [List.mem_singleton.mp same] at isPart ⊢
    refine ⟨?_, notUp⟩
    rintro rfl
    exact absurd isPart (by decide +kernel)

/-- A folder without steps up lies straight below a straight path, or straight below the root. -/
theorem IsStraight.joinFolder {output folder name : String} (straight : base.IsStraight)
    (named : Output.split output = .ok (folder, name))
    (level : ".." ∉ Output.segments output) : (base.joinText folder).IsStraight := by
  have plain : ∀ part ∈ (ofString folder).parts, part ≠ "." ∧ part ≠ ".." := by
    intro part member
    have isSegment : part ∈ (Output.segments output).filter isPart := by
      rw [← Output.parts_of_split named]
      exact List.mem_append_left _ member
    obtain ⟨inOutput, isPart⟩ := List.mem_filter.mp isSegment
    constructor
    · rintro rfl
      exact absurd isPart (by decide +kernel)
    · rintro rfl
      exact level inOutput
  refine ⟨isAbsolute_join _ _ straight.absolute, fun part member => ?_⟩
  unfold Path.joinText join at member
  split at member
  · rcases List.mem_append.mp member with inBase | inFolder
    · exact straight.plain part inBase
    · exact plain part inFolder
  · exact plain part member

end Path

namespace Builder

theorem isStraight_artifact {base path : Path} {output folder name : String}
    (straight : base.IsStraight) (named : Output.split output = .ok (folder, name))
    (level : ".." ∉ Output.segments output)
    (member : path ∈ Output.artifactPaths base folder name) :
    path.IsStraight := by
  have target := straight.joinFolder named level
  have noSlash := Output.slash_not_mem_of_split named
  obtain ⟨artifact, isArtifact, rfl⟩ := List.mem_map.mp member
  simp only [Output.artifactNames, List.mem_cons, List.not_mem_nil, or_false] at isArtifact
  rcases isArtifact with rfl | rfl | rfl
  · refine target.joinText noSlash ?_
    rcases Output.isName_of_split named level with rfl | isName
    · decide
    · exact isName.notUp
  · have isName := Output.isName_mapName noSlash
    exact target.joinText isName.noSlash isName.notUp
  · have isName := Output.isName_gzipName noSlash
    exact target.joinText isName.noSlash isName.notUp

/-- The conditions under which a build can be repeated although it has made directories. Without a
destination no pattern may take a step up, and no pattern and no file of the bundle may ask for too
long a name right inside a directory that is made. -/
structure IsRepeatable (builder : Builder) (tree : Tree) (here : Location) (folder name : String) :
    Prop where
  level : tree.get? ((builder.base.joinText folder).place here) ≠ some .directory →
    ∀ compiler ∈ builder.compilers, Selection.LevelAll compiler.patterns
  fits : ∀ compiler ∈ builder.compilers, Selection.FitAll tree
    ((builder.base.joinText folder).entered here) (builder.sourceBase here) compiler.patterns
  artifacts : ∀ path ∈ Output.artifactPaths builder.base folder name,
    tree.Fits ((builder.base.joinText folder).entered here) path.parts

/-- What a path to a file in the destination fits into, the path to the destination fits into. -/
theorem IsRepeatable.target {builder : Builder} {tree : Tree} {here : Location}
    {folder name : String} (repeatable : builder.IsRepeatable tree here folder name)
    (noSlash : '/' ∉ name.toList) :
    tree.Fits ((builder.base.joinText folder).entered here)
      (builder.base.joinText folder).parts := by
  have isMap : (builder.base.joinText folder).joinText (Output.mapName name) ∈
      Output.artifactPaths builder.base folder name :=
    List.mem_map_of_mem (List.mem_cons_of_mem _ List.mem_cons_self)
  have fits := repeatable.artifacts _ isMap
  rw [joinText_eq (Output.isName_mapName noSlash).noSlash] at fits
  exact fun before isMade missing next start =>
    fits before isMade missing next (start.trans (List.prefix_append _ _))

theorem artifact_mem {builder : Builder} {name artifact : String}
    (member : artifact ∈ builder.artifactNames name) : artifact ∈ Output.artifactNames name := by
  unfold artifactNames at member
  revert member
  cases builder.sourceMaps <;> cases builder.gzip <;> simp [Output.artifactNames] <;> tauto

/-- The files of a bundle are among those that a build can write. -/
theorem path_of_file {builder : Builder} {here : Location} {folder name : String}
    {sources : List SourceFile} {text : String} {file : Path × Bytes}
    (member : file ∈ builder.files here folder name sources text) :
    file.1 ∈ Output.artifactPaths builder.base folder name := by
  obtain ⟨artifact, isArtifact, same⟩ := exists_artifact member
  exact same ▸ List.mem_map_of_mem (artifact_mem isArtifact)

section Repeating

variable {builder : Builder} {tree : Tree} {here : Location} {output folder name : String}
  (sound : tree.IsSound) (free : tree.IsLinkFree) (home : tree.get? here = some .directory)
  (clean : Tree.holdsNull builder.base = false) (straight : builder.base.IsStraight)
  (named : Output.split output = .ok (folder, name)) (level : ".." ∉ Output.segments output)
  (repeatable : builder.IsRepeatable tree here folder name)
include sound free home clean straight named level repeatable

/-- From the directories that a build has made it gives and leaves the same. -/
theorem assembled_of_made {made : Tree} {sources : List SourceFile} {text : String}
    (madeAs : tree.makeDirectories here (builder.base.joinText folder) = (.ok (), made))
    (done : tree.HasMade made here (builder.base.joinText folder))
    (compiledAs : builder.compiled tree here = .ok sources) (filled : sources ≠ [])
    (minifiedAs : builder.minified (joinSources sources) = .ok text) :
    Tree.SameOutcome (builder.assembled folder name made here)
      (builder.assembled folder name tree here) := by
  have target := straight.joinFolder named level
  by_cases stands : tree.get? ((builder.base.joinText folder).place here) = some .directory
  · exact assembled_of_alike (done.alike sound target stands) builder folder name here
  · have growth := done.growsTo sound free
    obtain ⟨equipped, partsAs⟩ := compiled_eq_ok.mp compiledAs
    have partsAgain := parts_of_growth growth (isDownward_sourceBase sound home clean)
      (repeatable.level stands) repeatable.fits partsAs fun _ _ _ _ _ _ => List.not_mem_nil
    have compiledAgain : builder.compiled made here = .ok sources :=
      compiled_eq_ok.mpr ⟨equipped, partsAgain⟩
    have isDirectory : made.isDirectory here (builder.base.joinText folder) = .ok true :=
      Tree.isDirectory_eq_true.mpr ⟨done.clean, _, done.located, done.reached⟩
    have madeAgain := Tree.makeDirectories_of_isDirectory (growth.grownFree.isClear _) isDirectory
    have same : builder.assembled folder name made here =
        builder.assembled folder name tree here := by
      rw [assembled_eq_delivered compiledAs filled minifiedAs,
        assembled_eq_delivered compiledAgain filled minifiedAs, delivered, delivered, Tree.deliver,
        Tree.deliver, madeAs, madeAgain]
    exact same ▸ ⟨rfl, .refl _⟩

/-- A build puts its files over directories from which it gives and leaves the same. -/
theorem exists_made : ∃ made : Tree,
    tree.GrowsTo made ((builder.base.joinText folder).entered here) [] ∧
      made.Overwrites (builder.assembled folder name tree here).2
        ((Output.artifactPaths builder.base folder name).map Path.parts) ∧
      Tree.SameOutcome (builder.assembled folder name made here)
        (builder.assembled folder name tree here) := by
  have unchanged (same : (builder.assembled folder name tree here).2 = tree) : ∃ made : Tree,
      tree.GrowsTo made ((builder.base.joinText folder).entered here) [] ∧
        made.Overwrites (builder.assembled folder name tree here).2
          ((Output.artifactPaths builder.base folder name).map Path.parts) ∧
        Tree.SameOutcome (builder.assembled folder name made here)
          (builder.assembled folder name tree here) :=
    ⟨tree, .refl sound free _, same.symm ▸ .refl sound free _, rfl, .refl _⟩
  have target := straight.joinFolder named level
  rcases builder.assembled_cases folder name tree here with
    ⟨failure, -, failed⟩ | ⟨-, empty⟩ | ⟨sources, failure, -, -, -, failed⟩ |
      ⟨sources, text, compiledAs, filled, minifiedAs, delivers⟩
  · exact unchanged (congrArg Prod.snd failed)
  · exact unchanged (congrArg Prod.snd empty)
  · exact unchanged (congrArg Prod.snd failed)
  · have leaves := congrArg Prod.snd delivers
    simp only [delivered, Tree.deliver] at leaves
    rcases madeAs : tree.makeDirectories here (builder.base.joinText folder) with ⟨result, made⟩
    rw [madeAs] at leaves
    cases result with
    | error fault =>
        have nothing := Tree.makeDirectories_refused sound free target
          (repeatable.target (Output.slash_not_mem_of_split named)) (congrArg Prod.fst madeAs)
        rw [madeAs] at nothing
        exact unchanged (leaves.trans nothing)
    | ok =>
        have done := Tree.hasMade_of_makeDirectories sound target.starts (free.isClear _) madeAs
        have growth := done.growsTo sound free
        have isStraight (file : Path × Bytes)
            (member : file ∈ builder.files here folder name sources text) : file.1.IsStraight :=
          isStraight_artifact straight named level (path_of_file member)
        have overwrites : made.Overwrites
            (made.writeFiles here (builder.files here folder name sources text)).2
            (Tree.places here (builder.files here folder name sources text)) :=
          Tree.overwrites_of_writeFiles growth.grownSound growth.grownFree fun file member =>
            (isStraight file member).starts
        refine ⟨made, growth, ?_, assembled_of_made sound free home clean straight named level
          repeatable madeAs done compiledAs filled minifiedAs⟩
        rw [leaves]
        refine overwrites.mono fun location isPlace => ?_
        obtain ⟨file, member, rfl⟩ := List.mem_map.mp isPlace
        rw [(isStraight file member).place_eq]
        exact List.mem_map_of_mem (path_of_file member)

/-- Once its files are removed, what a build has left gives and leaves the same again. -/
theorem assembled_again
    (accepted : tree.refusalAmong? here (Output.artifactPaths builder.base folder name) = none)
    (noFiles : ∀ location ∈ (Output.artifactPaths builder.base folder name).map Path.parts,
      Tree.withoutFile (tree.get? location) = tree.get? location) :
    tree.GrowsTo (builder.assembled folder name tree here).2
        ((builder.base.joinText folder).entered here)
        ((Output.artifactPaths builder.base folder name).map Path.parts) ∧
      (builder.assembled folder name tree here).2.refusalAmong? here
        (Output.artifactPaths builder.base folder name) = none ∧
      ∀ last, (builder.assembled folder name tree here).2.HasCleared last
          ((Output.artifactPaths builder.base folder name).map Path.parts) →
        Tree.SameOutcome (builder.assembled folder name last here)
          (builder.assembled folder name tree here) := by
  obtain ⟨made, growth, overwrites, same⟩ :=
    exists_made sound free home clean straight named level repeatable
  have growsTo := growth.overwritten overwrites
  refine ⟨growsTo, ?_, ?_⟩
  · rw [Tree.refusalAmong?, List.findSome?_eq_none_iff] at accepted ⊢
    intro path member
    have isStraight := isStraight_artifact straight named level member
    cases refused : (builder.assembled folder name tree here).2.refusal? here path with
    | none => rfl
    | some fault =>
        have isRefused := Tree.refusal?_eq_some.mp refused
        rw [Tree.isFile_straight isStraight []] at isRefused
        have wasRefused := growsTo.isFile_error_back (fun step => (isStraight.plain _ step).1 rfl)
          (fun up => (isStraight.plain _ (List.dropLast_subset _ up)).2 rfl)
          (repeatable.artifacts path member) isRefused
        rw [Tree.isFile_straight isStraight here] at wasRefused
        cases (accepted path member).symm.trans (Tree.refusal?_eq_some.mpr wasRefused)
  · intro last cleared
    have madeNoFiles : ∀ location ∈ (Output.artifactPaths builder.base folder name).map Path.parts,
        Tree.withoutFile (made.get? location) = made.get? location := by
      intro location isPlace
      rcases growth.get? location with kept | ⟨-, -, isDirectory⟩ | ⟨impossible, -⟩
      · rw [kept, noFiles location isPlace]
      · rw [isDirectory]
        rfl
      · cases impossible
    have alike := overwrites.alike_of_cleared growth.grownFree cleared madeNoFiles
    have once := assembled_of_alike alike builder folder name here
    exact ⟨once.1.trans same.1, once.2.trans same.2⟩

end Repeating

end Builder

end AssetBundler

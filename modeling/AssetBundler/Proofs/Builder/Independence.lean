import AssetBundler.Proofs.Builder.Repetition
import AssetBundler.Proofs.FileSystem.Alongside
import AssetBundler.Proofs.Selection.Matching

/-!
Independence of an assembly from another one. A tree grows by an assembly whatever this gives, and
an assembly that keeps clear of what has grown gives the same before and after.
-/

namespace AssetBundler

namespace Tree

variable {tree grown made : Tree} {directory : Location} {path : Path} {way stored : List Location}

theorem GrowsTo.mono {others : List Location} {more : List Location}
    (growth : tree.GrowsTo grown way stored) (isWay : ∀ location ∈ way, location ∈ others)
    (isStored : ∀ location ∈ stored, location ∈ more) : tree.GrowsTo grown others more := by
  refine ⟨growth.sound, growth.free, growth.grownSound, growth.grownFree, fun location => ?_⟩
  exact (growth.get? location).imp_right (Or.imp (And.imp_left (isWay location))
    (And.imp_left (isStored location)))

/-- Directories that are made are all that has grown, also when not all of them could be made. -/
theorem growsTo_of_makeDirectories (sound : tree.IsSound) (free : tree.IsLinkFree)
    (starts : tree.get? (path.start directory) = some .directory) :
    tree.GrowsTo (tree.makeDirectories directory path).2 (path.entered directory) [] := by
  fun_induction makeDirectories tree directory path with
  | case1 path made stored =>
      exact (hasMade_of_makeDirectory sound starts (free.isClear _) stored).growsTo sound free
  | case2 => exact .refl sound free _
  | case3 path cause missing deep fault left above inductionHypothesis
  | case5 path cause missing deep left above other again inductionHypothesis =>
      have growth := inductionHypothesis starts
      rw [above] at growth
      exact growth.mono (fun _ member => path.entered_parent_subset directory member) fun _ => id
  | case4 path cause missing deep left above made stored inductionHypothesis =>
      have first : tree.HasMade left directory path.parent :=
        hasMade_of_makeDirectories sound starts (free.isClear _) above
      have second := hasMade_of_makeDirectory first.sound (first.get?_directory starts)
        (first.isClear (free.isClear _)) stored
      exact (first.trans second).growsTo sound free
  | case6 path cause missing deep left above other _ again inductionHypothesis =>
      have growth := inductionHypothesis starts
      rw [above] at growth
      rw [forgive_snd]
      exact growth.mono (fun _ member => path.entered_parent_subset directory member) fun _ => id
  | case7 path fault present =>
      rw [forgive_snd]
      exact .refl sound free _

theorem growsTo_of_deliver {target : Path} {files : List (Path × Bytes)} (sound : tree.IsSound)
    (free : tree.IsLinkFree) (starts : tree.get? (target.start directory) = some .directory)
    (fileStarts : ∀ file ∈ files, tree.get? (file.1.start directory) = some .directory) :
    tree.GrowsTo (tree.deliver directory target files).2 (target.entered directory)
      (places directory files) := by
  have growth := @growsTo_of_makeDirectories tree directory target sound free starts
  unfold deliver
  rcases makes : tree.makeDirectories directory target with ⟨result, made⟩
  rw [makes] at growth
  cases result with
  | error fault => exact growth.mono (fun _ => id) (by simp)
  | ok =>
      have overwrites : made.Overwrites (made.writeFiles directory files).2
          (places directory files) :=
        overwrites_of_writeFiles growth.grownSound growth.grownFree fun file member =>
          growth.directory (fileStarts file member)
      exact growth.overwritten overwrites

end Tree

namespace Builder

variable {builder : Builder} {tree grown : Tree} {here : Location} {output folder name : String}
  {made stored : List Location}

/-- An artifact lies in the destination, or it is the destination itself. -/
theorem parts_of_artifact {path : Path} (noSlash : '/' ∉ name.toList)
    (member : path ∈ Output.artifactPaths builder.base folder name) :
    path.parts.dropLast <+: (builder.base.joinText folder).parts ∧
      (builder.base.joinText folder).parts <+: path.parts := by
  obtain ⟨artifact, isArtifact, rfl⟩ := List.mem_map.mp member
  have noSlashArtifact : '/' ∉ artifact.toList := by
    simp only [Output.artifactNames, List.mem_cons, List.not_mem_nil, or_false] at isArtifact
    rcases isArtifact with rfl | rfl | rfl
    · exact noSlash
    · exact (Output.isName_mapName noSlash).noSlash
    · exact (Output.isName_gzipName noSlash).noSlash
  rw [joinText_eq noSlashArtifact]
  by_cases isPart : Path.isPart artifact = true
  · simp [isPart]
  · simp [isPart, List.dropLast_prefix]

/-- An assembly leaves the tree as it was or delivers files to it. -/
theorem assembled_eq_or_deliver (builder : Builder) (folder name : String) (tree : Tree)
    (here : Location) :
    (builder.assembled folder name tree here).2 = tree ∨
      ∃ sources text, (builder.assembled folder name tree here).2 =
        (tree.deliver here (builder.base.joinText folder)
          (builder.files here folder name sources text)).2 := by
  rcases builder.assembled_cases folder name tree here with
    ⟨failure, -, same⟩ | ⟨-, same⟩ | ⟨sources, failure, -, -, -, same⟩ |
      ⟨sources, text, -, -, -, same⟩
  · exact Or.inl (congrArg Prod.snd same)
  · exact Or.inl (congrArg Prod.snd same)
  · exact Or.inl (congrArg Prod.snd same)
  · exact Or.inr ⟨sources, text, congrArg Prod.snd same⟩

/-- By an assembly a tree grows by the destination and by artifacts at most. -/
theorem growsTo_of_assembled (noSlash : '/' ∉ name.toList)
    (starts : tree.get? ((builder.base.joinText folder).start here) = some .directory)
    (sound : tree.IsSound) (free : tree.IsLinkFree) :
    tree.GrowsTo (builder.assembled folder name tree here).2
      ((builder.base.joinText folder).entered here)
      ((Output.artifactPaths builder.base folder name).map fun path => path.place here) := by
  rcases builder.assembled_eq_or_deliver folder name tree here with same | ⟨sources, text, same⟩
  · rw [same]
    exact (Tree.GrowsTo.refl sound free _).mono (fun _ => id) (by simp)
  · rw [same]
    refine (Tree.growsTo_of_deliver sound free starts ?_).mono (fun _ => id) ?_
    · exact fun file => starts_of_file noSlash starts
    · intro location isPlace
      obtain ⟨file, member, rfl⟩ := List.mem_map.mp isPlace
      exact List.mem_map_of_mem (path_of_file member)

/-- The artifacts of a straight directory stand where their parts say. -/
theorem growsTo_of_straight (straight : builder.base.IsStraight)
    (named : Output.split output = .ok (folder, name)) (level : ".." ∉ Output.segments output)
    (sound : tree.IsSound) (free : tree.IsLinkFree) :
    tree.GrowsTo (builder.assembled folder name tree here).2
      ((builder.base.joinText folder).entered here)
      ((Output.artifactPaths builder.base folder name).map Path.parts) := by
  have places : (Output.artifactPaths builder.base folder name).map (fun path => path.place here) =
      (Output.artifactPaths builder.base folder name).map Path.parts :=
    List.map_congr_left fun path member =>
      (isStraight_artifact straight named level member).place_eq
  rw [← places]
  exact growsTo_of_assembled (Output.slash_not_mem_of_split named)
    (straight.joinFolder named level).starts sound free

/-- What a builder selects and writes keeps clear of directories that are made and of files that are
stored. -/
structure KeepsClear (builder : Builder) (tree : Tree) (here : Location) (folder name : String)
    (made stored : List Location) : Prop where
  level : ∀ compiler ∈ builder.compilers, Selection.LevelAll compiler.patterns
  fits : ∀ compiler ∈ builder.compilers, Selection.FitAll tree made (builder.sourceBase here)
    compiler.patterns
  unmatched : ∀ compiler ∈ builder.compilers, ∀ pattern ∈ compiler.patterns,
    ∀ location ∈ stored, ¬ Selection.Matches (builder.sourceBase here) pattern location
  unmade : ∀ path ∈ Output.artifactPaths builder.base folder name, path.parts ∉ made
  apart : ∀ path ∈ Output.artifactPaths builder.base folder name, ∀ location ∈ stored,
    ¬ location <+: path.parts
  artifacts : ∀ path ∈ Output.artifactPaths builder.base folder name, tree.Fits made path.parts

section Clear

variable (growth : tree.GrowsTo grown made stored) (home : tree.get? here = some .directory)
  (clean : Tree.holdsNull builder.base = false)
  (keeps : builder.KeepsClear tree here folder name made stored)
include growth home clean keeps

/-- The sources are compiled alike, be it with success or not. -/
theorem compiled_of_clear : builder.compiled grown here = builder.compiled tree here := by
  have downward := isDownward_sourceBase growth.sound home clean
  have same : builder.parts tree (builder.sourceBase here) =
      builder.parts grown (builder.sourceBase here) := by
    refine parts_congr fun compiler member => ?_
    have selects := Selection.expand_of_unmatched growth downward (keeps.level compiler member)
      (keeps.fits compiler member) (keeps.unmatched compiler member)
    refine Compiler.parts_congr selects.symm fun selected isSelected path inSelected => ?_
    obtain ⟨levelPath, contents, isFile⟩ := Selection.file_of_selected growth.sound growth.free
      downward (keeps.level compiler member) isSelected inSelected
    obtain ⟨pattern, isPattern, isMatch⟩ :=
      Selection.matches_of_selected growth.sound growth.free isSelected inSelected
    exact (Selection.read_of_growth growth levelPath isFile fun isStored =>
      keeps.unmatched compiler member pattern isPattern _ isStored isMatch).symm
  rw [compiled, compiled, same]

/-- An assembly that keeps clear of what has grown gives the same after it, and it leaves the trees
with the difference that they had. -/
theorem assembled_of_clear (straight : builder.base.IsStraight)
    (named : Output.split output = .ok (folder, name)) (level : ".." ∉ Output.segments output) :
    (builder.assembled folder name grown here).1 = (builder.assembled folder name tree here).1 ∧
      (Overlay.ofGrowth growth).IsOver (builder.assembled folder name tree here).2
        (builder.assembled folder name grown here).2 := by
  have lies := Overlay.isOver_ofGrowth growth
  have noSlash := Output.slash_not_mem_of_split named
  have isClear (path : Path) (member : path ∈ Output.artifactPaths builder.base folder name) :
      (Overlay.ofGrowth growth).IsClearOf tree path.parts :=
    ⟨fun location onWay isStored => keeps.apart path member location isStored onWay,
      keeps.artifacts path member⟩
  unfold assembled
  rw [compiled_of_clear growth home clean keeps]
  split
  · exact ⟨rfl, lies⟩
  · exact ⟨rfl, lies⟩
  · unfold bundled
    split
    · exact ⟨rfl, lies⟩
    · next first rest _ _ text _ =>
      have isMap : (builder.base.joinText folder).joinText (Output.mapName name) ∈
          Output.artifactPaths builder.base folder name :=
        List.mem_map_of_mem (List.mem_cons_of_mem _ List.mem_cons_self)
      have clearTarget := (isClear _ isMap).above (parts_of_artifact noSlash isMap).2
      obtain ⟨same, still⟩ := @Overlay.IsOver.deliver _ _ _ lies here
        (builder.base.joinText folder) (builder.files here folder name (first :: rest) text)
        (straight.joinFolder named level) clearTarget
        (fun file member => (parts_of_artifact noSlash (path_of_file member)).1)
        (fun file member => isStraight_artifact straight named level (path_of_file member))
        (fun file member => ⟨keeps.unmade _ (path_of_file member), isClear _ (path_of_file member)⟩)
      exact ⟨by simp only [delivered, same], still⟩

end Clear

end Builder

end AssetBundler

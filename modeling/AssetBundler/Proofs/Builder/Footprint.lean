import AssetBundler.Proofs.Builder.Effect
import AssetBundler.Proofs.FileSystem.Stored
import AssetBundler.Proofs.Gzip.Unpacking

/-!
All that a build changes. The missing directories on the way to the destination are made, the bundle
is written there with what its switches ask for, and nothing else is touched.
-/

namespace AssetBundler

namespace Path

/-- A text that names an entry of a directory. -/
structure IsName (text : String) : Prop where
  noSlash : '/' ∉ text.toList
  isPart : isPart text = true
  notUp : text ≠ ".."

theorem IsName.notHere {text : String} (isName : IsName text) : text ≠ "." := by
  rintro rfl
  exact absurd isName.isPart (by decide +kernel)

theorem IsName.filled {text : String} (isName : IsName text) : text ≠ "" := by
  rintro rfl
  exact absurd isName.isPart (by decide +kernel)

/-- A text of three characters or more is a name unless it holds a slash. -/
theorem isName_of_length {text : String} (noSlash : '/' ∉ text.toList)
    (long : 3 ≤ text.toList.length) : IsName text := by
  have apart {other : String} (short : other.toList.length < 3) : text ≠ other := by
    rintro rfl
    omega
  refine ⟨noSlash, ?_, apart (by decide)⟩
  simp only [Path.isPart, bne_iff_ne, Bool.and_eq_true]
  exact ⟨apart (by decide), apart (by decide)⟩

variable (target : Path) (directory : Location) {name : String}

theorem start_joinText (noSlash : '/' ∉ name.toList) :
    (target.joinText name).start directory = target.start directory := by
  rw [Builder.joinText_eq noSlash]
  rfl

theorem joinText_here : target.joinText "." = target := by
  have dropped : ["."].filter isPart = [] := by decide +kernel
  rw [Builder.joinText_eq (by decide), dropped, List.append_nil]

/-- A name is one part more. -/
theorem joinText_of_isName (isName : IsName name) :
    target.joinText name = ⟨target.anchor, target.parts ++ [name]⟩ := by
  rw [Builder.joinText_eq isName.noSlash, List.filter_cons_of_pos isName.isPart, List.filter_nil]

/-- A text without a slash is one step on. -/
theorem place_joinText_eq_advance (noSlash : '/' ∉ name.toList) (filled : name ≠ "") :
    (target.joinText name).place directory = Tree.advance (target.place directory) name := by
  rw [place, start_joinText target directory noSlash, Builder.joinText_eq noSlash]
  by_cases part : isPart name = true
  · rw [List.filter_cons_of_pos part, List.filter_nil, Tree.placeFrom, List.foldl_concat]
    rfl
  · have isHere : name = "." := by simpa [isPart, filled] using part
    rw [List.filter_cons_of_neg part, List.filter_nil, List.append_nil, isHere, Tree.advance,
      if_pos rfl]
    rfl

/-- A name lies in the directory that it is joined to. -/
theorem place_joinText (isName : IsName name) :
    (target.joinText name).place directory = target.place directory ++ [name] := by
  rw [place_joinText_eq_advance target directory isName.noSlash isName.filled, Tree.advance,
    if_neg isName.notHere, if_neg isName.notUp]

theorem entered_joinText (isName : IsName name) :
    (target.joinText name).entered directory =
      target.entered directory ++ [target.place directory ++ [name]] := by
  rw [entered, start_joinText target directory isName.noSlash, joinText_of_isName target isName,
    Tree.enteredFrom_concat, if_neg (not_or.mpr ⟨isName.notHere, isName.notUp⟩)]
  rfl

end Path

namespace Output

/-- Without a segment for a step up the file name is a name, or a point. -/
theorem isName_of_split {output folder name : String} (accepted : split output = .ok (folder, name))
    (level : ".." ∉ segments output) : name = "." ∨ Path.IsName name := by
  by_cases isPart : Path.isPart name = true
  · right
    have member : name ∈ (segments output).filter Path.isPart := by
      rw [← parts_of_split accepted, List.filter_cons_of_pos isPart]
      exact List.mem_append_right _ List.mem_cons_self
    refine ⟨slash_not_mem_of_split accepted, isPart, ?_⟩
    rintro rfl
    exact level (List.mem_of_mem_filter member)
  · left
    have filled := (split_cases accepted).1
    simpa [Path.isPart, filled] using isPart

theorem isName_mapName {name : String} (noSlash : '/' ∉ name.toList) :
    Path.IsName (mapName name) := by
  apply Path.isName_of_length
  · simpa [mapName] using noSlash
  · simp [mapName]

theorem isName_gzipName {name : String} (noSlash : '/' ∉ name.toList) :
    Path.IsName (gzipName name) := by
  apply Path.isName_of_length
  · simpa [gzipName] using noSlash
  · simp [gzipName]

end Output

namespace Builder

variable {builder : Builder} {output folder name : String} {tree left : Tree}
  {directory : Location} {sources : List SourceFile} {text : String}

/-- The names of the files that a build writes. -/
def artifactNames (builder : Builder) (name : String) : List String :=
  (if builder.sourceMaps then [Output.mapName name] else []) ++
    (if builder.gzip then [Output.gzipName name] else []) ++ [name]

theorem paths_files (builder : Builder) (directory : Location) (folder name : String)
    (sources : List SourceFile) (text : String) :
    (builder.files directory folder name sources text).map Prod.fst =
      (builder.artifactNames name).map (builder.base.joinText folder).joinText := by
  unfold files artifacts mapFile? gzipFile? artifactNames
  cases builder.sourceMaps <;> cases builder.gzip <;> rfl

theorem artifactNames_nodup (builder : Builder) (name : String) :
    (builder.artifactNames name).Nodup := by
  unfold artifactNames
  cases builder.sourceMaps <;> cases builder.gzip <;>
    simp [(Output.name_ne_mapName name).symm, (Output.name_ne_gzipName name).symm,
      (Output.gzipName_ne_mapName name).symm]

theorem isName_of_artifact {artifact : String} (isName : Path.IsName name)
    (member : artifact ∈ builder.artifactNames name) : Path.IsName artifact := by
  have among : artifact ∈ Output.artifactNames name := by
    unfold artifactNames at member
    revert member
    cases builder.sourceMaps <;> cases builder.gzip <;> simp [Output.artifactNames] <;> tauto
  simp only [Output.artifactNames, List.mem_cons, List.not_mem_nil, or_false] at among
  rcases among with rfl | rfl | rfl
  · exact isName
  · exact Output.isName_mapName isName.noSlash
  · exact Output.isName_gzipName isName.noSlash

theorem places_files (isName : Path.IsName name) (builder : Builder) (directory : Location)
    (folder : String) (sources : List SourceFile) (text : String) :
    Tree.places directory (builder.files directory folder name sources text) =
      (builder.artifactNames name).map fun artifact =>
        (builder.base.joinText folder).place directory ++ [artifact] := by
  have placed : Tree.places directory (builder.files directory folder name sources text) =
      ((builder.files directory folder name sources text).map Prod.fst).map
        (Path.place · directory) := by
    rw [Tree.places, List.map_map]
    rfl
  rw [placed, paths_files, List.map_map]
  apply List.map_congr_left
  intro artifact member
  exact Path.place_joinText _ directory (isName_of_artifact isName member)

theorem places_nodup (isName : Path.IsName name) :
    (Tree.places directory (builder.files directory folder name sources text)).Nodup := by
  rw [places_files isName]
  apply (builder.artifactNames_nodup name).map
  intro first second same
  simpa using same

/-- No link stands on the way to any file that a build writes. -/
def IsClear (builder : Builder) (tree : Tree) (directory : Location) (folder name : String) :
    Prop :=
  ∀ artifact ∈ builder.artifactNames name,
    tree.IsClear (((builder.base.joinText folder).joinText artifact).entered directory)

/-- Each file that a build writes lies in its target. -/
theorem exists_artifact {file : Path × Bytes}
    (member : file ∈ builder.files directory folder name sources text) :
    ∃ artifact ∈ builder.artifactNames name,
      (builder.base.joinText folder).joinText artifact = file.1 := by
  have among := List.mem_map_of_mem (f := Prod.fst) member
  rwa [paths_files, List.mem_map] at among

theorem name_mem_artifactNames (builder : Builder) (name : String) :
    name ∈ builder.artifactNames name := List.mem_append_right _ List.mem_cons_self

theorem noSlash_of_artifact {artifact : String} (noSlash : '/' ∉ name.toList)
    (member : artifact ∈ builder.artifactNames name) : '/' ∉ artifact.toList := by
  simp only [artifactNames, List.mem_append, List.mem_singleton] at member
  rcases member with (isMap | isPacked) | rfl
  · split at isMap
    · rw [List.mem_singleton.mp isMap]
      exact (Output.isName_mapName noSlash).noSlash
    · cases isMap
  · split at isPacked
    · rw [List.mem_singleton.mp isPacked]
      exact (Output.isName_gzipName noSlash).noSlash
    · cases isPacked
  · exact noSlash

/-- All files of a bundle start where its destination does. -/
theorem starts_of_file {file : Path × Bytes} (noSlash : '/' ∉ name.toList)
    (starts : tree.get? ((builder.base.joinText folder).start directory) = some .directory)
    (member : file ∈ builder.files directory folder name sources text) :
    tree.get? (file.1.start directory) = some .directory := by
  obtain ⟨artifact, isArtifact, same⟩ := exists_artifact member
  rwa [← same, Path.start_joinText _ directory (noSlash_of_artifact noSlash isArtifact)]

theorem IsClear.target (named : name = "." ∨ Path.IsName name)
    (clear : builder.IsClear tree directory folder name) :
    tree.IsClear ((builder.base.joinText folder).entered directory) := by
  have whole := clear name (builder.name_mem_artifactNames name)
  rcases named with rfl | isName
  · rwa [Path.joinText_here] at whole
  · rw [Path.entered_joinText _ directory isName] at whole
    exact fun passed member => whole passed (List.mem_append_left _ member)

/-- What is delivered is written after the directories are made. -/
theorem written_of_deliver (sound : tree.IsSound) (noSlash : '/' ∉ name.toList)
    (starts : tree.get? ((builder.base.joinText folder).start directory) = some .directory)
    (clearTarget : tree.IsClear ((builder.base.joinText folder).entered directory))
    (clear : builder.IsClear tree directory folder name)
    (delivered : tree.deliver directory (builder.base.joinText folder)
      (builder.files directory folder name sources text) = (.ok (), left)) :
    ∃ made, tree.HasMade made directory (builder.base.joinText folder) ∧
      made.HasWritten left directory (builder.files directory folder name sources text) := by
  unfold Tree.deliver at delivered
  split at delivered
  · rename_i made done
    have hasMade := Tree.hasMade_of_makeDirectories sound starts clearTarget done
    refine ⟨made, hasMade, ?_⟩
    apply Tree.hasWritten_of_writeFiles hasMade.sound _ _ delivered
    · exact fun file => starts_of_file noSlash (hasMade.get?_directory starts)
    · intro file member
      obtain ⟨artifact, isArtifact, same⟩ := exists_artifact member
      exact same ▸ hasMade.isClear (clear artifact isArtifact)
  · cases delivered

/-- The file of a bundle that is delivered has a name. -/
theorem effect_of_deliver (sound : tree.IsSound) (home : tree.get? directory = some .directory)
    (named : name = "." ∨ Path.IsName name) (clear : builder.IsClear tree directory folder name)
    (delivered : tree.deliver directory (builder.base.joinText folder)
      (builder.files directory folder name sources text) = (.ok (), left)) :
    ∃ made, tree.HasMade made directory (builder.base.joinText folder) ∧
      made.HasWritten left directory (builder.files directory folder name sources text) ∧
      Path.IsName name := by
  have noSlash : '/' ∉ name.toList := by
    rcases named with rfl | isName
    · decide +kernel
    · exact isName.noSlash
  obtain ⟨made, hasMade, written⟩ := written_of_deliver sound noSlash
    ((builder.base.joinText folder).start_directory home) (clear.target named) clear delivered
  refine ⟨made, hasMade, written, ?_⟩
  rcases named with rfl | isName
  · -- The path of the bundle would be that of its directory.
    obtain ⟨file, member, same⟩ : ∃ file ∈ builder.files directory folder "." sources text,
        file.1 = builder.base.joinText folder := by
      have among := List.mem_map_of_mem (f := (builder.base.joinText folder).joinText)
        (builder.name_mem_artifactNames ".")
      rw [Path.joinText_here, ← paths_files builder directory folder "." sources text] at among
      exact List.mem_map.mp among
    have isPlace : (builder.base.joinText folder).place directory ∈
        Tree.places directory (builder.files directory folder "." sources text) :=
      List.mem_map.mpr ⟨file, member, by rw [same]⟩
    exact absurd hasMade.reached (written.isOpen _ isPlace)
  · exact isName

section Written

variable {made : Tree} (isName : Path.IsName name)
  (written : made.HasWritten left directory (builder.files directory folder name sources text))
include isName written

/-- A file of the bundle stands in the destination with its contents. -/
theorem holds_of_written {artifact : String} {contents : Bytes}
    (isArtifact : artifact ∈ builder.artifactNames name)
    (member : ((builder.base.joinText folder).joinText artifact, contents) ∈
      builder.files directory folder name sources text) :
    left.get? ((builder.base.joinText folder).place directory ++ [artifact]) =
      some (.file contents) := by
  have holds := written.holds (places_nodup isName) _ member
  rwa [Path.place_joinText _ directory (isName_of_artifact isName isArtifact)] at holds

theorem bundle_of_written :
    left.get? ((builder.base.joinText folder).place directory ++ [name]) =
      some (.file (Utf8.encode (builder.bundleText name text))) :=
  holds_of_written isName written (builder.name_mem_artifactNames name)
    (List.mem_append_right _ List.mem_cons_self)

theorem map_of_written (mapped : builder.sourceMaps = true) :
    left.get? ((builder.base.joinText folder).place directory ++ [Output.mapName name]) =
      some (.file (Utf8.encode ((builder.mapOf directory folder name sources).render
        (!builder.minify)))) := by
  apply holds_of_written isName written
  · simp [artifactNames, mapped]
  · simp [files, artifacts, mapFile?, mapped]

theorem gzip_of_written (packs : builder.gzip = true) :
    left.get? ((builder.base.joinText folder).place directory ++ [Output.gzipName name]) =
      some (.file
        (Gzip.compress builder.packedAt (Utf8.encode (builder.bundleText name text)))) := by
  apply holds_of_written isName written
  · simp [artifactNames, packs]
  · simp [files, artifacts, gzipFile?, packs]

end Written

/-- What the checks give is the split output. -/
theorem eq_of_checkBuild {builder : Builder} {output folder name : String} {place : String × String}
    (named : Output.split output = .ok (folder, name))
    (checked : builder.checkBuild output = .ok place) : place = (folder, name) := by
  have same := (checkBuild_eq_ok.mp checked).2.2
  rw [named] at same
  exact (Except.ok.inj same).symm

/-- A build that gives a result has passed its checks, and it gives and leaves what was
assembled. -/
theorem build_ok {builder : Builder} {output folder name : String} {workspace : Workspace}
    {given : BuildResult} (named : Output.split output = .ok (folder, name))
    (built : (builder.build output workspace).1 = .ok given) :
    builder.checkBuild output = .ok (folder, name) ∧
      builder.assembled folder name workspace.tree workspace.directory =
        (.ok given, (builder.build output workspace).2.2.tree) := by
  have accepted : builder.checkBuild output = .ok (folder, name) := by
    cases checked : builder.checkBuild output with
    | error failure =>
        rw [build_refused checked] at built
        cases built
    | ok place => rw [eq_of_checkBuild named checked]
  obtain ⟨events, ran⟩ := build_accepted accepted workspace
  rw [ran] at built ⊢
  exact ⟨accepted, Prod.ext built rfl⟩

/-- A build that gives a path has made the missing directories on the way to its destination, has
written its files there and has left everything else as it was. The compressed copy unpacks to the
bundle, and the paths of the map and of the copy are given where these files are written. -/
theorem build_footprint {builder : Builder} {output folder name : String} {workspace : Workspace}
    (named : Output.split output = .ok (folder, name)) (level : ".." ∉ Output.segments output)
    (sound : workspace.tree.IsSound)
    (home : workspace.tree.get? workspace.directory = some .directory)
    (clear : builder.IsClear workspace.tree workspace.directory folder name)
    {given : BuildResult} (built : (builder.build output workspace).1 = .ok given)
    {path : Path} (wrote : given.outputPath = some path) :
    let left := (builder.build output workspace).2.2.tree
    let target := builder.base.joinText folder
    let way := target.entered workspace.directory
    let place (artifact : String) : Location := target.place workspace.directory ++ [artifact]
    path = target.joinText name ∧
      left.locate workspace.directory true path = .ok (place name) ∧
      (∃ sources text,
        builder.parts workspace.tree (builder.sourceBase workspace.directory) = .ok sources ∧
        builder.minified (joinSources sources) = .ok text ∧
        let data := Utf8.encode (builder.bundleText name text)
        left.get? (place name) = some (.file data) ∧
        (builder.sourceMaps = true → left.get? (place (Output.mapName name)) =
          some (.file (Utf8.encode ((builder.mapOf workspace.directory folder name sources).render
            (!builder.minify))))) ∧
        (builder.gzip = true → ∃ packed, left.get? (place (Output.gzipName name)) =
          some (.file packed) ∧ Gzip.decompress packed = some data)) ∧
      given.mapPath =
        (if builder.sourceMaps then some (target.joinText (Output.mapName name)) else none) ∧
      given.gzipPath =
        (if builder.gzip then some (target.joinText (Output.gzipName name)) else none) ∧
      (∀ passed ∈ way, left.get? passed = some .directory ∧
        (workspace.tree.get? passed = none ∨ workspace.tree.get? passed = some .directory)) ∧
      ∀ location, location ∉ way → location ∉ (builder.artifactNames name).map place →
        left.get? location = workspace.tree.get? location := by
  intro left target way place
  obtain ⟨sources, compiledAs, outcome⟩ := assembled_ok (build_ok named built).2
  rcases outcome with ⟨-, rfl, -⟩ | ⟨filled, text, minifiedAs, rfl, delivered⟩
  · cases wrote
  · cases wrote
    obtain ⟨made, hasMade, written, isName⟩ := effect_of_deliver sound home
      (Output.isName_of_split named level) clear delivered
    have located := written.located _ (List.mem_append_right _ List.mem_cons_self)
    rw [Path.place_joinText _ _ isName] at located
    have placesAre := places_files isName builder workspace.directory folder sources text
    refine ⟨rfl, located, ⟨sources, text, (compiled_eq_ok.mp compiledAs).2, minifiedAs,
      bundle_of_written isName written, map_of_written isName written, ?_⟩, ?_, ?_, ?_, ?_⟩
    · intro packs
      exact ⟨_, gzip_of_written isName written packs, Gzip.decompress_compress _ _⟩
    · unfold deliveredResult mapFile?
      cases builder.sourceMaps <;> rfl
    · unfold deliveredResult gzipFile?
      cases builder.gzip <;> rfl
    · intro passed member
      refine ⟨written.get?_directory ?_, hasMade.missing passed member⟩
      rw [hasMade.get?, if_pos member]
    · intro location offWay isOther
      rw [← placesAre] at isOther
      rw [written.get?_other location isOther, hasMade.get?, if_neg offWay]

/-- The destination is missing, and all switches are on. -/
theorem build_footprint_sample :
    let packing := { sample with gzip := true }
    let left := (packing.build "out/all.css" sampleWorkspace).2.2.tree
    Output.split "out/all.css" = .ok ("out", "all.css") ∧
      ".." ∉ Output.segments "out/all.css" ∧
      sampleWorkspace.tree.IsSound ∧
      sampleWorkspace.tree.get? ["p"] = some .directory ∧
      packing.IsClear sampleWorkspace.tree ["p"] "out" "all.css" ∧
      sampleWorkspace.tree.get? ["p", "out"] = none ∧
      left.get? ["p", "out"] = some .directory ∧
      (∃ data packed, left.get? ["p", "out", "all.css"] = some (.file data) ∧
        left.get? ["p", "out", "all.css.gz"] = some (.file packed) ∧
        Gzip.decompress packed = some data) ∧
      left.get? ["p", "a.css"] = sampleWorkspace.tree.get? ["p", "a.css"] := by
  intro packing left
  have named : Output.split "out/all.css" = .ok ("out", "all.css") := by decide +kernel
  have level : ".." ∉ Output.segments "out/all.css" := by decide +kernel
  have sound : sampleWorkspace.tree.IsSound := Tree.sound_of_nodes (by decide +kernel)
  have home : sampleWorkspace.tree.get? ["p"] = some .directory := by decide +kernel
  have free : sampleWorkspace.tree.IsLinkFree := Tree.isLinkFree_of_nodes (by decide +kernel)
  have clear : packing.IsClear sampleWorkspace.tree ["p"] "out" "all.css" :=
    fun artifact _ => free.isClear _
  have path : (packing.build "out/all.css" sampleWorkspace).1.toOption.bind
      BuildResult.outputPath = some ⟨.root, ["p", "out", "all.css"]⟩ := by decide +kernel
  refine ⟨named, level, sound, home, clear, by decide +kernel, ?_⟩
  cases built : (packing.build "out/all.css" sampleWorkspace).1 with
  | error failure =>
      rw [built] at path
      cases path
  | ok given =>
      rw [built] at path
      obtain ⟨-, -, ⟨sources, text, -, -, bundle, -, packed⟩, -, -, made, kept⟩ :=
        build_footprint named level sound home clear built path
      obtain ⟨copy, copied, unpacks⟩ := packed rfl
      refine ⟨(made ["p", "out"] (by decide +kernel)).1, ⟨_, copy, bundle, copied, unpacks⟩, ?_⟩
      exact kept ["p", "a.css"] (by decide +kernel) (by decide +kernel)

end Builder

end AssetBundler

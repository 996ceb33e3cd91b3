import AssetBundler.Proofs.Builder.Independence
import AssetBundler.Proofs.FileSystem.Unlinking
import AssetBundler.Proofs.Project.Effect

/-!
Cleaning of an output. It looks at the paths that a build writes, and of these it removes the files.
-/

namespace AssetBundler

open AssetBundler.Action

theorem Tree.advance_ne_concat {here : Location} {step other : String} (apart : step ≠ other) :
    advance here step ≠ here ++ [other] := by
  intro same
  unfold advance at same
  split at same
  · simp at same
  · split at same
    · have lengths := congrArg List.length same
      rw [List.length_dropLast, List.length_append, List.length_singleton] at lengths
      omega
    · exact apart (by simpa using same)

/-- The path of a file that was written shows it. -/
theorem Tree.HasWritten.shows {tree left : Tree} {here : Location} {files : List (Path × Bytes)}
    {path : Path} (written : tree.HasWritten left here files)
    (member : path ∈ files.map Prod.fst) : left.isFile here path = .ok true := by
  obtain ⟨file, isFile, rfl⟩ := List.mem_map.mp member
  obtain ⟨contents, found⟩ := written.isFile _ (List.mem_map_of_mem isFile)
  exact isFile_eq_true.mpr
    ⟨written.clean file isFile, _, contents, written.located file isFile, found⟩

/-- The artifacts of an output have places of their own. -/
theorem Output.places_nodup (base : Path) (folder : String) {name : String} (here : Location)
    (noSlash : '/' ∉ name.toList) (filled : name ≠ "") :
    ((artifactPaths base folder name).map fun path => path.place here).Nodup := by
  have mapApart : Tree.advance ((base.joinText folder).place here) name ≠
      (base.joinText folder).place here ++ [mapName name] :=
    Tree.advance_ne_concat (name_ne_mapName name)
  have gzipApart : Tree.advance ((base.joinText folder).place here) name ≠
      (base.joinText folder).place here ++ [gzipName name] :=
    Tree.advance_ne_concat (name_ne_gzipName name)
  simp only [artifactPaths, artifactNames, List.map_cons, List.map_nil,
    Path.place_joinText_eq_advance _ here noSlash filled,
    Path.place_joinText _ here (isName_mapName noSlash),
    Path.place_joinText _ here (isName_gzipName noSlash)]
  simp [mapApart, gzipApart, (gzipName_ne_mapName name).symm]

namespace Builder

variable {builder : Builder} {output folder name : String} {workspace : Workspace}

/-- A build writes no files but the artifacts. From no source it writes nothing, and otherwise it
tells the paths of the artifacts that its switches ask for and leaves files there. -/
structure WritesArtifacts (builder : Builder) (output folder name : String)
    (workspace : Workspace) : Prop where
  grows : workspace.tree.GrowsTo (builder.build output workspace).2.2.tree
    ((builder.base.joinText folder).entered workspace.directory)
    ((Output.artifactPaths builder.base folder name).map fun path =>
      path.place workspace.directory)
  told : ∀ given, (builder.build output workspace).1 = .ok given →
    given.sources = [] ∧ given.outputPath = none ∧ given.mapPath = none ∧ given.gzipPath = none ∧
        (builder.build output workspace).2.2.tree = workspace.tree ∨
      given.sources ≠ [] ∧
        given.outputPath = some ((builder.base.joinText folder).joinText name) ∧
        given.mapPath = (if builder.sourceMaps then
          some ((builder.base.joinText folder).joinText (Output.mapName name)) else none) ∧
        given.gzipPath = (if builder.gzip then
          some ((builder.base.joinText folder).joinText (Output.gzipName name)) else none)
  stands : ∀ given path, (builder.build output workspace).1 = .ok given →
    some path ∈ [given.outputPath, given.mapPath, given.gzipPath] →
      (builder.build output workspace).2.2.tree.isFile workspace.directory path = .ok true

/-- What a result tells are paths of the files that were delivered. -/
theorem paths_of_deliveredResult {sources : List SourceFile} {text : String} {path : Path}
    {here : Location} :
    let given := builder.deliveredResult (builder.base.joinText folder) name
      (builder.mapOf here folder name sources) sources text
    some path ∈ [given.outputPath, given.mapPath, given.gzipPath] →
      path ∈ (builder.files here folder name sources text).map Prod.fst := by
  intro given told
  rw [paths_files, artifactNames]
  simp only [given, mapPath_deliveredResult, gzipPath_deliveredResult] at told
  revert told
  cases builder.sourceMaps <;> cases builder.gzip <;> simp [deliveredResult] <;> tauto

theorem writesArtifacts (named : Output.split output = .ok (folder, name))
    (sound : workspace.tree.IsSound) (free : workspace.tree.IsLinkFree)
    (home : workspace.tree.get? workspace.directory = some .directory) :
    builder.WritesArtifacts output folder name workspace := by
  have noSlash := Output.slash_not_mem_of_split named
  have starts := (builder.base.joinText folder).start_directory home
  have outcome {given : BuildResult} (built : (builder.build output workspace).1 = .ok given) :=
    assembled_ok (build_ok named built).2
  constructor
  · cases checked : builder.checkBuild output with
    | error failure =>
        rw [build_refused checked]
        exact (Tree.GrowsTo.refl sound free _).mono (fun _ => id) (by simp)
    | ok place =>
        rw [eq_of_checkBuild named checked] at checked
        obtain ⟨events, ran⟩ := build_accepted checked workspace
        rw [ran]
        exact growsTo_of_assembled noSlash starts sound free
  · intro given built
    obtain ⟨sources, -, ⟨-, rfl, same⟩ | ⟨filled, text, -, rfl, -⟩⟩ := outcome built
    · exact Or.inl ⟨rfl, rfl, rfl, rfl, same⟩
    · exact Or.inr ⟨mt List.map_eq_nil_iff.mp filled, rfl, mapPath_deliveredResult _ _ _ _ _ _,
        gzipPath_deliveredResult _ _ _ _ _ _⟩
  · intro given path built told
    obtain ⟨sources, -, ⟨-, rfl, -⟩ | ⟨-, text, -, rfl, delivered⟩⟩ := outcome built
    · simp [emptyResult] at told
    · obtain ⟨made, -, written⟩ := written_of_deliver sound noSlash starts (free.isClear _)
        (fun _ _ => free.isClear _) delivered
      exact written.shows (paths_of_deliveredResult told)

end Builder

namespace Project

variable {workspace : Workspace} {base : Path} {output folder name : String}

/-- The files at paths are removed and told in the order of the paths, and nothing else changes. A
path that is too long to be looked at ends the removal with a failure. -/
structure HasRemoved (workspace : Workspace) (paths : List Path)
    (outcome : Except Failure (List Path) × Workspace) : Prop where
  all : workspace.tree.refusalAmong? workspace.directory paths = none →
    outcome.1 = .ok (paths.filter (workspace.tree.showsFile workspace.directory))
  stopped : ∀ fault, workspace.tree.refusalAmong? workspace.directory paths = some fault →
    outcome.1 = .error (.file fault)
  long : ∀ path fault, workspace.tree.refusal? workspace.directory path = some fault →
    fault = .refused .nameTooLong path ∧ path.IsLong
  files : ∀ path ∈ workspace.tree.removable workspace.directory paths,
    ∃ contents, workspace.tree.get? (path.place workspace.directory) = some (.file contents)
  gone : ∀ location, outcome.2.tree.get? location =
    if location ∈ (workspace.tree.removable workspace.directory paths).map
        (fun path => path.place workspace.directory) then none
    else workspace.tree.get? location
  kept : outcome.2 = { workspace with tree := outcome.2.tree }

theorem hasRemoved_clean (named : Output.split output = .ok (folder, name))
    (sound : workspace.tree.IsSound) (free : workspace.tree.IsLinkFree)
    (home : workspace.tree.get? workspace.directory = some .directory) :
    HasRemoved workspace (Output.artifactPaths base folder name)
      ((clean base output).run workspace) := by
  have apart := Output.places_nodup base folder workspace.directory
    (Output.slash_not_mem_of_split named) (Output.split_cases named).1
  obtain ⟨cleared, told⟩ := Tree.unlinkAll_files free apart
  have ran := alters_clean base output workspace
  simp only [cleaned, named, Builder.fileEffect] at ran
  have files : ∀ path ∈ workspace.tree.removable workspace.directory
      (Output.artifactPaths base folder name),
      ∃ contents, workspace.tree.get? (path.place workspace.directory) = some (.file contents) := by
    intro path member
    exact Tree.file_of_isFile free (Tree.showsFile_eq_true.mp (List.mem_filter.mp member).2)
  rw [ran]
  refine ⟨?_, ?_, fun path fault => Tree.isLong_of_refusal sound free home, files, ?_, rfl⟩
  · intro all
    rw [told, all, Tree.removable, Tree.accepted_eq_self all]
    rfl
  · intro fault refused
    rw [told, refused]
    rfl
  · intro location
    rw [cleared location]
    split
    · rename_i member
      obtain ⟨path, removed, rfl⟩ := List.mem_map.mp member
      obtain ⟨contents, found⟩ := files path removed
      rw [found]
      rfl
    · rfl

/-- An output is refused when the text behind its last slash is blank, and otherwise that text is
the name of a file in a folder. The files of an output are removed from the paths that every builder
of the directory writes for it, and from nowhere else. -/
theorem clean_artifacts (sound : workspace.tree.IsSound) (free : workspace.tree.IsLinkFree)
    (home : workspace.tree.get? workspace.directory = some .directory) (base : Path)
    (output : String) :
    (∀ failure, Output.split output = .error failure ↔
      (∀ c ∈ Output.lastOf (Output.slashed output), Text.isBlank c = true) ∧
        failure = .invalidOutput (String.ofList (Output.slashed output))) ∧
    (∀ folder name, Output.split output = .ok (folder, name) ↔
      Output.FallsInto (Output.slashed output) folder name) ∧
    (∀ failure, Output.split output = .error failure →
      (clean base output).run workspace = (.error failure, workspace)) ∧
    ∀ folder name, Output.split output = .ok (folder, name) →
      HasRemoved workspace (Output.artifactPaths base folder name)
        ((clean base output).run workspace) ∧
      ∀ builder : Builder, builder.base = base →
        builder.WritesArtifacts output folder name workspace := by
  refine ⟨fun failure => Output.split_eq_error, fun folder name => Output.split_eq_ok, ?_, ?_⟩
  · intro failure refused
    have ran := alters_clean base output workspace
    simp only [cleaned, refused] at ran
    exact ran
  · intro folder name named
    exact ⟨hasRemoved_clean named sound free home,
      fun builder _ => Builder.writesArtifacts named sound free home⟩

/-- A bundle and its compressed copy, and a directory in place of its map. -/
def artifactWorkspace : Workspace where
  tree := ⟨[(["p"], .directory), (["p", "a.css"], .file [120]), (["p", "out"], .directory),
    (["p", "out", "all.css"], .file [121]), (["p", "out", "all.css.map"], .directory),
    (["p", "out", "all.css.gz"], .file [122])]⟩
  directory := ["p"]

/-- The directory stays. -/
theorem clean_artifacts_sample :
    let outcome := (clean ⟨.root, ["p"]⟩ "out\\all.css").run artifactWorkspace
    Output.FallsInto "out/all.css".toList "out" "all.css" ∧
      outcome.1 = .ok [⟨.root, ["p", "out", "all.css"]⟩, ⟨.root, ["p", "out", "all.css.gz"]⟩] ∧
      outcome.2.tree.get? ["p", "out", "all.css"] = none ∧
      outcome.2.tree.get? ["p", "out", "all.css.map"] = some .directory ∧
      outcome.2.tree.get? ["p", "a.css"] = some (.file [120]) ∧
      Builder.sample.WritesArtifacts "out\\all.css" "out" "all.css" artifactWorkspace := by
  intro outcome
  have sound : artifactWorkspace.tree.IsSound := Tree.sound_of_nodes (by decide +kernel)
  have free : artifactWorkspace.tree.IsLinkFree := Tree.isLinkFree_of_nodes (by decide +kernel)
  have named : Output.split "out\\all.css" = .ok ("out", "all.css") := by decide +kernel
  obtain ⟨-, parts, -, accepted⟩ := clean_artifacts sound free rfl ⟨.root, ["p"]⟩ "out\\all.css"
  obtain ⟨removed, writes⟩ := accepted "out" "all.css" named
  have slashed : Output.slashed "out\\all.css" = "out/all.css".toList := by decide +kernel
  refine ⟨slashed ▸ (parts "out" "all.css").mp named,
    (removed.all (by decide +kernel)).trans ?_, ?_, ?_, ?_, writes Builder.sample rfl⟩
  · exact congrArg Except.ok (by decide +kernel)
  · rw [removed.gone]
    decide +kernel
  · rw [removed.gone]
    decide +kernel
  · rw [removed.gone]
    decide +kernel

/-- The file of a bundle is gone when the path of its map turns out to be too long. -/
theorem clean_stops (named : Output.split output = .ok (folder, name))
    (sound : workspace.tree.IsSound) (free : workspace.tree.IsLinkFree)
    (home : workspace.tree.get? workspace.directory = some .directory)
    (straight : (base.joinText folder).IsStraight) (isName : Path.IsName name)
    (shows : workspace.tree.isFile workspace.directory ((base.joinText folder).joinText name) =
      .ok true)
    (long : Tree.nameLimit < Utf8.size (Output.mapName name)) :
    ((clean base output).run workspace).1 = .error (.file (.refused .nameTooLong
        ((base.joinText folder).joinText (Output.mapName name)))) ∧
      ((clean base output).run workspace).2.tree.get? ((base.joinText folder).parts ++ [name]) =
        none := by
  have isMap := Output.isName_mapName isName.noSlash
  have place := Path.place_joinText (base.joinText folder) workspace.directory isName
  rw [straight.place_eq] at place
  obtain ⟨contents, found⟩ := Tree.file_of_isFile free shows
  rw [place] at found
  have inside : workspace.tree.get? (base.joinText folder).parts = some .directory := by
    simpa using sound.parent _ _ found
  have mapParts := congrArg Path.parts (Path.joinText_of_isName (base.joinText folder) isMap)
  have noNull : Tree.holdsNull ((base.joinText folder).joinText (Output.mapName name)) = false := by
    apply Path.holdsNull_of_clean
    rw [mapParts]
    intro part member
    rcases List.mem_append.mp member with above | last
    · exact (sound.named _ _ inside part above).2.2
    · have cleanName := (sound.named _ _ found name (by simp)).2.2
      rw [List.mem_singleton.mp last, Output.mapName, String.toList_append, List.mem_append]
      exact not_or.mpr ⟨cleanName, by decide⟩
  have refused : workspace.tree.refusal? workspace.directory _ = _ :=
    Tree.refusal?_of_long_name sound free (straight.joinText isMap.noSlash isMap.notUp) noNull
      (mapParts ▸ List.prefix_refl _) inside long
  have taken := Tree.refusal?_eq_none.mpr ⟨true, shows⟩
  have removed := @hasRemoved_clean workspace base output folder name named sound free home
  constructor
  · apply removed.stopped
    rw [Output.artifactPaths, Output.artifactNames, List.map_cons, Tree.refusalAmong?_cons _ taken,
      List.map_cons, Tree.refusalAmong?, List.findSome?_cons, refused]
  · rw [removed.gone, ← place]
    apply if_pos
    apply List.mem_map_of_mem (f := fun path : Path => path.place workspace.directory)
    rw [Output.artifactPaths, Output.artifactNames, List.map_cons, Tree.removable_cons _ taken,
      if_pos (Tree.showsFile_eq_true.mpr shows)]
    exact List.mem_cons_self

section Full

/-- A name that leaves no room for the ending of a map. -/
def fullName : String := String.ofList (List.replicate 252 'b')

def fullWorkspace : Workspace where
  tree := ⟨[(["p"], .directory), (["p", fullName], .file [120])]⟩
  directory := ["p"]

theorem toList_fullName : fullName.toList = List.replicate 252 'b' := String.toList_ofList

theorem not_mem_fullName {c : Char} (other : c ≠ 'b') : c ∉ fullName.toList := by
  intro member
  rw [toList_fullName] at member
  exact other (List.eq_of_mem_replicate member)

theorem isName_fullName : Path.IsName fullName := by
  apply Path.isName_of_length (not_mem_fullName (by decide))
  rw [toList_fullName, List.length_replicate]
  decide

theorem split_fullName : Output.split fullName = .ok (".", fullName) := by
  have slashed : Output.slashed fullName = fullName.toList := by
    rw [Output.slashed, toList_fullName, List.map_replicate]
    rfl
  have last : Output.lastOf fullName.toList = fullName.toList := by
    rw [toList_fullName]
    decide +kernel
  rw [Output.split_eq_ok, slashed]
  refine ⟨last.symm, ⟨'b', ?_, by decide +kernel⟩, not_mem_fullName (by decide),
    not_mem_fullName (by decide), by decide, Or.inl ⟨not_mem_fullName (by decide), rfl, rfl⟩⟩
  rw [toList_fullName]
  exact List.mem_replicate.mpr ⟨by decide, rfl⟩

theorem sound_fullWorkspace : fullWorkspace.tree.IsSound := by
  apply Tree.sound_of_nodes
  intro entry member
  have plain : "p" ≠ "." ∧ "p" ≠ ".." ∧ '\x00' ∉ "p".toList := by decide
  simp only [fullWorkspace, List.mem_cons, List.not_mem_nil, or_false] at member
  rcases member with rfl | rfl
  · exact ⟨rfl, List.forall_mem_singleton.mpr plain⟩
  · exact ⟨rfl, List.forall_mem_cons.mpr ⟨plain, List.forall_mem_singleton.mpr
      ⟨isName_fullName.notHere, isName_fullName.notUp, not_mem_fullName (by decide)⟩⟩⟩

theorem joinText_name (isName : Path.IsName name) :
    (Path.joinText ⟨.root, ["p"]⟩ ".").joinText name = ⟨.root, ["p", name]⟩ := by
  rw [Path.joinText_here, Path.joinText_of_isName _ isName]
  rfl

/-- The file of the bundle is gone, and the failure does not tell so. -/
theorem clean_fullName :
    let bundle : Path := ⟨.root, ["p", fullName]⟩
    let outcome := (clean ⟨.root, ["p"]⟩ fullName).run fullWorkspace
    fullWorkspace.tree.IsSound ∧ fullWorkspace.tree.IsLinkFree ∧
      fullWorkspace.tree.get? ["p"] = some .directory ∧
      Output.split fullName = .ok (".", fullName) ∧
      fullWorkspace.tree.isFile ["p"] bundle = .ok true ∧
      (∀ removed, outcome.1 ≠ .ok removed) ∧
      outcome.1 = .error (.file (.refused .nameTooLong
        ⟨.root, ["p", Output.mapName fullName]⟩)) ∧
      outcome.2.tree.get? ["p", fullName] = none := by
  intro bundle outcome
  have isName := isName_fullName
  have sound := sound_fullWorkspace
  have free : fullWorkspace.tree.IsLinkFree :=
    Tree.isLinkFree_of_nodes (by simp [fullWorkspace, Tree.isLinkNode])
  have straight : bundle.IsStraight :=
    ⟨rfl, by simp [bundle, Path.IsPlain, isName.notHere, isName.notUp]⟩
  have found : fullWorkspace.tree.get? bundle.parts = some (.file [120]) := by
    simp [bundle, fullWorkspace, Tree.get?, Tree.look]
  have shows : fullWorkspace.tree.isFile ["p"] bundle = .ok true :=
    Tree.isFile_of_get? sound free rfl straight (by decide +kernel) found
  have target : (Path.joinText ⟨.root, ["p"]⟩ ".").IsStraight := by
    rw [Path.joinText_here]
    exact ⟨rfl, by simp [Path.IsPlain]⟩
  have showsJoined : fullWorkspace.tree.isFile fullWorkspace.directory
      ((Path.joinText ⟨.root, ["p"]⟩ ".").joinText fullName) = .ok true := by
    rw [joinText_name isName]
    exact shows
  obtain ⟨failed, gone⟩ := clean_stops split_fullName sound free rfl target isName showsJoined
    (by decide +kernel)
  rw [joinText_name (Output.isName_mapName isName.noSlash)] at failed
  simp only [Path.joinText_here, List.cons_append, List.nil_append] at gone
  have ran : outcome = (clean ⟨.root, ["p"]⟩ fullName).run fullWorkspace := rfl
  rw [← ran] at failed gone
  refine ⟨sound, free, rfl, split_fullName, shows, fun removed told => ?_, failed, gone⟩
  cases failed.symm.trans told

end Full

end Project

end AssetBundler

import AssetBundler.FileSystem.Changes
import AssetBundler.Proofs.Builder.Footprint
import AssetBundler.Proofs.FileSystem.Straight
import AssetBundler.Proofs.Selection.Grown

/-!
Building again. The files and directories of a first build change nothing for a second one, unless
its patterns find them.
-/

namespace AssetBundler

namespace Compiler

variable {compiler : Compiler} {registry : Registry Capability} {tree other : Tree} {base : Path}

/-- A part depends on the tree by the file that it is read from. -/
theorem part_congr {path : Path} (reads : tree.read [] path = other.read [] path) :
    compiler.part registry tree base path = compiler.part registry other base path := by
  rw [part, part, Selection.read, Selection.read, reads]

theorem parts_congr
    (selects : Selection.expand tree base compiler.patterns =
      Selection.expand other base compiler.patterns)
    (reads : ∀ selected, Selection.expand tree base compiler.patterns = .ok selected →
      ∀ path ∈ selected, tree.read [] path = other.read [] path) :
    compiler.parts registry tree base = compiler.parts registry other base := by
  rw [parts, parts, ← selects]
  cases expanded : Selection.expand tree base compiler.patterns with
  | error failure => rfl
  | ok selected =>
      exact Outcome.mapM_congr fun path member => part_congr (reads selected expanded path member)

end Compiler

namespace Builder

variable {builder : Builder} {output folder name : String} {tree made left : Tree}
  {directory : Location} {sources : List SourceFile} {text : String}

theorem parts_congr {other : Tree} {base : Path}
    (same : ∀ compiler ∈ builder.compilers,
      compiler.parts builder.registry tree base = compiler.parts builder.registry other base) :
    builder.parts tree base = builder.parts other base := by
  rw [parts, parts, Outcome.mapM_congr same]

/-- A base without a null character has no steps up once it is absolute. -/
theorem isDownward_sourceBase (sound : tree.IsSound)
    (home : tree.get? directory = some .directory) (clean : Tree.holdsNull builder.base = false) :
    Glob.IsDownward (builder.sourceBase directory) := by
  have straight := Path.isStraight_absolute sound home clean
  exact ⟨straight.absolute, fun up => (straight.plain _ up).2 rfl⟩

/-- A tree that a bundle was delivered to has grown by the directories on the way and by the files
of the bundle. -/
theorem growsTo_of_delivered (sound : tree.IsSound) (free : tree.IsLinkFree)
    (hasMade : tree.HasMade made directory (builder.base.joinText folder))
    (written : made.HasWritten left directory
      (builder.files directory folder name sources text)) :
    tree.GrowsTo left ((builder.base.joinText folder).entered directory)
      (Tree.places directory (builder.files directory folder name sources text)) := by
  have leftFree : left.IsLinkFree := by
    intro location target
    have madeClear := hasMade.isClear (free.isClear [location])
    exact written.isClear madeClear location List.mem_cons_self target
  refine ⟨sound, free, written.sound, leftFree, ?_⟩
  intro location
  by_cases isStored : location ∈ Tree.places directory
      (builder.files directory folder name sources text)
  · have isOpen := written.isOpen location isStored
    refine Or.inr (Or.inr ⟨isStored, ?_, written.isFile location isStored⟩)
    exact fun found => isOpen (hasMade.get?_directory found)
  · rw [written.get?_other location isStored, hasMade.get?]
    by_cases onWay : location ∈ (builder.base.joinText folder).entered directory
    · rw [if_pos onWay]
      rcases hasMade.missing location onWay with missing | isDirectory
      · exact Or.inr (Or.inl ⟨onWay, missing, rfl⟩)
      · exact Or.inl isDirectory.symm
    · rw [if_neg onWay]
      exact Or.inl rfl

/-- The builder at another time. -/
def repacked (builder : Builder) (time : Nat) : Builder := { builder with packedAt := time }

section Again

variable (builder folder sources) (time : Nat)

theorem paths_repacked (directory : Location) (name text : String) :
    ((builder.repacked time).files directory folder name sources text).map Prod.fst =
      (builder.files directory folder name sources text).map Prod.fst := by
  rw [paths_files, paths_files]
  rfl

theorem places_repacked (directory : Location) (name text : String) :
    Tree.places directory ((builder.repacked time).files directory folder name sources text) =
      Tree.places directory (builder.files directory folder name sources text) := by
  have same := congrArg (List.map (Path.place · directory))
    (builder.paths_repacked folder sources time directory name text)
  rwa [List.map_map, List.map_map] at same

theorem deliveredResult_repacked :
    (builder.repacked time).deliveredResult = builder.deliveredResult := by
  funext target name map sources contents
  unfold deliveredResult gzipFile? repacked
  cases builder.gzip <;> rfl

variable {builder folder sources} (isName : Path.IsName name)
  (written : made.HasWritten left directory
    (builder.files directory folder name sources text))
include isName written

/-- What was delivered can be delivered again at any time. -/
theorem deliver_again (free : tree.IsLinkFree)
    (hasMade : tree.HasMade made directory (builder.base.joinText folder))
    (starts : tree.get? ((builder.base.joinText folder).start directory) = some .directory) :
    ∃ last, left.deliver directory (builder.base.joinText folder)
        ((builder.repacked time).files directory folder name sources text) = (.ok (), last) ∧
      left.HasWritten last directory
        ((builder.repacked time).files directory folder name sources text) := by
  have clear (locations : List Location) : left.IsClear locations :=
    written.isClear (hasMade.isClear (free.isClear _))
  have located : left.locate directory true (builder.base.joinText folder) =
      .ok ((builder.base.joinText folder).place directory) :=
    Tree.locate_transfer (hasMade.isClear (free.isClear _)) hasMade.located
      (fun _ _ => written.get?_directory) (clear _)
  have stands : left.isDirectory directory (builder.base.joinText folder) = .ok true :=
    Tree.isDirectory_eq_true.mpr
      ⟨hasMade.clean, _, located, written.get?_directory hasMade.reached⟩
  rw [Tree.deliver, Tree.makeDirectories_of_isDirectory (clear _) stands]
  have begins : left.get? (((builder.repacked time).base.joinText folder).start directory) =
      some .directory := written.get?_directory (hasMade.get?_directory starts)
  exact written.rewrite (builder.paths_repacked folder sources time directory name text)
    (fun _ => starts_of_file isName.noSlash begins) fun _ _ => clear _

variable {last : Tree} (rewritten : left.HasWritten last directory
  ((builder.repacked time).files directory folder name sources text))
include rewritten

/-- Only the compressed copy may hold something else then. -/
theorem get?_again {location : Location} (apart : builder.gzip = true → location ≠
      (builder.base.joinText folder).place directory ++ [Output.gzipName name]) :
    last.get? location = left.get? location := by
  by_cases isPlace : location ∈
      Tree.places directory (builder.files directory folder name sources text)
  · rw [places_files isName] at isPlace
    obtain ⟨artifact, isArtifact, rfl⟩ := List.mem_map.mp isPlace
    simp only [artifactNames, List.mem_append, List.mem_singleton] at isArtifact
    rcases isArtifact with (isMap | isPacked) | rfl
    · split at isMap
      · next mapped =>
        rw [List.mem_singleton.mp isMap]
        exact (map_of_written isName rewritten mapped).trans
          (map_of_written isName written mapped).symm
      · cases isMap
    · split at isPacked
      · next packs => exact absurd (by rw [List.mem_singleton.mp isPacked]) (apart packs)
      · cases isPacked
    · exact (bundle_of_written isName rewritten).trans (bundle_of_written isName written).symm
  · exact rewritten.get?_other location
      ((builder.places_repacked folder sources time directory name text).symm ▸ isPlace)

/-- The compressed copy unpacks to the same then. -/
theorem view?_again (location : Location) : last.view? location = left.view? location := by
  by_cases isCopy : builder.gzip = true ∧
      location = (builder.base.joinText folder).place directory ++ [Output.gzipName name]
  · obtain ⟨packs, rfl⟩ := isCopy
    have ending : (Output.gzipName name).endsWith ".gz" = true := by
      rw [Text.endsWith_iff, Output.gzipName, String.toList_append]
      exact List.suffix_append _ _
    have shows {other : Tree} {time : Nat} {data : Bytes}
        (holds : other.get? ((builder.base.joinText folder).place directory ++
          [Output.gzipName name]) = some (.file (Gzip.compress time data))) :
        other.view? ((builder.base.joinText folder).place directory ++ [Output.gzipName name]) =
          some (.packed data) := by
      simp only [Tree.view?, holds, Option.map_some, List.getLast?_concat, Option.getD_some,
        Node.view, ending, if_true, Gzip.decompress_compress]
    have again := gzip_of_written isName rewritten packs
    rw [shows (gzip_of_written isName written packs)]
    exact shows again
  · rw [Tree.view?, Tree.view?,
      get?_again time isName written rewritten fun packs same => isCopy ⟨packs, same⟩]

end Again

section Selecting

variable {stored way : List Location} (growth : tree.GrowsTo left way stored) {base : Path}
  (downward : Glob.IsDownward base)
  (level : ∀ compiler ∈ builder.compilers, Selection.LevelAll compiler.patterns)
  (fits : ∀ compiler ∈ builder.compilers, Selection.FitAll tree way base compiler.patterns)
include growth downward level fits

/-- The parts of a bundle stay the same when the compilers select no stored file. -/
theorem parts_of_growth (compiled : builder.parts tree base = .ok sources)
    (unselected : ∀ compiler ∈ builder.compilers, ∀ selected,
      Selection.expand left base compiler.patterns = .ok selected →
        ∀ path ∈ selected, path.place [] ∉ stored) :
    builder.parts left base = .ok sources := by
  rw [← compiled]
  apply parts_congr
  intro compiler member
  obtain ⟨groups, compiledEach, -⟩ := Outcome.bind_eq_ok.mp compiled
  obtain ⟨group, made⟩ := Outcome.exists_of_mapM compiledEach compiler member
  obtain ⟨paths, before, -⟩ := Outcome.bind_eq_ok.mp made
  have after := Selection.expand_of_growth growth downward (level compiler member)
    (fits compiler member) before (unselected compiler member)
  apply Compiler.parts_congr (after.trans before.symm)
  intro selected selects path inSelected
  have same : paths = selected := Except.ok.inj (after.symm.trans selects)
  obtain ⟨levelPath, contents, isFile⟩ := Selection.file_of_selected growth.sound growth.free
    downward (level compiler member) before (same ▸ inSelected)
  exact Selection.read_of_growth growth levelPath isFile
    (unselected compiler member selected selects path inSelected)

end Selecting

/-- A build that selects none of the files that it has written can be made again at any time. It
gives the same and leaves the tree as it is, provided that no pattern asks for a name that is too
long right inside a directory that the first build had to make. The compressed copy alone holds
something else, and it unpacks to the same. -/
theorem rebuild {builder : Builder} {output folder name : String} {workspace : Workspace}
    (named : Output.split output = .ok (folder, name)) (levelOutput : ".." ∉ Output.segments output)
    (sound : workspace.tree.IsSound) (free : workspace.tree.IsLinkFree)
    (home : workspace.tree.get? workspace.directory = some .directory)
    (clean : Tree.holdsNull builder.base = false)
    (level : ∀ compiler ∈ builder.compilers, Selection.LevelAll compiler.patterns)
    (fits : ∀ compiler ∈ builder.compilers, Selection.FitAll workspace.tree
      ((builder.base.joinText folder).entered workspace.directory)
      (builder.sourceBase workspace.directory) compiler.patterns)
    {given : BuildResult} (built : (builder.build output workspace).1 = .ok given)
    (unselected : ∀ compiler ∈ builder.compilers, ∀ selected,
      Selection.expand (builder.build output workspace).2.2.tree
          (builder.sourceBase workspace.directory) compiler.patterns = .ok selected →
        ∀ path ∈ selected, ∀ artifact ∈ builder.artifactNames name,
          path.place [] ≠ (builder.base.joinText folder).place workspace.directory ++ [artifact])
    (later : Nat) :
    let first := (builder.build output workspace).2.2
    let again := (builder.repacked later).build output first
    let copy := (builder.base.joinText folder).place workspace.directory ++ [Output.gzipName name]
    again.1 = .ok given ∧
      (∀ location, again.2.2.tree.view? location = first.tree.view? location) ∧
      ∀ location, (builder.gzip = true → location ≠ copy) →
        again.2.2.tree.get? location = first.tree.get? location := by
  intro first again copy
  obtain ⟨accepted, assembledAs⟩ := build_ok named built
  obtain ⟨sources, compiledAs, outcome⟩ := assembled_ok assembledAs
  have placed : first.directory = workspace.directory := by
    obtain ⟨events, ran⟩ := build_accepted accepted workspace
    simp only [first, ran]
  have acceptedAgain : (builder.repacked later).checkBuild output = .ok (folder, name) := accepted
  obtain ⟨events, ranAgain⟩ := build_accepted acceptedAgain first
  obtain ⟨last, againIs, shown, kept⟩ : ∃ last,
      (builder.repacked later).assembled folder name first.tree workspace.directory =
          (.ok given, last) ∧
        (∀ location, last.view? location = first.tree.view? location) ∧
        ∀ location, (builder.gzip = true → location ≠ copy) →
          last.get? location = first.tree.get? location := by
    rcases outcome with ⟨rfl, rfl, same⟩ | ⟨filled, text, minifiedAs, rfl, delivered⟩
    · have compiledAgain : (builder.repacked later).compiled first.tree workspace.directory =
          .ok [] := by
        rw [same]
        exact compiledAs
      refine ⟨first.tree, ?_, fun _ => rfl, fun _ _ => rfl⟩
      simp only [assembled, compiledAgain]
    · obtain ⟨made, hasMade, written, isName⟩ := effect_of_deliver sound home
        (Output.isName_of_split named levelOutput) (fun artifact _ => free.isClear _) delivered
      have growth := growsTo_of_delivered sound free hasMade written
      have downward := isDownward_sourceBase sound home clean
      obtain ⟨equipped, compiled⟩ := compiled_eq_ok.mp compiledAs
      have compiledAgain := parts_of_growth growth downward level fits compiled (by
        intro compiler member selected selects path inSelected isStored
        rw [places_files isName] at isStored
        obtain ⟨artifact, isArtifact, same⟩ := List.mem_map.mp isStored
        exact unselected compiler member selected selects path inSelected artifact isArtifact
          same.symm)
      have compiledLater : (builder.repacked later).compiled first.tree workspace.directory =
          .ok sources := compiled_eq_ok.mpr ⟨equipped, compiledAgain⟩
      have minifiedLater : (builder.repacked later).minified (joinSources sources) = .ok text :=
        minifiedAs
      obtain ⟨last, taken, rewritten⟩ := deliver_again later isName written free hasMade
        ((builder.base.joinText folder).start_directory home)
      refine ⟨last, ?_, view?_again later isName written rewritten,
        fun _ => get?_again later isName written rewritten⟩
      rw [assembled_of_deliver compiledLater filled minifiedLater taken,
        deliveredResult_repacked]
      rfl
  simp only [again, ranAgain, placed, againIs]
  exact ⟨trivial, shown, kept⟩

/-- Style sheets that are bundled as they are. -/
def plainStyles (base : Path) (files : List String) : Builder :=
  { sample with
    base := base
    compilers := files.map fun file => styleCompiler .css file false
    sourceMaps := false
    minify := false }

example : ((plainStyles ⟨.root, ["p"]⟩ ["*.css"]).build "out/all.css"
    sampleWorkspace).1.toOption.map BuildResult.sources = some [⟨.root, ["p", "a.css"]⟩] := by
  decide +kernel

/-- The first build makes the destination, and the second one finds it a second later. -/
theorem rebuild_sample :
    let builder := { plainStyles ⟨.root, ["p"]⟩ ["a.css", "*.css"] with gzip := true }
    let first := builder.build "out/all.css" sampleWorkspace
    let again := (builder.repacked 1).build "out/all.css" first.2.2
    Output.split "out/all.css" = .ok ("out", "all.css") ∧
      ".." ∉ Output.segments "out/all.css" ∧
      sampleWorkspace.tree.IsSound ∧ sampleWorkspace.tree.IsLinkFree ∧
      sampleWorkspace.tree.get? ["p"] = some .directory ∧
      Tree.holdsNull builder.base = false ∧
      (∀ compiler ∈ builder.compilers, Selection.LevelAll compiler.patterns) ∧
      (∀ compiler ∈ builder.compilers, Selection.FitAll sampleWorkspace.tree
        ((builder.base.joinText "out").entered ["p"]) (builder.sourceBase ["p"])
        compiler.patterns) ∧
      ∃ given, first.1 = .ok given ∧ given.outputPath = some ⟨.root, ["p", "out", "all.css"]⟩ ∧
        again.1 = .ok given ∧
        (∀ location, again.2.2.tree.view? location = first.2.2.tree.view? location) ∧
        again.2.2.tree.get? ["p", "out", "all.css"] =
          first.2.2.tree.get? ["p", "out", "all.css"] := by
  intro builder first again
  have named : Output.split "out/all.css" = .ok ("out", "all.css") := by decide +kernel
  have levelOutput : ".." ∉ Output.segments "out/all.css" := by decide +kernel
  have sound : sampleWorkspace.tree.IsSound := Tree.sound_of_nodes (by decide +kernel)
  have free : sampleWorkspace.tree.IsLinkFree := Tree.isLinkFree_of_nodes (by decide +kernel)
  have home : sampleWorkspace.tree.get? ["p"] = some .directory := by decide +kernel
  have clean : Tree.holdsNull builder.base = false := by decide +kernel
  have level : ∀ compiler ∈ builder.compilers, Selection.LevelAll compiler.patterns := by
    unfold Selection.LevelAll
    decide +kernel
  have short : ∀ compiler ∈ builder.compilers, ∀ pattern ∈ compiler.patterns,
      ∀ name ∈ (Selection.literalPath (builder.sourceBase ["p"]) pattern).parts,
        ¬ Tree.nameLimit < Utf8.size name := by decide +kernel
  have fits : ∀ compiler ∈ builder.compilers, Selection.FitAll sampleWorkspace.tree
      ((builder.base.joinText "out").entered ["p"]) (builder.sourceBase ["p"])
      compiler.patterns :=
    fun compiler member pattern isPattern =>
      Tree.fits_of_short (short compiler member pattern isPattern)
  have unselected : ∀ compiler ∈ builder.compilers, ∀ path ∈
      (Selection.expand first.2.2.tree (builder.sourceBase ["p"])
        compiler.patterns).toOption.getD [],
      ∀ artifact ∈ builder.artifactNames "all.css",
        path.place [] ≠ (builder.base.joinText "out").place ["p"] ++ [artifact] := by
    decide +kernel
  have path : first.1.toOption.bind BuildResult.outputPath =
      some ⟨.root, ["p", "out", "all.css"]⟩ := by decide +kernel
  refine ⟨named, levelOutput, sound, free, home, clean, level, fits, ?_⟩
  cases built : first.1 with
  | error failure =>
      rw [built] at path
      cases path
  | ok given =>
      rw [built] at path
      refine ⟨given, rfl, path, ?_⟩
      have chosen : ∀ compiler ∈ builder.compilers, ∀ selected,
          Selection.expand (builder.build "out/all.css" sampleWorkspace).2.2.tree
              (builder.sourceBase sampleWorkspace.directory) compiler.patterns = .ok selected →
            ∀ path ∈ selected, ∀ artifact ∈ builder.artifactNames "all.css", path.place [] ≠
              (builder.base.joinText "out").place sampleWorkspace.directory ++ [artifact] := by
        intro compiler member selected selects found inSelected
        apply unselected compiler member found
        change found ∈ (Selection.expand (builder.build "out/all.css" sampleWorkspace).2.2.tree
          (builder.sourceBase sampleWorkspace.directory) compiler.patterns).toOption.getD []
        rw [selects]
        exact inSelected
      obtain ⟨gives, shown, kept⟩ :=
        rebuild named levelOutput sound free home clean level fits built chosen 1
      exact ⟨gives, shown, kept _ fun _ => by decide +kernel⟩

section Misfit

variable {builder : Builder} {output folder name : String} {workspace : Workspace}
  (named : Output.split output = .ok (folder, name)) (levelOutput : ".." ∉ Output.segments output)
  (sound : workspace.tree.IsSound) (free : workspace.tree.IsLinkFree)
  (home : workspace.tree.get? workspace.directory = some .directory)
  (clean : Tree.holdsNull builder.base = false)
  {given : BuildResult} (built : (builder.build output workspace).1 = .ok given)
  {path : Path} (wrote : given.outputPath = some path)
  {compiler : Compiler} (misfit : ¬ Selection.FitAll workspace.tree
    ((builder.base.joinText folder).entered workspace.directory)
    (builder.sourceBase workspace.directory) compiler.patterns)
include named levelOutput sound free home clean built wrote misfit

/-- A name that is too long for a directory that a build has made is refused from then on. -/
theorem expand_ne_ok_of_misfit (selected : List Path) :
    Selection.expand (builder.build output workspace).2.2.tree
      (builder.sourceBase workspace.directory) compiler.patterns ≠ .ok selected := by
  intro selects
  obtain ⟨-, assembledAs⟩ := build_ok named built
  obtain ⟨sources, -, outcome⟩ := assembled_ok assembledAs
  rcases outcome with ⟨-, rfl, -⟩ | ⟨-, text, -, rfl, delivered⟩
  · cases wrote
  · obtain ⟨made, hasMade, written, -⟩ := effect_of_deliver sound home
      (Output.isName_of_split named levelOutput) (fun artifact _ => free.isClear _) delivered
    have downward := isDownward_sourceBase sound home clean
    simp only [Selection.FitAll, Tree.Fits, not_forall, not_not] at misfit
    obtain ⟨pattern, isPattern, before, onWay, -, long, start, tooLong⟩ := misfit
    have absolute := Selection.isAbsolute_joinText downward.1 pattern
    obtain ⟨notHere, notUp⟩ := Path.parts_normalize absolute
    have refused : (builder.build output workspace).2.2.tree.isFile []
        (Selection.literalPath (builder.sourceBase workspace.directory) pattern) =
          .error (.refused .nameTooLong
            (Selection.literalPath (builder.sourceBase workspace.directory) pattern)) := by
      refine Tree.isFile_eq_error.mpr ⟨Path.holdsNull_normalize absolute, ?_, rfl⟩
      apply Tree.locate_of_long_name notHere notUp start written.sound _ tooLong
      apply written.get?_directory
      rw [hasMade.get?, if_pos onWay]
    obtain ⟨found, finds⟩ := (Selection.expandFrom_eq_ok selects).1 pattern isPattern
    cases (Selection.expandPattern_refused refused).symm.trans finds

/-- The condition on the patterns is needed. The second build fails without it. -/
theorem rebuild_refused (member : compiler ∈ builder.compilers) :
    ∃ failure, (builder.build output (builder.build output workspace).2.2).1 =
      .error failure := by
  cases again : (builder.build output (builder.build output workspace).2.2).1 with
  | error failure => exact ⟨failure, rfl⟩
  | ok other =>
      obtain ⟨-, assembledAgain⟩ := build_ok named again
      obtain ⟨others, compiledAgain, -⟩ := assembled_ok assembledAgain
      have directoryKept : (builder.build output workspace).2.2.directory =
          workspace.directory := by
        obtain ⟨events, ran⟩ := build_accepted (build_ok named built).1 workspace
        rw [ran]
      rw [directoryKept] at compiledAgain
      obtain ⟨groups, each, -⟩ := Outcome.bind_eq_ok.mp (compiled_eq_ok.mp compiledAgain).2
      obtain ⟨group, parts⟩ := Outcome.exists_of_mapM each compiler member
      obtain ⟨selected, selects, -⟩ := Outcome.bind_eq_ok.mp parts
      exact absurd selects (expand_ne_ok_of_misfit named levelOutput sound free home clean built
        wrote misfit selected)

end Misfit

section Idle

variable {builder : Builder} {idle : Compiler} {folder name : String} {tree : Tree}
  {directory : Location}

/-- A compiler that selects nothing and needs nothing does not show behind other compilers. -/
theorem assembled_of_idle (filled : builder.compilers ≠ [])
    (needless : idle.requiredCapabilities = [])
    (nothing : idle.parts builder.registry tree (builder.sourceBase directory) = .ok []) :
    { builder with compilers := builder.compilers ++ [idle] }.assembled folder name tree directory =
      builder.assembled folder name tree directory := by
  obtain ⟨first, rest, compilers⟩ := List.exists_cons_of_ne_nil filled
  have needed : neededCapabilities { builder with compilers := builder.compilers ++ [idle] } =
      builder.neededCapabilities := by
    simp [neededCapabilities, minifierNames, needless, compilers]
  have same : parts { builder with compilers := builder.compilers ++ [idle] } tree
      (builder.sourceBase directory) = builder.parts tree (builder.sourceBase directory) := by
    simp only [parts, List.mapM_append, List.mapM_cons, List.mapM_nil, nothing]
    cases builder.compilers.mapM fun compiler =>
        compiler.parts builder.registry tree (builder.sourceBase directory) with
    | error failure => rfl
    | ok groups => simp [bind, Except.bind, pure, Except.pure]
  have compiledAlike : compiled { builder with compilers := builder.compilers ++ [idle] } tree
      directory = builder.compiled tree directory := by
    rw [compiled, compiled, needed]
    exact congrArg _ (funext fun _ => same)
  have minifiedAlike : minified { builder with compilers := builder.compilers ++ [idle] } =
      builder.minified := by
    funext contents
    simp only [minified, compilers, List.cons_append]
  rw [assembled, assembled, compiledAlike]
  unfold bundled
  rw [minifiedAlike]
  rfl

end Idle

section Long

variable {name : String} (whole : '/' ∉ name.toList) (clean : '\x00' ∉ name.toList)
  (long : Tree.nameLimit < Utf8.size name)

include whole in
theorem splitOn_out : Text.splitOn '/' ("out/" ++ name) = ["out", name] := by
  rw [show "out/" = "out" ++ String.singleton '/' from rfl, Text.splitOn_append,
    Text.splitOn_of_not_mem whole]
  rfl

include long in
theorem isName_of_long : name ≠ "" ∧ name ≠ "." ∧ name ≠ ".." := by
  refine ⟨?_, ?_, ?_⟩ <;> rintro rfl <;> exact absurd long (by decide +kernel)

include whole clean long

theorem literalPath_out :
    Selection.literalPath ⟨.root, ["p"]⟩ ("out/" ++ name) = ⟨.root, ["p", "out", name]⟩ := by
  obtain ⟨filled, notHere, notUp⟩ := isName_of_long long
  have isPart : Path.isPart name = true := by simp [Path.isPart, filled, notHere]
  have joined : Path.joinText ⟨.root, ["p"]⟩ ("out/" ++ name) = ⟨.root, ["p", "out", name]⟩ := by
    have start : (Path.ofString ("out/" ++ name)) = ⟨.here, ["out", name]⟩ := by
      rw [Path.ofString, splitOn_out whole, String.toList_append]
      simp only [List.filter_cons, isPart]
      rfl
    rw [Path.joinText, start]
    rfl
  have plain : Path.IsPlain ⟨.root, ["p", "out", name]⟩ := by
    simp [Path.IsPlain, notHere, notUp]
  rw [Selection.literalPath, joined, Path.normalize_of_clean rfl, plain.place_eq]
  rw [plain.place_eq]
  simpa using clean

theorem expand_out (magic : Wildcard.isMagic name = true)
    (fits : ¬ Tree.pathLimit < Utf8.size (Path.toString ⟨.root, ["p", "out", name]⟩)) :
    Selection.expand sampleWorkspace.tree ⟨.root, ["p"]⟩ ["out/" ++ name] = .ok [] := by
  have sound : sampleWorkspace.tree.IsSound := Tree.sound_of_nodes (by decide +kernel)
  have free : sampleWorkspace.tree.IsLinkFree := Tree.isLinkFree_of_nodes (by decide +kernel)
  obtain ⟨filled, notHere, notUp⟩ := isName_of_long long
  have start : Glob.searchStart ⟨.root, ["p"]⟩ ("out/" ++ name) = ⟨.root, ["p", "out"]⟩ := by
    have isHere : Path.anchorOf ("out/" ++ name).toList = .here := by
      rw [String.toList_append]
      rfl
    have isLast : Glob.splitMagic ["out", name] = (["out"], [name]) := by
      simp [Glob.splitMagic, magic, show Wildcard.isMagic "out" = false by decide +kernel]
    unfold Glob.searchStart
    rw [splitOn_out whole, Glob.startOf, isHere]
    simp [filled, isLast]
  have noFile : sampleWorkspace.tree.isFile []
      (Selection.literalPath ⟨.root, ["p"]⟩ ("out/" ++ name)) = .ok false := by
    have stops : sampleWorkspace.tree.status [] ⟨.root, ["p", "out", name]⟩ = .error .missing := by
      rw [Tree.status, Tree.locate, if_neg fits]
      rfl
    rw [literalPath_out whole clean long, Tree.isFile, Tree.probe, stops]
    split <;> rfl
  have nothing : Selection.expandPattern sampleWorkspace.tree ⟨.root, ["p"]⟩ ("out/" ++ name) =
      .ok [] := by
    refine Selection.expandPattern_of_missing sound free ⟨rfl, by decide +kernel⟩ ?_ ?_ ?_ ?_ noFile
    · simp [splitOn_out whole, notUp.symm]
    · simpa [Wildcard.isMagic] using magic
    · rw [start]
      decide +kernel
    · rw [start]
      decide +kernel
  simp only [Selection.expand, Selection.expandFrom, nothing]
  rfl

/-- The first build makes the directory in which the second one refuses the name. -/
theorem rebuild_out (magic : Wildcard.isMagic name = true)
    (fits : ¬ Tree.pathLimit < Utf8.size (Path.toString ⟨.root, ["p", "out", name]⟩)) :
    let builder := plainStyles ⟨.root, ["p"]⟩ ["a.css", "out/" ++ name]
    let first := builder.build "out/all.css" sampleWorkspace
    first.1.toOption.bind BuildResult.outputPath = some ⟨.root, ["p", "out", "all.css"]⟩ ∧
      (∀ compiler ∈ builder.compilers, ∀ selected,
        Selection.expand first.2.2.tree (builder.sourceBase ["p"]) compiler.patterns =
            .ok selected →
          ∀ path ∈ selected, ∀ artifact ∈ builder.artifactNames "all.css",
            path.place [] ≠ ["p", "out", artifact]) ∧
      ∃ failure, (builder.build "out/all.css" first.2.2).1 = .error failure := by
  intro builder first
  let plain := plainStyles ⟨.root, ["p"]⟩ ["a.css"]
  have base : plain.sourceBase ["p"] = ⟨.root, ["p"]⟩ := by decide +kernel
  have nothing : (styleCompiler .css ("out/" ++ name) false).parts plain.registry
      sampleWorkspace.tree (plain.sourceBase ["p"]) = .ok [] := by
    have selects : Selection.expand sampleWorkspace.tree (plain.sourceBase ["p"])
        (styleCompiler .css ("out/" ++ name) false).patterns = .ok [] :=
      base ▸ expand_out whole clean long magic fits
    rw [Compiler.parts, selects]
    rfl
  have alike : builder.assembled "out" "all.css" sampleWorkspace.tree ["p"] =
      plain.assembled "out" "all.css" sampleWorkspace.tree ["p"] :=
    @assembled_of_idle plain _ "out" "all.css" sampleWorkspace.tree ["p"] (List.cons_ne_nil _ _) rfl
      nothing
  have named : Output.split "out/all.css" = .ok ("out", "all.css") := by decide +kernel
  have accepted : builder.checkBuild "out/all.css" = .ok ("out", "all.css") :=
    checkBuild_eq_ok.mpr ⟨rfl, List.cons_ne_nil _ _, named⟩
  obtain ⟨events, ran⟩ := build_accepted accepted sampleWorkspace
  have gives : first.1 = (plain.assembled "out" "all.css" sampleWorkspace.tree ["p"]).1 := by
    rw [← alike]
    exact congrArg Prod.fst ran
  have leaves : first.2.2.tree =
      (plain.assembled "out" "all.css" sampleWorkspace.tree ["p"]).2 := by
    rw [← alike]
    exact congrArg (fun outcome => outcome.2.2.tree) ran
  have path : first.1.toOption.bind BuildResult.outputPath =
      some ⟨.root, ["p", "out", "all.css"]⟩ := by
    rw [gives]
    decide +kernel
  have literal := literalPath_out whole clean long
  have cleanBase : Tree.holdsNull builder.base = false :=
    show Tree.holdsNull plain.base = false by decide +kernel
  have onWay : ["p", "out"] ∈ (plain.base.joinText "out").entered ["p"] := by decide +kernel
  have misfit : ¬ Selection.FitAll sampleWorkspace.tree
      ((builder.base.joinText "out").entered ["p"]) (builder.sourceBase ["p"])
      (styleCompiler .css ("out/" ++ name) false).patterns := by
    intro allFit
    refine allFit ("out/" ++ name) List.mem_cons_self ["p", "out"] onWay (by decide +kernel) name
      ?_ long
    change _ <+: (Selection.literalPath (plain.sourceBase ["p"]) ("out/" ++ name)).parts
    rw [base, literal]
    exact List.prefix_refl _
  cases built : first.1 with
  | error failure =>
      rw [built] at path
      cases path
  | ok given =>
      rw [built] at path
      have sound : sampleWorkspace.tree.IsSound := Tree.sound_of_nodes (by decide +kernel)
      have free : sampleWorkspace.tree.IsLinkFree := Tree.isLinkFree_of_nodes (by decide +kernel)
      have home : sampleWorkspace.tree.get? ["p"] = some .directory := by decide +kernel
      have levelOutput : ".." ∉ Output.segments "out/all.css" := by decide +kernel
      refine ⟨path, ?_, rebuild_refused named levelOutput sound free home
        cleanBase built path misfit (List.mem_cons_of_mem _ List.mem_cons_self)⟩
      intro compiler member selected selects
      rcases List.mem_cons.mp member with rfl | second
      · have steady : ∀ path ∈ (Selection.expand
            (plain.assembled "out" "all.css" sampleWorkspace.tree ["p"]).2
            (plain.sourceBase ["p"]) ["a.css"]).toOption.getD [],
            ∀ artifact ∈ plain.artifactNames "all.css", path.place [] ≠ ["p", "out", artifact] := by
          decide +kernel
        rw [leaves] at selects
        intro path inSelected
        apply steady path
        change path ∈ (Selection.expand _ (builder.sourceBase ["p"])
          (styleCompiler .css "a.css" false).patterns).toOption.getD []
        rw [selects]
        exact inSelected
      · cases List.mem_singleton.mp second
        exact absurd selects (expand_ne_ok_of_misfit named levelOutput sound
          free home cleanBase built path misfit selected)

end Long

/-- A name of 257 octets with a wildcard. -/
def longName : String := String.ofList ('*' :: List.replicate 64 '𐀀')

theorem toList_longName : longName.toList = '*' :: List.replicate 64 '𐀀' :=
  String.toList_ofList

/-- Without its two conditions a build cannot always be made again. A name that is too long is only
refused once its directory is there, and a base that a null character cuts behind a step up is only
searched then. -/
theorem rebuild_differs :
    let builder := plainStyles ⟨.root, ["p"]⟩ ["a.css", "out/" ++ longName]
    let first := builder.build "out/all.css" sampleWorkspace
    let cut := plainStyles ⟨.root, ["q", "..\x00"]⟩ ["/p/a.css", "*/b.*"]
    let cutFirst := cut.build "/q/all.css" sampleWorkspace
    (sampleWorkspace.tree.IsSound ∧ sampleWorkspace.tree.IsLinkFree) ∧
      (∀ text ∈ ["a.css", "out/" ++ longName, "out/all.css", "/p/a.css", "*/b.*", "/q/all.css"],
        ".." ∉ Text.splitOn '/' text) ∧
      (first.1.toOption.bind BuildResult.outputPath = some ⟨.root, ["p", "out", "all.css"]⟩ ∧
        (∀ compiler ∈ builder.compilers, ∀ selected,
          Selection.expand first.2.2.tree (builder.sourceBase ["p"]) compiler.patterns =
              .ok selected →
            ∀ path ∈ selected, ∀ artifact ∈ builder.artifactNames "all.css",
              path.place [] ≠ ["p", "out", artifact]) ∧
        ∃ failure, (builder.build "out/all.css" first.2.2).1 = .error failure) ∧
      cutFirst.1.toOption.map BuildResult.sources = some [⟨.root, ["p", "a.css"]⟩] ∧
      (∀ compiler ∈ cut.compilers, ∀ path ∈ (Selection.expand cutFirst.2.2.tree
          (cut.sourceBase ["p"]) compiler.patterns).toOption.getD [],
        ∀ artifact ∈ cut.artifactNames "all.css", path.place [] ≠ ["q", artifact]) ∧
      (cut.build "/q/all.css" cutFirst.2.2).1.toOption.map BuildResult.sources =
        some [⟨.root, ["p", "a.css"]⟩, ⟨.root, ["p", "b.scss"]⟩] := by
  have characters : ∀ c ∈ longName.toList, c = '*' ∨ c = '𐀀' := by
    rw [toList_longName]
    intro c member
    exact (List.mem_cons.mp member).imp_right List.eq_of_mem_replicate
  have whole : '/' ∉ longName.toList := by
    intro member
    rcases characters '/' member with same | same <;> exact absurd same (by decide)
  have clean : '\x00' ∉ longName.toList := by
    intro member
    rcases characters '\x00' member with same | same <;> exact absurd same (by decide)
  have magic : Wildcard.isMagic longName = true := by
    refine List.any_eq_true.mpr ⟨'*', ?_, rfl⟩
    rw [toList_longName]
    exact List.mem_cons_self
  have long : Tree.nameLimit < Utf8.size longName := by decide +kernel
  have fits : ¬ Tree.pathLimit < Utf8.size (Path.toString ⟨.root, ["p", "out", longName]⟩) := by
    decide +kernel
  have level : ".." ∉ Text.splitOn '/' ("out/" ++ longName) := by
    rw [splitOn_out whole]
    simp [(isName_of_long long).2.2.symm]
  refine ⟨⟨Tree.sound_of_nodes (by decide +kernel), Tree.isLinkFree_of_nodes (by decide +kernel)⟩,
    ?_, rebuild_out whole clean long magic fits, ?_⟩
  · simp only [List.forall_mem_cons, level, not_false_eq_true, true_and]
    decide +kernel
  · decide +kernel

end Builder

end AssetBundler

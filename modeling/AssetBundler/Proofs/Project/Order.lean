import AssetBundler.Proofs.Builder.Commuting
import AssetBundler.Proofs.Config.RoundTrip
import AssetBundler.Proofs.Project.Bundles
import AssetBundler.Proofs.Selection.Recursive

/-!
The order of two bundles. If they select and write apart from each other, each of them gives the
same in either order, and both orders leave the same.
-/

namespace AssetBundler.Project

open AssetBundler.Action Builder

section Tasks

variable (project : Project) (base : Path) (config : Config) (name : String) (verbose : Bool)

/-- The task that a bundle of a configuration comes to. -/
def IsTask (task : Task) : Prop :=
  ∃ bundle, config.bundle name = .ok bundle ∧ bundle.output = task.output ∧
    (project.newBuilder base verbose).ofDefinition bundle = .ok task.builder

variable {project base config name verbose}

theorem base_of_isTask {task : Task} (isTask : project.IsTask base config name verbose task) :
    task.builder.base = base := by
  obtain ⟨bundle, -, -, made⟩ := isTask
  exact Builder.base_of_definition made

/-- There is one task for a bundle. -/
theorem eq_of_isTask {task other : Task} (isTask : project.IsTask base config name verbose task)
    (isOther : project.IsTask base config name verbose other) : task = other := by
  obtain ⟨bundle, found, output, made⟩ := isTask
  obtain ⟨otherBundle, otherFound, otherOutput, otherMade⟩ := isOther
  cases found.symm.trans otherFound
  exact Task.eq_of_output (Except.ok.inj (made.symm.trans otherMade))
    (output.symm.trans otherOutput)

theorem stepsEffect_of_isTask {task : Task} (isTask : project.IsTask base config name verbose task)
    (checked : task.builder.checkBuild task.output = .ok (task.folder, task.name)) (tree : Tree)
    (here : Location) :
    project.stepsEffect base name (some config) false verbose tree here =
      ((task.assembled tree here).1.map fun result => { result with bundle := some name },
        (task.assembled tree here).2) := by
  obtain ⟨bundle, found, sameOutput, made⟩ := isTask
  have defined : definition base name (some config) tree here = .ok bundle := found
  simp only [stepsEffect, defined, made, Bool.false_eq_true, if_false]
  rw [sameOutput, ranNamed, ran, checked]
  rfl

/-- A bundle comes to a task, or it fails alike whatever the tree is. -/
theorem stepsEffect_cases (here : Location) :
    (∃ failure, ∀ tree, project.stepsEffect base name (some config) false verbose tree here =
        (.error failure, tree)) ∨
      ∃ task, project.IsTask base config name verbose task ∧
        ∀ tree, project.stepsEffect base name (some config) false verbose tree here =
          ((task.assembled tree here).1.map fun result => { result with bundle := some name },
            (task.assembled tree here).2) := by
  cases found : config.bundle name with
  | error failure =>
      refine Or.inl ⟨failure, fun tree => ?_⟩
      have defined : definition base name (some config) tree here = .error failure := found
      simp only [stepsEffect, defined]
  | ok bundle =>
      have defined (tree : Tree) : definition base name (some config) tree here = .ok bundle :=
        found
      cases made : (project.newBuilder base verbose).ofDefinition bundle with
      | error failure =>
          refine Or.inl ⟨failure, fun tree => ?_⟩
          simp only [stepsEffect, defined, made]
      | ok builder =>
          cases checked : builder.checkBuild bundle.output with
          | error failure =>
              refine Or.inl ⟨failure, fun tree => ?_⟩
              simp only [stepsEffect, defined, made, Bool.false_eq_true, if_false]
              rw [ranNamed, ran, checked]
              rfl
          | ok place =>
              obtain ⟨-, -, named⟩ := checkBuild_eq_ok.mp checked
              have isTask : project.IsTask base config name verbose
                  ⟨builder, bundle.output, place.1, place.2, named⟩ := ⟨bundle, found, rfl, made⟩
              exact Or.inr ⟨_, isTask, fun tree => stepsEffect_of_isTask isTask checked tree here⟩

end Tasks

section Order

/-- Whatever two bundles come to, each selects and writes apart from the other one. -/
def AreApart (project : Project) (base : Path) (config : Config) (verbose : Bool) (here : Location)
    (first second : String) : Prop :=
  ∀ task other, project.IsTask base config first verbose task →
    project.IsTask base config second verbose other →
      task.IsApartFrom other here ∧ other.IsApartFrom task here

/-- Neither of two bundles asks for a name that is too long for a directory that the other one
makes. -/
def FitTogether (project : Project) (base : Path) (config : Config) (verbose : Bool) (tree : Tree)
    (here : Location) (first second : String) : Prop :=
  ∀ task other, project.IsTask base config first verbose task →
    project.IsTask base config second verbose other →
      task.FitsBeside other tree here ∧ other.FitsBeside task tree here

variable {project : Project} {directory base : Path} {config : Config} {first second : String}
  {tree : Tree} {here : Location}

/-- The steps of two bundles that are apart give the same in either order and leave the same. -/
theorem stepsEffect_commute {verbose : Bool} (sound : tree.IsSound) (free : tree.IsLinkFree)
    (home : tree.get? here = some .directory) (straight : base.IsStraight)
    (clean : Tree.holdsNull base = false)
    (apart : project.AreApart base config verbose here first second)
    (fits : project.FitTogether base config verbose tree here first second) :
    let steps name tree := project.stepsEffect base name (some config) false verbose tree here
    (steps first (steps second tree).2).1 = (steps first tree).1 ∧
      (steps second (steps first tree).2).1 = (steps second tree).1 ∧
        (steps second (steps first tree).2).2.Alike (steps first (steps second tree).2).2 := by
  intro steps
  rcases @stepsEffect_cases project base config first verbose here with
    ⟨failure, fails⟩ | ⟨task, isTask, runs⟩
  · have idle (tree : Tree) : steps first tree = (.error failure, tree) := fails tree
    simp only [idle, true_and]
    exact Tree.Alike.refl _
  · rcases @stepsEffect_cases project base config second verbose here with
      ⟨failure, fails⟩ | ⟨other, isOther, otherRuns⟩
    · have idle (tree : Tree) : steps second tree = (.error failure, tree) := fails tree
      simp only [idle, true_and]
      exact Tree.Alike.refl _
    · have sameBase := base_of_isTask isTask
      have otherBase := base_of_isTask isOther
      obtain ⟨isApart, converse⟩ := apart task other isTask isOther
      obtain ⟨fit, otherFit⟩ := fits task other isTask isOther
      obtain ⟨gives, otherGives, alike⟩ := @Task.assembled_commute task other tree here sound free
        home (sameBase ▸ straight) (otherBase ▸ straight) (sameBase ▸ clean) (otherBase ▸ clean)
        isApart converse fit otherFit
      have own (tree : Tree) : steps first tree =
          ((task.assembled tree here).1.map fun result => { result with bundle := some first },
            (task.assembled tree here).2) := runs tree
      have others (tree : Tree) : steps second tree =
          ((other.assembled tree here).1.map fun result => { result with bundle := some second },
            (other.assembled tree here).2) := otherRuns tree
      simp only [own, others, gives, otherGives, true_and]
      exact alike

theorem bundleEffect_commute {verbose : Option Bool} (sound : tree.IsSound) (free : tree.IsLinkFree)
    (home : tree.get? here = some .directory) (clean : Tree.holdsNull directory = false)
    (apart : project.AreApart (root directory here) config (verbose.getD project.verbose) here
      first second)
    (fits : project.FitTogether (root directory here) config (verbose.getD project.verbose) tree
      here first second) :
    let effect name tree :=
      project.bundleEffect directory name (some config) false verbose tree here
    (effect first (effect second tree).2).1 = (effect first tree).1 ∧
      (effect second (effect first tree).2).1 = (effect second tree).1 ∧
        (effect second (effect first tree).2).2.Alike (effect first (effect second tree).2).2 := by
  have straight : (root directory here).IsStraight := Path.isStraight_absolute sound home clean
  have cleanBase : Tree.holdsNull (root directory here) = false :=
    Path.holdsNull_normalize (Path.isAbsolute_join _ _ rfl)
  obtain ⟨gives, otherGives, alike⟩ :=
    stepsEffect_commute sound free home straight cleanBase apart fits
  exact ⟨congrArg (reported first) gives, congrArg (reported second) otherGives, alike⟩

theorem bundlesEffect_pair {verbose : Option Bool} {left last : Tree} {one : BuildResult}
    {next : Except Failure BuildResult}
    (gave : project.bundleEffect directory first (some config) false verbose tree here =
      (.ok one, left))
    (ended : project.bundleEffect directory second (some config) false verbose left here =
      (next, last)) :
    project.bundlesEffect directory false verbose config [first, second] tree here =
      (next.map fun two => [one, two], last) := by
  rw [bundlesEffect, followedBy_ok gave, bundlesEffect, followedBy_assoc]
  cases next with
  | error failure =>
      rw [followedBy_error ended]
      rfl
  | ok two =>
      rw [followedBy_ok ended]
      rfl

theorem bundlesEffect_first {verbose : Option Bool} {left : Tree} {failure : Failure}
    {names : List String}
    (failed : project.bundleEffect directory first (some config) false verbose tree here =
      (.error failure, left)) :
    project.bundlesEffect directory false verbose config (first :: names) tree here =
      (.error failure, left) := by
  rw [bundlesEffect, followedBy_error failed]

/-- Two bundles that are apart give the same in either order and leave the same, unless a capability
is interrupted while one of them is built. -/
theorem bundlesEffect_commute {verbose : Option Bool} (sound : tree.IsSound)
    (free : tree.IsLinkFree) (home : tree.get? here = some .directory)
    (clean : Tree.holdsNull directory = false)
    (apart : project.AreApart (root directory here) config (verbose.getD project.verbose) here
      first second)
    (fits : project.FitTogether (root directory here) config (verbose.getD project.verbose) tree
      here first second) :
    let build names := project.bundlesEffect directory false verbose config names tree here
    (∃ one two, (build [first, second]).1 = .ok [one, two] ∧
        (build [second, first]).1 = .ok [two, one] ∧
        (build [first, second]).2.Alike (build [second, first]).2) ∨
      project.toolchain.equipment.CanInterrupt ∧
        (build [first, second]).1 = .error (.capability .interrupted) ∧
        (build [second, first]).1 = .error (.capability .interrupted) := by
  intro build
  obtain ⟨gives, otherGives, alike⟩ := bundleEffect_commute sound free home clean apart fits
  have interrupted {name : String} {tree left : Tree} {failure : Failure}
      (failed : project.bundleEffect directory name (some config) false verbose tree here =
        (.error failure, left)) :=
    project.bundleEffect_error directory name (some config) (congrArg Prod.fst failed)
  rcases gave : project.bundleEffect directory first (some config) false verbose tree here with
    ⟨result, left⟩
  rcases otherGave : project.bundleEffect directory second (some config) false verbose tree here
    with ⟨otherResult, otherLeft⟩
  rcases after : project.bundleEffect directory first (some config) false verbose otherLeft here
    with ⟨resultAfter, last⟩
  rcases otherAfter : project.bundleEffect directory second (some config) false verbose left here
    with ⟨otherResultAfter, otherLast⟩
  simp only [gave, otherGave, after, otherAfter] at gives otherGives alike
  obtain rfl : result = resultAfter := gives.symm
  obtain rfl : otherResult = otherResultAfter := otherGives.symm
  cases result with
  | error failure =>
      obtain ⟨rfl, toBlame⟩ := interrupted gave
      refine Or.inr ⟨toBlame, congrArg Prod.fst (bundlesEffect_first gave), ?_⟩
      cases otherResult with
      | error failure =>
          obtain ⟨rfl, -⟩ := interrupted otherGave
          exact congrArg Prod.fst (bundlesEffect_first otherGave)
      | ok two => exact congrArg Prod.fst (bundlesEffect_pair otherGave after)
  | ok one =>
      cases otherResult with
      | error failure =>
          obtain ⟨rfl, toBlame⟩ := interrupted otherGave
          exact Or.inr ⟨toBlame, congrArg Prod.fst (bundlesEffect_pair gave otherAfter),
            congrArg Prod.fst (bundlesEffect_first otherGave)⟩
      | ok two =>
          have forward := bundlesEffect_pair gave otherAfter
          have backward := bundlesEffect_pair otherGave after
          refine Or.inl ⟨one, two, congrArg Prod.fst forward, congrArg Prod.fst backward, ?_⟩
          simp only [build, forward, backward]
          exact alike

/-- Two bundles that are apart give the same results in either order, whether they succeed or fail,
and both orders leave the same. Only a capability that is interrupted ends a build without results,
and then it does so in both orders. -/
theorem build_order {project : Project} {directory : Path} {config : Config} {first second : String}
    {verbose : Option Bool} {workspace : Workspace} (sound : workspace.tree.IsSound)
    (free : workspace.tree.IsLinkFree)
    (home : workspace.tree.get? workspace.directory = some .directory)
    (clean : Tree.holdsNull directory = false)
    (holds : ((loadConfig (root directory workspace.directory)).run workspace).1 = .ok config)
    (apart : project.AreApart (root directory workspace.directory) config
      (verbose.getD project.verbose) workspace.directory first second)
    (fits : project.FitTogether (root directory workspace.directory) config
      (verbose.getD project.verbose) workspace.tree workspace.directory first second) :
    let build := project.plainBuild directory verbose workspace
    (∃ one two, one.bundle = some first ∧ two.bundle = some second ∧
        (build [first, second]).1 = .ok [one, two] ∧
        (build [second, first]).1 = .ok [two, one] ∧
        (build [first, second]).2.tree.Alike (build [second, first]).2.tree) ∨
      project.toolchain.equipment.CanInterrupt ∧
        (build [first, second]).1 = .error (.capability .interrupted) ∧
        (build [second, first]).1 = .error (.capability .interrupted) := by
  intro build
  have configuredAs := (loadConfig_gives _ workspace).symm.trans holds
  obtain ⟨gave, left⟩ := project.build_run directory false verbose
    (List.cons_ne_nil first [second]) configuredAs
  obtain ⟨otherGave, otherLeft⟩ := project.build_run directory false verbose
    (List.cons_ne_nil second [first]) configuredAs
  simp only [build, plainBuild]
  rw [gave, left, otherGave, otherLeft]
  have straight : (root directory workspace.directory).IsStraight :=
    Path.isStraight_absolute sound home clean
  have cleanRoot : Tree.holdsNull (root directory workspace.directory) = false :=
    Path.holdsNull_normalize (Path.isAbsolute_join _ _ rfl)
  have same : root (root directory workspace.directory) workspace.directory =
      root directory workspace.directory := Path.absolute_of_straight straight cleanRoot _
  have commutes := @bundlesEffect_commute project (root directory workspace.directory) config first
    second workspace.tree workspace.directory (some (verbose.getD project.verbose)) sound free home
    cleanRoot
  rw [same] at commutes
  rcases commutes apart fits with ⟨one, two, forward, backward, alike⟩ | interrupted
  · have bundles := bundlesEffect_bundles (Prod.ext forward rfl)
    simp only [List.map_cons, List.map_nil, List.cons.injEq, and_true] at bundles
    exact Or.inl ⟨one, two, bundles.1, bundles.2, forward, backward, alike⟩
  · exact Or.inr interrupted

end Order

section Sample

open Config

/-- One source of style sheets. -/
def plainSource (name files : String) : SourceDefinition where
  name := name
  dialect := "css"
  files := [files]

def plainBundle (name output source files : String) : BundleDefinition where
  name := name
  output := output
  sources := [plainSource source files]

/-- Two bundles of style sheets for one directory, each with a source of its own. -/
def pairDefinitions (files : String) : List Definition :=
  [.bundle (plainBundle "all" "out/all.css" "a" "a.css"),
    .bundle (plainBundle "top" "out/top.css" "b" files),
    .source (plainSource "a" "a.css"), .source (plainSource "b" files)]

def pairConfig (files : String) : Config := configOf {} (pairDefinitions files)

/-- A project with these bundles and two style sheets. -/
def pairTree (files : String) : Tree :=
  ⟨[(["p"], .directory), (["p", "a.css"], .file [120]), (["p", "b.css"], .file [121]),
    (["p", configName], .file (Utf8.encode (render {} (pairDefinitions files))))]⟩

def pairWorkspace (files : String) : Workspace where
  tree := pairTree files
  directory := ["p"]

/-- The builder of a plain bundle. -/
def plainBuilder (base : Path) (files : String) : Builder :=
  { sample.newBuilder base false with compilers := [Builder.styleCompiler .css files false] }

theorem ofDefinition_plainBundle (base : Path) (name output source files : String) :
    (sample.newBuilder base false).ofDefinition (plainBundle name output source files) =
      .ok (plainBuilder base files) := by
  have dialect : Dialect.parse "css" = .ok .css := by decide
  have configured : Builder.configureSource (Compiler.create .css false)
      (plainSource source files) = .ok (Builder.styleCompiler .css files false) := rfl
  have compiled : Builder.sourceCompiler false (plainSource source files) =
      .ok (Builder.styleCompiler .css files false) := by
    unfold Builder.sourceCompiler
    simp only [show (plainSource source files).dialect = "css" from rfl, dialect, configured]
  rw [Builder.ofDefinition, show (plainBundle name output source files).sources =
    [plainSource source files] from rfl]
  simp only [List.mapM_cons, List.mapM_nil, newBuilder, compiled, bind, Except.bind, pure,
    Except.pure]
  rfl

theorem root_pair : root ⟨.here, []⟩ ["p"] = ⟨.root, ["p"]⟩ := by decide

/-- What the first bundle comes to. -/
def allTask : Task where
  builder := plainBuilder ⟨.root, ["p"]⟩ "a.css"
  output := "out/all.css"
  folder := "out"
  name := "all.css"
  named := by decide

/-- What the second bundle comes to. -/
def topTask (files : String) : Task where
  builder := plainBuilder ⟨.root, ["p"]⟩ files
  output := "out/top.css"
  folder := "out"
  name := "top.css"
  named := by decide

variable {files : String}

theorem isSound_pairTree : (pairTree files).IsSound := by
  refine Tree.sound_of_nodes ?_
  simp only [pairTree, List.forall_mem_cons]
  exact ⟨⟨rfl, by decide⟩, ⟨rfl, by decide⟩, ⟨rfl, by decide⟩, ⟨rfl, by decide⟩, nofun⟩

theorem isLinkFree_pairTree : (pairTree files).IsLinkFree := by
  refine Tree.isLinkFree_of_nodes ?_
  simp only [pairTree, List.forall_mem_cons]
  exact ⟨rfl, rfl, rfl, rfl, nofun⟩

section Written

variable (item : IsItem files)
include item

theorem areWritable_pair : AreWritable (pairDefinitions files) where
  sources := by
    have isSource {name file : String} (named : IsName name) (isItem : IsItem file) :
        IsWritableSource (plainSource name file) :=
      ⟨named, show IsText "css" by decide, List.forall_mem_singleton.mpr isItem, nofun,
        nofun, fun filled => absurd rfl filled, nofun, nofun, rfl⟩
    exact List.forall_mem_cons.mpr ⟨isSource (by decide) (by decide),
      List.forall_mem_singleton.mpr (isSource (by decide) item)⟩
  bundles := by
    have isBundle {name output source file : String} (named : IsName name)
        (isText : IsText output) : IsWritableBundle (plainBundle name output source file) :=
      ⟨named, isText, List.cons_ne_nil _ _, rfl, nofun⟩
    exact List.forall_mem_cons.mpr ⟨isBundle (by decide) (by decide),
      List.forall_mem_singleton.mpr (isBundle (by decide) (by decide))⟩
  sourceNames := show ["a", "b"].Nodup by decide
  bundleNames := show ["all", "top"].Nodup by decide
  known := List.forall_mem_cons.mpr ⟨List.forall_mem_singleton.mpr List.mem_cons_self,
    List.forall_mem_singleton.mpr (List.forall_mem_singleton.mpr
      (List.mem_cons_of_mem _ List.mem_cons_self))⟩

theorem loadConfig_pair : ((loadConfig (root ⟨.here, []⟩ ["p"])).run (pairWorkspace files)).1 =
    .ok (pairConfig files) := by
  have found : Config.find? (pairTree files) ["p"] ⟨.root, ["p"]⟩ =
      .ok (some ⟨.root, ["p", configName]⟩) := rfl
  have read : (pairTree files).read ["p"] ⟨.root, ["p", configName]⟩ =
      .ok (Utf8.encode (render {} (pairDefinitions files))) := rfl
  have loaded := load_configOf {} (areWritable_pair item) read
  refine (loadConfig_gives _ (pairWorkspace files)).trans ?_
  change configured (root ⟨.here, []⟩ ["p"]) none (pairTree files) ["p"] = _
  simp only [root_pair, configured, found, bind, Except.bind, pairConfig]
  exact loaded

theorem bundle_pair :
    (pairConfig files).bundle "all" = .ok (plainBundle "all" "out/all.css" "a" "a.css") ∧
      (pairConfig files).bundle "top" = .ok (plainBundle "top" "out/top.css" "b" files) := by
  have found (bundle : BundleDefinition) (member : bundle ∈ bundlesOf (pairDefinitions files)) :
      (pairConfig files).bundle bundle.name = .ok bundle :=
    bundle_configOf (areWritable_pair item) member
  exact ⟨found (plainBundle "all" "out/all.css" "a" "a.css") List.mem_cons_self,
    found (plainBundle "top" "out/top.css" "b" files) (List.mem_cons_of_mem _ List.mem_cons_self)⟩

theorem isTask_pair :
    sample.IsTask ⟨.root, ["p"]⟩ (pairConfig files) "all" false allTask ∧
      sample.IsTask ⟨.root, ["p"]⟩ (pairConfig files) "top" false (topTask files) := by
  obtain ⟨all, top⟩ := bundle_pair item
  exact ⟨⟨_, all, rfl, ofDefinition_plainBundle _ _ _ _ _⟩,
    ⟨_, top, rfl, ofDefinition_plainBundle _ _ _ _ _⟩⟩

end Written

theorem sourceBase_plain {task : Task} {file : String}
    (builder : task.builder = plainBuilder ⟨.root, ["p"]⟩ file) :
    task.builder.sourceBase ["p"] = ⟨.root, ["p"]⟩ := by
  rw [builder]
  change Path.absolute ⟨.root, ["p"]⟩ ⟨.root, ["p"]⟩ = _
  decide

theorem isApartFrom_plain {task other : Task} {file : String}
    (builder : task.builder = plainBuilder ⟨.root, ["p"]⟩ file)
    (levelOutput : ".." ∉ Output.segments task.output) (level : ".." ∉ Text.splitOn '/' file)
    (literal : Wildcard.isMagic file = false)
    (elsewhere : (Selection.literalPath ⟨.root, ["p"]⟩ file).place [] ∉
      other.artifacts.map Path.parts)
    (apart : ∀ path ∈ task.artifacts, ∀ otherPath ∈ other.artifacts,
      ¬ otherPath.parts <+: path.parts) : task.IsApartFrom other ["p"] where
  levelOutput := levelOutput
  level := by
    rw [builder]
    exact List.forall_mem_singleton.mpr (List.forall_mem_singleton.mpr level)
  unmatched := by
    rw [sourceBase_plain builder, builder]
    refine List.forall_mem_singleton.mpr (List.forall_mem_singleton.mpr ?_)
    intro path isArtifact isMatch
    exact elsewhere (Selection.eq_of_matches literal isMatch ▸ List.mem_map_of_mem isArtifact)
  apart := apart

/-- Two plain bundles are apart unless the second one selects the file of the first one. -/
theorem areApart_pair (item : IsItem files) (level : ".." ∉ Text.splitOn '/' files)
    (literal : Wildcard.isMagic files = false)
    (elsewhere : (Selection.literalPath ⟨.root, ["p"]⟩ files).place [] ∉
      allTask.artifacts.map Path.parts) :
    sample.AreApart ⟨.root, ["p"]⟩ (pairConfig files) false ["p"] "all" "top" := by
  intro task other isTask isOther
  obtain ⟨isAll, isTop⟩ := isTask_pair item
  obtain rfl := eq_of_isTask isTask isAll
  obtain rfl := eq_of_isTask isOther isTop
  have artifacts : (topTask files).artifacts =
      Output.artifactPaths ⟨.root, ["p"]⟩ "out" "top.css" := rfl
  constructor
  · refine isApartFrom_plain rfl ?_ ?_ ?_ ?_ ?_
    · decide
    · decide
    · decide
    · rw [artifacts]
      decide
    · rw [artifacts]
      decide
  · refine isApartFrom_plain rfl ?_ level literal elsewhere ?_
    · change ".." ∉ Output.segments "out/top.css"
      decide
    · rw [artifacts]
      decide

theorem fitsBeside_plain {task other : Task} {file : String} {tree : Tree}
    (builder : task.builder = plainBuilder ⟨.root, ["p"]⟩ file)
    (short : ∀ name ∈ (Selection.literalPath ⟨.root, ["p"]⟩ file).parts,
      ¬ Tree.nameLimit < Utf8.size name)
    (shortArtifacts : ∀ path ∈ task.artifacts, ∀ name ∈ path.parts,
      ¬ Tree.nameLimit < Utf8.size name) : task.FitsBeside other tree ["p"] where
  sources := by
    rw [sourceBase_plain builder, builder]
    exact List.forall_mem_singleton.mpr (List.forall_mem_singleton.mpr (Tree.fits_of_short short))
  artifacts := fun path member => Tree.fits_of_short (shortArtifacts path member)

/-- Two bundles for one directory that is not there yet. -/
theorem build_order_sample :
    let build := sample.plainBuild ⟨.here, []⟩ none (pairWorkspace "b.css")
    ∃ one two, one.bundle = some "all" ∧ two.bundle = some "top" ∧
      (build ["all", "top"]).1 = .ok [one, two] ∧ (build ["top", "all"]).1 = .ok [two, one] ∧
        (build ["all", "top"]).2.tree.Alike (build ["top", "all"]).2.tree := by
  have item : IsItem "b.css" := by decide +kernel
  have apart : sample.AreApart (root ⟨.here, []⟩ ["p"]) (pairConfig "b.css") false ["p"] "all"
      "top" := by
    rw [root_pair]
    exact areApart_pair item (by decide +kernel) (by decide +kernel) (by decide +kernel)
  have fits : sample.FitTogether (root ⟨.here, []⟩ ["p"]) (pairConfig "b.css") false
      (pairTree "b.css") ["p"] "all" "top" := by
    rw [root_pair]
    intro task other isTask isOther
    obtain ⟨isAll, isTop⟩ := isTask_pair item
    obtain rfl := eq_of_isTask isTask isAll
    obtain rfl := eq_of_isTask isOther isTop
    exact ⟨fitsBeside_plain rfl (by decide +kernel) (by decide +kernel),
      fitsBeside_plain rfl (by decide +kernel) (by decide +kernel)⟩
  rcases @build_order sample ⟨.here, []⟩ (pairConfig "b.css") "all" "top" none
    (pairWorkspace "b.css") isSound_pairTree isLinkFree_pairTree rfl (by decide +kernel)
    (loadConfig_pair item) apart fits with completes | ⟨canInterrupt, -⟩
  · exact completes
  · exact absurd canInterrupt sample_not_canInterrupt

section LongFile

open AssetBundler.Tree (not_mem_longName)

/-- A file with a name that is too long for the directory of both bundles. -/
def longFile : String := "out/" ++ Tree.longName

theorem long_longName : Tree.nameLimit < Utf8.size Tree.longName := by decide +kernel

theorem literalPath_longFile :
    Selection.literalPath ⟨.root, ["p"]⟩ longFile = ⟨.root, ["p", "out", Tree.longName]⟩ :=
  literalPath_out (not_mem_longName (by decide)) (not_mem_longName (by decide)) long_longName

theorem level_longFile : ".." ∉ Text.splitOn '/' longFile := by
  rw [longFile, splitOn_out (not_mem_longName (by decide))]
  simp [(isName_of_long long_longName).2.2.symm]

theorem character_longFile {c : Char} (member : c ∈ longFile.toList) : c ∈ "out/n".toList := by
  rw [longFile, String.toList_append, List.mem_append] at member
  rcases member with inFolder | inName
  · have folder : "out/".toList <+: "out/n".toList := by decide
    exact folder.subset inFolder
  · by_cases same : c = 'n'
    · rw [same]
      decide
    · exact absurd inName (not_mem_longName same)

theorem plain_longFile : Wildcard.isMagic longFile = false := by
  have plain : Wildcard.isMagic "out/n" = false := by decide
  exact Wildcard.isMagic_eq_false.mpr fun c member =>
    Wildcard.isMagic_eq_false.mp plain c (character_longFile member)

theorem isItem_longFile : IsItem longFile := by
  have kept {c : Char} (other : c ∉ "out/n".toList) : c ∉ longFile.toList :=
    fun member => other (character_longFile member)
  have plain : ∀ c ∈ longFile.toList, Text.isBlank c = false := by
    intro c member
    have noBlank : "out/n".toList.any Text.isBlank = false := by decide
    simpa using List.any_eq_false.mp noBlank c (character_longFile member)
  refine ⟨⟨⟨⟨kept (by decide), kept (by decide)⟩, ?_, ?_⟩, ?_⟩,
    kept (by decide)⟩
  · exact fun c isFirst => plain c (List.mem_of_mem_head? isFirst)
  · exact fun c isLast => plain c (List.mem_of_getLast? isLast)
  · intro empty
    have folder : 'o' ∈ longFile.toList := by
      rw [longFile, String.toList_append]
      exact List.mem_append_left _ (by decide)
    rw [empty] at folder
    cases folder

/-- A task that selects nothing but a file fails when this is refused. -/
theorem assembled_top_refused {tree : Tree} {failure : Failure}
    (refused : Selection.expand tree ⟨.root, ["p"]⟩ [files] = .error failure) :
    (topTask files).assembled tree ["p"] = (.error failure, tree) := by
  have compiled : (topTask files).builder.compiled tree ["p"] = .error failure := by
    have needless : (topTask files).builder.registry.demand
        (topTask files).builder.neededCapabilities = .ok () := rfl
    have based := @sourceBase_plain (topTask files) files rfl
    have parts : (Builder.styleCompiler .css files false).parts
        (topTask files).builder.registry tree ⟨.root, ["p"]⟩ = .error failure := by
      rw [Compiler.parts, show (Builder.styleCompiler .css files false).patterns = [files] from rfl,
        refused]
      rfl
    rw [Builder.compiled, needless, based]
    change Builder.parts _ tree ⟨.root, ["p"]⟩ = _
    rw [Builder.parts, show (topTask files).builder.compilers =
      [Builder.styleCompiler .css files false] from rfl]
    simp only [List.mapM_cons, parts]
    rfl
  rw [Task.assembled, Builder.assembled, compiled]

/-- Why the second bundle fails when it is built first. -/
def missingFault : Failure := .selection (.notFound longFile)

/-- Why it fails when it is built last. -/
def refusedFault : Failure := .file (.refused .nameTooLong ⟨.root, ["p", "out", Tree.longName]⟩)

theorem not_found_longFile :
    (topTask longFile).assembled (pairTree longFile) ["p"] =
      (.error missingFault, pairTree longFile) := by
  apply assembled_top_refused
  have noFile : (pairTree longFile).isFile [] (Selection.literalPath ⟨.root, ["p"]⟩ longFile) =
      .ok false := by
    have fits : ¬ Tree.pathLimit <
        Utf8.size (Path.toString ⟨.root, ["p", "out", Tree.longName]⟩) := by decide +kernel
    have stops : (pairTree longFile).status [] ⟨.root, ["p", "out", Tree.longName]⟩ =
        .error .missing := by
      rw [Tree.status, Tree.locate, if_neg fits]
      rfl
    rw [literalPath_longFile, Tree.isFile, Tree.probe, stops]
    split <;> rfl
  rw [Selection.expand, Selection.expandFrom, Selection.expandPattern_search noFile, plain_longFile]
  rfl

/-- Inside the directory the name is refused. -/
theorem refused_longFile {tree : Tree} (sound : tree.IsSound) (free : tree.IsLinkFree)
    (inside : tree.get? ["p", "out"] = some .directory) :
    (topTask longFile).assembled tree ["p"] = (.error refusedFault, tree) := by
  apply assembled_top_refused
  obtain ⟨-, notHere, notUp⟩ := isName_of_long long_longName
  have straight : Path.IsStraight ⟨.root, ["p", "out", Tree.longName]⟩ :=
    ⟨rfl, by simp [Path.IsPlain, notHere, notUp]⟩
  have clean : Tree.holdsNull ⟨.root, ["p", "out", Tree.longName]⟩ = false := by
    rw [← literalPath_longFile]
    exact Path.holdsNull_normalize (Selection.isAbsolute_joinText rfl _)
  have start : ["p", "out"] ++ [Tree.longName] <+: ["p", "out", Tree.longName] := List.prefix_refl _
  have refused : tree.refusal? [] _ = _ :=
    Tree.refusal?_of_long_name sound free straight clean start inside long_longName
  have asked := Tree.refusal?_eq_some.mp refused
  rw [← literalPath_longFile] at asked
  rw [Selection.expand, Selection.expandFrom, Selection.expandPattern_refused asked,
    literalPath_longFile]
  rfl

theorem elsewhere_longFile : (Selection.literalPath ⟨.root, ["p"]⟩ longFile).place [] ∉
    allTask.artifacts.map Path.parts := by
  obtain ⟨-, notHere, notUp⟩ := isName_of_long long_longName
  have plain : Path.IsPlain ⟨.root, ["p", "out", Tree.longName]⟩ := by
    simp [Path.IsPlain, notHere, notUp]
  rw [literalPath_longFile, plain.place_eq]
  intro isArtifact
  have short : ∀ place ∈ allTask.artifacts.map Path.parts, ∀ name ∈ place,
      ¬ Tree.nameLimit < Utf8.size name := by decide
  refine short _ isArtifact Tree.longName ?_ long_longName
  simp

/-- What the first bundle leaves is a directory for the second one. -/
theorem delivers_all :
    (∃ result, (allTask.assembled (pairTree longFile) ["p"]).1 = .ok result) ∧
      (allTask.assembled (pairTree longFile) ["p"]).2.get? ["p", "out"] = some .directory := by
  have succeeds : (allTask.assembled (pairTree longFile) ["p"]).1.toOption.isSome = true := by
    decide +kernel
  refine ⟨?_, by decide +kernel⟩
  cases gave : (allTask.assembled (pairTree longFile) ["p"]).1 with
  | error failure =>
      rw [gave] at succeeds
      cases succeeds
  | ok result => exact ⟨result, rfl⟩

example : ((allTask.assembled (pairTree longFile) ["p"]).2.get? ["p", "out", "all.css"]).isSome =
    true := by decide +kernel

theorem messages_differ :
    (failedResult "top" refusedFault).message ≠ (failedResult "top" missingFault).message := by
  intro same
  have first := congrArg (fun text => text.toList.head?) same
  have refused : (failedResult "top" refusedFault).message =
      "Unexpected error: " ++ refusedFault.message := rfl
  have missing : (failedResult "top" missingFault).message =
      "Source file not found: " ++ longFile := rfl
  simp only [refused, missing, String.toList_append, List.head?_append] at first
  exact absurd first (by decide)

/-- What a task gives is what the build of its bundle reports. -/
theorem bundleEffect_of_isTask {config : Config} {name : String} {task : Task} {tree left : Tree}
    {result : Except Failure BuildResult}
    (isTask : sample.IsTask ⟨.root, ["p"]⟩ config name false task)
    (checked : task.builder.checkBuild task.output = .ok (task.folder, task.name))
    (gave : task.assembled tree ["p"] = (result, left)) :
    sample.bundleEffect ⟨.root, ["p"]⟩ name (some config) false (some false) tree ["p"] =
      (reported name (result.map fun given => { given with bundle := some name }), left) := by
  have atRoot : root ⟨.root, ["p"]⟩ ["p"] = ⟨.root, ["p"]⟩ := by decide
  rw [bundleEffect, atRoot, Option.getD_some, stepsEffect_of_isTask isTask checked, gave]

/-- The second bundle fails in either order, but for the sake of its name only if the first one has
made their directory before. -/
theorem build_order_differs :
    let build := sample.plainBuild ⟨.here, []⟩ none (pairWorkspace longFile)
    (pairTree longFile).IsSound ∧ (pairTree longFile).IsLinkFree ∧
      ((loadConfig (root ⟨.here, []⟩ ["p"])).run (pairWorkspace longFile)).1 =
        .ok (pairConfig longFile) ∧
      sample.AreApart (root ⟨.here, []⟩ ["p"]) (pairConfig longFile) false ["p"] "all" "top" ∧
      ∃ one first second, (build ["all", "top"]).1 = .ok [one, first] ∧
        (build ["top", "all"]).1 = .ok [second, one] ∧ first.message ≠ second.message := by
  have loaded := loadConfig_pair isItem_longFile
  refine ⟨isSound_pairTree, isLinkFree_pairTree, loaded, ?_, ?_⟩
  · rw [root_pair]
    exact areApart_pair isItem_longFile level_longFile plain_longFile elsewhere_longFile
  obtain ⟨isAll, isTop⟩ := isTask_pair isItem_longFile
  obtain ⟨⟨result, builds⟩, inside⟩ := delivers_all
  have growth := @Task.growsTo allTask (pairTree longFile) ["p"] isSound_pairTree
    isLinkFree_pairTree ⟨rfl, by unfold Path.IsPlain; decide +kernel⟩ (by decide +kernel)
  have configuredAs := (loadConfig_gives _ _).symm.trans loaded
  have atRoot : root ⟨.here, []⟩ (pairWorkspace longFile).directory = ⟨.root, ["p"]⟩ := root_pair
  have gives := (sample.build_run ⟨.here, []⟩ false none (List.cons_ne_nil "all" ["top"])
    configuredAs).1
  have otherGives := (sample.build_run ⟨.here, []⟩ false none (List.cons_ne_nil "top" ["all"])
    configuredAs).1
  rw [atRoot] at gives otherGives
  have checked : (topTask longFile).builder.checkBuild (topTask longFile).output =
      .ok ((topTask longFile).folder, (topTask longFile).name) :=
    checkBuild_eq_ok.mpr ⟨rfl, List.cons_ne_nil _ _, (topTask longFile).named⟩
  have all := bundleEffect_of_isTask isAll
    (checkBuild_eq_ok.mpr ⟨rfl, List.cons_ne_nil _ _, allTask.named⟩) (Prod.ext builds rfl)
  have top := bundleEffect_of_isTask isTop checked not_found_longFile
  have topLast := bundleEffect_of_isTask isTop checked
    (refused_longFile growth.grownSound growth.grownFree inside)
  exact ⟨{ result with bundle := some "all" }, failedResult "top" refusedFault,
    failedResult "top" missingFault,
    gives.trans (congrArg Prod.fst (bundlesEffect_pair all topLast)),
    otherGives.trans (congrArg Prod.fst (bundlesEffect_pair top all)), messages_differ⟩

end LongFile

end Sample

end AssetBundler.Project

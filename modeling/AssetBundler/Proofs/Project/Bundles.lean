import AssetBundler.Proofs.Builder.Unchanged
import AssetBundler.Proofs.Project.CleanBuild
import AssetBundler.Proofs.Project.Reports

/-!
Builds of several bundles, one after the other. A bundle that fails before it writes anything has no
influence on the others.
-/

namespace AssetBundler.Project

open AssetBundler.Action

variable (project : Project) (directory : Path)

section Sequence

/-- The configuration of a project and the bundles to build. -/
def chosen (bundles : List String) (tree : Tree) (here : Location) :
    Except Failure (Config × List String) := do
  let config ← configured directory none tree here
  let names ← if bundles.isEmpty then config.defaultBundles else .ok bundles
  return (config, names)

theorem observes_choose (bundles : List String) :
    Observes anyEvent (choose directory bundles) (chosen directory bundles) := by
  refine Observes.bind (observes_configured directory none) fun config => ?_
  cases bundles.isEmpty with
  | true => exact Observes.bind (observes_result config.defaultBundles) fun names => Observes.pure _
  | false => exact Observes.pure (config, bundles)

theorem performs_raiseAsProject {Value : Type} {action : Action Value}
    {outcome : Tree → Location → Except Failure Value}
    (observed : Observes anyEvent action outcome) :
    Performs (raiseAsProject action) fun tree here =>
      ((outcome tree here).mapError asProjectFault, tree) := by
  have raises : raiseAsProject action = (do
      let result ← Action.attempt action
      Action.ofExcept (result.mapError asProjectFault)) :=
    bind_congr fun result => by cases result <;> rfl
  rw [raises]
  exact (Performs.bind observed.performs.attempt fun result =>
    (observes_result (result.mapError asProjectFault)).performs).congr fun _ _ => rfl

variable (cleans : Bool) (verbose : Option Bool)

/-- What the builds of several bundles give and leave. -/
def bundlesEffect (config : Config) :
    List String → Tree → Location → Except Failure (List BuildResult) × Tree
  | [] => fun tree _ => (.ok [], tree)
  | name :: rest =>
      followedBy (project.bundleEffect directory name (some config) cleans verbose) fun result =>
        followedBy (bundlesEffect config rest) fun results tree _ => (.ok (result :: results), tree)

theorem performs_buildAll (config : Config) (names : List String) :
    Performs (project.buildAll directory cleans verbose config names)
      (project.bundlesEffect directory cleans verbose config names) := by
  induction names with
  | nil => exact Performs.pure []
  | cons name rest inductionHypothesis =>
      exact Performs.bind (project.performs_buildBundle directory name (some config) cleans verbose)
        fun result => Performs.bind inductionHypothesis fun results => Performs.pure _

/-- What is left to do when the bundles are chosen. -/
def chosenEffect (choice : Config × List String) (tree : Tree) (here : Location) :
    Except Failure (List BuildResult) × Tree :=
  if choice.2.isEmpty then (.error (.project .noBundles), tree)
  else project.bundlesEffect directory cleans (some (verbose.getD project.verbose)) choice.1
    choice.2 tree here

/-- The build of several bundles from a directory that is absolute. -/
def buildFrom (bundles : List String) : Action (List BuildResult) := do
  let (config, names) ← raiseAsProject (choose directory bundles)
  if names.isEmpty then Action.fail (.project .noBundles)
  else project.buildAll directory cleans (some (verbose.getD project.verbose)) config names

theorem performs_buildFrom (bundles : List String) :
    Performs (project.buildFrom directory cleans verbose bundles)
      (followedBy
        (fun tree here => ((chosen directory bundles tree here).mapError asProjectFault, tree))
        (project.chosenEffect directory cleans verbose)) := by
  refine Performs.bind (performs_raiseAsProject (observes_choose directory bundles))
    fun choice => ?_
  obtain ⟨config, names⟩ := choice
  unfold chosenEffect
  dsimp only
  cases names.isEmpty with
  | true => exact (observes_result (.error (.project .noBundles))).performs
  | false => exact project.performs_buildAll directory cleans _ config names

theorem build_eq (bundles : List String) :
    project.build directory bundles cleans verbose = (do
      let base ← Action.absolute directory
      project.buildFrom base cleans verbose bundles) := by
  unfold build buildFrom
  refine bind_congr fun base => bind_congr fun choice => ?_
  obtain ⟨config, names⟩ := choice
  rfl

theorem run_build (bundles : List String) (workspace : Workspace) :
    (project.build directory bundles cleans verbose).run workspace =
      (project.buildFrom (root directory workspace.directory) cleans verbose bundles).run
        workspace := by
  rw [build_eq, Builder.run_absolute_bind, root]

/-- The bundles of a configuration that the tree holds are built one after the other. -/
theorem build_run {names : List String} (asked : names ≠ []) {config : Config}
    {workspace : Workspace} (holds : configured (root directory workspace.directory) none
      workspace.tree workspace.directory = .ok config) :
    ((project.build directory names cleans verbose).run workspace).1 =
        (project.bundlesEffect (root directory workspace.directory) cleans
          (some (verbose.getD project.verbose)) config names workspace.tree workspace.directory).1 ∧
      ((project.build directory names cleans verbose).run workspace).2.tree =
        (project.bundlesEffect (root directory workspace.directory) cleans
          (some (verbose.getD project.verbose)) config names workspace.tree
          workspace.directory).2 := by
  have filled : names.isEmpty = false := by
    cases names with
    | nil => exact absurd rfl asked
    | cons name rest => rfl
  have choice : chosen (root directory workspace.directory) names workspace.tree
      workspace.directory = .ok (config, names) := by
    simp only [chosen, holds, filled, bind, Except.bind, pure, Except.pure, Bool.false_eq_true,
      if_false]
  obtain ⟨gave, left, -⟩ := (project.performs_buildFrom (root directory workspace.directory) cleans
    verbose names).run_eq workspace
  rw [← run_build, followedBy_ok (Prod.ext (congrArg (Except.mapError asProjectFault) choice) rfl),
    chosenEffect, if_neg (by rw [filled]; exact Bool.false_ne_true)] at gave left
  exact ⟨gave, left⟩

end Sequence

/-- The configuration that is loaded is the one that a build without a given one sees. -/
theorem loadConfig_gives (base : Path) (workspace : Workspace) :
    ((loadConfig base).run workspace).1 =
      configured base none workspace.tree workspace.directory :=
  ((observes_configured base none).performs.run_eq workspace).1

section Runs

variable {project : Project} {directory : Path} {cleans : Bool} {verbose : Option Bool}
  {config : Config} {tree left : Tree} {here : Location}

/-- The builds of a list of bundles begin with those of its first part. -/
theorem bundlesEffect_append (before after : List String) :
    project.bundlesEffect directory cleans verbose config (before ++ after) =
      followedBy (project.bundlesEffect directory cleans verbose config before) fun earlier =>
        followedBy (project.bundlesEffect directory cleans verbose config after) fun later tree _ =>
          (.ok (earlier ++ later), tree) := by
  induction before with
  | nil => simp only [List.nil_append, bundlesEffect, pure_followedBy, followedBy_pure]
  | cons name rest inductionHypothesis =>
      simp only [List.cons_append, bundlesEffect, inductionHypothesis, followedBy_assoc,
        pure_followedBy]

/-- There is one result for each bundle, in their order. -/
theorem bundlesEffect_bundles {names : List String} {results : List BuildResult}
    (gave : project.bundlesEffect directory cleans verbose config names tree here =
      (.ok results, left)) :
    results.map BuildResult.bundle = names.map some := by
  induction names generalizing tree results with
  | nil =>
      cases gave
      rfl
  | cons name rest inductionHypothesis =>
      rw [bundlesEffect] at gave
      rcases built : project.bundleEffect directory name (some config) cleans verbose tree here with
        ⟨failure | result, changed⟩
      · rw [followedBy_error built] at gave
        cases gave
      · rw [followedBy_ok built] at gave
        rcases ended : project.bundlesEffect directory cleans verbose config rest changed here with
          ⟨failure | later, last⟩
        · rw [followedBy_error ended] at gave
          cases gave
        · rw [followedBy_ok ended] at gave
          cases gave
          rw [List.map_cons, List.map_cons, inductionHypothesis ended,
            project.bundleEffect_bundle directory name _ (congrArg Prod.fst built)]

/-- Only a capability that is interrupted ends the builds early. -/
theorem bundlesEffect_error {names : List String} {failure : Failure}
    (failed : project.bundlesEffect directory cleans verbose config names tree here =
      (.error failure, left)) :
    failure = .capability .interrupted ∧ project.toolchain.equipment.CanInterrupt := by
  induction names generalizing tree with
  | nil => cases failed
  | cons name rest inductionHypothesis =>
      rw [bundlesEffect] at failed
      rcases built : project.bundleEffect directory name (some config) cleans verbose tree here with
        ⟨cause | result, changed⟩
      · rw [followedBy_error built] at failed
        cases failed
        exact project.bundleEffect_error directory name (some config) (congrArg Prod.fst built)
      · rw [followedBy_ok built] at failed
        rcases ended : project.bundlesEffect directory cleans verbose config rest changed here with
          ⟨cause | later, last⟩
        · rw [followedBy_error ended] at failed
          cases failed
          exact inductionHypothesis ended
        · rw [followedBy_ok ended] at failed
          cases failed

end Runs

section Omission

variable {project : Project} {directory : Path} {config : Config}

/-- The steps of a bundle fail before anything is written. A fault of the tree counts when it is met
while the sources are compiled. -/
def FailsEarly (project : Project) (directory : Path) (config : Config) (name : String)
    (verbose : Bool) (workspace : Workspace) : Prop :=
  ∃ failure, failure.isInterruption = false ∧
    ((project.buildSteps (root directory workspace.directory) name false verbose
      (some config)).run workspace).1 = .error failure ∧
    ∀ fault, failure = .file fault → ∃ bundle builder,
      project.plan (root directory workspace.directory) name (some config) verbose workspace.tree
          workspace.directory = .ok (bundle, builder) ∧
        (builder.compileSources.run workspace).1 = .error failure

theorem stepsEffect_plain (name : String) (given : Option Config) (verbose : Bool) (tree : Tree)
    (here : Location) :
    project.stepsEffect directory name given false verbose tree here =
      match project.plan directory name given verbose tree here with
      | .error failure => (.error failure, tree)
      | .ok (bundle, builder) => ranNamed name builder bundle.output tree here := by
  unfold stepsEffect plan
  cases definition directory name given tree here with
  | error failure => rfl
  | ok bundle =>
      simp only [Bool.false_eq_true, if_false, bind, Except.bind]
      cases (project.newBuilder directory verbose).ofDefinition bundle <;> rfl

/-- A run that changes the tree gives a path or a fault of the tree, and its sources compile. -/
theorem ran_unchanged (builder : Builder) (output : String) (tree : Tree) (here : Location) :
    (ran builder output tree here).2 = tree ∨
      (∃ sources, builder.compiled tree here = .ok sources) ∧
        ∀ failure, (ran builder output tree here).1 = .error failure →
          ∃ fault, failure = .file fault := by
  unfold ran
  split
  · exact Or.inl rfl
  · next folder file _ =>
    rcases builder.assembled_cases folder file tree here with
      ⟨failure, -, same⟩ | ⟨-, same⟩ | ⟨sources, failure, -, -, -, same⟩ |
        ⟨sources, text, compiledAs, -, -, delivers⟩
    · exact Or.inl (congrArg Prod.snd same)
    · exact Or.inl (congrArg Prod.snd same)
    · exact Or.inl (congrArg Prod.snd same)
    · refine Or.inr ⟨⟨sources, compiledAs⟩, fun failure failed => ?_⟩
      rw [delivers] at failed
      rcases builder.delivered_cases folder file sources text tree here with
        ⟨left, -, same⟩ | ⟨fault, left, same⟩
      · rw [same] at failed
        cases failed
      · rw [same] at failed
        cases failed
        exact ⟨fault, rfl⟩

/-- A bundle that fails before anything is written leaves the tree as it was. -/
theorem bundleEffect_of_failsEarly {name : String} {verbose : Bool} {workspace : Workspace}
    (fails : project.FailsEarly directory config name verbose workspace) :
    ∃ failed, failed.success = false ∧
      project.bundleEffect directory name (some config) false (some verbose) workspace.tree
        workspace.directory = (.ok failed, workspace.tree) := by
  obtain ⟨failure, ordinary, failed, early⟩ := fails
  rw [((project.performs_buildSteps _ name (some config) false verbose).run_eq workspace).1]
    at failed
  refine ⟨failedResult name failure, rfl, Prod.ext ?_ ?_⟩
  · change reported name (project.stepsEffect _ name _ false verbose _ _).1 = _
    rw [failed, reported, ordinary]
    rfl
  · change (project.stepsEffect (root directory workspace.directory) name (some config) false
      verbose workspace.tree workspace.directory).2 = workspace.tree
    rw [stepsEffect_plain] at failed ⊢
    rcases planned : project.plan (root directory workspace.directory) name (some config) verbose
      workspace.tree workspace.directory with cause | ⟨bundle, builder⟩
    · rfl
    · rw [planned] at failed
      dsimp only at failed ⊢
      rcases ran_unchanged builder bundle.output workspace.tree workspace.directory with
        same | ⟨⟨sources, compiledAs⟩, blames⟩
      · exact same
      · obtain ⟨fault, rfl⟩ := blames failure (by
          cases ended : (ran builder bundle.output workspace.tree workspace.directory).1 with
          | ok result =>
              rw [ranNamed, ended] at failed
              cases failed
          | error cause =>
              rw [ranNamed, ended] at failed
              cases failed
              rfl)
        obtain ⟨_, _, plannedToo, compiles⟩ := early fault rfl
        cases planned.symm.trans plannedToo
        rw [((Builder.observes_compiled builder).performs.run_eq workspace).1, compiledAs]
          at compiles
        cases compiles

/-- A bundle that gives a result and leaves the tree adds this result and nothing else. -/
theorem bundlesEffect_insert {cleans : Bool} {verbose : Option Bool} {before : List String}
    {name : String} {tree reached : Tree} {here : Location} {earlier : List BuildResult}
    {failed : BuildResult} (after : List String)
    (started : project.bundlesEffect directory cleans verbose config before tree here =
      (.ok earlier, reached))
    (idle : project.bundleEffect directory name (some config) cleans verbose reached here =
      (.ok failed, reached)) :
    let last := project.bundlesEffect directory cleans verbose config after reached here
    project.bundlesEffect directory cleans verbose config (before ++ after) tree here =
        (last.1.map fun later => earlier ++ later, last.2) ∧
      project.bundlesEffect directory cleans verbose config (before ++ name :: after) tree here =
        (last.1.map fun later => earlier ++ failed :: later, last.2) := by
  dsimp only
  rw [bundlesEffect_append, bundlesEffect_append, followedBy_ok started, followedBy_ok started,
    bundlesEffect, followedBy_assoc, followedBy_ok idle, followedBy_assoc]
  simp only [pure_followedBy]
  rcases ended : project.bundlesEffect directory cleans verbose config after reached here with
    ⟨failure | later, left⟩
  · rw [followedBy_error ended, followedBy_error ended]
    exact ⟨rfl, rfl⟩
  · rw [followedBy_ok ended, followedBy_ok ended]
    exact ⟨rfl, rfl⟩

/-- What a build that does not clean gives and leaves. -/
def plainBuild (project : Project) (directory : Path) (verbose : Option Bool)
    (workspace : Workspace) (names : List String) : Except Failure (List BuildResult) × Workspace :=
  (project.build directory names false verbose).run workspace

theorem loadConfig_sample :
    ((loadConfig (root ⟨.here, []⟩ ["p"])).run sampleWorkspace).1 = .ok sampleConfig :=
  (loadConfig_gives _ sampleWorkspace).trans configured_sample

end Omission

end AssetBundler.Project

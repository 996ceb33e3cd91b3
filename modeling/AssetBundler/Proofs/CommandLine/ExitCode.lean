import AssetBundler.Proofs.CommandLine.Loading
import AssetBundler.Proofs.FileSystem.LongNames
import AssetBundler.Proofs.Project.Interruption

/-!
The exit code of a build. Every failure behind the choice of the directory is caught, and the code
tells an interruption, a success and everything else apart.
-/

namespace AssetBundler.CommandLine

open AssetBundler.Action Outcome

section Choosing

/-- The configuration of a directory that has to hold one. -/
def opened (directory : Path) (tree : Tree) (here : Location) : Except Failure Config := do
  match ← Config.find? tree here directory with
  | none => throw (.noConfigFile directory)
  | some path => Config.load tree here path

theorem observes_openConfig (directory : Path) :
    Observes anyEvent (Project.openConfig directory) (opened directory) := by
  refine Observes.bind (Project.observes_findConfig directory) fun found => ?_
  cases found with
  | none => exact Observes.fail _
  | some path => exact Project.observes_loadConfigAt path

/-- A configuration that is found for a build is found for a selection. -/
theorem opened_of_configured {directory : Path} {tree : Tree} {here : Location} {config : Config}
    (holds : Project.configured directory none tree here = .ok config) :
    opened directory tree here = .ok config := by
  obtain ⟨found, finds, loads⟩ := bind_eq_ok.mp holds
  refine bind_eq_ok.mpr ⟨found, finds, ?_⟩
  cases found with
  | none => cases loads
  | some path => exact loads

theorem failsOnly_opened (directory : Path) (tree : Tree) (here : Location) :
    FailsOnly Failure.IsOrdinary (opened directory tree here) := by
  refine (Config.failsOnly_find? tree here directory).bind fun found => ?_
  cases found with
  | none => exact FailsOnly.error rfl
  | some path => exact Config.failsOnly_load tree here path

/-- The bundles to build of a configuration. All names that are asked for have to be known, and
without them the default bundles are taken. -/
def chosen (bundles : List (Option String)) (config : Config) :
    Except Failure (List (Option String)) :=
  if bundles = [] then do
    let names ← config.defaultBundles
    if names = [] then throw (.choice .noBundles) else return names.map some
  else if bundles.all (isKnown config) then .ok bundles
  else do
    let unknown ← namesOf (bundles.filter fun bundle => !isKnown config bundle)
    throw (.choice (.unknownBundles unknown config.bundles))

theorem reduceOption_some (names : List String) : (names.map some).reduceOption = names := by
  change (names.map some).filterMap id = names
  rw [List.filterMap_map]
  exact List.filterMap_some

theorem exists_names {bundles : List (Option String)} (named : bundles.all Option.isSome = true) :
    ∃ names : List String, bundles = names.map some := by
  induction bundles with
  | nil => exact ⟨[], rfl⟩
  | cons bundle rest inductionHypothesis =>
      obtain ⟨first, others⟩ := (Bool.and_eq_true _ _).mp (List.all_cons ▸ named)
      obtain ⟨name, rfl⟩ := Option.isSome_iff_exists.mp first
      obtain ⟨names, rfl⟩ := inductionHypothesis others
      exact ⟨name :: names, rfl⟩

theorem namesOf_some (names : List String) : namesOf (names.map some) = .ok names := by
  have named : (names.map some).findIdx? Option.isNone = none := by simp
  rw [namesOf, named, reduceOption_some]

theorem namesOf_eq_ok {bundles : List (Option String)} {names : List String} :
    namesOf bundles = .ok names ↔ bundles = names.map some := by
  constructor
  · intro named
    unfold namesOf at named
    split at named
    · cases named
    · next whole =>
      have all : bundles.all Option.isSome = true := by simpa using whole
      obtain ⟨given, rfl⟩ := exists_names all
      cases named
      rw [reduceOption_some]
  · rintro rfl
    exact namesOf_some names

/-- All bundles are known when none of them is unknown. -/
theorem filter_unknown (bundles : List (Option String)) (config : Config) :
    (bundles.filter fun bundle => !isKnown config bundle).isEmpty =
      bundles.all (isKnown config) := by
  rw [Bool.eq_iff_iff]
  simp

/-- The bundles are selected by what the configuration of the directory says. -/
theorem selectBundles_eq (directory : Path) (bundles : List (Option String)) :
    selectBundles directory bundles =
      Project.openConfig directory >>= fun config => Action.ofExcept (chosen bundles config) := by
  unfold selectBundles
  split
  · next named =>
    obtain ⟨names, rfl⟩ := exists_names named
    rw [reduceOption_some]
    simp only [Project.select, bind_assoc]
    refine bind_congr fun config => ?_
    cases names with
    | nil =>
        cases defaults : config.defaultBundles with
        | error failure =>
            simp only [chosen, defaults]
            rfl
        | ok selected =>
            simp only [chosen, defaults]
            cases selected <;> rfl
    | cons first rest =>
        have known : (List.filter (fun name => !config.hasBundle name) (first :: rest)).map some =
            ((first :: rest).map some).filter fun bundle => !isKnown config bundle := by
          rw [List.filter_map]
          rfl
        have all := filter_unknown ((first :: rest).map some) config
        rw [← known, List.isEmpty_map] at all
        have filled : (first :: rest).map some ≠ [] := List.cons_ne_nil _ _
        simp only [chosen, filled, if_false, ← known, namesOf_some, ← all]
        cases (List.filter (fun name => !config.hasBundle name) (first :: rest)).isEmpty <;> rfl
  · next unnamed =>
    have filled : bundles ≠ [] := by
      rintro rfl
      exact unnamed rfl
    refine bind_congr fun config => ?_
    simp only [chosen, filled, if_false, ← filter_unknown]
    split
    · rfl
    · cases namesOf (bundles.filter fun bundle => !isKnown config bundle) <;> rfl

theorem observes_selectBundles (directory : Path) (bundles : List (Option String)) :
    Observes anyEvent (selectBundles directory bundles) fun tree here =>
      opened directory tree here >>= chosen bundles := by
  rw [selectBundles_eq]
  exact Observes.bind (observes_openConfig directory) fun config =>
    Project.observes_result (chosen bundles config)

theorem failsOnly_namesOf (bundles : List (Option String)) :
    FailsOnly Failure.IsOrdinary (namesOf bundles) := by
  unfold namesOf
  split
  · exact FailsOnly.error rfl
  · exact FailsOnly.ok _

theorem failsOnly_defaultBundles (config : Config) :
    FailsOnly Failure.IsOrdinary config.defaultBundles := by
  unfold Config.defaultBundles
  split
  · split
    · simp only [bind, Except.bind]
      split <;> exact FailsOnly.ok _
    · next fault _ => exact FailsOnly.error (Failure.ofReference_isOrdinary _ fault)
  · exact FailsOnly.ok _

theorem failsOnly_chosen (bundles : List (Option String)) (config : Config) :
    FailsOnly Failure.IsOrdinary (chosen bundles config) := by
  unfold chosen
  split
  · refine (failsOnly_defaultBundles config).bind fun names => ?_
    split
    · exact FailsOnly.error rfl
    · exact FailsOnly.ok _
  · split
    · exact FailsOnly.ok _
    · exact (failsOnly_namesOf _).bind fun _ => FailsOnly.error rfl

/-- A selection is never empty, and it holds no name that is not known. -/
theorem chosen_eq_ok {bundles selected : List (Option String)} {config : Config}
    (selects : chosen bundles config = .ok selected) :
    selected ≠ [] ∧ bundles.all (isKnown config) = true := by
  unfold chosen at selects
  split at selects
  · next none =>
    subst none
    obtain ⟨names, -, rest⟩ := bind_eq_ok.mp selects
    split at rest
    · cases rest
    · next filled =>
      cases rest
      exact ⟨by simpa using filled, rfl⟩
  · next filled =>
    split at selects
    · next known =>
      cases selects
      exact ⟨filled, known⟩
    · obtain ⟨_, _, failed⟩ := bind_eq_ok.mp selects
      cases failed

end Choosing

section Showing

theorem observes_printLine (text : String) :
    Observes anyEvent (Action.printLine text) fun _ _ => .ok () := Observes.recordAny _

theorem observes_showError (title message : String) :
    Observes anyEvent (showError title message) fun _ _ => .ok () :=
  Observes.after (observes_printLine _) (Observes.after (observes_printLine _)
    (Observes.after (observes_printLine _) (Observes.after (observes_printLine _)
      (observes_printLine _))))

/-- The code that a failure ends with. -/
def codeOf (failure : Failure) : Nat := if failure.isInterruption then 130 else 1

theorem observes_showMissingFile (failure : Failure) :
    Observes anyEvent (showMissingFile failure) fun _ _ => .ok 1 :=
  Observes.after (observes_showError _ _) (Observes.after (observes_printLine _) (Observes.pure 1))

theorem observes_showUnexpected (failure : Failure) (verbose : Bool) :
    Observes anyEvent (showUnexpected failure verbose) fun _ _ => .ok 1 := by
  cases verbose with
  | false => exact Observes.after (observes_showError _ _) (Observes.pure 1)
  | true =>
      exact Observes.after (observes_showError _ _) (Observes.after (observes_printLine _)
        (Observes.after (observes_printLine _) (Observes.pure 1)))

/-- An interruption is not taken for any of the failures that are asked for before it. -/
theorem observes_showInterruption (verbose : Bool) :
    Observes anyEvent (showBuildFailure (.capability .interrupted) verbose) fun _ _ => .ok 130 := by
  have missing : (Failure.capability .interrupted).isMissingFile = false := by decide
  have value : (Failure.capability .interrupted).isValueFault = false := by decide
  simp only [showBuildFailure, missing, value, isConfigFault, isProjectFault,
    Failure.isInterruption, Bool.false_eq_true, if_false, if_true]
  exact Observes.after (Observes.after (observes_printLine _) (observes_printLine _))
    (Observes.pure 130)

theorem observes_showBuildFailure (failure : Failure) (verbose : Bool) :
    Observes anyEvent (showBuildFailure failure verbose) fun _ _ => .ok (codeOf failure) := by
  rw [codeOf]
  cases interrupts : failure.isInterruption with
  | true =>
      rw [Failure.isInterruption_iff.mp interrupts]
      exact observes_showInterruption verbose
  | false =>
      have titled (title : String) : Observes anyEvent (do
          showError title failure.message
          return 1) fun _ _ => .ok 1 :=
        Observes.after (observes_showError _ _) (Observes.pure 1)
      unfold showBuildFailure
      simp only [interrupts, Bool.false_eq_true, if_false]
      split
      · exact observes_showMissingFile failure
      · split
        · exact titled _
        · split
          · exact titled _
          · split
            · exact titled _
            · exact observes_showUnexpected failure verbose

theorem observes_showBuilt (result : BuildResult) :
    Observes anyEvent (showBuilt result) fun _ _ => .ok () := by
  have more {action : Action Unit} (text : String)
      (shown : Observes anyEvent action fun _ _ => .ok ()) :
      Observes anyEvent (Action.printLine text >>= fun _ => action) fun _ _ => .ok () :=
    Observes.after (observes_printLine text) shown
  refine Observes.after (Observes.after (observes_printLine _) (observes_printLine _)) ?_
  split
  · exact observes_printLine _
  · refine more _ ?_
    have sources := observes_printLine
      ("Sources:    " ++ toString result.sources.length ++ " files")
    cases result.mapPath with
    | none =>
        cases result.gzipPath with
        | none => exact sources
        | some path => exact more _ sources
    | some path =>
        refine more _ ?_
        cases result.gzipPath with
        | none => exact sources
        | some path => exact more _ sources

theorem observes_showResults (results : List BuildResult) :
    Observes anyEvent (showResults results) fun _ _ => .ok () := by
  induction results with
  | nil => exact Observes.pure ()
  | cons result rest inductionHypothesis =>
      rw [showResults]
      split
      · exact Observes.after (observes_showBuilt result) inductionHypothesis
      · exact Observes.after (observes_showError _ _) inductionHypothesis

theorem observes_showPlan (arguments : Arguments) (directory : Path)
    (bundles : List (Option String)) :
    Observes anyEvent (showPlan arguments directory bundles) fun _ _ => namesOf bundles := by
  refine Observes.after (Compiler.observes_printWhen _ _) ?_
  cases namesOf bundles with
  | error failure => exact Observes.stop (Project.observes_result (.error failure))
  | ok names =>
      refine Observes.after (Project.observes_result (.ok names)) ?_
      cases arguments.verbose with
      | false => exact Observes.after (observes_printLine _) (Observes.pure names)
      | true =>
          exact Observes.after (observes_printLine _) (Observes.after (observes_printLine _)
            (Observes.pure names))

end Showing

section Building

variable (toolchain : Toolchain) (runtime : String) (arguments : Arguments) (directory : Path)

/-- The project that a build command works on. -/
def projectOf : Project := ⟨toolchain, runtime, arguments.verbose, arguments.progress⟩

/-- The selection of a build command, by name. -/
def named (tree : Tree) (here : Location) : Except Failure (List String) := do
  let bundles ← opened directory tree here >>= chosen arguments.bundles
  namesOf bundles

/-- What the build of several bundles gives and leaves. -/
def buildEffect (names : List String) (tree : Tree) (here : Location) :
    Except Failure (List BuildResult) × Tree :=
  followedBy
    (fun tree place => ((Project.chosen (Project.root directory here) names tree place).mapError
      Project.asProjectFault, tree))
    ((projectOf toolchain runtime arguments).chosenEffect (Project.root directory here)
      arguments.clean (some arguments.verbose)) tree here

theorem performs_build (names : List String) :
    Performs ((projectOf toolchain runtime arguments).build directory names arguments.clean
      (some arguments.verbose)) (buildEffect toolchain runtime arguments directory names) := by
  intro workspace
  rw [Project.run_build]
  exact (projectOf toolchain runtime arguments).performs_buildFrom
    (Project.root directory workspace.directory) arguments.clean (some arguments.verbose) names
    workspace

/-- The code of a build whose results are all there. -/
def resultCode (results : List BuildResult) : Nat :=
  if results.all BuildResult.success then 0 else 1

def stepsEffect : Tree → Location → Except Failure Nat × Tree :=
  followedBy (fun tree here => (named arguments directory tree here, tree)) fun names =>
    followedBy (buildEffect toolchain runtime arguments directory names) fun results tree _ =>
      (.ok (resultCode results), tree)

theorem performs_buildSteps :
    Performs (buildSteps toolchain runtime arguments directory)
      (stepsEffect toolchain runtime arguments directory) := by
  have selects : Observes anyEvent
      (selectBundles directory arguments.bundles >>= showPlan arguments directory)
      (named arguments directory) :=
    Observes.bind (observes_selectBundles directory arguments.bundles) fun bundles =>
      observes_showPlan arguments directory bundles
  have shows (results : List BuildResult) : Observes anyEvent (do
      showResults results
      Action.printLine ""
      Action.record .buildTime
      return resultCode results) fun _ _ => .ok (resultCode results) :=
    Observes.after (observes_showResults results) (Observes.after (observes_printLine _)
      (Observes.after (Observes.recordAny _) (Observes.pure _)))
  have steps : buildSteps toolchain runtime arguments directory =
      (selectBundles directory arguments.bundles >>= showPlan arguments directory) >>= fun names =>
        (projectOf toolchain runtime arguments).build directory names arguments.clean
            (some arguments.verbose) >>= fun results => do
          showResults results
          Action.printLine ""
          Action.record .buildTime
          return resultCode results := by
    simp only [buildSteps, bind_assoc]
    rfl
  rw [steps]
  exact Performs.bind selects.performs fun names =>
    Performs.bind (performs_build toolchain runtime arguments directory names) fun results =>
      (shows results).performs

/-- The code that the outcome of the steps leads to. -/
def outcomeCode : Except Failure Nat → Nat
  | .ok code => code
  | .error failure => codeOf failure

theorem performs_runBuild :
    Performs (runBuild toolchain runtime arguments directory) fun tree here =>
      (.ok (outcomeCode (stepsEffect toolchain runtime arguments directory tree here).1),
        (stepsEffect toolchain runtime arguments directory tree here).2) := by
  have shows (outcome : Except Failure Nat) : Performs
      (match outcome with
        | .ok code => return code
        | .error failure => showBuildFailure failure arguments.verbose)
      fun tree _ => (.ok (outcomeCode outcome), tree) := by
    cases outcome with
    | ok code => exact Performs.pure code
    | error failure => exact (observes_showBuildFailure failure arguments.verbose).performs
  refine Performs.after (observes_printLine _) (Performs.after (observes_printLine _) ?_)
  exact Performs.bind (performs_buildSteps toolchain runtime arguments directory).attempt shows

end Building

section Outcome

variable (toolchain : Toolchain) (runtime : String) (arguments : Arguments) (directory : Path)
  (workspace : Workspace)

/-- The selection succeeds with bundles of these names. -/
def Selects (names : List String) : Prop :=
  ((selectBundles directory arguments.bundles).run workspace).1 = .ok (names.map some)

/-- The selection succeeds, and each of the selected bundles has a result with success. -/
def Succeeds : Prop :=
  ∃ names results, Selects arguments directory workspace names ∧
    (((projectOf toolchain runtime arguments).build directory names arguments.clean
      (some arguments.verbose)).run workspace).1 = .ok results ∧
    results.map BuildResult.bundle = names.map some ∧
    ∀ result ∈ results, result.success = true

/-- A capability that the build runs for one of the selected bundles gives way to an
interruption. -/
def IsInterrupted : Prop :=
  ∃ names config step, Selects arguments directory workspace names ∧
    ((Project.loadConfig (Project.root directory workspace.directory)).run workspace).1 =
      .ok config ∧
    step ∈ (projectOf toolchain runtime arguments).takenSteps
      (Project.root directory workspace.directory) arguments.clean arguments.verbose config
      workspace.directory names workspace.tree ∧
    step.IsInterrupted

/-- A name that is asked for is not defined. -/
def AsksForUnknown : Prop :=
  ∃ bundle ∈ arguments.bundles, ∀ config,
    ((Project.openConfig directory).run workspace).1 = .ok config → isKnown config bundle = false

theorem selects_iff {names : List String} :
    Selects arguments directory workspace names ↔
      named arguments directory workspace.tree workspace.directory = .ok names := by
  rw [Selects, ((observes_selectBundles directory arguments.bundles).performs.run_eq workspace).1,
    named]
  cases opened directory workspace.tree workspace.directory >>= chosen arguments.bundles with
  | error failure => simp [bind, Except.bind]
  | ok bundles => simp only [bind, Except.bind, namesOf_eq_ok, Except.ok.injEq]

theorem named_ne_nil {names : List String} {tree : Tree} {here : Location}
    (selects : named arguments directory tree here = .ok names) : names ≠ [] := by
  obtain ⟨bundles, selected, same⟩ := bind_eq_ok.mp selects
  obtain ⟨config, -, chooses⟩ := bind_eq_ok.mp selected
  rintro rfl
  exact (chosen_eq_ok chooses).1 (namesOf_eq_ok.mp same)

/-- A failed selection is no interruption. -/
theorem failsOnly_named (tree : Tree) (here : Location) :
    FailsOnly Failure.IsOrdinary (named arguments directory tree here) :=
  ((failsOnly_opened directory tree here).bind fun config =>
    failsOnly_chosen arguments.bundles config).bind failsOnly_namesOf

theorem failsOnly_configured (tree : Tree) (here : Location) :
    FailsOnly Failure.IsOrdinary (Project.configured directory none tree here) := by
  refine (Config.failsOnly_find? tree here directory).bind fun found => ?_
  cases found with
  | none => exact FailsOnly.error rfl
  | some path => exact Config.failsOnly_load tree here path

theorem isInterruption_asProjectFault (failure : Failure) :
    (Project.asProjectFault failure).isInterruption = failure.isInterruption := by
  cases failure <;> rfl

/-- A build fails only when it has no configuration, which is no interruption, or when it is
interrupted. -/
theorem buildEffect_cases {names : List String} (filled : names ≠ []) (tree : Tree)
    (here : Location) :
    (∃ failure, failure.IsOrdinary ∧
        Project.configured (Project.root directory here) none tree here = .error failure ∧
        buildEffect toolchain runtime arguments directory names tree here =
          (.error (Project.asProjectFault failure), tree)) ∨
      ∃ config, Project.configured (Project.root directory here) none tree here = .ok config ∧
        buildEffect toolchain runtime arguments directory names tree here =
          (projectOf toolchain runtime arguments).bundlesEffect (Project.root directory here)
            arguments.clean (some arguments.verbose) config names tree here := by
  have isEmpty : names.isEmpty = false := by simpa using filled
  unfold buildEffect
  cases configures : Project.configured (Project.root directory here) none tree here with
  | error failure =>
      refine .inl ⟨failure, failsOnly_configured _ tree here failure configures, rfl, ?_⟩
      simp only [followedBy, Project.chosen, configures]
      rfl
  | ok config =>
      have choice : Project.chosen (Project.root directory here) names tree here =
          .ok (config, names) := by
        simp only [Project.chosen, configures, isEmpty]
        rfl
      refine .inr ⟨config, rfl, ?_⟩
      rw [followedBy_ok (Prod.ext (congrArg (Except.mapError Project.asProjectFault) choice) rfl),
        Project.chosenEffect, if_neg (by rw [isEmpty]; exact Bool.false_ne_true)]
      rfl

/-- A build is interrupted when its outcome is an interruption. -/
theorem isInterrupted_iff :
    IsInterrupted toolchain runtime arguments directory workspace ↔
      ∃ names failure, named arguments directory workspace.tree workspace.directory = .ok names ∧
        (buildEffect toolchain runtime arguments directory names workspace.tree
          workspace.directory).1 = .error failure ∧ failure.isInterruption = true := by
  have loads (config : Config) :
      ((Project.loadConfig (Project.root directory workspace.directory)).run workspace).1 =
          .ok config ↔
        Project.configured (Project.root directory workspace.directory) none workspace.tree
          workspace.directory = .ok config := by
    rw [((Project.observes_configured (Project.root directory workspace.directory)
      none).performs.run_eq workspace).1]
  simp only [IsInterrupted, selects_iff, loads]
  constructor
  · rintro ⟨names, config, step, selects, configures, taken, interrupted⟩
    rcases buildEffect_cases toolchain runtime arguments directory
      (named_ne_nil arguments directory selects) workspace.tree workspace.directory with
      ⟨failure, -, failed, -⟩ | ⟨other, configuresToo, effect⟩
    · cases failed.symm.trans configures
    · cases configuresToo.symm.trans configures
      obtain ⟨failure, failed⟩ := ((projectOf toolchain runtime arguments).bundlesEffect_interrupted
        _ _ _ config names workspace.tree workspace.directory).mpr ⟨step, taken, interrupted⟩
      obtain ⟨rfl, -⟩ := Project.bundlesEffect_error (Prod.ext failed rfl)
      exact ⟨names, _, selects, effect ▸ failed, rfl⟩
  · rintro ⟨names, failure, selects, failed, interrupts⟩
    rcases buildEffect_cases toolchain runtime arguments directory
      (named_ne_nil arguments directory selects) workspace.tree workspace.directory with
      ⟨cause, ordinary, -, effect⟩ | ⟨config, configures, effect⟩
    · rw [effect] at failed
      cases failed
      rw [isInterruption_asProjectFault, ordinary] at interrupts
      cases interrupts
    · rw [effect] at failed
      obtain ⟨step, taken, interrupted⟩ :=
        ((projectOf toolchain runtime arguments).bundlesEffect_interrupted _ _ _ config names
          workspace.tree workspace.directory).mp ⟨failure, failed⟩
      exact ⟨names, config, step, selects, configures, taken, interrupted⟩

theorem succeeds_iff :
    Succeeds toolchain runtime arguments directory workspace ↔
      ∃ names results, named arguments directory workspace.tree workspace.directory = .ok names ∧
        (buildEffect toolchain runtime arguments directory names workspace.tree
          workspace.directory).1 = .ok results ∧ results.all BuildResult.success = true := by
  have runs (names : List String) := ((performs_build toolchain runtime arguments directory
    names).run_eq workspace).1
  simp only [Succeeds, selects_iff, runs, List.all_eq_true]
  constructor
  · rintro ⟨names, results, selects, gave, -, succeed⟩
    exact ⟨names, results, selects, gave, succeed⟩
  · rintro ⟨names, results, selects, gave, succeed⟩
    refine ⟨names, results, selects, gave, ?_, succeed⟩
    rcases buildEffect_cases toolchain runtime arguments directory
      (named_ne_nil arguments directory selects) workspace.tree workspace.directory with
      ⟨failure, -, -, effect⟩ | ⟨config, -, effect⟩
    · rw [effect] at gave
      cases gave
    · rw [effect] at gave
      exact Project.bundlesEffect_bundles (Prod.ext gave rfl)

/-- A name that is not defined keeps the selection from succeeding. -/
theorem named_of_unknown (asks : AsksForUnknown arguments directory workspace) :
    ∃ failure,
      named arguments directory workspace.tree workspace.directory = .error failure := by
  obtain ⟨bundle, asked, undefined⟩ := asks
  cases selects : named arguments directory workspace.tree workspace.directory with
  | error failure => exact ⟨failure, rfl⟩
  | ok names =>
      obtain ⟨bundles, selected, -⟩ := bind_eq_ok.mp selects
      obtain ⟨config, opens, chooses⟩ := bind_eq_ok.mp selected
      have known := List.all_eq_true.mp (chosen_eq_ok chooses).2 bundle asked
      have unknown := undefined config (by
        rw [((observes_openConfig directory).performs.run_eq workspace).1, opens])
      cases known.symm.trans unknown

/-- The code of the build tells an interruption, a success and everything else apart. -/
theorem runBuild_code :
    ∃ code left, (runBuild toolchain runtime arguments directory).run workspace = (.ok code, left) ∧
      (code = 130 ↔ IsInterrupted toolchain runtime arguments directory workspace) ∧
      (code = 0 ↔ Succeeds toolchain runtime arguments directory workspace) ∧
      code ∈ [0, 1, 130] ∧
      (AsksForUnknown arguments directory workspace → code = 1 ∧ left.tree = workspace.tree) := by
  obtain ⟨gave, leaves, -⟩ :=
    (performs_runBuild toolchain runtime arguments directory).run_eq workspace
  refine ⟨_, _, Prod.ext gave rfl, ?_⟩
  rw [isInterrupted_iff, succeeds_iff, leaves]
  have unknown := named_of_unknown arguments directory workspace
  unfold stepsEffect
  cases selects : named arguments directory workspace.tree workspace.directory with
  | error failure =>
      have ordinary := failsOnly_named arguments directory _ _ failure selects
      have one : codeOf failure = 1 := by rw [codeOf, ordinary]; rfl
      simp [followedBy, selects, outcomeCode, one]
  | ok names =>
      have known : ¬AsksForUnknown arguments directory workspace := by
        intro asks
        obtain ⟨failure, failed⟩ := unknown asks
        cases selects.symm.trans failed
      rcases built : buildEffect toolchain runtime arguments directory names workspace.tree
        workspace.directory with ⟨failure | results, left⟩
      · cases interrupts : failure.isInterruption <;>
          simp [followedBy, selects, built, outcomeCode, codeOf, interrupts, known]
      · cases succeed : results.all BuildResult.success <;>
          simp [-List.all_eq_true, -List.all_eq_false, followedBy, selects, built, outcomeCode,
            resultCode, succeed, known]

/-- The directory of a build command. -/
def directoryAt (here : Location) : Path :=
  match arguments.directory with
  | some text => Path.ofString text
  | none => ⟨.root, here⟩

/-- The exit code of the program. A failure that is not caught ends it with a trace. -/
def exitCode (outcome : Except Failure Nat) : Nat :=
  match outcome with
  | .ok code => code
  | .error _ => 1

end Outcome

theorem run_directoryOf (arguments : Arguments) (workspace : Workspace) :
    (directoryOf arguments).run workspace =
      (.ok (directoryAt arguments workspace.directory), workspace) := by
  rw [directoryOf, directoryAt]
  cases arguments.directory <;> rfl

/-- A refusal ends with the code two. -/
theorem run_refuse (message : String) (workspace : Workspace) :
    ∃ shown, (refuse message).run workspace = (.ok 2, shown) := by
  have shows := run_printLine_bind (red ++ "✗ Error: " ++ message ++ plain)
    (fun _ => (pure 2 : Action Nat)) workspace
  exact ⟨_, shows⟩

section Command

variable {toolchain : Toolchain} {runtime : String} {command : List String}
  {arguments : Arguments} {workspace : Workspace} (parsed : parse command = .build arguments)
include parsed

theorem run_command :
    (run toolchain runtime command).run workspace =
      (inDirectory (directoryAt arguments workspace.directory)
        (runBuild toolchain runtime arguments (directoryAt arguments workspace.directory))).run
          workspace := by
  rw [run, parsed, runInvocation, run_bind, run_directoryOf]

/-- A directory that cannot be looked up is not reported. -/
theorem run_of_fault {fault : FileFault}
    (failed : workspace.tree.probe workspace.directory
      (directoryAt arguments workspace.directory) = .error fault) :
    (run toolchain runtime command).run workspace = (.error (.file fault), workspace) := by
  rw [run_command parsed, inDirectory, run_bind, run_get]
  simp only [failed, run_fail]

/-- What is no directory is refused. -/
theorem run_of_foreign {node? : Option Node}
    (examined : workspace.tree.probe workspace.directory
      (directoryAt arguments workspace.directory) = .ok node?)
    (foreign : node? ≠ some .directory) :
    ∃ shown, (run toolchain runtime command).run workspace = (.ok 2, shown) := by
  rw [run_command parsed, inDirectory, run_bind, run_get]
  simp only [examined]
  cases node? with
  | none => exact run_refuse _ workspace
  | some node =>
      cases node with
      | directory => exact absurd rfl foreign
      | file contents => exact run_refuse _ workspace
      | link target => exact run_refuse _ workspace

theorem run_of_directory
    (examined : workspace.tree.probe workspace.directory
      (directoryAt arguments workspace.directory) = .ok (some .directory)) :
    (run toolchain runtime command).run workspace =
      (runBuild toolchain runtime arguments (directoryAt arguments workspace.directory)).run
        workspace := by
  rw [run_command parsed, inDirectory, run_bind, run_get]
  simp only [examined]

end Command

/-- How a build command ends. Its code is two where its directory is not one, one hundred and thirty
where a capability is interrupted, zero where all bundles are built, and one otherwise. A name that
is not defined keeps it from changing anything. Only a directory whose name is too long to be looked
up escapes all handlers. -/
theorem run_ends {toolchain : Toolchain} {runtime : String} {command : List String}
    {arguments : Arguments} {workspace : Workspace} (parsed : parse command = .build arguments) :
    let directory := directoryAt arguments workspace.directory
    let ended := (run toolchain runtime command).run workspace
    (∀ fault, workspace.tree.probe workspace.directory directory = .error fault →
        ended = (.error (.file fault), workspace)) ∧
      ∀ node?, workspace.tree.probe workspace.directory directory = .ok node? →
        (exitCode ended.1 = 2 ↔ node? ≠ some .directory) ∧
        (exitCode ended.1 = 130 ↔ node? = some .directory ∧
          IsInterrupted toolchain runtime arguments directory workspace) ∧
        (exitCode ended.1 = 0 ↔ node? = some .directory ∧
          Succeeds toolchain runtime arguments directory workspace) ∧
        exitCode ended.1 ∈ [0, 1, 2, 130] ∧
        (node? = some .directory → AsksForUnknown arguments directory workspace →
          exitCode ended.1 = 1 ∧ ended.2.tree = workspace.tree) := by
  intro directory ended
  refine ⟨fun fault failed => run_of_fault parsed failed, fun node? examined => ?_⟩
  by_cases stands : node? = some .directory
  · subst stands
    obtain ⟨code, left, gave, interrupted, succeeded, codes, unknown⟩ :=
      runBuild_code toolchain runtime arguments directory workspace
    have ends : ended = (.ok code, left) := (run_of_directory parsed examined).trans gave
    have two : code ≠ 2 := by
      rintro rfl
      simp at codes
    have within : code ∈ [0, 1, 2, 130] :=
      (by decide : [0, 1, 130] ⊆ [0, 1, 2, 130]) codes
    simp only [ends, exitCode, interrupted, succeeded, two, within, ne_eq, not_true_eq_false,
      true_and, true_implies]
    exact unknown
  · obtain ⟨shown, refused⟩ := run_of_foreign parsed examined stands
    have ends : ended = (.ok 2, shown) := refused
    simp [ends, exitCode, stands]

example : exitCode ((run (.registered []) "" ["build", "--fast"]).run
    Project.sampleWorkspace).1 = 2 := by decide +kernel

/-- One of two bundles that are asked for is not defined. -/
def sampleCommand : List String := ["build", "-b", "all", "-b", "none", "--clean"]

def sampleArguments : Arguments where
  bundles := [some "all", some "none"]
  clean := true

theorem asks_sample : AsksForUnknown sampleArguments ⟨.root, ["p"]⟩ Project.sampleWorkspace := by
  have opens : ((Project.openConfig ⟨.root, ["p"]⟩).run Project.sampleWorkspace).1 =
      .ok Project.sampleConfig := by
    rw [((observes_openConfig ⟨.root, ["p"]⟩).performs.run_eq Project.sampleWorkspace).1]
    exact opened_of_configured Project.configured_sample
  refine ⟨some "none", by simp [sampleArguments], fun config loads => ?_⟩
  cases opens.symm.trans loads
  decide +kernel

/-- A bundle that is not defined is refused, and cleaning does not start. -/
theorem run_ends_sample :
    parse sampleCommand = .build sampleArguments ∧
      exitCode ((run (.registered []) "" sampleCommand).run Project.sampleWorkspace).1 = 1 ∧
      ((run (.registered []) "" sampleCommand).run Project.sampleWorkspace).2.tree =
        Project.sampleWorkspace.tree := by
  have parsed : parse sampleCommand = .build sampleArguments := by decide +kernel
  have stands : Project.sampleWorkspace.tree.probe ["p"] ⟨.root, ["p"]⟩ =
      .ok (some .directory) := by decide +kernel
  have ends := @run_ends (.registered []) "" _ _ Project.sampleWorkspace parsed
  obtain ⟨-, -, -, -, unknown⟩ := ends.2 _ stands
  exact ⟨parsed, unknown rfl asks_sample⟩

open AssetBundler.Tree (longName toList_longName not_mem_longName)

/-- The path of the long name is looked up in vain. -/
theorem probe_longName :
    Tree.probe ⟨[(["p"], .directory)]⟩ ["p"] (Path.ofString longName) =
      .error (.refused .nameTooLong ⟨.here, [longName]⟩) := by
  have part : Path.isPart longName = true := by decide +kernel
  have anchor : Path.anchorOf longName.toList = .here := by
    rw [toList_longName]
    rfl
  have path : Path.ofString longName = ⟨.here, [longName]⟩ := by
    rw [Path.ofString, Text.splitOn_of_not_mem (not_mem_longName (by decide)), anchor,
      List.filter_cons_of_pos part, List.filter_nil]
  have shown : (⟨.here, [longName]⟩ : Path).toString = longName := by decide +kernel
  have clean : Tree.holdsNull ⟨.here, [longName]⟩ = false := by
    rw [Tree.holdsNull, shown, Bool.eq_false_iff]
    intro holds
    exact not_mem_longName (by decide) (List.contains_iff_mem.mp holds)
  have refused : Tree.status ⟨[(["p"], .directory)]⟩ ["p"] ⟨.here, [longName]⟩ =
      .error .nameTooLong := by decide +kernel
  rw [path, Tree.probe, clean, refused]
  rfl

/-- A directory that does not exist is not refused when its name is too long. -/
theorem run_escapes :
    let workspace : Workspace := { tree := ⟨[(["p"], .directory)]⟩, directory := ["p"] }
    parse ["build", longName] = .build { directory := some longName } ∧
      workspace.tree.get? ["p", longName] = none ∧
      exitCode ((run (.libraries []) "" ["build", longName]).run workspace).1 = 1 := by
  intro workspace
  have parsed : parse ["build", longName] = .build { directory := some longName } := by
    decide +kernel
  refine ⟨parsed, rfl, ?_⟩
  rw [@run_of_fault _ _ _ _ workspace parsed _ probe_longName]
  rfl

end AssetBundler.CommandLine

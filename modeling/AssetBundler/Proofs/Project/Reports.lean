import AssetBundler.Proofs.Builder.Causes
import AssetBundler.Proofs.Config.Causes
import AssetBundler.Proofs.Project.Effect

/-!
What the build of a bundle reports. Every failure becomes a result that bears the name of the
bundle, unless a capability was interrupted.
-/

namespace AssetBundler

open AssetBundler.Action Outcome

/-- Some capability gives way to an interruption. -/
def Registry.CanInterrupt (registry : Registry Capability) : Prop :=
  ∃ name capability contents subject options, Compiler.lookUp registry name = .ok capability ∧
    capability contents subject options = .error .interrupted

/-- A failure that is an interruption only if a capability is to blame for it. -/
def Failure.IsDueTo (registry : Registry Capability) (failure : Failure) : Prop :=
  failure.isInterruption = true → registry.CanInterrupt

namespace Failure

variable {registry : Registry Capability}

theorem IsOrdinary.isDueTo {failure : Failure} (ordinary : failure.IsOrdinary) :
    failure.IsDueTo registry := by
  intro interrupts
  rw [ordinary] at interrupts
  cases interrupts

theorem isInterruption_iff {failure : Failure} :
    failure.isInterruption = true ↔ failure = .capability .interrupted := by
  constructor
  · intro interrupts
    unfold isInterruption at interrupts
    split at interrupts
    · rfl
    · cases interrupts
  · rintro rfl
    rfl

variable (registry)

theorem dueTo_coversStages : CoversStages registry (IsDueTo registry) where
  file _ := IsOrdinary.isDueTo rfl
  selection _ := IsOrdinary.isDueTo rfl
  capability name capability contents subject options fault found called := by
    intro interrupts
    cases isInterruption_iff.mp interrupts
    exact ⟨name, capability, contents, subject, options, found, called⟩
  suffix _ := IsOrdinary.isDueTo rfl

end Failure

namespace Builder

/-- A builder that lacks a capability fails for want of it. -/
theorem failsOnly_assembled_dueTo (builder : Builder) (folder name : String) (tree : Tree)
    (here : Location) :
    FailsOnly (Failure.IsDueTo builder.registry) (builder.assembled folder name tree here).1 := by
  cases demanded : builder.registry.demand builder.neededCapabilities with
  | ok =>
      exact failsOnly_assembled (Failure.dueTo_coversStages builder.registry)
        (Registry.demand_eq_ok_iff.mp demanded) folder name tree here
  | error failure =>
      obtain ⟨asked, -, rfl⟩ := Registry.demand_eq_error_iff.mp demanded
      have lacking : builder.compiled tree here = .error (.missingCapability ⟨asked⟩) := by
        rw [compiled, demanded]
        rfl
      simp only [assembled, lacking]
      exact FailsOnly.error (Failure.IsOrdinary.isDueTo rfl)

theorem failsOnly_fileEffect {Value : Type} {kind : Failure → Prop}
    (allowed : ∀ fault, kind (.file fault)) (effect : Except FileFault Value × Tree) :
    FailsOnly kind (fileEffect effect).1 :=
  FailsOnly.mapError allowed effect.1

theorem registry_of_definition {start builder : Builder} {bundle : BundleDefinition}
    (made : start.ofDefinition bundle = .ok builder) : builder.registry = start.registry := by
  obtain ⟨sources, -, same⟩ := Outcome.bind_eq_ok.mp made
  cases same
  rfl

end Builder

namespace Project

variable (project : Project) (directory : Path) (name : String) (given : Option Config)

theorem failsOnly_definition (tree : Tree) (here : Location) :
    FailsOnly Failure.IsOrdinary (definition directory name given tree here) := by
  refine FailsOnly.bind ?_ fun config => config.failsOnly_bundle name
  cases given with
  | some config => exact FailsOnly.ok config
  | none =>
      refine (Config.failsOnly_find? tree here directory).bind fun found => ?_
      cases found with
      | none => exact FailsOnly.error rfl
      | some path => exact Config.failsOnly_load tree here path

theorem failsOnly_cleaned (output : String) (tree : Tree) (here : Location) :
    FailsOnly Failure.IsOrdinary (cleaned directory output tree here).1 := by
  unfold cleaned
  split
  · next failure refused => exact FailsOnly.error (Output.failsOnly_split output _ refused)
  · exact Builder.failsOnly_fileEffect (fun _ => rfl) _

theorem failsOnly_ranNamed (builder : Builder) (output : String) (tree : Tree) (here : Location) :
    FailsOnly (Failure.IsDueTo builder.registry) (ranNamed name builder output tree here).1 := by
  have runs : FailsOnly (Failure.IsDueTo builder.registry) (ran builder output tree here).1 := by
    unfold ran
    split
    · next failure refused =>
        exact FailsOnly.error (builder.failsOnly_checkBuild output _ refused).isDueTo
    · exact builder.failsOnly_assembled_dueTo _ _ tree here
  simp only [ranNamed]
  cases ended : (ran builder output tree here).1 with
  | error failure => exact FailsOnly.error (runs failure ended)
  | ok result => exact FailsOnly.ok _

/-- The steps of a build are only interrupted by a capability of the toolchain. -/
theorem failsOnly_stepsEffect (cleans verbose : Bool) (tree : Tree) (here : Location) :
    FailsOnly (Failure.IsDueTo project.toolchain.equipment)
      (project.stepsEffect directory name given cleans verbose tree here).1 := by
  unfold stepsEffect
  split
  · next failure undefined =>
      exact FailsOnly.error
        (failsOnly_definition directory name given tree here _ undefined).isDueTo
  · next bundle _ =>
    split
    · next failure unmade =>
      exact FailsOnly.error (Builder.failsOnly_ofDefinition _ _ _ unmade).isDueTo
    · next builder made =>
      have runs := failsOnly_ranNamed name builder bundle.output
      rw [Builder.registry_of_definition made] at runs
      split
      · unfold followedBy
        split
        · exact runs _ here
        · next failure _ failed =>
            have cause := failsOnly_cleaned directory bundle.output tree here failure
            rw [failed] at cause
            exact FailsOnly.error (cause rfl).isDueTo
      · exact runs tree here

/-- A run that gives a result has succeeded, and the result bears the name of the bundle. -/
theorem ranNamed_ok {builder : Builder} {output : String} {tree left : Tree} {here : Location}
    {result : BuildResult} (gave : ranNamed name builder output tree here = (.ok result, left)) :
    result.success = true ∧ result.bundle = some name := by
  unfold ranNamed ran at gave
  split at gave
  · cases gave
  · next folder file _ =>
    rcases assembled : builder.assembled folder file tree here with ⟨outcome, changed⟩
    rw [assembled] at gave
    cases outcome with
    | error failure => cases gave
    | ok given =>
        cases gave
        obtain ⟨sources, -, ⟨-, rfl, -⟩ | ⟨-, text, -, rfl, -⟩⟩ := Builder.assembled_ok assembled
        · exact ⟨rfl, rfl⟩
        · exact ⟨rfl, rfl⟩

theorem stepsEffect_ok {cleans verbose : Bool} {tree left : Tree} {here : Location}
    {result : BuildResult}
    (gave : project.stepsEffect directory name given cleans verbose tree here =
      (.ok result, left)) :
    result.success = true ∧ result.bundle = some name := by
  unfold stepsEffect at gave
  split at gave
  · cases gave
  · split at gave
    · cases gave
    · split at gave
      · unfold followedBy at gave
        split at gave
        · exact ranNamed_ok name gave
        · cases gave
      · exact ranNamed_ok name gave

theorem bundleEffect_error {cleans : Bool} {verbose : Option Bool} {tree : Tree} {here : Location}
    {failure : Failure}
    (failed : (project.bundleEffect directory name given cleans verbose tree here).1 =
      .error failure) :
    failure = .capability .interrupted ∧ project.toolchain.equipment.CanInterrupt := by
  have reports : reported name (project.stepsEffect (root directory here) name given cleans
      (verbose.getD project.verbose) tree here).1 = .error failure := failed
  have due := project.failsOnly_stepsEffect (root directory here) name given cleans
    (verbose.getD project.verbose) tree here
  cases ended : (project.stepsEffect (root directory here) name given cleans
    (verbose.getD project.verbose) tree here).1 with
  | ok result =>
      rw [ended] at reports
      cases reports
  | error cause =>
      rw [ended, reported] at reports
      split at reports
      · next interrupts =>
        cases reports
        exact ⟨Failure.isInterruption_iff.mp interrupts, due _ ended interrupts⟩
      · cases reports

theorem bundleEffect_bundle {cleans : Bool} {verbose : Option Bool} {tree : Tree} {here : Location}
    {result : BuildResult}
    (gave : (project.bundleEffect directory name given cleans verbose tree here).1 = .ok result) :
    result.bundle = some name := by
  have reports : reported name (project.stepsEffect (root directory here) name given cleans
      (verbose.getD project.verbose) tree here).1 = .ok result := gave
  rcases ended : project.stepsEffect (root directory here) name given cleans
    (verbose.getD project.verbose) tree here with ⟨failure | given, left⟩
  · rw [ended, reported] at reports
    split at reports
    · cases reports
    · cases reports
      rfl
  · rw [ended] at reports
    cases reports
    exact (project.stepsEffect_ok _ name _ ended).2

/-- The build of a bundle never fails unless a capability was interrupted. It gives a result that
bears the name of the bundle. A result without success says nothing but why the steps of the build
failed, with a mark before the messages of all failures of foreign classes. -/
theorem buildBundle_reports (cleans : Bool) (verbose : Option Bool) (workspace : Workspace) :
    let steps := ((project.buildSteps (root directory workspace.directory) name cleans
      (verbose.getD project.verbose) given).run workspace).1
    let built := ((project.buildBundle directory name cleans verbose given).run workspace).1
    (∀ failure, built = .error failure →
        failure = .capability .interrupted ∧ project.toolchain.equipment.CanInterrupt) ∧
      (¬ project.toolchain.equipment.CanInterrupt → ∃ result, built = .ok result) ∧
      ∀ result, built = .ok result →
        result.bundle = some name ∧
          (result.success = true → steps = .ok result) ∧
          (result.success = false →
            (result.outputPath = none ∧ result.mapPath = none ∧ result.gzipPath = none ∧
              result.sources = [] ∧ result.size = 0) ∧
            ∃ failure, steps = .error failure ∧
              result.message = if failure.label ∈ Failure.reportedLabels then failure.message
                else "Unexpected error: " ++ failure.message) := by
  intro steps built
  have stepsGave := ((project.performs_buildSteps (root directory workspace.directory) name given
    cleans (verbose.getD project.verbose)).run_eq workspace).1
  have gave := ((project.performs_buildBundle directory name given cleans verbose).run_eq
    workspace).1
  have owed := project.failsOnly_stepsEffect (root directory workspace.directory) name given cleans
    (verbose.getD project.verbose) workspace.tree workspace.directory
  have named (result : BuildResult) (ended : steps = .ok result) :
      result.success = true ∧ result.bundle = some name :=
    project.stepsEffect_ok _ name given (Prod.ext (stepsGave.symm.trans ended) rfl)
  rw [← stepsGave] at owed
  have isReported : built = reported name steps := by
    rw [show steps = _ from stepsGave]
    exact gave
  rw [isReported]
  cases ended : steps with
  | ok result =>
      obtain ⟨succeeds, bears⟩ := named result ended
      refine ⟨fun failure same => (by cases same), fun _ => ⟨result, rfl⟩, fun other same => ?_⟩
      cases same
      refine ⟨bears, fun _ => rfl, fun failed => ?_⟩
      rw [succeeds] at failed
      cases failed
  | error failure =>
      cases interrupts : failure.isInterruption with
      | true =>
          have toBlame := owed failure ended interrupts
          simp only [reported, interrupts, if_true]
          refine ⟨?_, fun never => absurd toBlame never, fun other same => (by cases same)⟩
          rintro _ ⟨⟩
          exact ⟨Failure.isInterruption_iff.mp interrupts, toBlame⟩
      | false =>
          simp only [reported, interrupts, Bool.false_eq_true, if_false]
          refine ⟨fun other same => (by cases same), fun _ => ⟨_, rfl⟩, ?_⟩
          rintro _ ⟨⟩
          refine ⟨rfl, fun succeeds => (by cases succeeds),
            fun _ => ⟨⟨rfl, rfl, rfl, rfl, rfl⟩, ?_⟩⟩
          refine ⟨failure, rfl, ?_⟩
          simp only [failedResult, failureMessage, Failure.isReported, List.contains_iff_mem]

/-- A capability that refuses its contents never interrupts. -/
theorem sample_not_canInterrupt : ¬ sample.toolchain.equipment.CanInterrupt := by
  rintro ⟨name, capability, contents, subject, options, found, interrupted⟩
  have isRefusing : capability = refusing := by
    change Compiler.lookUp [("sass", refusing)] name = _ at found
    by_cases same : name = "sass"
    · subst same
      exact (Except.ok.inj found).symm
    · have absent : Assoc.find? [("sass", refusing)] name = none := by
        simp [Assoc.find?, Ne.symm same]
      simp [Compiler.lookUp, Registry.get, absent] at found
  rw [isRefusing] at interrupted
  cases interrupted

/-- The message of a capability is marked, and that of an unknown bundle is not. -/
theorem buildBundle_reports_sample :
    let build (name : String) :=
      ((sample.buildBundle ⟨.here, []⟩ name true none none).run sampleWorkspace).1
    (∃ result, build "theme" = .ok result ∧ result.bundle = some "theme" ∧
        result.outputPath = none ∧ result.message = "Unexpected error: refused") ∧
      ∃ result, build "none" = .ok result ∧ result.bundle = some "none" ∧
        result.outputPath = none ∧
        result.message = "Bundle 'none' not found. Available bundles: all, top, theme" := by
  intro build
  have report (name text : String)
      (shown : (sample.bundleEffect ⟨.here, []⟩ name (some sampleConfig) true none
          sampleWorkspace.tree ["p"]).1.toOption.map (fun given => (given.success, given.message)) =
        some (false, text)) :
      ∃ result, build name = .ok result ∧ result.bundle = some name ∧
        result.outputPath = none ∧ result.message = text := by
    obtain ⟨-, gives, reports⟩ :=
      buildBundle_reports sample ⟨.here, []⟩ name none true none sampleWorkspace
    obtain ⟨result, gave⟩ := gives sample_not_canInterrupt
    obtain ⟨bears, -, empty⟩ := reports result gave
    have effect : (sample.bundleEffect ⟨.here, []⟩ name (some sampleConfig) true none
        sampleWorkspace.tree ["p"]).1 = .ok result := by
      rw [← gave, ((performs_buildBundle sample ⟨.here, []⟩ name none true none).run_eq
        sampleWorkspace).1]
      exact congrArg (fun outcome : Except Failure BuildResult × Tree => reported name outcome.1)
        (sample.stepsEffect_of_configured _ name configured_sample true false).symm
    simp only [effect, Except.toOption, Option.map_some, Option.some.injEq,
      Prod.mk.injEq] at shown
    exact ⟨result, gave, bears, (empty shown.1).1.1, shown.2⟩
  exact ⟨report "theme" _ (by decide +kernel), report "none" _ (by decide +kernel)⟩

end Project

end AssetBundler

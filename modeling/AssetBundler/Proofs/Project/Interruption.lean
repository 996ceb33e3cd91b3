import AssetBundler.Proofs.Builder.Steps
import AssetBundler.Proofs.Project.Bundles

/-!
When a build is interrupted. Only a step that calls a capability can be interrupted, and the first
step that is ends the build with all bundles behind it.
-/

namespace AssetBundler

open AssetBundler.Action Outcome

/-- The step called a capability, which gave way to an interruption. -/
structure Step.IsInterrupted (step : Step) : Prop where
  called : step.call?.isSome = true
  failed : step.failure? = some (.capability .interrupted)

theorem Step.firstFailure?_eq_some {steps : List Step} {failure : Failure} :
    firstFailure? steps = some failure ↔
      ∃ step ∈ performed steps, step.failure? = some failure := by
  induction steps with
  | nil => simp [firstFailure?, performed]
  | cons step rest inductionHypothesis =>
      rw [firstFailure?, List.findSome?_cons, performed]
      cases failed : step.failure? with
      | some cause => simp [failed]
      | none =>
          rw [← firstFailure?, inductionHypothesis]
          simp [failed]

theorem Step.mem_of_mem_performed {steps : List Step} {step : Step}
    (taken : step ∈ performed steps) : step ∈ steps := by
  induction steps with
  | nil => cases taken
  | cons first rest inductionHypothesis =>
      rw [performed] at taken
      split at taken
      · exact List.mem_singleton.mp taken ▸ List.mem_cons_self
      · rcases List.mem_cons.mp taken with rfl | later
        · exact List.mem_cons_self
        · exact List.mem_cons_of_mem first (inductionHypothesis later)

/-- Steps of which only a call can be interrupted. -/
def InterruptedOnlyByCalls (steps : List Step) : Prop :=
  ∀ step ∈ steps, step.failure? = some (.capability .interrupted) → step.call?.isSome = true

namespace InterruptedOnlyByCalls

theorem nil : InterruptedOnlyByCalls [] := List.forall_mem_nil _

theorem append {steps later : List Step} (first : InterruptedOnlyByCalls steps)
    (second : InterruptedOnlyByCalls later) : InterruptedOnlyByCalls (steps ++ later) := by
  intro step member
  rcases List.mem_append.mp member with before | behind
  · exact first step before
  · exact second step behind

theorem single {step : Step}
    (called : step.failure? = some (.capability .interrupted) → step.call?.isSome = true) :
    InterruptedOnlyByCalls [step] := by
  intro other member
  exact List.mem_singleton.mp member ▸ called

theorem flatMap {Item : Type} {items : List Item} {steps : Item → List Step}
    (each : ∀ item, InterruptedOnlyByCalls (steps item)) :
    InterruptedOnlyByCalls (items.flatMap steps) := by
  intro step member
  obtain ⟨item, -, within⟩ := List.mem_flatMap.mp member
  exact each item step within

/-- A step without a call whose failures are ordinary. -/
theorem ordinary {Value : Type} {outcome : Except Failure Value}
    (fails : FailsOnly Failure.IsOrdinary outcome) :
    InterruptedOnlyByCalls [⟨none, failure? outcome⟩] := by
  refine single fun failed => ?_
  cases ended : outcome with
  | ok value =>
      rw [ended] at failed
      cases failed
  | error failure =>
      rw [ended] at failed
      cases failed
      cases fails _ ended

end InterruptedOnlyByCalls

theorem Step.firstFailure?_interrupted {steps : List Step} (called : InterruptedOnlyByCalls steps) :
    firstFailure? steps = some (.capability .interrupted) ↔
      ∃ step ∈ performed steps, step.IsInterrupted := by
  rw [firstFailure?_eq_some]
  constructor
  · rintro ⟨step, taken, failed⟩
    exact ⟨step, taken, called step (mem_of_mem_performed taken) failed, failed⟩
  · rintro ⟨step, taken, interrupted⟩
    exact ⟨step, taken, interrupted.failed⟩

/-- Without a registered capability no stage is interrupted. -/
theorem Failure.ordinary_coversStages : CoversStages [] IsOrdinary where
  file _ := rfl
  selection _ := rfl
  capability _ _ _ _ _ _ found _ := by cases found
  suffix _ := rfl

namespace Compiler

variable (compiler : Compiler) (registry : Registry Capability)

theorem interrupted_transformSteps (source : SourceFile) :
    InterruptedOnlyByCalls (compiler.transformSteps registry source) := by
  have transforms : InterruptedOnlyByCalls
      [⟨compiler.transformCall? source, failure? (compiler.transformed registry source)⟩] := by
    cases named : compiler.dialect.capability? with
    | none =>
        have idle : compiler.transformed registry source = .ok source := by
          simp only [transformed, named]
        simp only [transformCall?, named, Option.map_none, idle]
        exact .ordinary (FailsOnly.ok source)
    | some name => exact .single fun _ => by simp [transformCall?, named]
  have finishes (changed : SourceFile) : InterruptedOnlyByCalls
      [⟨compiler.finishCall? changed, failure? (compiler.finished registry changed)⟩] := by
    cases called : compiler.finishCall? changed with
    | some call => exact .single fun _ => rfl
    | none =>
        have idle : compiler.finished registry changed = .ok changed := by
          unfold finishCall? at called
          unfold finished
          split at called <;> simp_all
        rw [idle]
        exact .ordinary (FailsOnly.ok changed)
  refine transforms.append ?_
  cases compiler.transformed registry source with
  | error failure => exact .nil
  | ok changed => exact finishes changed

theorem interrupted_partSteps (tree : Tree) (base path : Path) :
    InterruptedOnlyByCalls (compiler.partSteps registry tree base path) := by
  have reads := Selection.failsOnly_read Failure.ordinary_coversStages tree base path
  refine (InterruptedOnlyByCalls.ordinary reads).append ?_
  cases Selection.read tree base path with
  | error failure => exact .nil
  | ok source => exact compiler.interrupted_transformSteps registry source

theorem interrupted_steps (tree : Tree) (base : Path) :
    InterruptedOnlyByCalls (compiler.steps registry tree base) := by
  have expands := Selection.failsOnly_expandFrom Failure.ordinary_coversStages tree base
    compiler.patterns []
  refine (InterruptedOnlyByCalls.ordinary expands).append ?_
  cases Selection.expand tree base compiler.patterns with
  | error failure => exact .nil
  | ok paths => exact .flatMap (compiler.interrupted_partSteps registry tree base)

end Compiler

namespace Builder

variable (builder : Builder)

/-- The call of the minifier, which is told no subject. -/
def minifyCall? : Option NamedCall := builder.minifierNames.head?.map fun name => (name, "")

/-- The steps of an assembly. The capabilities are demanded first, and what was compiled is minified
unless it is empty. -/
def assemblySteps (tree : Tree) (here : Location) : List Step :=
  ⟨none, failure? (builder.registry.demand builder.neededCapabilities)⟩ ::
    (builder.steps tree (builder.sourceBase here) ++
      match builder.parts tree (builder.sourceBase here) with
      | .ok (first :: rest) =>
          [⟨builder.minifyCall?, failure? (builder.minified (joinSources (first :: rest)))⟩]
      | _ => [])

theorem failsOnly_demand (names : List String) :
    FailsOnly Failure.IsOrdinary (builder.registry.demand names) := by
  intro failure failed
  obtain ⟨name, -, rfl⟩ := Registry.demand_eq_error_iff.mp failed
  rfl

theorem interrupted_assemblySteps (tree : Tree) (here : Location) :
    InterruptedOnlyByCalls (builder.assemblySteps tree here) := by
  have minifies (contents : String) : InterruptedOnlyByCalls
      [⟨builder.minifyCall?, failure? (builder.minified contents)⟩] := by
    cases called : builder.minifyCall? with
    | some call => exact .single fun _ => rfl
    | none =>
        have idle : builder.minified contents = .ok contents := by
          unfold minifyCall? minifierNames at called
          unfold minified
          cases compilers : builder.compilers with
          | nil => rfl
          | cons first rest => cases minifies : builder.minify <;> simp_all
        rw [idle]
        exact .ordinary (FailsOnly.ok contents)
  refine (InterruptedOnlyByCalls.ordinary (builder.failsOnly_demand _)).append (.append ?_ ?_)
  · exact .flatMap fun compiler => compiler.interrupted_steps builder.registry tree _
  · cases builder.parts tree (builder.sourceBase here) with
    | error failure => exact .nil
    | ok sources =>
        cases sources with
        | nil => exact .nil
        | cons first rest => exact minifies _

theorem firstFailure?_steps
    (equipped : ∀ needed ∈ builder.neededCapabilities, builder.registry.has needed = true)
    (tree : Tree) (base : Path) :
    Step.firstFailure? (builder.steps tree base) = failure? (builder.parts tree base) := by
  obtain ⟨prepared, ready⟩ := exists_prepared builder equipped
  exact (Stream.takes_eagerly ready base ⟨tree, [], []⟩).1

/-- An assembly is interrupted when the first of its steps that fails is. -/
theorem assembled_interrupted (folder name : String) (tree : Tree) (here : Location) :
    (builder.assembled folder name tree here).1 = .error (.capability .interrupted) ↔
      Step.firstFailure? (builder.assemblySteps tree here) = some (.capability .interrupted) := by
  unfold assemblySteps
  cases demanded : builder.registry.demand builder.neededCapabilities with
  | error failure =>
      have lacks : builder.compiled tree here = .error failure := by
        rw [compiled, demanded]
        rfl
      simp [assembled, lacks, failure?, Step.firstFailure?]
  | ok =>
      have equipped := Registry.demand_eq_ok_iff.mp demanded
      have compiles :
          builder.compiled tree here = builder.parts tree (builder.sourceBase here) := by
        rw [compiled, demanded]
        rfl
      change _ ↔ Step.firstFailure? (_ ++ _) = _
      rw [Step.firstFailure?_append, builder.firstFailure?_steps equipped, assembled, compiles]
      cases builder.parts tree (builder.sourceBase here) with
      | error failure => simp [failure?]
      | ok sources =>
          cases sources with
          | nil => simp [failure?, Step.firstFailure?]
          | cons first rest =>
              simp only [bundled]
              cases builder.minified (joinSources (first :: rest)) with
              | error failure => simp [failure?, Step.firstFailure?]
              | ok text =>
                  rcases builder.delivered_cases folder name (first :: rest) text tree here with
                    ⟨left, -, same⟩ | ⟨fault, left, same⟩ <;>
                  simp [failure?, Step.firstFailure?, same]

end Builder

namespace Project

variable (project : Project) (base : Path) (cleans verbose : Bool) (config : Config)

/-- The tree that the artifacts of a bundle are removed from, if that is asked for and works. -/
def prepared? (output : String) (tree : Tree) (here : Location) : Option Tree :=
  if cleans then
    match cleaned base output tree here with
    | (.ok _, left) => some left
    | (.error _, _) => none
  else some tree

/-- The steps of the build of a bundle. A bundle that cannot be set up has none. -/
def bundleSteps (name : String) (tree : Tree) (here : Location) : List Step :=
  match project.plan base name (some config) verbose tree here with
  | .error _ => []
  | .ok (bundle, builder) =>
      match builder.checkBuild bundle.output, prepared? base cleans bundle.output tree here with
      | .ok _, some left => builder.assemblySteps left here
      | _, _ => []

theorem interrupted_bundleSteps (name : String) (tree : Tree) (here : Location) :
    InterruptedOnlyByCalls (project.bundleSteps base cleans verbose config name tree here) := by
  unfold bundleSteps
  split
  · exact .nil
  · next bundle builder _ =>
    split
    · exact builder.interrupted_assemblySteps _ here
    · exact .nil

theorem ran_interrupted (builder : Builder) (name output : String) (tree : Tree) (here : Location) :
    (ranNamed name builder output tree here).1 = .error (.capability .interrupted) ↔
      ∃ place, builder.checkBuild output = .ok place ∧
        Step.firstFailure? (builder.assemblySteps tree here) = some (.capability .interrupted) := by
  have named : (ranNamed name builder output tree here).1 = .error (.capability .interrupted) ↔
      (ran builder output tree here).1 = .error (.capability .interrupted) := by
    simp only [ranNamed]
    cases (ran builder output tree here).1 <;> simp [Except.map]
  rw [named, ran]
  cases checked : builder.checkBuild output with
  | error failure =>
      have ordinary := builder.failsOnly_checkBuild output failure checked
      simp only [reduceCtorEq, false_and, exists_false, iff_false]
      rintro ⟨⟩
      cases ordinary
  | ok place => simp [builder.assembled_interrupted place.1 place.2 tree here]

theorem failsOnly_plan (name : String) (tree : Tree) (here : Location) :
    FailsOnly Failure.IsOrdinary (project.plan base name (some config) verbose tree here) :=
  (failsOnly_definition base name (some config) tree here).bind fun bundle =>
    (Builder.failsOnly_ofDefinition _ bundle).bind fun builder => FailsOnly.ok (bundle, builder)

/-- The steps of a bundle are interrupted when the first of them that fails is. -/
theorem stepsEffect_interrupted (name : String) (tree : Tree) (here : Location) :
    (project.stepsEffect base name (some config) cleans verbose tree here).1 =
        .error (.capability .interrupted) ↔
      Step.firstFailure? (project.bundleSteps base cleans verbose config name tree here) =
        some (.capability .interrupted) := by
  have steps (bundle : BundleDefinition) (builder : Builder) (left : Tree) :
      (ranNamed name builder bundle.output left here).1 = .error (.capability .interrupted) ↔
        Step.firstFailure?
            (match builder.checkBuild bundle.output, some left with
              | .ok _, some left => builder.assemblySteps left here
              | _, _ => []) = some (.capability .interrupted) := by
    rw [ran_interrupted]
    cases builder.checkBuild bundle.output <;> simp [Step.firstFailure?]
  unfold bundleSteps
  cases cleans with
  | false =>
      rw [stepsEffect_plain]
      rcases planned : project.plan base name (some config) verbose tree here with
        failure | ⟨bundle, builder⟩
      · have ordinary := project.failsOnly_plan base verbose config name tree here failure planned
        simp only [Step.firstFailure?, List.findSome?_nil, reduceCtorEq, iff_false]
        rintro ⟨⟩
        cases ordinary
      · exact steps bundle builder tree
  | true =>
      rw [stepsEffect_clean]
      rcases planned : project.plan base name (some config) verbose tree here with
        failure | ⟨bundle, builder⟩
      · have ordinary := project.failsOnly_plan base verbose config name tree here failure planned
        simp only [Step.firstFailure?, List.findSome?_nil, reduceCtorEq, iff_false]
        rintro ⟨⟩
        cases ordinary
      · simp only [cleanRun, prepared?, if_true]
        rcases cleansAs : cleaned base bundle.output tree here with ⟨failure | removed, left⟩
        · have ordinary := failsOnly_cleaned base bundle.output tree here failure
            (congrArg Prod.fst cleansAs)
          rw [followedBy_error cleansAs]
          cases builder.checkBuild bundle.output <;>
          · simp only [Step.firstFailure?, List.findSome?_nil, reduceCtorEq, iff_false]
            rintro ⟨⟩
            cases ordinary
        · rw [followedBy_ok cleansAs]
          exact steps bundle builder left

theorem bundleEffect_interrupted (name : String) (tree : Tree) (here : Location) :
    (∃ failure, (project.bundleEffect base name (some config) cleans (some verbose) tree here).1 =
        .error failure) ↔
      ∃ step ∈ Step.performed
        (project.bundleSteps (root base here) cleans verbose config name tree here),
        step.IsInterrupted := by
  rw [← Step.firstFailure?_interrupted
    (project.interrupted_bundleSteps (root base here) cleans verbose config name tree here),
    ← stepsEffect_interrupted]
  change (∃ failure, reported name (project.stepsEffect (root base here) name (some config) cleans
    verbose tree here).1 = .error failure) ↔ _
  cases (project.stepsEffect (root base here) name (some config) cleans verbose tree here).1 with
  | ok result => simp [reported]
  | error failure =>
      rw [reported, Except.error.injEq, ← Failure.isInterruption_iff]
      cases failure.isInterruption <;> simp

/-- The steps that the builds of several bundles take. An interruption ends all of them. -/
def takenSteps (here : Location) : List String → Tree → List Step
  | [], _ => []
  | name :: rest, tree =>
      Step.performed (project.bundleSteps (root base here) cleans verbose config name tree here) ++
        match project.bundleEffect base name (some config) cleans (some verbose) tree here with
        | (.ok _, left) => takenSteps here rest left
        | (.error _, _) => []

/-- The builds of several bundles fail exactly when a call is interrupted. -/
theorem bundlesEffect_interrupted (names : List String) (tree : Tree) (here : Location) :
    (∃ failure, (project.bundlesEffect base cleans (some verbose) config names tree here).1 =
        .error failure) ↔
      ∃ step ∈ project.takenSteps base cleans verbose config here names tree,
        step.IsInterrupted := by
  induction names generalizing tree with
  | nil => simp [bundlesEffect, takenSteps]
  | cons name rest inductionHypothesis =>
      have first := project.bundleEffect_interrupted base cleans verbose config name tree here
      rw [bundlesEffect, takenSteps]
      simp only [List.mem_append, or_and_right, exists_or, ← first]
      rcases built : project.bundleEffect base name (some config) cleans (some verbose) tree here
        with ⟨failure | result, left⟩
      · simp [followedBy_error built]
      · rw [followedBy_ok built]
        simp only [reduceCtorEq, exists_false, false_or, ← inductionHypothesis]
        rcases later : project.bundlesEffect base cleans (some verbose) config rest left here with
          ⟨failure | results, last⟩ <;> simp [followedBy, later]

end Project

end AssetBundler

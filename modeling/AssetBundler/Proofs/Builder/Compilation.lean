import AssetBundler.Builder.Build
import AssetBundler.Proofs.Compiler.LookUps
import AssetBundler.Proofs.Compiler.Merged

/-!
Compilation of the sources of a builder. The needed capabilities are demanded first, and then the
parts of all compilers are collected.
-/

namespace AssetBundler.Builder

open AssetBundler.Action

/-- The names that a build needs: those of the compilers in their order, then the minifier. -/
def neededCapabilities (builder : Builder) : List String :=
  builder.compilers.flatMap Compiler.requiredCapabilities ++ builder.minifierNames

theorem mem_needed_of_required {builder : Builder} {compiler : Compiler} {name : String}
    (member : compiler ∈ builder.compilers) (required : name ∈ compiler.requiredCapabilities) :
    name ∈ builder.neededCapabilities :=
  List.mem_append_left _ (List.mem_flatMap.mpr ⟨compiler, member, required⟩)

theorem mem_needed_of_minifier {builder : Builder} {first : Compiler} {rest : List Compiler}
    {name : String} (compilers : builder.compilers = first :: rest)
    (minifies : builder.minify = true) (named : first.kind.minifier? = some name) :
    name ∈ builder.neededCapabilities := by
  simp [neededCapabilities, minifierNames, compilers, minifies, named]

/-- The parts of a bundle in the order of the compilers. -/
def parts (builder : Builder) (tree : Tree) (base : Path) : Except Failure (List SourceFile) := do
  let parts ← builder.compilers.mapM fun compiler => compiler.parts builder.registry tree base
  return parts.flatten

/-- A notice for those who trace a build. -/
def isNotice (event : Event) : Prop := ∃ message, event = .log logSource .debug message

theorem observes_checkCapabilities (registry : Registry Capability) (dialect : Dialect)
    (names : List String) :
    Observes isNotice (checkCapabilities registry dialect names) fun _ _ =>
      registry.demand names := by
  induction names with
  | nil => exact Observes.pure ()
  | cons name rest inductionHypothesis =>
      rw [checkCapabilities, Registry.demand_cons]
      by_cases registered : registry.has name
      · obtain ⟨capability, found⟩ := Registry.lookUp_registered registered
        rw [found, if_pos registered]
        refine Observes.after (Observes.ofExcept (.ok capability)) ?_
        exact Observes.after (Observes.record ⟨_, rfl⟩) inductionHypothesis
      · rw [Registry.lookUp_missing (by simpa using registered), if_neg registered]
        exact Observes.stop (Observes.fail _)

theorem observes_checkCompilers (registry : Registry Capability) (compilers : List Compiler) :
    Observes isNotice (checkCompilers registry compilers) fun _ _ =>
      registry.demand (compilers.flatMap Compiler.requiredCapabilities) := by
  induction compilers with
  | nil => exact Observes.pure ()
  | cons compiler rest inductionHypothesis =>
      rw [checkCompilers, List.flatMap_cons, Registry.demand_append]
      exact Observes.bind (observes_checkCapabilities registry _ _) fun _ => inductionHypothesis

theorem observes_checkMinifier (builder : Builder) (names : List String) :
    Observes isNotice (builder.checkMinifier names) fun _ _ => builder.registry.demand names := by
  induction names with
  | nil => exact Observes.pure ()
  | cons name rest inductionHypothesis =>
      rw [checkMinifier, Registry.demand_cons]
      by_cases registered : builder.registry.has name
      · obtain ⟨capability, found⟩ := Registry.lookUp_registered registered
        rw [found, if_pos registered]
        exact Observes.after (Observes.ofExcept (.ok capability)) inductionHypothesis
      · rw [Registry.lookUp_missing (by simpa using registered), if_neg registered]
        exact Observes.stop (Observes.fail _)

/-- The look-ups of a build before it prepares its compilers. -/
def checkNeeded (builder : Builder) : Action Unit := do
  checkCompilers builder.registry builder.compilers
  builder.checkMinifier builder.minifierNames

theorem observes_checkNeeded (builder : Builder) :
    Observes isNotice builder.checkNeeded fun _ _ =>
      builder.registry.demand builder.neededCapabilities := by
  rw [neededCapabilities, Registry.demand_append]
  exact Observes.bind (observes_checkCompilers _ _) fun _ => observes_checkMinifier builder _

theorem observes_absolute (path : Path) :
    Observes anyEvent (Action.absolute path) fun _ directory =>
      .ok (path.absolute ⟨.root, directory⟩) := by
  intro workspace
  exact ⟨[], by simp, rfl⟩

theorem run_absolute_bind {Value : Type} (path : Path) (next : Path → Action Value)
    (workspace : Workspace) :
    run (Action.absolute path >>= next) workspace =
      run (next (path.absolute ⟨.root, workspace.directory⟩)) workspace := by
  have started : run (Action.absolute path) workspace =
      (.ok (path.absolute ⟨.root, workspace.directory⟩), workspace) := rfl
  rw [run_bind, started]

/-- What is left of a compilation after the look-ups. -/
def compilePrepared (builder : Builder) : Action (List SourceFile) := do
  let prepared ← Action.ofExcept
    (builder.compilers.mapM fun compiler => compiler.prepare builder.registry)
  let base ← Action.absolute builder.base
  if builder.showsProgress then Action.record .progress
  Stream.drain base prepared

theorem compileSources_eq (builder : Builder) :
    builder.compileSources = builder.checkNeeded >>= fun _ => builder.compilePrepared := by
  simp [compileSources, checkNeeded, compilePrepared]

theorem exists_prepared (builder : Builder)
    (equipped : ∀ name ∈ builder.neededCapabilities, builder.registry.has name = true) :
    ∃ prepared, (builder.compilers.mapM fun compiler => compiler.prepare builder.registry) =
      .ok prepared := by
  apply Outcome.exists_mapM
  intro compiler member
  exact Compiler.exists_prepare fun name required =>
    equipped name (mem_needed_of_required member required)

theorem observes_compilePrepared (builder : Builder)
    (equipped : ∀ name ∈ builder.neededCapabilities, builder.registry.has name = true) :
    Observes anyEvent builder.compilePrepared fun tree directory =>
      builder.parts tree (builder.base.absolute ⟨.root, directory⟩) := by
  obtain ⟨prepared, ready⟩ := exists_prepared builder equipped
  rw [compilePrepared, ready]
  refine Observes.after (Observes.ofExcept (.ok prepared)) ?_
  have drained (base : Path) :
      Observes anyEvent
        (do if builder.showsProgress then Action.record .progress
            Stream.drain base prepared)
        fun tree _ => builder.parts tree base := by
    have plain := Stream.observes_drain ready base
    cases builder.showsProgress with
    | false => exact plain
    | true => exact Observes.after (Observes.recordAny .progress) plain
  exact Observes.bind (observes_absolute builder.base) drained

/-- A builder that lacks nothing compiles the parts of its bundle. -/
theorem observes_compileSources (builder : Builder)
    (equipped : ∀ name ∈ builder.neededCapabilities, builder.registry.has name = true) :
    Observes anyEvent builder.compileSources fun tree directory =>
      builder.parts tree (builder.base.absolute ⟨.root, directory⟩) := by
  have checked := (observes_checkNeeded builder).weaken
  rw [Registry.demand_eq_ok_iff.mpr equipped] at checked
  rw [compileSources_eq]
  exact Observes.after checked (observes_compilePrepared builder equipped)

/-- A builder that lacks a capability reports it before anything else. -/
theorem observes_compileSources_missing (builder : Builder) {failure : Failure}
    (missing : builder.registry.demand builder.neededCapabilities = .error failure) :
    Observes isNotice builder.compileSources fun _ _ => .error failure := by
  have checked := observes_checkNeeded builder
  rw [missing] at checked
  rw [compileSources_eq]
  exact Observes.stop checked

end AssetBundler.Builder

import AssetBundler.Proofs.Builder.Causes

/-!
The capabilities that a build needs. They are demanded before anything else, they are all that is
looked up later, and nothing else of the registry matters.
-/

namespace AssetBundler.Builder

open AssetBundler.Action Outcome

variable {builder : Builder}

/-- A builder that lacks a capability records notices and nothing else. -/
theorem observes_assemble_missing {failure : Failure} (folder name : String)
    (missing : builder.registry.demand builder.neededCapabilities = .error failure) :
    Observes isNotice (builder.assemble folder name) fun _ _ => .error failure :=
  Observes.stop (observes_compileSources_missing builder missing)

section Agreement

variable {registry other : Registry Capability}

theorem lookUp_congr {name : String} (agree : registry.get name = other.get name) :
    Compiler.lookUp registry name = Compiler.lookUp other name := by
  rw [Compiler.lookUp, Compiler.lookUp, agree]

theorem checkCapabilities_congr (dialect : Dialect) {names : List String}
    (agree : ∀ name ∈ names, registry.get name = other.get name) :
    checkCapabilities registry dialect names = checkCapabilities other dialect names := by
  induction names with
  | nil => rfl
  | cons name rest inductionHypothesis =>
      rw [checkCapabilities, checkCapabilities, lookUp_congr (agree name List.mem_cons_self),
        inductionHypothesis fun next member => agree next (List.mem_cons_of_mem name member)]

theorem checkCompilers_congr {compilers : List Compiler}
    (agree : ∀ name ∈ compilers.flatMap Compiler.requiredCapabilities,
      registry.get name = other.get name) :
    checkCompilers registry compilers = checkCompilers other compilers := by
  induction compilers with
  | nil => rfl
  | cons compiler rest inductionHypothesis =>
      rw [List.flatMap_cons] at agree
      rw [checkCompilers, checkCompilers,
        checkCapabilities_congr compiler.dialect fun name member =>
          agree name (List.mem_append_left _ member),
        inductionHypothesis fun name member => agree name (List.mem_append_right _ member)]

/-- The same builder with other capabilities. -/
def withRegistry (builder : Builder) (other : Registry Capability) : Builder :=
  { builder with registry := other }

theorem checkMinifier_congr {names : List String}
    (agree : ∀ name ∈ names, builder.registry.get name = other.get name) :
    builder.checkMinifier names = (builder.withRegistry other).checkMinifier names := by
  induction names with
  | nil => rfl
  | cons name rest inductionHypothesis =>
      have found := lookUp_congr (agree name List.mem_cons_self)
      have later := inductionHypothesis fun next member =>
        agree next (List.mem_cons_of_mem name member)
      rw [checkMinifier, checkMinifier, found, later]
      rfl

variable (agree : ∀ needed ∈ builder.neededCapabilities,
  builder.registry.get needed = other.get needed)
include agree

theorem compileSources_congr :
    builder.compileSources = (builder.withRegistry other).compileSources := by
  have checked := checkCompilers_congr fun name member =>
    agree name (List.mem_append_left _ member)
  have minifierChecked := checkMinifier_congr fun name member =>
    agree name (List.mem_append_right _ member)
  have prepared : (builder.compilers.mapM fun compiler => compiler.prepare builder.registry) =
      builder.compilers.mapM fun compiler => compiler.prepare other := by
    apply mapM_congr
    intro compiler member
    apply Compiler.prepareWith_congr
    intro name required
    exact lookUp_congr (agree name (mem_needed_of_required member required))
  rw [compileSources, checked, minifierChecked, prepared]
  rfl

theorem minifyContents_congr (contents : String) :
    builder.minifyContents contents = (builder.withRegistry other).minifyContents contents := by
  unfold minifyContents withRegistry
  dsimp only
  cases compilers : builder.compilers with
  | nil => rfl
  | cons first rest =>
      dsimp only
      cases minifies : builder.minify with
      | false => rfl
      | true =>
          have found : first.minifier builder.registry = first.minifier other := by
            apply Compiler.minifier_congr
            intro name named
            exact lookUp_congr (agree name (mem_needed_of_minifier compilers minifies named))
          rw [if_pos rfl, if_pos rfl, Compiler.minify, Compiler.minify, found]

/-- Only the needed capabilities matter to an assembly. -/
theorem assemble_congr (folder name : String) :
    builder.assemble folder name = (builder.withRegistry other).assemble folder name := by
  have written (target : Path) (map : SourceMap) (sources : List SourceFile) :
      builder.writeBundle target name map sources =
        (builder.withRegistry other).writeBundle target name map sources := by
    rw [writeBundle, minifyContents_congr agree]
    rfl
  simp only [assemble, compileSources_congr agree, written]
  rfl

end Agreement

section Accepted

variable {output folder name : String}
  (accepted : builder.checkBuild output = .ok (folder, name)) (workspace : Workspace)
include accepted

theorem build_missing {failure : Failure}
    (missing : builder.registry.demand builder.neededCapabilities = .error failure) :
    ∃ notices, (∀ event ∈ notices, isNotice event) ∧ builder.build output workspace =
      (.error failure, builder.freeze,
        { workspace with events := notices ++ workspace.events }) := by
  have missingFrozen : builder.freeze.registry.demand builder.freeze.neededCapabilities =
      .error failure := by
    rw [neededCapabilities_freeze]
    exact missing
  obtain ⟨notices, allowed, ran⟩ :=
    observes_assemble_missing folder name missingFrozen workspace
  refine ⟨notices, allowed, ?_⟩
  simp only [build, accepted, ran]

theorem build_equipped
    (equipped : ∀ needed ∈ builder.neededCapabilities, builder.registry.has needed = true)
    (missing : Registry.Missing) :
    (builder.build output workspace).1 ≠ .error (.missingCapability missing) := by
  intro failed
  obtain ⟨events, ran⟩ := build_accepted accepted workspace
  rw [ran] at failed
  cases failsOnly_assembled (Failure.equipped_coversStages _) equipped folder name _ _ _ failed

theorem build_withRegistry {other : Registry Capability}
    (agree : ∀ needed ∈ builder.neededCapabilities,
      builder.registry.get needed = other.get needed) :
    (builder.withRegistry other).build output workspace =
      ((builder.build output workspace).1, builder.freeze.withRegistry other,
        (builder.build output workspace).2.2) := by
  have acceptedAlike : (builder.withRegistry other).checkBuild output = .ok (folder, name) :=
    accepted
  have agreeFrozen : ∀ needed ∈ builder.freeze.neededCapabilities,
      builder.freeze.registry.get needed = other.get needed := by
    rw [neededCapabilities_freeze]
    exact agree
  have assembledAlike := assemble_congr agreeFrozen folder name
  simp only [build, accepted, acceptedAlike, assembledAlike]
  rfl

end Accepted

/-- A build fails for want of a capability exactly when one of the needed names is not registered.
It then names the first such name and has done nothing but to look names up. The names that a
compiler looks up are those that it requires, and nothing else of the registry matters. -/
theorem build_capabilities {output folder name : String}
    (accepted : builder.checkBuild output = .ok (folder, name)) (workspace : Workspace) :
    let needed := builder.neededCapabilities
    let built := builder.build output workspace
    (∀ (compiler : Compiler) (find : String → Capability),
        ((compiler.prepareWith (Compiler.recording find)).run []).2 =
          compiler.requiredCapabilities) ∧
      ((∃ missing, built.1 = .error (.missingCapability missing)) ↔
        ∃ asked ∈ needed, builder.registry.has asked = false) ∧
      (∀ missing, built.1 = .error (.missingCapability missing) →
        builder.registry.firstMissing? needed = some missing.name ∧
          ∃ notices, (∀ event ∈ notices, isNotice event) ∧
            built.2.2 = { workspace with events := notices ++ workspace.events }) ∧
      ∀ other : Registry Capability,
        (∀ asked ∈ needed, builder.registry.get asked = other.get asked) →
          ((builder.withRegistry other).build output workspace).1 = built.1 ∧
            ((builder.withRegistry other).build output workspace).2.2 = built.2.2 := by
  intro needed built
  constructor
  · intro compiler find
    exact Compiler.recorded_prepareWith find compiler
  rw [← and_assoc]
  constructor
  · cases demanded : builder.registry.demand builder.neededCapabilities with
    | ok =>
        have equipped := Registry.demand_eq_ok_iff.mp demanded
        have never := build_equipped accepted workspace equipped
        refine ⟨⟨?_, ?_⟩, fun missing failed => absurd failed (never missing)⟩
        · rintro ⟨missing, failed⟩
          exact absurd failed (never missing)
        · rintro ⟨asked, member, absent⟩
          rw [equipped asked member] at absent
          cases absent
    | error failure =>
        obtain ⟨asked, first, rfl⟩ := Registry.demand_eq_error_iff.mp demanded
        obtain ⟨notices, allowed, ran⟩ := build_missing accepted workspace demanded
        have failed : built = _ := ran
        rw [failed]
        have absent : builder.registry.has asked = false := by
          simpa using List.find?_some first
        refine ⟨⟨?_, ?_⟩, ?_⟩
        · intro _
          exact ⟨asked, List.mem_of_find?_eq_some first, absent⟩
        · intro _
          exact ⟨_, rfl⟩
        · intro missing same
          cases same
          exact ⟨first, notices, allowed, rfl⟩
  · intro other agree
    rw [build_withRegistry accepted workspace agree]
    exact ⟨rfl, rfl⟩

theorem build_capabilities_sample :
    let lacking := sample.withRegistry [marking "sass"]
    lacking.checkBuild "out/all.css" = .ok ("out", "all.css") ∧
      (lacking.build "out/all.css" sampleWorkspace).1 =
        .error (.missingCapability ⟨"autoprefixer"⟩) := by
  intro lacking
  have accepted : lacking.checkBuild "out/all.css" = .ok ("out", "all.css") := by decide +kernel
  refine ⟨accepted, ?_⟩
  obtain ⟨-, ⟨-, fails⟩, names, -⟩ := build_capabilities accepted sampleWorkspace
  obtain ⟨missing, failed⟩ := fails ⟨"autoprefixer", by decide +kernel, by decide +kernel⟩
  have first : some "autoprefixer" = some missing.name := (names missing failed).1
  rw [failed, Option.some.inj first]

end AssetBundler.Builder

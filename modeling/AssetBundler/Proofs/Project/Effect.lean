import AssetBundler.Proofs.Builder.Effect
import AssetBundler.Proofs.FileSystem.Removal
import AssetBundler.Project

/-!
What the build of a bundle of a project gives and leaves, as a function of the project and the tree.
-/

namespace AssetBundler

open AssetBundler.Action

namespace Toolchain

/-- The capabilities that a toolchain provides. -/
def equipment : Toolchain → Registry Capability
  | .registered registry => registry
  | .libraries installed => Capability.standardRegistry installed

theorem observes_logNotices (notices : List String) :
    Observes anyEvent (logNotices notices) fun _ _ => .ok () := by
  induction notices with
  | nil => exact Observes.pure ()
  | cons notice rest inductionHypothesis =>
      exact Observes.after (Observes.recordAny _) inductionHypothesis

theorem observes_registry (toolchain : Toolchain) :
    Observes anyEvent toolchain.registry fun _ _ => .ok toolchain.equipment := by
  cases toolchain with
  | registered registry => exact Observes.pure registry
  | libraries installed =>
      exact Observes.after (observes_logNotices _) (Observes.pure _)

end Toolchain

namespace Project

variable (project : Project) (directory : Path) (name : String) (given : Option Config)

section Planning

theorem observes_findConfig : Observes anyEvent (findConfig directory) fun tree here =>
    Config.find? tree here directory := by
  intro workspace
  exact ⟨[], by simp, by simp [findConfig, run_bind]⟩

theorem observes_loadConfigAt (path : Path) : Observes anyEvent (loadConfigAt path)
    fun tree here => Config.load tree here path := by
  intro workspace
  exact ⟨[], by simp, by simp [loadConfigAt, run_bind]⟩

/-- The configuration that is given, or else the one of the project. -/
def configured (tree : Tree) (here : Location) : Except Failure Config :=
  match given with
  | some config => .ok config
  | none => do
      match ← Config.find? tree here directory with
      | none => throw (.project (.noConfig directory))
      | some path => Config.load tree here path

theorem observes_configured :
    Observes anyEvent
      (match given with
        | some config => pure config
        | none => loadConfig directory)
      (configured directory given) := by
  cases given with
  | some config => exact Observes.pure config
  | none =>
      refine Observes.bind (observes_findConfig directory) fun found => ?_
      cases found with
      | none => exact Observes.fail _
      | some path => exact observes_loadConfigAt path

/-- The definition of a bundle. -/
def definition (tree : Tree) (here : Location) : Except Failure BundleDefinition := do
  let config ← configured directory given tree here
  config.bundle name

/-- A new builder without compilers. -/
def newBuilder (verbose : Bool) : Builder where
  registry := project.toolchain.equipment
  base := directory
  runtime := project.runtime
  verbose := verbose
  showsProgress := project.showsProgress

theorem observes_emptyBuilder (verbose : Bool) :
    Observes anyEvent (project.emptyBuilder directory verbose) fun _ _ =>
      .ok (project.newBuilder directory verbose) :=
  Observes.after (Toolchain.observes_registry _) (Observes.pure _)

end Planning

theorem observes_result {Value : Type} (result : Except Failure Value) :
    Observes anyEvent (Action.ofExcept result) fun _ _ => result := Observes.ofExcept result

section Cleaning

theorem alters_removeFile (path : Path) :
    Alters (Action.removeFile path) fun tree here =>
      Builder.fileEffect (tree.unlink here path) := by
  intro workspace
  simp only [Action.removeFile, run_bind, run_get, Tree.unlink]
  cases workspace.tree.isFile workspace.directory path with
  | error fault => rfl
  | ok answer =>
      cases answer with
      | false => rfl
      | true => cases workspace.tree.remove workspace.directory path <;> rfl

theorem alters_removeArtifacts (names : List String) :
    Alters (removeArtifacts directory names) fun tree here =>
      Builder.fileEffect (tree.unlinkAll here (names.map directory.joinText)) := by
  induction names with
  | nil => exact Alters.pure []
  | cons name rest inductionHypothesis =>
      refine (Alters.bind (alters_removeFile (directory.joinText name)) fun removed =>
        Alters.bind inductionHypothesis fun others => Alters.pure _).congr ?_
      intro tree here
      simp only [List.map_cons, Tree.unlinkAll, followedBy, Builder.fileEffect]
      rcases tree.unlink here (directory.joinText name) with ⟨result, left⟩
      cases result with
      | error fault => rfl
      | ok removed =>
          simp only [Except.mapError]
          rcases left.unlinkAll here (rest.map directory.joinText) with ⟨others, last⟩
          cases others <;> rfl

/-- What cleaning gives and leaves. -/
def cleaned (output : String) (tree : Tree) (here : Location) :
    Except Failure (List Path) × Tree :=
  match Output.split output with
  | .error failure => (.error failure, tree)
  | .ok (folder, name) =>
      Builder.fileEffect (tree.unlinkAll here (Output.artifactPaths directory folder name))

theorem alters_clean (output : String) :
    Alters (clean directory output) (cleaned directory output) := by
  refine (Alters.bind (Alters.ofExcept (Output.split output)) fun place =>
    alters_removeArtifacts (directory.joinText place.1) _).congr ?_
  intro tree here
  simp only [followedBy, cleaned, Output.artifactPaths]
  cases Output.split output <;> rfl

theorem performs_clean (output : String) :
    Performs (clean directory output) (cleaned directory output) :=
  (alters_clean directory output).performs

end Cleaning

section Building

/-- What the run of a builder gives and leaves. -/
def ran (builder : Builder) (output : String) (tree : Tree) (here : Location) :
    Except Failure BuildResult × Tree :=
  match builder.checkBuild output with
  | .error failure => (.error failure, tree)
  | .ok (folder, name) => builder.assembled folder name tree here

theorem performs_runBuilder (builder : Builder) (output : String) :
    Performs (runBuilder builder output) (ran builder output) := by
  intro workspace
  unfold ran
  cases checked : builder.checkBuild output with
  | error failure =>
      refine ⟨[], ?_⟩
      have refused := Builder.build_refused checked workspace
      simp only [runBuilder, Action.run, ExceptT.run, ExceptT.mk, StateT.run, refused]
      rfl
  | ok place =>
      obtain ⟨events, built⟩ := Builder.build_accepted checked workspace
      refine ⟨events, ?_⟩
      simp only [runBuilder, Action.run, ExceptT.run, ExceptT.mk, StateT.run, built]

/-- The result bears the name of the bundle. -/
def ranNamed (builder : Builder) (output : String) (tree : Tree) (here : Location) :
    Except Failure BuildResult × Tree :=
  ((ran builder output tree here).1.map fun result => { result with bundle := some name },
    (ran builder output tree here).2)

theorem performs_runNamed (builder : Builder) (output : String) :
    Performs (do
      let result ← runBuilder builder output
      return { result with bundle := some name }) (ranNamed name builder output) := by
  refine (Performs.bind (performs_runBuilder builder output) fun _ => Performs.pure _).congr ?_
  intro tree here
  simp only [followedBy, ranNamed]
  rcases ran builder output tree here with ⟨result, left⟩
  cases result <;> rfl

/-- What the steps of a build give and leave. A builder is run after its artifacts are removed, if
that is asked for. -/
def stepsEffect (cleans verbose : Bool) (tree : Tree) (here : Location) :
    Except Failure BuildResult × Tree :=
  match definition directory name given tree here with
  | .error failure => (.error failure, tree)
  | .ok bundle =>
      match (project.newBuilder directory verbose).ofDefinition bundle with
      | .error failure => (.error failure, tree)
      | .ok builder =>
          if cleans then
            followedBy (cleaned directory bundle.output)
              (fun _ => ranNamed name builder bundle.output) tree here
          else ranNamed name builder bundle.output tree here

/-- A configuration that the tree holds is as good as one that is given. -/
theorem stepsEffect_of_configured {config : Config} {tree : Tree} {here : Location}
    (holds : configured directory none tree here = .ok config) (cleans verbose : Bool) :
    project.stepsEffect directory name none cleans verbose tree here =
      project.stepsEffect directory name (some config) cleans verbose tree here := by
  have same : definition directory name none tree here =
      definition directory name (some config) tree here := by
    simp only [definition, holds]
    rfl
  rw [stepsEffect, same, stepsEffect]

theorem performs_buildSteps_some (config : Config) (cleans verbose : Bool) :
    Performs (project.buildSteps directory name cleans verbose (some config))
      (project.stepsEffect directory name (some config) cleans verbose) := by
  have prints (text : String) := Compiler.observes_printWhen verbose text
  have found : definition directory name (some config) = fun _ _ => config.bundle name := rfl
  simp only [buildSteps, pure_bind]
  unfold stepsEffect
  rw [found]
  refine Performs.after (prints _) ?_
  cases config.bundle name with
  | error failure => exact (Observes.stop (observes_result (.error failure))).performs
  | ok bundle =>
      refine Performs.after (observes_result (.ok bundle)) (Performs.after (prints _)
        (Performs.after (prints _)
          (Performs.after (project.observes_emptyBuilder directory verbose) ?_)))
      simp only
      cases (project.newBuilder directory verbose).ofDefinition bundle with
      | error failure => exact (Observes.stop (observes_result (.error failure))).performs
      | ok builder =>
          refine Performs.after (observes_result (.ok builder)) ?_
          have runs := performs_runNamed name builder bundle.output
          cases cleans with
          | false => exact Performs.after (prints _) runs
          | true =>
              exact Performs.after (prints _)
                (Performs.bind (performs_clean directory bundle.output)
                  fun _ => Performs.after (prints _) runs)

theorem performs_buildSteps (cleans verbose : Bool) :
    Performs (project.buildSteps directory name cleans verbose given)
      (project.stepsEffect directory name given cleans verbose) := by
  cases given with
  | some config => exact project.performs_buildSteps_some directory name config cleans verbose
  | none =>
      have loads : project.buildSteps directory name cleans verbose none =
          loadConfig directory >>= fun config =>
            project.buildSteps directory name cleans verbose (some config) := by
        simp only [buildSteps, pure_bind]
      rw [loads]
      refine (Performs.bind (observes_configured directory none).performs fun config =>
        project.performs_buildSteps_some directory name config cleans verbose).congr ?_
      intro tree here
      simp only [followedBy, stepsEffect, definition]
      cases configured directory none tree here <;> rfl

/-- A failure becomes a result unless it is an interruption. -/
def reported : Except Failure BuildResult → Except Failure BuildResult
  | .ok result => .ok result
  | .error failure =>
      if failure.isInterruption then .error failure else .ok (failedResult name failure)

/-- The directory of a project as its builds see it. -/
def root (here : Location) : Path := directory.absolute ⟨.root, here⟩

/-- What the build of a bundle gives and leaves. -/
def bundleEffect (cleans : Bool) (verbose : Option Bool) (tree : Tree) (here : Location) :
    Except Failure BuildResult × Tree :=
  let outcome := project.stepsEffect (root directory here) name given cleans
    (verbose.getD project.verbose) tree here
  (reported name outcome.1, outcome.2)

theorem performs_reported (outcome : Except Failure BuildResult) :
    Performs
      (match outcome with
        | .ok result => return result
        | .error failure =>
            if failure.isInterruption then Action.fail failure
            else return failedResult name failure)
      fun tree _ => (reported name outcome, tree) := by
  cases outcome with
  | ok result => exact Performs.pure result
  | error failure =>
      simp only [reported]
      split
      · exact (observes_result (.error failure)).performs
      · exact Performs.pure _

theorem performs_buildBundle (cleans : Bool) (verbose : Option Bool) :
    Performs (project.buildBundle directory name cleans verbose given)
      (project.bundleEffect directory name given cleans verbose) :=
  (Performs.bind (Builder.observes_absolute directory).performs fun root =>
    Performs.bind (performs_buildSteps project root name given cleans
      (verbose.getD project.verbose)).attempt (performs_reported name)).congr fun _ _ => rfl

end Building

section Sample

/-- A capability that refuses all contents. -/
def refusing : Capability := fun _ _ _ => .error (.raised "RuntimeError" "refused")

/-- Two bundles of plain style sheets for one directory, and a bundle that needs the capability. -/
def sampleText : String :=
  "[bundle:all]\noutput=out/all.css\nsources=a\n" ++
    "[bundle:top]\noutput=out/top.css\nsources=a\n" ++
      "[bundle:theme]\noutput=b.css\nsources=b\n" ++
        "[source:a]\ndialect=css\nfiles=a.css\n" ++
          "[source:b]\ndialect=scss\nfiles=b.scss\n"

def sampleConfig : Config where
  document := {
    sections := [
      ("bundle:all", [("output", some "out/all.css"), ("sources", some "a")]),
      ("bundle:top", [("output", some "out/top.css"), ("sources", some "a")]),
      ("bundle:theme", [("output", some "b.css"), ("sources", some "b")]),
      ("source:a", [("dialect", some "css"), ("files", some "a.css")]),
      ("source:b", [("dialect", some "scss"), ("files", some "b.scss")])] }

def sampleWorkspace : Workspace where
  tree := ⟨[(["p"], .directory), (["p", "a.css"], .file [120]), (["p", "b.scss"], .file [121]),
    (["p", configName], .file (Utf8.encode sampleText))]⟩
  directory := ["p"]

def sample : Project where
  toolchain := .registered [("sass", refusing)]
  runtime := ""

theorem configured_sample :
    configured ⟨.root, ["p"]⟩ none sampleWorkspace.tree ["p"] = .ok sampleConfig := by
  have document : (Ini.ofBytes (Utf8.encode sampleText)).toOption = some sampleConfig.document := by
    decide +kernel
  have parsed : Ini.ofBytes (Utf8.encode sampleText) = .ok sampleConfig.document := by
    cases read : Ini.ofBytes (Utf8.encode sampleText) with
    | error fault =>
        rw [read] at document
        cases document
    | ok given =>
        rw [read] at document
        cases document
        rfl
  have found : Config.find? sampleWorkspace.tree ["p"] ⟨.root, ["p"]⟩ =
      .ok (some ⟨.root, ["p", configName]⟩) := rfl
  have seen : sampleWorkspace.tree.hasNode ["p"] ⟨.root, ["p", configName]⟩ = .ok true := rfl
  have contents : sampleWorkspace.tree.read ["p"] ⟨.root, ["p", configName]⟩ =
      .ok (Utf8.encode sampleText) := rfl
  simp only [configured, found, bind, Except.bind, Config.load, seen, contents, parsed]
  rfl

end Sample

end Project

end AssetBundler

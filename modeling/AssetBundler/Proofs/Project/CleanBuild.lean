import AssetBundler.Proofs.Builder.Repetition
import AssetBundler.Proofs.FileSystem.Probing
import AssetBundler.Proofs.Project.Effect

/-!
Clean builds. The files of an earlier build are removed before anything is selected, so they have no
influence on the build.
-/

namespace AssetBundler

open AssetBundler.Action

theorem Builder.base_of_definition {start builder : Builder} {bundle : BundleDefinition}
    (made : start.ofDefinition bundle = .ok builder) : builder.base = start.base := by
  obtain ⟨sources, -, same⟩ := Outcome.bind_eq_ok.mp made
  cases same
  rfl

namespace Project

variable {project : Project} {base : Path} {name : String} {given : Option Config}
  {tree other : Tree} {here : Location}

section Planning

/-- A bundle depends on the tree by what the path of the configuration shows. -/
theorem definition_congr
    (seen : given = none → other.probe here (base.joinText configName) =
      tree.probe here (base.joinText configName)) :
    definition base name given other here = definition base name given tree here := by
  cases given with
  | some config => rfl
  | none =>
      have same := seen rfl
      simp only [definition, configured, Config.find?, Tree.hasNode, same]
      cases shown : tree.probe here (base.joinText configName) with
      | error fault => rfl
      | ok found =>
          cases found with
          | none => rfl
          | some node =>
              have reads := Tree.read_of_probe (same.trans shown) shown
              simp only [Except.map, Option.isSome_some, Config.load, Tree.hasNode, shown, same,
                reads, bind, Except.bind]

/-- A bundle that is defined by a file is seen at its path. -/
theorem probe_of_definition {bundle : BundleDefinition}
    (defined : definition base name none tree here = .ok bundle) :
    ∃ node, tree.probe here (base.joinText configName) = .ok (some node) := by
  obtain ⟨config, isConfigured, -⟩ := Outcome.bind_eq_ok.mp defined
  obtain ⟨found, finds, loads⟩ := Outcome.bind_eq_ok.mp isConfigured
  simp only [Config.find?, Tree.hasNode] at finds
  cases shown : tree.probe here (base.joinText configName) with
  | error fault =>
      rw [shown] at finds
      cases finds
  | ok seen =>
      cases seen with
      | some node => exact ⟨node, rfl⟩
      | none =>
          rw [shown] at finds
          cases finds
          cases loads

/-- A definition lasts in a tree that spares its file. -/
theorem definition_of_spares {bundle : BundleDefinition} {locations : List Location}
    (free : tree.IsLinkFree) (spares : tree.Spares other locations)
    (apart : given = none → (base.joinText configName).place here ∉ locations)
    (defined : definition base name given tree here = .ok bundle) :
    definition base name given other here = .ok bundle := by
  rw [← defined]
  refine definition_congr fun isNone => ?_
  rw [isNone] at defined
  obtain ⟨node, seen⟩ := probe_of_definition defined
  have stays := spares.others _ (apart isNone) node
  exact (Tree.probe_of_keeps free spares.free spares.directory stays seen).trans seen.symm

variable (project base name given)

/-- The bundle and its builder. -/
def plan (verbose : Bool) (tree : Tree) (here : Location) :
    Except Failure (BundleDefinition × Builder) := do
  let bundle ← definition base name given tree here
  let builder ← (project.newBuilder base verbose).ofDefinition bundle
  return (bundle, builder)

/-- What the run of a builder gives and leaves after its artifacts are removed. -/
def cleanRun (builder : Builder) (output : String) (tree : Tree) (here : Location) :
    Except Failure BuildResult × Tree :=
  followedBy (cleaned base output) (fun _ => ranNamed name builder output) tree here

/-- The places of the files that a build of the bundle can write. -/
def artifactPlaces (tree : Tree) (here : Location) : List Location :=
  match definition base name given tree here with
  | .error _ => []
  | .ok bundle =>
      match Output.split bundle.output with
      | .error _ => []
      | .ok (folder, file) =>
          (Output.artifactPaths base folder file).map fun path => path.place here

theorem stepsEffect_clean (verbose : Bool) (tree : Tree) (here : Location) :
    project.stepsEffect base name given true verbose tree here =
      match project.plan base name given verbose tree here with
      | .error failure => (.error failure, tree)
      | .ok (bundle, builder) => cleanRun base name builder bundle.output tree here := by
  unfold stepsEffect plan
  cases definition base name given tree here with
  | error failure => rfl
  | ok bundle =>
      simp only [if_true, bind, Except.bind]
      cases (project.newBuilder base verbose).ofDefinition bundle <;> rfl

end Planning

theorem plan_eq_ok {verbose : Bool} {bundle : BundleDefinition} {builder : Builder} :
    project.plan base name given verbose tree here = .ok (bundle, builder) ↔
      definition base name given tree here = .ok bundle ∧
        (project.newBuilder base verbose).ofDefinition bundle = .ok builder := by
  unfold plan
  constructor
  · intro planned
    obtain ⟨_, defined, rest⟩ := Outcome.bind_eq_ok.mp planned
    obtain ⟨_, made, same⟩ := Outcome.bind_eq_ok.mp rest
    cases same
    exact ⟨defined, made⟩
  · rintro ⟨defined, made⟩
    simp only [defined, made, bind, Except.bind, pure, Except.pure]

theorem artifactPlaces_eq {bundle : BundleDefinition} {folder file : String}
    (straight : base.IsStraight) (defined : definition base name given tree here = .ok bundle)
    (named : Output.split bundle.output = .ok (folder, file))
    (level : ".." ∉ Output.segments bundle.output) :
    artifactPlaces base name given tree here =
      (Output.artifactPaths base folder file).map Path.parts := by
  simp only [artifactPlaces, defined, named]
  refine List.map_congr_left fun path member => ?_
  exact (Builder.isStraight_artifact straight named level member).place_eq

section Cleaning

variable {output folder file : String} (sound : tree.IsSound) (free : tree.IsLinkFree)
  (straight : base.IsStraight) (named : Output.split output = .ok (folder, file))
  (level : ".." ∉ Output.segments output)
include sound free straight named level

/-- All files are removed when none of their paths is refused. -/
theorem cleaned_accepted
    (accepted : tree.refusalAmong? here (Output.artifactPaths base folder file) = none) :
    ∃ removed left, cleaned base output tree here = (.ok removed, left) ∧
      tree.HasCleared left ((Output.artifactPaths base folder file).map Path.parts) := by
  obtain ⟨cleared, outcome⟩ := Tree.unlinkAll_spec sound free fun path =>
    Builder.isStraight_artifact straight named level
  rw [accepted] at outcome
  rw [Tree.accepted_eq_self accepted] at cleared
  obtain ⟨removed, gave⟩ := outcome
  refine ⟨removed, _, ?_, cleared⟩
  simp only [cleaned, named, Builder.fileEffect, gave]
  rfl

/-- The files before a refused path are removed, and then it is the failure. -/
theorem cleaned_refused {fault : FileFault}
    (refused : tree.refusalAmong? here (Output.artifactPaths base folder file) = some fault) :
    ∃ left, cleaned base output tree here = (.error (.file fault), left) ∧
      tree.HasCleared left
        ((tree.accepted here (Output.artifactPaths base folder file)).map Path.parts) := by
  obtain ⟨cleared, outcome⟩ := Tree.unlinkAll_spec sound free fun path =>
    Builder.isStraight_artifact straight named level
  rw [refused] at outcome
  refine ⟨_, ?_, cleared⟩
  simp only [cleaned, named, Builder.fileEffect, outcome]
  rfl

end Cleaning

section Running

variable {builder : Builder} {output folder file : String}

theorem ranNamed_of_alike (alike : tree.Alike other) (name : String) (builder : Builder)
    (output : String) (here : Location) :
    Tree.SameOutcome (ranNamed name builder output tree here)
      (ranNamed name builder output other here) := by
  have same : Tree.SameOutcome (ran builder output tree here) (ran builder output other here) := by
    unfold ran
    split
    · exact ⟨rfl, alike⟩
    · exact Builder.assembled_of_alike alike builder _ _ here
  exact ⟨by simp only [ranNamed, same.1], same.2⟩

variable (sound : tree.IsSound) (free : tree.IsLinkFree) (straight : builder.base.IsStraight)
  (named : Output.split output = .ok (folder, file)) (level : ".." ∉ Output.segments output)
include sound free straight named level

/-- Files that are removed have no influence on the run that follows. -/
theorem cleanRun_congr (otherSound : other.IsSound) (otherFree : other.IsLinkFree)
    (differ : tree.DifferInFiles other
      ((Output.artifactPaths builder.base folder file).map Path.parts)) :
    (cleanRun builder.base name builder output other here).1 =
        (cleanRun builder.base name builder output tree here).1 ∧
      ∀ removed, (cleaned builder.base output tree here).1 = .ok removed →
        (cleanRun builder.base name builder output tree here).2.Alike
          (cleanRun builder.base name builder output other here).2 := by
  have same : tree.refusalAmong? here (Output.artifactPaths builder.base folder file) =
      other.refusalAmong? here (Output.artifactPaths builder.base folder file) :=
    Tree.refusalAmong?_congr differ.sameDirectories free otherFree _
  unfold cleanRun followedBy
  cases refused : tree.refusalAmong? here (Output.artifactPaths builder.base folder file) with
  | some fault =>
      obtain ⟨left, cleans, -⟩ := cleaned_refused sound free straight named level refused
      obtain ⟨otherLeft, otherCleans, -⟩ := cleaned_refused otherSound otherFree straight named
        level (same.symm.trans refused)
      rw [cleans, otherCleans]
      refine ⟨rfl, fun removed impossible => ?_⟩
      cases impossible
  | none =>
      obtain ⟨removed, left, cleans, cleared⟩ :=
        cleaned_accepted sound free straight named level refused
      obtain ⟨others, otherLeft, otherCleans, otherCleared⟩ := cleaned_accepted otherSound
        otherFree straight named level (same.symm.trans refused)
      rw [cleans, otherCleans]
      have runs := ranNamed_of_alike (differ.alike cleared otherCleared) name builder output here
      exact ⟨runs.1.symm, fun _ _ => runs.2⟩

variable (home : tree.get? here = some .directory) (clean : Tree.holdsNull builder.base = false)
include home clean

/-- Once its files are removed, what a run has left gives and leaves the same again. -/
theorem ran_again (repeatable : builder.IsRepeatable tree here folder file)
    (accepted : tree.refusalAmong? here (Output.artifactPaths builder.base folder file) = none)
    (noFiles : ∀ location ∈ (Output.artifactPaths builder.base folder file).map Path.parts,
      Tree.withoutFile (tree.get? location) = tree.get? location) :
    tree.GrowsTo (ran builder output tree here).2
        ((builder.base.joinText folder).entered here)
        ((Output.artifactPaths builder.base folder file).map Path.parts) ∧
      (ran builder output tree here).2.refusalAmong? here
        (Output.artifactPaths builder.base folder file) = none ∧
      ∀ last, (ran builder output tree here).2.HasCleared last
          ((Output.artifactPaths builder.base folder file).map Path.parts) →
        Tree.SameOutcome (ran builder output last here) (ran builder output tree here) := by
  unfold ran
  cases checked : builder.checkBuild output with
  | error failure =>
      have growth := Tree.GrowsTo.refl sound free ((builder.base.joinText folder).entered here)
      refine ⟨growth.overwritten (.refl sound free _), accepted, fun last cleared => ⟨rfl, ?_⟩⟩
      exact (Tree.Overwrites.refl sound free _).alike_of_cleared free cleared noFiles
  | ok place =>
      obtain rfl : place = (folder, file) :=
        Except.ok.inj ((Builder.checkBuild_eq_ok.mp checked).2.2.symm.trans named)
      exact Builder.assembled_again sound free home clean straight named level repeatable accepted
        noFiles

/-- A clean run spares all other files, and it gives and leaves the same when it is made again. -/
theorem cleanRun_again
    (repeatable : builder.IsRepeatable (cleaned builder.base output tree here).2 here folder file) :
    let once := cleanRun builder.base name builder output tree here
    tree.Spares once.2 ((Output.artifactPaths builder.base folder file).map Path.parts) ∧
      Tree.SameOutcome (cleanRun builder.base name builder output once.2 here) once := by
  intro once
  cases refused : tree.refusalAmong? here (Output.artifactPaths builder.base folder file) with
  | some fault =>
      obtain ⟨left, cleans, cleared⟩ := cleaned_refused sound free straight named level refused
      have isOnce : once = (.error (.file fault), left) := by
        simp only [once, cleanRun, followedBy, cleans]
      have leftFree := cleared.isLinkFree free
      rw [Tree.refusalAmong?_congr cleared.sameDirectories free leftFree] at refused
      obtain ⟨last, cleansAgain, again⟩ :=
        cleaned_refused (cleared.isSound sound) leftFree straight named level refused
      rw [← Tree.accepted_congr cleared.sameDirectories free leftFree] at again
      rw [isOnce]
      constructor
      · refine (cleared.spares free).mono fun location isOne => ?_
        exact List.map_subset _ (List.takeWhile_subset _) isOne
      · simp only [cleanRun, followedBy, cleansAgain]
        exact ⟨rfl, cleared.again again⟩
  | none =>
      obtain ⟨removed, left, cleans, cleared⟩ :=
        cleaned_accepted sound free straight named level refused
      have isOnce : once = ranNamed name builder output left here := by
        simp only [once, cleanRun, followedBy, cleans]
      have leftFree := cleared.isLinkFree free
      have leftSound := cleared.isSound sound
      rw [cleans] at repeatable
      rw [Tree.refusalAmong?_congr cleared.sameDirectories free leftFree] at refused
      have noFiles : ∀ location ∈
          (Output.artifactPaths builder.base folder file).map Path.parts,
          Tree.withoutFile (left.get? location) = left.get? location := by
        intro location isPlace
        rw [cleared, if_pos isPlace, Tree.withoutFile_withoutFile]
      obtain ⟨growth, accepted, again⟩ := ran_again leftSound leftFree straight named level
        ((cleared.sameDirectories here).mp home) clean repeatable refused noFiles
      rw [isOnce]
      refine ⟨(cleared.spares free).trans growth.spares, ?_⟩
      obtain ⟨removedAgain, last, cleansAgain, clearedAgain⟩ := cleaned_accepted
        growth.grownSound growth.grownFree straight named level accepted
      have same := again last clearedAgain
      simp only [cleanRun, followedBy, ranNamed, cleansAgain]
      exact ⟨by rw [same.1], same.2⟩

end Running

section Stepping

variable (sound : tree.IsSound) (free : tree.IsLinkFree) (straight : base.IsStraight)
  (level : ∀ bundle, definition base name given tree here = .ok bundle →
    ".." ∉ Output.segments bundle.output)
  (apart : given = none → (base.joinText configName).place here ∉
    artifactPlaces base name given tree here)
include sound free straight level apart

theorem stepsEffect_congr (otherSound : other.IsSound) (otherFree : other.IsLinkFree)
    (differ : tree.DifferInFiles other (artifactPlaces base name given tree here))
    (verbose : Bool) :
    (project.stepsEffect base name given true verbose other here).1 =
        (project.stepsEffect base name given true verbose tree here).1 ∧
      ∀ bundle builder removed,
        project.plan base name given verbose tree here = .ok (bundle, builder) →
          (cleaned base bundle.output tree here).1 = .ok removed →
            (project.stepsEffect base name given true verbose tree here).2.Alike
              (project.stepsEffect base name given true verbose other here).2 := by
  have sameDefinition : definition base name given other here =
      definition base name given tree here := by
    refine definition_congr fun isNone => ?_
    have here := (differ _).resolve_right fun isOne => apart isNone isOne.1
    exact (Tree.probe_congr free otherFree differ.sameDirectories here).symm
  have samePlan : project.plan base name given verbose other here =
      project.plan base name given verbose tree here := by
    rw [plan, plan, sameDefinition]
  rw [stepsEffect_clean, stepsEffect_clean, samePlan]
  rcases planned : project.plan base name given verbose tree here with failure | ⟨bundle, builder⟩
  · refine ⟨rfl, fun _ _ _ impossible => ?_⟩
    cases impossible
  · obtain ⟨defined, made⟩ := plan_eq_ok.mp planned
    obtain rfl : builder.base = base := Builder.base_of_definition made
    rcases named : Output.split bundle.output with failure | ⟨folder, file⟩
    · simp only [cleanRun, followedBy, cleaned, named]
      refine ⟨trivial, fun _ _ removed same gave => ?_⟩
      cases same
      rw [named] at gave
      cases gave
    · rw [artifactPlaces_eq straight defined named (level bundle defined)] at differ
      obtain ⟨gives, leaves⟩ :=
        cleanRun_congr sound free straight named (level bundle defined) otherSound otherFree differ
      refine ⟨gives, fun _ _ removed same gave => ?_⟩
      cases same
      exact leaves removed gave

theorem stepsEffect_again (home : tree.get? here = some .directory)
    (clean : Tree.holdsNull base = false) {verbose : Bool}
    (repeatable : ∀ bundle builder folder file,
      project.plan base name given verbose tree here = .ok (bundle, builder) →
        Output.split bundle.output = .ok (folder, file) →
          builder.IsRepeatable (cleaned base bundle.output tree here).2 here folder file) :
    let once := project.stepsEffect base name given true verbose tree here
    Tree.SameOutcome (project.stepsEffect base name given true verbose once.2 here) once := by
  intro once
  have unchanged (same : once.2 = tree) :
      Tree.SameOutcome (project.stepsEffect base name given true verbose once.2 here) once := by
    rw [same]
    exact ⟨rfl, .refl _⟩
  have isOnce := project.stepsEffect_clean base name given verbose tree here
  rcases planned : project.plan base name given verbose tree here with failure | ⟨bundle, builder⟩
  · rw [planned] at isOnce
    exact unchanged (congrArg Prod.snd isOnce)
  · rw [planned] at isOnce
    obtain ⟨defined, made⟩ := plan_eq_ok.mp planned
    obtain rfl : builder.base = base := Builder.base_of_definition made
    rcases named : Output.split bundle.output with failure | ⟨folder, file⟩
    · refine unchanged ((congrArg Prod.snd isOnce).trans ?_)
      simp only [cleanRun, followedBy, cleaned, named]
    · have isLevel := level bundle defined
      obtain ⟨spares, again⟩ := cleanRun_again sound free straight named isLevel home clean
        (repeatable bundle builder folder file planned named)
      rw [artifactPlaces_eq straight defined named isLevel] at apart
      have definedAgain := definition_of_spares free spares apart defined
      have plannedAgain := plan_eq_ok.mpr ⟨definedAgain, made⟩
      simp only [once, isOnce]
      rw [stepsEffect_clean, plannedAgain]
      exact again

end Stepping

section Building

variable (project : Project) (base : Path) (name : String) (given : Option Config)

/-- The cleaning step is reached, and it removes what it has to. -/
def CleansUp (verbose : Bool) (workspace : Workspace) : Prop :=
  ∃ bundle builder removed,
    project.plan base name given verbose workspace.tree workspace.directory =
        .ok (bundle, builder) ∧
      ((clean base bundle.output).run workspace).1 = .ok removed

/-- A build of the bundle can be repeated from what the cleaning step leaves. -/
def CanRepeat (verbose : Bool) (workspace : Workspace) : Prop :=
  ∀ bundle builder folder file,
    project.plan base name given verbose workspace.tree workspace.directory =
        .ok (bundle, builder) →
      Output.split bundle.output = .ok (folder, file) →
        builder.IsRepeatable ((clean base bundle.output).run workspace).2.tree
          workspace.directory folder file

end Building

/-- A clean build gives the same whatever stands at the places of its files. Once these are removed
it also leaves the same, and a second clean build reproduces the first one if it can be repeated. -/
theorem clean_build {project : Project} {directory base : Path} {name : String}
    {given : Option Config} {verbose : Option Bool} {workspace other : Workspace}
    (sound : workspace.tree.IsSound) (free : workspace.tree.IsLinkFree)
    (otherSound : other.tree.IsSound) (otherFree : other.tree.IsLinkFree)
    (sameHome : other.directory = workspace.directory)
    (home : workspace.tree.get? workspace.directory = some .directory)
    (clean : Tree.holdsNull directory = false) (based : base = root directory workspace.directory)
    (level : ∀ bundle,
      definition base name given workspace.tree workspace.directory = .ok bundle →
        ".." ∉ Output.segments bundle.output)
    (apart : given = none → (base.joinText configName).place workspace.directory ∉
      artifactPlaces base name given workspace.tree workspace.directory)
    (differ : workspace.tree.DifferInFiles other.tree
      (artifactPlaces base name given workspace.tree workspace.directory)) :
    let build := project.buildBundle directory name true verbose given
    let first := build.run workspace
    (build.run other).1 = first.1 ∧
      (project.CleansUp base name given (verbose.getD project.verbose) workspace →
        (build.run other).2.tree.Alike first.2.tree) ∧
      (project.CanRepeat base name given (verbose.getD project.verbose) workspace →
        (build.run first.2).1 = first.1 ∧ (build.run first.2).2.tree.Alike first.2.tree) := by
  dsimp only
  have straight : base.IsStraight := based ▸ Path.isStraight_absolute sound home clean
  have cleanBase : Tree.holdsNull base = false :=
    based ▸ Path.holdsNull_normalize (Path.isAbsolute_join _ _ rfl)
  have performed := performs_buildBundle project directory name given true verbose
  obtain ⟨gave, left, stayed⟩ := performed.run_eq workspace
  obtain ⟨otherGave, otherLeft, -⟩ := performed.run_eq other
  obtain ⟨nextGave, nextLeft, -⟩ :=
    performed.run_eq ((project.buildBundle directory name true verbose given).run workspace).2
  obtain ⟨gives, leaves⟩ := stepsEffect_congr sound free straight level apart otherSound otherFree
    differ (verbose.getD project.verbose)
  rw [sameHome] at otherGave otherLeft
  simp only [bundleEffect, ← based] at gave left otherGave otherLeft
  refine ⟨?_, ?_, ?_⟩
  · rw [gave, otherGave, gives]
  · rintro ⟨bundle, builder, removed, planned, cleans⟩
    rw [((performs_clean base bundle.output).run_eq workspace).1] at cleans
    rw [left, otherLeft]
    exact (leaves bundle builder removed planned cleans).symm
  · intro repeatable
    rw [stayed, left] at nextGave nextLeft
    simp only [bundleEffect, ← based] at nextGave nextLeft
    obtain ⟨again, leavesAgain⟩ := stepsEffect_again sound free straight level apart home cleanBase
      fun bundle builder folder file planned named => by
        rw [← ((performs_clean base bundle.output).run_eq workspace).2.1]
        exact repeatable bundle builder folder file planned named
    rw [gave, nextGave, left, nextLeft, again]
    exact ⟨rfl, leavesAgain⟩

section Climbing

/-- The second pattern of the source climbs out of the destination again. -/
def climbingConfig : Config where
  document := {
    sections := [
      ("bundle:app", [("output", some "out/app.css"), ("sources", some "main")]),
      ("source:main", [("dialect", some "css"), ("files", some "b.css, out/../a.*")])] }

def climbingBuild : Action BuildResult :=
  sample.buildBundle ⟨.here, []⟩ "app" true none (some climbingConfig)

def climbingEffect (tree : Tree) : Except Failure BuildResult × Tree :=
  sample.bundleEffect ⟨.here, []⟩ "app" (some climbingConfig) true none tree ["p"]

def climbingWorkspace : Workspace where
  tree := ⟨[(["p"], .directory), (["p", "a.css"], .file [120]), (["p", "b.css"], .file [121])]⟩
  directory := ["p"]

/-- What the first build leaves. -/
def climbedTree : Tree :=
  ⟨[(["p"], .directory), (["p", "a.css"], .file [120]), (["p", "b.css"], .file [121]),
    (["p", "out"], .directory), (["p", "out", "app.css"], .file [121])]⟩

theorem climbingEffect_once :
    (climbingEffect climbingWorkspace.tree).1.toOption.map BuildResult.sources =
      some [⟨.root, ["p", "b.css"]⟩] := by decide +kernel

theorem climbingEffect_leaves :
    (climbingEffect climbingWorkspace.tree).2 = climbedTree := by decide +kernel

theorem climbingEffect_twice :
    (climbingEffect climbedTree).1.toOption.map BuildResult.sources =
      some [⟨.root, ["p", "b.css"]⟩, ⟨.root, ["p", "a.css"]⟩] := by decide +kernel

theorem climbing_plan {tree : Tree} {bundle : BundleDefinition} {builder : Builder}
    (planned : sample.plan ⟨.root, ["p"]⟩ "app" (some climbingConfig) false tree ["p"] =
      .ok (bundle, builder)) :
    bundle.output = "out/app.css" ∧ builder.base = ⟨.root, ["p"]⟩ ∧
      builder.compilers.map Compiler.patterns = [["b.css", "out/../a.*"]] := by
  have unread : sample.plan ⟨.root, ["p"]⟩ "app" (some climbingConfig) false {} ["p"] =
      .ok (bundle, builder) := planned
  have shown : (sample.plan ⟨.root, ["p"]⟩ "app" (some climbingConfig) false {}
      ["p"]).toOption.map
      (fun pair => (pair.1.output, pair.2.base, pair.2.compilers.map Compiler.patterns)) =
        some ("out/app.css", ⟨.root, ["p"]⟩, [["b.css", "out/../a.*"]]) := by decide +kernel
  rw [unread] at shown
  simpa [Except.toOption] using shown

/-- The destination stands, and a file of an earlier build may stand in it. -/
def climbableWorkspace : Workspace where
  tree := ⟨[(["p"], .directory), (["p", "a.css"], .file [120]), (["p", "b.css"], .file [121]),
    (["p", "out"], .directory)]⟩
  directory := ["p"]

example : (climbingEffect climbableWorkspace.tree).1.toOption.map BuildResult.sources =
    some [⟨.root, ["p", "b.css"]⟩, ⟨.root, ["p", "a.css"]⟩] := by decide +kernel

theorem climbing_cleansUp :
    sample.CleansUp ⟨.root, ["p"]⟩ "app" (some climbingConfig) false climbableWorkspace := by
  rcases planned : sample.plan ⟨.root, ["p"]⟩ "app" (some climbingConfig) false
    climbableWorkspace.tree ["p"] with failure | ⟨bundle, builder⟩
  · have accepted : (sample.plan ⟨.root, ["p"]⟩ "app" (some climbingConfig) false
        climbableWorkspace.tree ["p"]).toOption.isSome = true := by decide +kernel
    rw [planned] at accepted
    cases accepted
  · refine ⟨bundle, builder, [], planned, ?_⟩
    rw [(climbing_plan planned).1, ((performs_clean _ _).run_eq climbableWorkspace).1]
    rfl

theorem climbing_canRepeat :
    sample.CanRepeat ⟨.root, ["p"]⟩ "app" (some climbingConfig) false climbableWorkspace := by
  intro bundle builder folder file planned named
  obtain ⟨output, based, patterns⟩ := climbing_plan planned
  have place : Output.split "out/app.css" = .ok ("out", "app.css") := by decide +kernel
  rw [output, place] at named
  cases named
  rw [output, ((performs_clean _ _).run_eq climbableWorkspace).2.1]
  have isOne : ∀ compiler ∈ builder.compilers, compiler.patterns = ["b.css", "out/../a.*"] :=
    fun compiler member => List.mem_singleton.mp (patterns ▸ List.mem_map_of_mem member)
  refine ⟨fun missing => absurd ?_ missing, fun compiler member pattern isPattern => ?_, ?_⟩
  · rw [based]
    decide +kernel
  · have short : ∀ pattern ∈ ["b.css", "out/../a.*"],
        ∀ name ∈ (Selection.literalPath (Path.absolute ⟨.root, ["p"]⟩ ⟨.root, ["p"]⟩)
          pattern).parts, ¬ Tree.nameLimit < Utf8.size name := by decide +kernel
    rw [isOne compiler member] at isPattern
    rw [Builder.sourceBase, based]
    exact Tree.fits_of_short (short pattern isPattern)
  · have short : ∀ path ∈ Output.artifactPaths ⟨.root, ["p"]⟩ "out" "app.css",
        ∀ name ∈ path.parts, ¬ Tree.nameLimit < Utf8.size name := by decide +kernel
    rw [based]
    exact fun path isArtifact => Tree.fits_of_short (short path isArtifact)

theorem clean_build_sample :
    let fresh := climbableWorkspace
    let stale : Workspace :=
      { fresh with tree := fresh.tree.set ["p", "out", "app.css.gz"] (.file [1]) }
    (climbingBuild.run stale).1 = (climbingBuild.run fresh).1 ∧
      (climbingBuild.run stale).2.tree.Alike (climbingBuild.run fresh).2.tree ∧
      (climbingBuild.run (climbingBuild.run fresh).2).1 = (climbingBuild.run fresh).1 ∧
      (climbingBuild.run (climbingBuild.run fresh).2).2.tree.Alike
        (climbingBuild.run fresh).2.tree := by
  intro fresh stale
  have sound : fresh.tree.IsSound := Tree.sound_of_nodes (by decide +kernel)
  have free : fresh.tree.IsLinkFree := Tree.isLinkFree_of_nodes (by decide +kernel)
  have staleSound : stale.tree.IsSound := Tree.sound_of_nodes (by decide +kernel)
  have staleFree : stale.tree.IsLinkFree := Tree.isLinkFree_of_nodes (by decide +kernel)
  have level : ∀ bundle, definition ⟨.root, ["p"]⟩ "app" (some climbingConfig) fresh.tree ["p"] =
      .ok bundle → ".." ∉ Output.segments bundle.output := by
    intro bundle defined
    have unread : definition ⟨.root, ["p"]⟩ "app" (some climbingConfig) {} ["p"] = .ok bundle :=
      defined
    have shown : (definition ⟨.root, ["p"]⟩ "app" (some climbingConfig) {} ["p"]).toOption.map
        BundleDefinition.output = some "out/app.css" := by decide +kernel
    rw [unread] at shown
    rw [Option.some.inj shown]
    decide +kernel
  have places : artifactPlaces ⟨.root, ["p"]⟩ "app" (some climbingConfig) fresh.tree ["p"] =
      [["p", "out", "app.css"], ["p", "out", "app.css.map"], ["p", "out", "app.css.gz"]] := by
    decide +kernel
  have differ : fresh.tree.DifferInFiles stale.tree
      (artifactPlaces ⟨.root, ["p"]⟩ "app" (some climbingConfig) fresh.tree ["p"]) := by
    rw [places]
    exact Tree.differInFiles_set (by decide +kernel) (by decide +kernel) (by decide +kernel)
  obtain ⟨gives, leaves, again⟩ := @clean_build sample ⟨.here, []⟩ ⟨.root, ["p"]⟩ "app"
    (some climbingConfig) none fresh stale sound free staleSound staleFree rfl rfl
    (by decide +kernel) (by decide +kernel) level (fun isNone => by cases isNone) differ
  exact ⟨gives, leaves climbing_cleansUp, again climbing_canRepeat⟩

/-- A pattern with a step up out of the destination finds more when it is there. -/
theorem clean_build_differs :
    climbingWorkspace.tree.IsSound ∧ climbingWorkspace.tree.IsLinkFree ∧
      ".." ∉ Output.segments "out/app.css" ∧
      (climbingBuild.run climbingWorkspace).1.toOption.map BuildResult.sources =
        some [⟨.root, ["p", "b.css"]⟩] ∧
      (climbingBuild.run (climbingBuild.run climbingWorkspace).2).1.toOption.map
          BuildResult.sources =
        some [⟨.root, ["p", "b.css"]⟩, ⟨.root, ["p", "a.css"]⟩] := by
  have performed : Performs climbingBuild fun tree here =>
      sample.bundleEffect ⟨.here, []⟩ "app" (some climbingConfig) true none tree here :=
    performs_buildBundle sample ⟨.here, []⟩ "app" (some climbingConfig) true none
  obtain ⟨gave, left, stayed⟩ := performed.run_eq climbingWorkspace
  obtain ⟨nextGave, -, -⟩ := performed.run_eq (climbingBuild.run climbingWorkspace).2
  have leftTree : (climbingBuild.run climbingWorkspace).2.tree = climbedTree :=
    left.trans climbingEffect_leaves
  rw [leftTree, stayed] at nextGave
  refine ⟨Tree.sound_of_nodes (by decide +kernel), Tree.isLinkFree_of_nodes (by decide +kernel),
    by decide +kernel, ?_, ?_⟩
  · rw [gave]
    exact climbingEffect_once
  · rw [nextGave]
    exact climbingEffect_twice

end Climbing

end Project

end AssetBundler

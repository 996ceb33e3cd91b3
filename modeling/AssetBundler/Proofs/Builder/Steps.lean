import AssetBundler.Proofs.Action.Steps
import AssetBundler.Proofs.Builder.Effect
import AssetBundler.Proofs.Compiler.Pulling

/-!
The steps of a compilation: for each compiler the expansion of its patterns, and then for each file
its reading, its transform and its finish. A build fails with the first step that fails, and behind
that step it calls nothing.
-/

namespace AssetBundler

open AssetBundler.Action Outcome

theorem Action.run_call (name : String) (capability : Capability) (contents subject : String)
    (options : Options) (workspace : Workspace) :
    run (Action.call name capability contents subject options) workspace =
      ((capability contents subject options).mapError Failure.capability,
        { workspace with events := .called name subject :: workspace.events }) := by
  rw [Action.call, run_bind, run_record]
  cases capability contents subject options <;> rfl

/-- An action that calls one capability first is a single step. -/
theorem Action.Takes.calling {Value : Type} {action : Action Value}
    {outcome : Tree → Location → Except Failure Value} {name subject : String}
    (calls : ∀ workspace, run action workspace =
      (outcome workspace.tree workspace.directory,
        { workspace with events := .called name subject :: workspace.events })) :
    Takes action outcome fun tree here =>
      [⟨some (name, subject), failure? (outcome tree here)⟩] := by
  intro workspace
  refine ⟨?_, [.called name subject], ?_, calls workspace⟩
  · simp only [Step.firstFailure?]
    cases failure? (outcome workspace.tree workspace.directory) <;> rfl
  · dsimp only
    cases failure? (outcome workspace.tree workspace.directory) <;> rfl

namespace Compiler

variable (compiler : Compiler) (registry : Registry Capability)

def transformCall? (source : SourceFile) : Option NamedCall :=
  compiler.dialect.capability?.map fun name => (name, source.path.toString)

def finishCall? (source : SourceFile) : Option NamedCall :=
  match compiler.kind with
  | .script =>
      if compiler.scope = "" then none else some ("commonjs", compiler.moduleId source)
  | .style => if compiler.prefixing then some ("autoprefixer", source.path.toString) else none
  | .plain => none

/-- A file that cannot be transformed is not finished. -/
def transformSteps (source : SourceFile) : List Step :=
  ⟨compiler.transformCall? source, failure? (compiler.transformed registry source)⟩ ::
    match compiler.transformed registry source with
    | .error _ => []
    | .ok changed =>
        [⟨compiler.finishCall? changed, failure? (compiler.finished registry changed)⟩]

/-- The steps of one file. A file that cannot be read is not transformed. -/
def partSteps (tree : Tree) (base path : Path) : List Step :=
  ⟨none, failure? (Selection.read tree base path)⟩ ::
    match Selection.read tree base path with
    | .error _ => []
    | .ok source => compiler.transformSteps registry source

/-- The steps of one compiler. Without its files it has no more than the expansion of its
patterns. -/
def steps (tree : Tree) (base : Path) : List Step :=
  ⟨none, failure? (Selection.expand tree base compiler.patterns)⟩ ::
    match Selection.expand tree base compiler.patterns with
    | .error _ => []
    | .ok paths => paths.flatMap (compiler.partSteps registry tree base)

variable {compiler registry} {transform post : Option (String × Capability)}

theorem applied_of_registered {name : String} {capability : Capability}
    (registered : lookUp registry name = .ok capability) (contents subject : String)
    (options : Options) :
    applied registry name contents subject options =
      (capability contents subject options).mapError Failure.capability := by
  rw [applied, registered]
  rfl

theorem takes_transformSource (found : compiler.findTransform (lookUp registry) = .ok transform)
    (source : SourceFile) :
    Takes (PreparedCompiler.transformSource ⟨compiler, transform, post⟩ source)
      (fun _ _ => compiler.transformed registry source)
      fun _ _ =>
        [⟨compiler.transformCall? source, failure? (compiler.transformed registry source)⟩] := by
  cases named : compiler.dialect.capability? with
  | none =>
      simp only [findTransform, named] at found
      cases found
      simp only [transformed, transformCall?, named]
      exact Takes.single (Observes.pure source)
  | some name =>
      simp only [findTransform, named] at found
      obtain ⟨capability, registered, same⟩ := bind_eq_ok.mp found
      cases same
      simp only [transformCall?, named, Option.map_some]
      refine Takes.calling fun workspace => ?_
      simp only [PreparedCompiler.transformSource, transformed, named,
        applied_of_registered registered, run_bind,
        run_call, SourceFile.withSuffix, SourceFile.withContents]
      cases capability source.contents source.path.toString compiler.transformOptions with
      | error fault => rfl
      | ok text => cases source.path.withSuffix compiler.dialect.outputExtension <;> rfl

theorem takes_postProcess (found : compiler.findPost (lookUp registry) = .ok post)
    (source : SourceFile) :
    Takes (PreparedCompiler.postProcess ⟨compiler, transform, post⟩ source)
      (fun _ _ => compiler.finished registry source)
      fun _ _ =>
        [⟨compiler.finishCall? source, failure? (compiler.finished registry source)⟩] := by
  have silent (plain : compiler.finished registry source = .ok source)
      (calls : compiler.finishCall? source = none) (nothing : post = none) :
      Takes (PreparedCompiler.postProcess ⟨compiler, transform, post⟩ source)
        (fun _ _ => compiler.finished registry source)
        fun _ _ =>
          [⟨compiler.finishCall? source, failure? (compiler.finished registry source)⟩] := by
    rw [plain, calls, nothing]
    exact Takes.single (Observes.pure source)
  cases family : compiler.kind with
  | script =>
      by_cases bare : compiler.scope = ""
      · simp only [findPost, family, bare, if_true] at found
        cases found
        exact silent (by simp only [finished, family, bare, if_true])
          (by simp only [finishCall?, family, bare, if_true]) rfl
      · simp only [findPost, family, bare, if_false] at found
        obtain ⟨capability, registered, same⟩ := bind_eq_ok.mp found
        cases same
        simp only [finishCall?, family, bare, if_false]
        refine Takes.calling fun workspace => ?_
        simp only [PreparedCompiler.postProcess, finished, family, bare, if_true, if_false,
          applied_of_registered registered, run_bind, run_call, moduleId]
        cases capability source.contents (ModuleId.ofPath source.origin.toString
          compiler.table.entries compiler.scope) compiler.wrapOptions <;> rfl
  | style =>
      cases prefixed : compiler.prefixing with
      | false =>
          simp only [findPost, family, prefixed, Bool.false_eq_true, if_false] at found
          cases found
          exact silent (by simp only [finished, family, prefixed, Bool.false_eq_true, if_false])
            (by simp only [finishCall?, family, prefixed, Bool.false_eq_true, if_false]) rfl
      | true =>
          simp only [findPost, family, prefixed, if_true] at found
          obtain ⟨capability, registered, same⟩ := bind_eq_ok.mp found
          cases same
          simp only [finishCall?, family, prefixed, if_true]
          refine Takes.calling fun workspace => ?_
          simp only [PreparedCompiler.postProcess, finished, family, prefixed, reduceCtorEq,
            if_true, if_false, applied_of_registered registered, run_bind, run_call]
          cases capability source.contents source.path.toString compiler.prefixOptions <;> rfl
  | plain =>
      simp only [findPost, family] at found
      cases found
      exact silent (by simp only [finished, family]) (by simp only [finishCall?, family]) rfl

theorem observes_printWhen_silent (condition : Bool) (text : String) :
    Observes Event.IsSilent (Action.printWhen condition text) fun _ _ => .ok () := by
  cases condition with
  | false => exact Observes.pure ()
  | true => exact Observes.record rfl

theorem takes_compile {prepared : PreparedCompiler}
    (ready : compiler.prepare registry = .ok prepared) (base path : Path) :
    Takes (prepared.compile base path) (fun tree _ => compiler.part registry tree base path)
      fun tree _ => compiler.partSteps registry tree base path := by
  obtain ⟨transform, post, transformFound, postFound, rfl⟩ := prepare_eq_ok ready
  have reads : Takes (Action.readSource base path) (fun tree _ => Selection.read tree base path)
      fun tree _ => [⟨none, failure? (Selection.read tree base path)⟩] := by
    refine Takes.single fun workspace => ⟨[.read path], by simp [Event.IsSilent, Event.call?], ?_⟩
    simp [Action.readSource, run_bind]
  have changes (source : SourceFile) :
      Takes
        (do
          let source ← PreparedCompiler.transformSource ⟨compiler, transform, post⟩ source
          let source ← PreparedCompiler.postProcess ⟨compiler, transform, post⟩ source
          Action.printWhen compiler.verbose ("+ " ++ source.relative)
          return source)
        (fun _ _ => do
          let source ← compiler.transformed registry source
          compiler.finished registry source)
        fun _ _ => compiler.transformSteps registry source := by
    refine Takes.bind_single (takes_transformSource transformFound source) (fun changed =>
      Takes.echo (takes_postProcess postFound changed) fun finished => Observes.after
        (observes_printWhen_silent _ _) (Observes.pure finished)) ?_
    intro tree here changed transforms
    rw [transforms]
  refine Takes.bind_single reads changes ?_
  intro tree here source gave
  rw [gave]

theorem takes_compileAll {prepared : PreparedCompiler}
    (ready : compiler.prepare registry = .ok prepared) (base : Path) :
    Takes (prepared.compileAll base) (fun tree _ => compiler.parts registry tree base)
      fun tree _ => compiler.steps registry tree base := by
  have compile := takes_compile ready base
  obtain ⟨transform, post, -, -, rfl⟩ := prepare_eq_ok ready
  have expands : Takes (Action.expand base compiler.patterns)
      (fun tree _ => Selection.expand tree base compiler.patterns)
      fun tree _ => [⟨none, failure? (Selection.expand tree base compiler.patterns)⟩] := by
    refine Takes.single fun workspace => ⟨[], by simp, ?_⟩
    simp [Action.expand, run_bind]
  refine Takes.bind_single expands (fun paths => Takes.mapM compile paths) ?_
  intro tree here paths gave
  rw [gave]

end Compiler

namespace Stream

theorem takes_eagerly {registry : Registry Capability} {compilers : List Compiler}
    {prepared : List PreparedCompiler}
    (ready : (compilers.mapM fun compiler => compiler.prepare registry) = .ok prepared)
    (base : Path) :
    Takes (eagerly base prepared)
      (fun tree _ => do
        let parts ← compilers.mapM fun compiler => compiler.parts registry tree base
        return parts.flatten)
      fun tree _ => compilers.flatMap fun compiler => compiler.steps registry tree base := by
  have each := (mapM_eq_ok.mp ready).imp fun _ _ ready => Compiler.takes_compileAll ready base
  refine Takes.congr (Takes.bind (Takes.mapM_related each)
    (fun parts => Takes.idle (Observes.pure parts.flatten)) fun _ _ _ _ => rfl) fun tree here => ?_
  rw [List.append_nil]

end Stream

namespace Builder

/-- The steps of a compilation, compiler by compiler. -/
def steps (builder : Builder) (tree : Tree) (base : Path) : List Step :=
  builder.compilers.flatMap fun compiler => compiler.steps builder.registry tree base

theorem steps_freeze (builder : Builder) : builder.freeze.steps = builder.steps := by
  funext tree base
  simp only [steps, freeze, List.flatMap_map]
  rfl

/-- A builder that lacks nothing compiles its sources like the loop over its compilers. -/
theorem run_compileSources {builder : Builder} {prepared : List PreparedCompiler}
    (equipped : ∀ needed ∈ builder.neededCapabilities, builder.registry.has needed = true)
    (ready : (builder.compilers.mapM fun compiler => compiler.prepare builder.registry) =
      .ok prepared) (workspace : Workspace) :
    ∃ notices : List Event, (∀ event ∈ notices, event.IsSilent) ∧
      run builder.compileSources workspace =
        run (Stream.eagerly (builder.sourceBase workspace.directory) prepared)
          { workspace with events := notices ++ workspace.events } := by
  obtain ⟨notices, allowed, checked⟩ := observes_checkNeeded builder workspace
  rw [Registry.demand_eq_ok_iff.mpr equipped] at checked
  have silent : ∀ event ∈ notices, event.IsSilent := by
    intro event member
    obtain ⟨message, rfl⟩ := allowed event member
    rfl
  rw [compileSources_eq, run_bind, checked]
  dsimp only
  rw [compilePrepared, ready, run_bind, run_ofExcept]
  dsimp only
  rw [run_absolute_bind, ← Stream.drain_eq_eagerly, sourceBase]
  cases builder.showsProgress with
  | false => exact ⟨notices, silent, rfl⟩
  | true =>
      refine ⟨.progress :: notices, ?_, ?_⟩
      · exact List.forall_mem_cons.mpr ⟨rfl, silent⟩
      · rw [if_pos rfl, run_bind, run_record]
        rfl

theorem callsOf_silent {events : List Event} (silent : ∀ event ∈ events, event.IsSilent) :
    callsOf events = [] := by
  rw [callsOf, List.filterMap_eq_nil_iff]
  exact fun event member => silent event (List.mem_reverse.mp member)

/-- A build that passes its checks takes the steps of its compilation up to the first one that
fails, which is then the failure of the build. -/
theorem build_steps {builder : Builder} {output folder name : String}
    (accepted : builder.checkBuild output = .ok (folder, name))
    (equipped : ∀ needed ∈ builder.neededCapabilities, builder.registry.has needed = true)
    (workspace : Workspace) :
    ∃ events, (builder.build output workspace).2.2.events = events ++ workspace.events ∧
      (∀ failure, Step.firstFailure? (builder.steps workspace.tree
          (builder.sourceBase workspace.directory)) = some failure →
        (builder.build output workspace).1 = .error failure ∧
          callsOf events = Step.calls (builder.steps workspace.tree
            (builder.sourceBase workspace.directory))) ∧
      (Step.firstFailure? (builder.steps workspace.tree
          (builder.sourceBase workspace.directory)) = none →
        (∃ sources, (builder.freeze.compileSources.run workspace).1 = .ok sources) ∧
          Step.calls (builder.steps workspace.tree (builder.sourceBase workspace.directory)) <+:
            callsOf events) := by
  have clean := Output.slash_not_mem_of_split (checkBuild_eq_ok.mp accepted).2.2
  have equippedFrozen : ∀ needed ∈ builder.freeze.neededCapabilities,
      builder.freeze.registry.has needed = true := by
    rw [neededCapabilities_freeze]
    exact equipped
  obtain ⟨prepared, ready⟩ := exists_prepared builder.freeze equippedFrozen
  obtain ⟨notices, silent, compiled⟩ := run_compileSources equippedFrozen ready workspace
  have taken : Takes (Stream.eagerly (builder.sourceBase workspace.directory) prepared)
      (fun tree _ => builder.freeze.parts tree (builder.sourceBase workspace.directory))
      fun tree _ => builder.freeze.steps tree (builder.sourceBase workspace.directory) :=
    Stream.takes_eagerly ready _
  rw [parts_freeze, steps_freeze] at taken
  obtain ⟨fails, events, called, ran⟩ :=
    taken { workspace with events := notices ++ workspace.events }
  have compiledAs := compiled.trans ran
  have noticed : callsOf (events ++ notices) =
      Step.calls (builder.steps workspace.tree (builder.sourceBase workspace.directory)) := by
    rw [callsOf_append, callsOf_silent silent, List.nil_append, called]
  have built : builder.build output workspace =
      ((run (builder.freeze.assemble folder name) workspace).1, builder.freeze,
        (run (builder.freeze.assemble folder name) workspace).2) := by
    simp only [build, accepted]
  rw [built, assemble, run_bind, compiledAs]
  dsimp only at fails ⊢
  cases outcome : builder.parts workspace.tree (builder.sourceBase workspace.directory) with
  | error failure =>
      rw [outcome] at fails
      refine ⟨events ++ notices, (List.append_assoc _ _ _).symm, ?_, ?_⟩
      · intro other failing
        cases fails.symm.trans failing
        exact ⟨rfl, noticed⟩
      · intro passing
        cases fails.symm.trans passing
  | ok sources =>
      rw [outcome] at fails
      obtain ⟨later, finished⟩ := performs_fromSources builder.freeze folder clean sources
        { workspace with events := events ++ (notices ++ workspace.events) }
      dsimp only
      rw [finished]
      refine ⟨later ++ (events ++ notices), by simp only [List.append_assoc], ?_, ?_⟩
      · intro failure failing
        cases fails.symm.trans failing
      · intro passing
        rw [callsOf_append, noticed]
        exact ⟨⟨sources, rfl⟩, List.prefix_append _ _⟩

end Builder

end AssetBundler

import AssetBundler.Compiler.Stream
import AssetBundler.Proofs.Action.Observation
import AssetBundler.Proofs.Failure.Outcome

/-!
The part that a file contributes to a bundle, as a function of the registry and the tree. A prepared
compiler gives exactly this part.
-/

namespace AssetBundler.Compiler

open AssetBundler.Action

/-- What a registered capability makes of contents. -/
def applied (registry : Registry Capability) (name contents subject : String)
    (options : Options) : Except Failure String := do
  let capability ← lookUp registry name
  (capability contents subject options).mapError Failure.capability

/-- The transform of the dialect is called with the path of the source and renames it. -/
def transformed (compiler : Compiler) (registry : Registry Capability) (source : SourceFile) :
    Except Failure SourceFile :=
  match compiler.dialect.capability? with
  | none => .ok source
  | some name => do
      let text ← applied registry name source.contents source.path.toString
        compiler.transformOptions
      let path ← (source.path.withSuffix compiler.dialect.outputExtension).mapError Failure.suffix
      return { source with path := path, contents := text }

/-- A module is wrapped under the identifier of its origin. A style sheet is prefixed under the
path that it has by now. -/
def finished (compiler : Compiler) (registry : Registry Capability) (source : SourceFile) :
    Except Failure SourceFile :=
  match compiler.kind with
  | .script =>
      if compiler.scope = "" then .ok source
      else do
        let identifier := ModuleId.ofPath source.origin.toString compiler.table.entries
          compiler.scope
        let text ← applied registry "commonjs" source.contents identifier compiler.wrapOptions
        return { source with contents := text }
  | .style =>
      if compiler.prefixing then do
        let text ← applied registry "autoprefixer" source.contents source.path.toString
          compiler.prefixOptions
        return { source with contents := text }
      else .ok source
  | .plain => .ok source

/-- The file at a path is read, transformed and finished. -/
def part (compiler : Compiler) (registry : Registry Capability) (tree : Tree) (base path : Path) :
    Except Failure SourceFile := do
  let source ← Selection.read tree base path
  let source ← compiler.transformed registry source
  compiler.finished registry source

/-- The parts of all files that a compiler selects, in the order of their selection. -/
def parts (compiler : Compiler) (registry : Registry Capability) (tree : Tree) (base : Path) :
    Except Failure (List SourceFile) := do
  let paths ← Selection.expand tree base compiler.patterns
  paths.mapM (compiler.part registry tree base)

theorem observes_call (name : String) (capability : Capability) (contents subject : String)
    (options : Options) :
    Observes anyEvent (Action.call name capability contents subject options) fun _ _ =>
      (capability contents subject options).mapError Failure.capability := by
  refine Observes.after (Observes.recordAny _) ?_
  cases capability contents subject options with
  | ok text => exact Observes.pure text
  | error fault => exact Observes.fail (.capability fault)

theorem observes_readSource (base path : Path) :
    Observes anyEvent (Action.readSource base path) fun tree _ =>
      Selection.read tree base path := by
  intro workspace
  refine ⟨[.read path], fun _ _ => trivial, ?_⟩
  simp [Action.readSource, run_bind]

theorem observes_expand (base : Path) (patterns : List String) :
    Observes anyEvent (Action.expand base patterns) fun tree _ =>
      Selection.expand tree base patterns := by
  intro workspace
  refine ⟨[], by simp, ?_⟩
  simp [Action.expand, run_bind]

theorem observes_printWhen (condition : Bool) (text : String) :
    Observes anyEvent (Action.printWhen condition text) fun _ _ => .ok () := by
  cases condition with
  | false => exact Observes.pure ()
  | true => exact Observes.recordAny _

/-- A capability that was found is called by its name in the registry. -/
theorem observes_applied {registry : Registry Capability} {name : String}
    {capability : Capability} (registered : lookUp registry name = .ok capability)
    (contents subject : String) (options : Options) :
    Observes anyEvent (Action.call name capability contents subject options) fun _ _ =>
      applied registry name contents subject options := by
  simp only [applied, registered]
  exact observes_call name capability contents subject options

variable {compiler : Compiler} {registry : Registry Capability}
  {transform post : Option (String × Capability)}

theorem observes_transformSource (found : compiler.findTransform (lookUp registry) = .ok transform)
    (source : SourceFile) :
    Observes anyEvent (PreparedCompiler.transformSource ⟨compiler, transform, post⟩ source)
      fun _ _ => compiler.transformed registry source := by
  cases named : compiler.dialect.capability? with
  | none =>
      simp only [findTransform, named] at found
      cases found
      simp only [transformed, named]
      exact Observes.pure source
  | some name =>
      simp only [findTransform, named] at found
      obtain ⟨capability, registered, same⟩ := Outcome.bind_eq_ok.mp found
      cases same
      simp only [transformed, named]
      apply Observes.bind (observes_applied registered _ _ _)
      intro text
      simp only [SourceFile.withSuffix, SourceFile.withContents]
      cases source.path.withSuffix compiler.dialect.outputExtension with
      | ok path => exact Observes.pure _
      | error fault => exact Observes.fail (.suffix fault)

theorem observes_postProcess (found : compiler.findPost (lookUp registry) = .ok post)
    (source : SourceFile) :
    Observes anyEvent (PreparedCompiler.postProcess ⟨compiler, transform, post⟩ source)
      fun _ _ => compiler.finished registry source := by
  cases family : compiler.kind with
  | script =>
      by_cases bare : compiler.scope = ""
      · simp only [findPost, family, bare, if_true] at found
        cases found
        simp only [finished, family, bare, if_true]
        exact Observes.pure source
      · simp only [findPost, family, bare, if_false] at found
        obtain ⟨capability, registered, same⟩ := Outcome.bind_eq_ok.mp found
        cases same
        simp only [finished, family, bare, if_false, PreparedCompiler.postProcess, if_true]
        exact Observes.bind (observes_applied registered _ _ _) fun text => Observes.pure _
  | style =>
      cases prefixed : compiler.prefixing with
      | false =>
          simp only [findPost, family, prefixed, Bool.false_eq_true, if_false] at found
          cases found
          simp only [finished, family, prefixed, Bool.false_eq_true, if_false]
          exact Observes.pure source
      | true =>
          simp only [findPost, family, prefixed, if_true] at found
          obtain ⟨capability, registered, same⟩ := Outcome.bind_eq_ok.mp found
          cases same
          simp only [finished, family, prefixed, if_true, PreparedCompiler.postProcess,
            reduceCtorEq, if_false]
          exact Observes.bind (observes_applied registered _ _ _) fun text => Observes.pure _
  | plain =>
      simp only [findPost, family] at found
      cases found
      simp only [finished, family]
      exact Observes.pure source

/-- A prepared compiler consists of what its look-ups found. -/
theorem prepare_eq_ok {prepared : PreparedCompiler}
    (ready : compiler.prepare registry = .ok prepared) :
    ∃ transform post, compiler.findTransform (lookUp registry) = .ok transform ∧
      compiler.findPost (lookUp registry) = .ok post ∧
      prepared = ⟨compiler, transform, post⟩ := by
  obtain ⟨transform, transformFound, rest⟩ := Outcome.bind_eq_ok.mp ready
  obtain ⟨post, postFound, same⟩ := Outcome.bind_eq_ok.mp rest
  cases same
  exact ⟨transform, post, transformFound, postFound, rfl⟩

theorem observes_compile {prepared : PreparedCompiler}
    (ready : compiler.prepare registry = .ok prepared) (base path : Path) :
    Observes anyEvent (prepared.compile base path) fun tree _ =>
      compiler.part registry tree base path := by
  obtain ⟨transform, post, transformFound, postFound, rfl⟩ := prepare_eq_ok ready
  apply Observes.bind (observes_readSource base path)
  intro source
  apply Observes.bind (observes_transformSource transformFound source)
  intro source
  exact Observes.echo (observes_postProcess postFound source) fun source =>
    Observes.after (observes_printWhen _ _) (Observes.pure source)

end AssetBundler.Compiler

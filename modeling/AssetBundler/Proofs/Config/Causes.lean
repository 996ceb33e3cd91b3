import AssetBundler.Builder.Definition
import AssetBundler.Config.Basic
import AssetBundler.Proofs.Failure.Outcome

/-!
Why a bundle cannot be set up. Nothing that reads a configuration or makes a builder of it calls a
capability, so none of it is ever interrupted.
-/

namespace AssetBundler

open Outcome

/-- A failure that becomes a result of a build. -/
def Failure.IsOrdinary (failure : Failure) : Prop := failure.isInterruption = false

theorem Failure.ofReference_isOrdinary (asked : String) (fault : Ini.ReferenceFault) :
    (Failure.ofReference asked fault).IsOrdinary := by
  cases fault <;> rfl

theorem Failure.ofDocument_isOrdinary (path : Path) (fault : Ini.ReadFault) :
    (Failure.ofDocument path fault).IsOrdinary := by
  cases fault with
  | line fault => cases fault <;> rfl
  | undecodable fault => rfl

namespace Config

theorem failsOnly_find? (tree : Tree) (here : Location) (directory : Path) :
    FailsOnly Failure.IsOrdinary (find? tree here directory) := by
  simp only [find?]
  split
  · exact FailsOnly.error rfl
  · exact FailsOnly.ok none
  · exact FailsOnly.ok _

theorem failsOnly_load (tree : Tree) (here : Location) (path : Path) :
    FailsOnly Failure.IsOrdinary (load tree here path) := by
  unfold load
  split
  · exact FailsOnly.error rfl
  · exact FailsOnly.error rfl
  · split
    · exact FailsOnly.ok _
    · split
      · exact FailsOnly.ok _
      · exact FailsOnly.error (Failure.ofDocument_isOrdinary path _)

theorem failsOnly_parseBool (settings : Settings) (key section_ : String) :
    FailsOnly Failure.IsOrdinary (parseBool settings key section_) := by
  simp only [parseBool]
  split
  · exact FailsOnly.ok false
  · split
    · exact FailsOnly.ok _
    · exact FailsOnly.error rfl

theorem failsOnly_parseOptions (settings : Settings) (key section_ : String) :
    FailsOnly Failure.IsOrdinary (parseOptions settings key section_) := by
  simp only [parseOptions]
  split
  · exact FailsOnly.ok []
  · split
    · exact FailsOnly.ok _
    · exact FailsOnly.error rfl
    · split
      · exact FailsOnly.error rfl
      · exact FailsOnly.error rfl

variable (config : Config)

theorem failsOnly_values (asked section_ : String) (names : List String) :
    FailsOnly Failure.IsOrdinary (config.values asked section_ names) := by
  induction names with
  | nil => exact FailsOnly.ok []
  | cons name rest inductionHypothesis =>
      rw [values]
      split
      · exact inductionHypothesis.bind fun others => FailsOnly.ok _
      · exact FailsOnly.error (Failure.ofReference_isOrdinary asked _)

theorem failsOnly_settings (kind : DefinitionKind) (name : String) :
    FailsOnly Failure.IsOrdinary (config.settings kind name) := by
  have special (general : Settings) : FailsOnly Failure.IsOrdinary
      (do
        let special ← config.values (sectionOf kind name) (sectionOf kind name)
          (config.document.optionNames (sectionOf kind name))
        return Assoc.merge (Assoc.merge [] general) special) :=
    (config.failsOnly_values _ _ _).bind fun _ => FailsOnly.ok _
  unfold settings
  simp only
  split
  · exact (config.failsOnly_values _ _ _).bind special
  · exact special []

theorem failsOnly_checkedSettings (kind : DefinitionKind) (name : String)
    (available required : List String) :
    FailsOnly Failure.IsOrdinary (config.checkedSettings kind name available required) := by
  have complete (settings : Settings) : FailsOnly Failure.IsOrdinary
      (do
        if missing settings required ≠ [] then
          throw (.config (.missingFields kind name (missing settings required)))
        return settings : Except Failure Settings) := by
    split
    · exact FailsOnly.error rfl
    · exact FailsOnly.ok settings
  unfold checkedSettings
  split
  · exact FailsOnly.error rfl
  · exact (config.failsOnly_settings kind name).bind complete

theorem failsOnly_source (name : String) :
    FailsOnly Failure.IsOrdinary (config.source name) :=
  (config.failsOnly_checkedSettings _ _ _ _).bind fun _ =>
    (failsOnly_parseBool _ _ _).bind fun _ => (failsOnly_parseBool _ _ _).bind fun _ =>
      (failsOnly_parseBool _ _ _).bind fun _ => (failsOnly_parseOptions _ _ _).bind fun _ =>
        FailsOnly.ok _

theorem failsOnly_bundle (name : String) :
    FailsOnly Failure.IsOrdinary (config.bundle name) :=
  (config.failsOnly_checkedSettings _ _ _ _).bind fun _ =>
    (FailsOnly.mapM fun source _ => config.failsOnly_source source).bind fun _ =>
      (failsOnly_parseBool _ _ _).bind fun _ => (failsOnly_parseBool _ _ _).bind fun _ =>
        (failsOnly_parseOptions _ _ _).bind fun _ => (failsOnly_parseBool _ _ _).bind fun _ =>
          (failsOnly_parseBool _ _ _).bind fun _ => FailsOnly.ok _

end Config

namespace Compiler

variable (compiler : Compiler)

theorem failsOnly_checkMutable : FailsOnly Failure.IsOrdinary compiler.checkMutable := by
  unfold checkMutable
  split
  · exact FailsOnly.error rfl
  · exact FailsOnly.ok ()

theorem failsOnly_checkKind (kind : CompilerKind) (call : String) :
    FailsOnly Failure.IsOrdinary (compiler.checkKind kind call) := by
  unfold checkKind
  split
  · exact FailsOnly.ok ()
  · exact FailsOnly.error rfl

theorem failsOnly_checkScopeOptions (options : Options) :
    FailsOnly Failure.IsOrdinary (compiler.checkScopeOptions options) := by
  unfold checkScopeOptions
  split
  · exact FailsOnly.error rfl
  · exact FailsOnly.ok ()

/-- A setting of one kind of compilers, which only some dialects may support. -/
theorem failsOnly_guarded {kind : CompilerKind} {call : String} {supported : Prop}
    [Decidable supported] {changed : Compiler} {fault : Validation} :
    FailsOnly Failure.IsOrdinary (do
      compiler.checkKind kind call
      compiler.checkMutable
      if supported then return changed else throw (.validation fault) :
        Except Failure Compiler) := by
  refine (compiler.failsOnly_checkKind kind call).bind fun _ =>
    compiler.failsOnly_checkMutable.bind fun _ => ?_
  split
  · exact FailsOnly.ok changed
  · exact FailsOnly.error rfl

theorem failsOnly_configure (setting : Setting) :
    FailsOnly Failure.IsOrdinary (compiler.configure setting) := by
  cases setting with
  | file path => exact compiler.failsOnly_checkMutable.bind fun _ => FailsOnly.ok _
  | directory path extension =>
      refine compiler.failsOnly_checkMutable.bind fun _ => ?_
      split
      · exact FailsOnly.ok _
      · exact FailsOnly.error rfl
  | scope name options =>
      exact (compiler.failsOnly_checkKind _ _).bind fun _ =>
        (compiler.failsOnly_checkScopeOptions options).bind fun _ =>
          compiler.failsOnly_checkMutable.bind fun _ => FailsOnly.ok _
  | presets names => exact compiler.failsOnly_guarded
  | plugins names => exact compiler.failsOnly_guarded
  | bare enabled => exact compiler.failsOnly_guarded
  | prefixing enabled options =>
      exact (compiler.failsOnly_checkKind _ _).bind fun _ =>
        compiler.failsOnly_checkMutable.bind fun _ => FailsOnly.ok _
  | freeze => exact FailsOnly.ok _

end Compiler

theorem Output.failsOnly_split (output : String) :
    FailsOnly Failure.IsOrdinary (Output.split output) := by
  simp only [Output.split]
  split_ifs
  · exact FailsOnly.error rfl
  · exact FailsOnly.ok _
  · exact FailsOnly.ok _
  · exact FailsOnly.ok _

namespace Builder

theorem failsOnly_configureSource (compiler : Compiler) (source : SourceDefinition) :
    FailsOnly Failure.IsOrdinary (configureSource compiler source) := by
  have configures (settings : List Setting) (start : Compiler) :
      FailsOnly Failure.IsOrdinary (settings.foldlM Compiler.configure start) :=
    FailsOnly.foldlM Compiler.failsOnly_configure settings start
  refine (configures _ compiler).bind fun filled => ?_
  cases filled.dialect.family with
  | script =>
      refine (configures _ filled).bind fun _ => ?_
      split
      · exact FailsOnly.error rfl
      · exact FailsOnly.ok _
  | style =>
      simp only
      split
      · exact FailsOnly.error rfl
      · exact configures _ filled

theorem failsOnly_sourceCompiler (verbose : Bool) (source : SourceDefinition) :
    FailsOnly Failure.IsOrdinary (sourceCompiler verbose source) := by
  unfold sourceCompiler
  split
  · exact FailsOnly.error rfl
  · next dialect _ =>
    split
    · exact FailsOnly.ok _
    · exact FailsOnly.error rfl
    · next failure _ failed => exact FailsOnly.error (failsOnly_configureSource _ _ _ failed)

theorem failsOnly_ofDefinition (builder : Builder) (bundle : BundleDefinition) :
    FailsOnly Failure.IsOrdinary (builder.ofDefinition bundle) :=
  (FailsOnly.mapM fun source _ => failsOnly_sourceCompiler builder.verbose source).bind fun _ =>
    FailsOnly.ok _

theorem failsOnly_checkBuild (builder : Builder) (output : String) :
    FailsOnly Failure.IsOrdinary (builder.checkBuild output) := by
  have isMutable : FailsOnly Failure.IsOrdinary builder.checkMutable := by
    unfold checkMutable
    split
    · exact FailsOnly.error rfl
    · exact FailsOnly.ok ()
  refine isMutable.bind fun _ => ?_
  split
  · exact FailsOnly.error rfl
  · exact Output.failsOnly_split output

end Builder

end AssetBundler

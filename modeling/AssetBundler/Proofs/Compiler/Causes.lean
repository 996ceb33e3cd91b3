import AssetBundler.Proofs.Capability.Demand
import AssetBundler.Proofs.Compiler.Parts
import AssetBundler.Proofs.Failure.Outcome

/-!
Why the parts of a compiler can fail. Where the required names are registered the causes are faults
of a stage, and a missing capability is none of them.
-/

namespace AssetBundler

open Outcome

def Failure.isMissingCapability : Failure → Bool
  | .missingCapability _ => true
  | _ => false

/-- A failure that no registration could have prevented. -/
def Failure.IsEquipped (failure : Failure) : Prop := failure.isMissingCapability = false

/-- A kind of failures that holds whatever a stage of a file can fail with. Of the capabilities only
the registered ones count. -/
structure Failure.CoversStages (registry : Registry Capability) (kind : Failure → Prop) :
    Prop where
  file : ∀ fault, kind (.file fault)
  selection : ∀ fault, kind (.selection fault)
  capability : ∀ name capability contents subject options fault,
    Compiler.lookUp registry name = .ok capability →
      capability contents subject options = .error fault → kind (.capability fault)
  suffix : ∀ fault, kind (.suffix fault)

theorem Failure.equipped_coversStages (registry : Registry Capability) :
    Failure.CoversStages registry Failure.IsEquipped :=
  ⟨fun _ => rfl, fun _ => rfl, fun _ _ _ _ _ _ _ _ => rfl, fun _ => rfl⟩

section Stages

variable {registry : Registry Capability} {kind : Failure → Prop}
  (stages : Failure.CoversStages registry kind)
include stages

namespace Selection

theorem failsOnly_expandPattern (tree : Tree) (base : Path) (pattern : String) :
    FailsOnly kind (expandPattern tree base pattern) := by
  unfold expandPattern
  simp only
  split
  · exact FailsOnly.error (stages.file _)
  · exact FailsOnly.ok _
  · split
    · exact FailsOnly.error (stages.selection _)
    · split
      · exact FailsOnly.error (stages.file _)
      · exact FailsOnly.ok _

theorem failsOnly_expandFrom (tree : Tree) (base : Path) (patterns : List String) :
    ∀ selected, FailsOnly kind (expandFrom tree base selected patterns) := by
  induction patterns with
  | nil => exact fun selected => FailsOnly.ok selected
  | cons pattern rest inductionHypothesis =>
      intro selected
      simp only [expandFrom]
      cases found : expandPattern tree base pattern with
      | error failure =>
          exact FailsOnly.error (failsOnly_expandPattern stages tree base pattern _ found)
      | ok paths => exact inductionHypothesis (addNew selected paths)

theorem failsOnly_read (tree : Tree) (base path : Path) :
    FailsOnly kind (read tree base path) := by
  unfold read
  split
  · exact FailsOnly.error (stages.selection _)
  · split
    · exact FailsOnly.ok _
    · exact FailsOnly.error (stages.selection _)

end Selection

namespace Compiler

variable {compiler : Compiler}

theorem failsOnly_applied {name : String} (registered : registry.has name = true)
    (contents subject : String) (options : Options) :
    FailsOnly kind (applied registry name contents subject options) := by
  obtain ⟨capability, found⟩ := Registry.lookUp_registered registered
  rw [applied, found]
  intro cause failed
  cases called : capability contents subject options with
  | ok text =>
      simp only [bind, Except.bind, called] at failed
      cases failed
  | error fault =>
      simp only [bind, Except.bind, called] at failed
      cases failed
      exact stages.capability name capability contents subject options fault found called

variable (registered : ∀ name ∈ compiler.requiredCapabilities, registry.has name = true)
include registered

theorem failsOnly_transformed (source : SourceFile) :
    FailsOnly kind (compiler.transformed registry source) := by
  unfold transformed
  cases named : compiler.dialect.capability? with
  | none => exact FailsOnly.ok source
  | some name =>
      have needed : name ∈ compiler.requiredCapabilities := by simp [requiredCapabilities, named]
      exact (failsOnly_applied stages (registered name needed) _ _ _).bind fun text =>
        (FailsOnly.mapError stages.suffix _).bind fun path => FailsOnly.ok _

theorem failsOnly_finished (source : SourceFile) :
    FailsOnly kind (compiler.finished registry source) := by
  unfold finished
  cases family : compiler.kind with
  | script =>
      by_cases bare : compiler.scope = ""
      · simp only [bare, if_true]
        exact FailsOnly.ok source
      · have needed : "commonjs" ∈ compiler.requiredCapabilities := by
          simp [requiredCapabilities, postCapabilities, family, bare]
        simp only [bare, if_false]
        exact (failsOnly_applied stages (registered _ needed) _ _ _).bind fun text =>
          FailsOnly.ok _
  | style =>
      cases prefixed : compiler.prefixing with
      | false => exact FailsOnly.ok source
      | true =>
          have needed : "autoprefixer" ∈ compiler.requiredCapabilities := by
            simp [requiredCapabilities, postCapabilities, family, prefixed]
          exact (failsOnly_applied stages (registered _ needed) _ _ _).bind fun text =>
            FailsOnly.ok _
  | plain => exact FailsOnly.ok source

theorem failsOnly_parts (tree : Tree) (base : Path) :
    FailsOnly kind (compiler.parts registry tree base) := by
  apply FailsOnly.bind (Selection.failsOnly_expandFrom stages tree base compiler.patterns [])
  intro paths
  apply FailsOnly.mapM
  intro path _
  exact (Selection.failsOnly_read stages tree base path).bind fun source =>
    (failsOnly_transformed stages registered source).bind fun changed =>
      failsOnly_finished stages registered changed

end Compiler

end Stages

end AssetBundler

import AssetBundler.Proofs.Builder.Effect
import AssetBundler.Proofs.Compiler.Causes

/-!
Why an assembly can fail. Where no capability is missing the causes are faults of a stage.
-/

namespace AssetBundler.Builder

open Outcome

variable {builder : Builder}

section Equipped

variable {kind : Failure → Prop} (stages : Failure.CoversStages builder.registry kind)
  (equipped : ∀ needed ∈ builder.neededCapabilities, builder.registry.has needed = true)
include stages equipped

theorem failsOnly_parts (tree : Tree) (base : Path) :
    FailsOnly kind (builder.parts tree base) := by
  have each (compiler : Compiler) (member : compiler ∈ builder.compilers) :
      FailsOnly kind (compiler.parts builder.registry tree base) := by
    apply Compiler.failsOnly_parts stages
    intro name required
    exact equipped name (mem_needed_of_required member required)
  exact FailsOnly.bind (FailsOnly.mapM each) fun parts => FailsOnly.ok parts.flatten

theorem failsOnly_minified (contents : String) :
    FailsOnly kind (builder.minified contents) := by
  unfold minified
  cases compilers : builder.compilers with
  | nil => exact FailsOnly.ok contents
  | cons first rest =>
      cases minifies : builder.minify with
      | false => exact FailsOnly.ok contents
      | true =>
          cases named : first.kind.minifier? with
          | none =>
              simp only [named, if_true]
              exact FailsOnly.ok contents
          | some name =>
              have needed := mem_needed_of_minifier compilers minifies named
              simp only [named, if_true]
              exact Compiler.failsOnly_applied stages (equipped name needed) contents "" _

/-- A builder that lacks nothing at first lacks nothing later. -/
theorem failsOnly_assembled (folder name : String) (tree : Tree) (directory : Location) :
    FailsOnly kind (builder.assembled folder name tree directory).1 := by
  intro failure failed
  have compiledAlike : FailsOnly kind (builder.compiled tree directory) := by
    rw [compiled, Registry.demand_eq_ok_iff.mpr equipped]
    exact failsOnly_parts stages equipped tree _
  rcases builder.assembled_cases folder name tree directory with
    ⟨cause, compiledAs, same⟩ | ⟨-, same⟩ | ⟨sources, cause, -, -, minifiedAs, same⟩ |
      ⟨sources, text, -, -, -, delivers⟩
  · rw [same] at failed
    cases failed
    exact compiledAlike failure compiledAs
  · rw [same] at failed
    cases failed
  · rw [same] at failed
    cases failed
    exact failsOnly_minified stages equipped _ failure minifiedAs
  · rw [delivers] at failed
    rcases builder.delivered_cases folder name sources text tree directory with
      ⟨left, -, same⟩ | ⟨fault, left, same⟩
    · rw [same] at failed
      cases failed
    · rw [same] at failed
      cases failed
      exact stages.file fault

end Equipped

end AssetBundler.Builder

import AssetBundler.Proofs.Compiler.Parts
import AssetBundler.Proofs.Failure.Outcome

/-!
The merged stream of several compilers. It is drained as if each compiler were run to its end before
the next one starts.
-/

namespace AssetBundler

open AssetBundler.Action

/-- All sources of one prepared compiler. -/
def PreparedCompiler.compileAll (prepared : PreparedCompiler) (base : Path) :
    Action (List SourceFile) := do
  let paths ← Action.expand base prepared.compiler.patterns
  paths.mapM (prepared.compile base)

namespace Stream

theorem compileThen_eq (base : Path) (prepared : PreparedCompiler)
    (next : Action (List SourceFile)) (paths : List Path) :
    compileThen base prepared next paths = do
      let sources ← paths.mapM (prepared.compile base)
      let others ← next
      return sources ++ others := by
  induction paths with
  | nil => simp [compileThen]
  | cons path rest inductionHypothesis => simp [compileThen, inductionHypothesis]

/-- The merged stream is the loop over all compilers and over all paths of each of them. -/
theorem drain_eq (base : Path) (compilers : List PreparedCompiler) :
    drain base compilers = do
      let sources ← compilers.mapM fun prepared => prepared.compileAll base
      return sources.flatten := by
  induction compilers with
  | nil => simp [drain]
  | cons prepared rest inductionHypothesis =>
      simp [drain, compileThen_eq, inductionHypothesis, PreparedCompiler.compileAll]

variable {registry : Registry Capability}

theorem observes_compileAll {compiler : Compiler} {prepared : PreparedCompiler}
    (ready : compiler.prepare registry = .ok prepared) (base : Path) :
    Observes anyEvent (prepared.compileAll base) fun tree _ =>
      compiler.parts registry tree base := by
  have compile := Compiler.observes_compile ready base
  obtain ⟨transform, post, -, -, rfl⟩ := Compiler.prepare_eq_ok ready
  exact Observes.bind (Compiler.observes_expand base compiler.patterns) fun paths =>
    Observes.mapM compile paths

/-- Draining gives the parts of all compilers, in the order of the compilers. -/
theorem observes_drain {compilers : List Compiler} {prepared : List PreparedCompiler}
    (ready : (compilers.mapM fun compiler => compiler.prepare registry) = .ok prepared)
    (base : Path) :
    Observes anyEvent (drain base prepared) fun tree _ => do
      let parts ← compilers.mapM fun compiler => compiler.parts registry tree base
      return parts.flatten := by
  rw [drain_eq]
  have each := (Outcome.mapM_eq_ok.mp ready).imp fun _ _ ready => observes_compileAll ready base
  exact Observes.bind (Observes.mapM_related each) fun parts => Observes.pure parts.flatten

end Stream

end AssetBundler
